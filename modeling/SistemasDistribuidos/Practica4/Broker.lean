import SistemasDistribuidos.Practica4.Unregistering
import SistemasDistribuidos.Practica4.Publish

/-!
# The broker

The handlers and the calls of `publish_msg` run side by side on one registry.
An `UNREGISTER` takes two steps here, `shift_client_list` and the decrement,
and carries the id and topic that its connection was given; it is handled
after the messages that the same connection sent before it.

`sent` counts the `PUBLISH_DATA` messages that a publisher has sent.  `owed` is
not in the code: it records, when a message is sent, which subscribers of its
topic have been answered `OK` by then.
-/

namespace SistemasDistribuidos.Practica4

open SistemasDistribuidos SlotArray Machine

/-- The member that was answered `OK` and whose `UNREGISTER` has not been
handled. -/
def Phase.told : Phase → Option Member
  | .answered member => some member
  | .serving member => some member
  | _ => none

structure Broker where
  handlers : Handlers
  publishing : Publishing
  sent : Fd → Nat
  owed : CallId → Fd → Bool

inductive BrokerAction where
  | store (fd : Fd) (kind : Kind) (topic : TopicName) (stack : Topic)
  | respond (fd : Fd)
  | count (fd : Fd)
  /-- The client sends its `UNREGISTER`. -/
  | quit (fd : Fd)
  | shiftClientList (fd : Fd) (stackFd : Fd) (beyond : Client)
  | decrement (fd : Fd)
  /-- The client sends its next `PUBLISH_DATA`. -/
  | send (publisher : Fd)
  | publish (action : PublishAction)

namespace Broker

/-- Steps of a handler, without interruption. -/
def handle (broker : Broker) (actions : List HandlerAction) :
    Option Broker :=
  (run Handlers.step broker.handlers actions).map
    (fun handlers => { broker with handlers := handlers })

/-- The handler is in `talk_to_publisher` and has a message to read. -/
def CanLook (broker : Broker) (id : CallId) : Prop :=
  (∃ member, broker.handlers.phase id.publisher = .serving member) ∧
    id.index < broker.sent id.publisher

section Step

variable (mode : Mode) (messages : CallId → Message) (broker : Broker)

/-- The next message of a publisher is on its way. -/
def send (publisher : Fd) : Broker :=
  let id : CallId := ⟨publisher, broker.sent publisher⟩
  { broker with
    sent := Function.update broker.sent publisher (id.index + 1)
    owed :=
      Function.update broker.owed id
        (fun fd =>
          match (broker.handlers.phase fd).told with
          | some member =>
              decide
                (member.kind = .subscriber ∧
                  member.topic = (messages id).topic)
          | none => false) }

def publish (publishing : Publishing) : Broker :=
  { broker with publishing := publishing }

/-- One step of one thread, or of one client. -/
def step : BrokerAction → Option Broker
  | .store fd kind topic stack =>
      broker.handle [.store fd kind topic stack]
  | .respond fd => broker.handle [.respond fd]
  | .count fd => broker.handle [.count fd]
  | .quit fd => broker.handle [.quit fd]
  | .shiftClientList fd stackFd beyond =>
      match broker.handlers.phase fd with
      | .serving member =>
          if broker.sent fd = broker.publishing.returned fd then
            broker.handle
              [.find fd member.topic member.id stackFd, .shift fd beyond,
                .reply fd]
          else
            none
      | _ => none
  | .decrement fd => broker.handle [.decrement fd]
  | .send publisher =>
      match (broker.handlers.phase publisher).told with
      | some member =>
          if broker.handlers.quit publisher = false ∧
              member.kind = .publisher ∧
              member.topic =
                (messages ⟨publisher, broker.sent publisher⟩).topic then
            some (broker.send messages publisher)
          else
            none
      | none => none
  | .publish (.look id) =>
      match broker.handlers.phase id.publisher with
      | .serving _ =>
          if id.index < broker.sent id.publisher then
            (broker.publishing.step mode messages
              broker.handlers.registry (.look id)).map broker.publish
          else
            none
      | _ => none
  | .publish action =>
      (broker.publishing.step mode messages
        broker.handlers.registry action).map broker.publish

end Step

def initial : Broker where
  handlers := Handlers.initial
  publishing := Publishing.initial
  sent := fun _ => 0
  owed := fun _ _ => false

/-! ## What one step does -/

section Inversion

variable {mode : Mode} {messages : CallId → Message}
  {broker next : Broker}

theorem handle_eq_some
    {actions : List HandlerAction}
    (taken : broker.handle actions = some next) :
    ∃ handlers,
      run Handlers.step broker.handlers actions = some handlers ∧
        next = { broker with handlers := handlers } := by
  obtain ⟨handlers, reached, rfl⟩ := Option.map_eq_some_iff.mp taken
  exact ⟨handlers, reached, rfl⟩

/-- A step of a handler that is a single step of the handler machine. -/
theorem handle_singleton
    {action : HandlerAction}
    (taken : broker.handle [action] = some next) :
    ∃ handlers,
      broker.handlers.step action = some handlers ∧
        next = { broker with handlers := handlers } := by
  obtain ⟨handlers, reached, rfl⟩ := handle_eq_some taken
  rw [run_singleton] at reached
  exact ⟨handlers, reached, rfl⟩

theorem step_send
    {publisher : Fd}
    (taken : broker.step mode messages (.send publisher) = some next) :
    ∃ member,
      (broker.handlers.phase publisher).told = some member ∧
        broker.handlers.quit publisher = false ∧
        member.kind = .publisher ∧
        member.topic =
          (messages ⟨publisher, broker.sent publisher⟩).topic ∧
        next = broker.send messages publisher := by
  simp only [step] at taken
  split at taken
  · rename_i member told
    simp only [Option.ite_none_right_eq_some, Option.some.injEq] at taken
    exact
      ⟨member, told, taken.1.1, taken.1.2.1, taken.1.2.2, taken.2.symm⟩
  · cases taken

theorem step_shiftClientList
    {fd stackFd : Fd} {beyond : Client}
    (taken :
      broker.step mode messages (.shiftClientList fd stackFd beyond) =
        some next) :
    ∃ member handlers,
      broker.handlers.phase fd = .serving member ∧
        broker.sent fd = broker.publishing.returned fd ∧
        run Handlers.step broker.handlers
            [.find fd member.topic member.id stackFd, .shift fd beyond,
              .reply fd] = some handlers ∧
        next = { broker with handlers := handlers } := by
  simp only [step] at taken
  split at taken
  · rename_i member here
    split at taken
    · rename_i read
      obtain ⟨handlers, reached, rfl⟩ := handle_eq_some taken
      exact ⟨member, handlers, here, read, reached, rfl⟩
    · cases taken
  · cases taken

theorem step_publish
    {action : PublishAction}
    (taken : broker.step mode messages (.publish action) = some next) :
    ∃ publishing,
      broker.publishing.step mode messages broker.handlers.registry
          action = some publishing ∧
        next = broker.publish publishing ∧
        ∀ id, action = .look id → broker.CanLook id := by
  cases action with
  | look id =>
      simp only [step] at taken
      split at taken
      · rename_i member here
        split at taken
        · rename_i sent
          obtain ⟨publishing, published, rfl⟩ :=
            Option.map_eq_some_iff.mp taken
          refine ⟨publishing, published, rfl, ?_⟩
          rintro _ ⟨⟩
          exact ⟨⟨member, here⟩, sent⟩
        · cases taken
      · cases taken
  | _ =>
      obtain ⟨publishing, published, rfl⟩ :=
        Option.map_eq_some_iff.mp taken
      refine ⟨publishing, published, rfl, ?_⟩
      rintro _ ⟨⟩

/-- Every step is a step of the handlers, a message sent, or a step of the
calls. -/
theorem step_cases
    {action : BrokerAction}
    (taken : broker.step mode messages action = some next) :
    (∃ handlers, next = { broker with handlers := handlers }) ∨
      (∃ publisher, next = broker.send messages publisher) ∨
      ∃ publishAction publishing,
        action = .publish publishAction ∧
          broker.publishing.step mode messages broker.handlers.registry
              publishAction = some publishing ∧
          next = broker.publish publishing := by
  cases action with
  | store fd kind topic stack =>
      obtain ⟨handlers, _, rfl⟩ := handle_singleton taken
      exact Or.inl ⟨handlers, rfl⟩
  | respond fd =>
      obtain ⟨handlers, _, rfl⟩ := handle_singleton taken
      exact Or.inl ⟨handlers, rfl⟩
  | count fd =>
      obtain ⟨handlers, _, rfl⟩ := handle_singleton taken
      exact Or.inl ⟨handlers, rfl⟩
  | quit fd =>
      obtain ⟨handlers, _, rfl⟩ := handle_singleton taken
      exact Or.inl ⟨handlers, rfl⟩
  | shiftClientList fd stackFd beyond =>
      obtain ⟨_, handlers, _, _, _, rfl⟩ := step_shiftClientList taken
      exact Or.inl ⟨handlers, rfl⟩
  | decrement fd =>
      obtain ⟨handlers, _, rfl⟩ := handle_singleton taken
      exact Or.inl ⟨handlers, rfl⟩
  | send publisher =>
      obtain ⟨_, _, _, _, _, rfl⟩ := step_send taken
      exact Or.inr (Or.inl ⟨publisher, rfl⟩)
  | publish publishAction =>
      obtain ⟨publishing, published, rfl, _⟩ := step_publish taken
      exact
        Or.inr
          (Or.inr ⟨publishAction, publishing, rfl, published, rfl⟩)

end Inversion

/-- One subscriber and one publisher register, and the publisher sends. -/
def oneSend : List BrokerAction :=
  [.store 4 .subscriber topicT (Registry.initial.allTopics 0), .respond 4,
    .count 4, .store 5 .publisher topicT (Registry.initial.allTopics 0),
    .respond 5, .count 5, .send 5]

end Broker

end SistemasDistribuidos.Practica4
