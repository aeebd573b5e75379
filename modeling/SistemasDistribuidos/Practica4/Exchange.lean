import SistemasDistribuidos.Library.PubSub
import SistemasDistribuidos.Practica4.Structs

/-!
# The broker and what it sends

Client messages handled one at a time, with everything that the broker sends:
the responses of `talk_to_client`, the copies of `publish_msg` in the order of
SECUENCIAL, and the responses of `shift_client_list`.  Below, the registry with its arrays and
counters; above, an account of the clients, from which one can tell what is to
be sent without looking at any array.  The account is that of a
publish/subscribe service.
-/

namespace SistemasDistribuidos.Practica4

open SistemasDistribuidos SlotArray Machine

/-- A whole client message: a registration, or what a registered client
sends. -/
inductive Turn where
  | register (fd : Fd) (kind : Kind) (topic : TopicName) (stack : Topic)
  | message (fd : Fd) (message : ClientMessage) (memory : Memory)

/-- What a message of a registered client asks the registry for. -/
def ClientMessage.request (message : ClientMessage) (kind : Kind) (fd : Fd)
    (memory : Memory) : Request :=
  if message.action = kind.unregisters then
    .unregister fd message.topic message.id memory.stackFd memory.beyond
  else
    .publish fd message.topic

/-- The broker, what it has sent so far, and the connections whose handler has
ended although its client is still registered: `talk_to_subscriber` receives a
single message. -/
structure Exchange where
  handlers : Handlers
  sends : List (Fd × Packet)
  ended : Fd → Bool

namespace Exchange

def step (exchange : Exchange) : Turn → Option Exchange
  | .register fd kind topic stack =>
      (Request.step exchange.handlers (.register fd kind topic stack)).map
        (fun next =>
          { exchange with
            handlers := next
            sends :=
              exchange.sends ++
                [(fd,
                  .response
                    (exchange.handlers.registry.register kind topic fd
                      stack).2)] })
  | .message fd message memory =>
      match exchange.handlers.phase fd, exchange.ended fd with
      | .serving member, false =>
          (Request.step exchange.handlers
            (message.request member.kind fd memory)).map
              (fun next =>
                { handlers := next
                  sends :=
                    exchange.sends ++
                      (exchange.handlers.registry.talkTo member.kind message
                        memory).sends
                  ended :=
                    Function.update exchange.ended fd
                      (member.kind = .subscriber) })
      | _, _ => none

def initial : Exchange where
  handlers := Handlers.initial
  sends := []
  ended := fun _ => false

/-- A registered client names its own topic and id, and no topic gets more
subscribers than its array has slots. -/
def Admissible (exchange : Exchange) : Turn → Prop
  | .register fd kind topic stack =>
      Handlers.Admissible exchange.handlers (.register fd kind topic stack)
  | .message fd message memory =>
      ∀ member, exchange.handlers.phase fd = .serving member →
        (member.kind = .publisher → message.action = .publishData →
            message.topic = member.topic) ∧
          Handlers.Admissible exchange.handlers
            (message.request member.kind fd memory)

end Exchange

/-! ## The service as its clients see it -/

namespace Account

/-- The client of a connection. -/
def client (account : Account) (fd : Fd) : Option Member :=
  account.members.find? (fun member => member.fd = fd)

/-- The subscribers and their topics, in the order of their registrations. -/
def subscriptions (account : Account) :
    PubSub.Subscriptions Fd TopicName :=
  (account.members.filter (fun member => member.kind = .subscriber)).map
    (fun member => (member.fd, member.topic))

/-- What a message of a client is about. -/
def answer (account : Account) (fd : Fd) (message : ClientMessage) :
    List (PubSub.Event Fd TopicName Packet) :=
  match account.client fd with
  | some member =>
      if message.action = member.kind.unregisters then
        [.leave fd, .tell fd (.response ⟨.ok, message.id⟩)]
      else if member.kind = .publisher ∧ message.action = .publishData then
        [.publish message.topic
          (.publish message.data.timeGeneratedData message.data.text)]
      else []
  | none => []

/-- A client is told what has become of its registration; a subscriber that is
admitted is subscribed to its topic. -/
def events (account : Account) :
    Turn → List (PubSub.Event Fd TopicName Packet)
  | .register fd kind topic _ =>
      let response := (account.table.register kind topic).2
      (if response.responseStatus = .ok ∧ kind = .subscriber then
        [.subscribe fd topic]
      else []) ++ [.tell fd (.response response)]
  | .message fd message _ => account.answer fd message

/-- The account after a client message. -/
def turn (account : Account) : Turn → Account
  | .register fd kind topic _ => account.register fd kind topic
  | .message fd message _ =>
      match account.client fd with
      | some member =>
          if message.action = member.kind.unregisters then
            account.unregister fd
          else account
      | none => account

/-- The events of a sequence of client messages. -/
def eventsOf : Account → List Turn → List (PubSub.Event Fd TopicName Packet)
  | _, [] => []
  | account, turn :: rest =>
      account.events turn ++ eventsOf (account.turn turn) rest

theorem subscriptions_register
    (account : Account) (fd : Fd) (kind : Kind) (topic : TopicName) :
    (account.register fd kind topic).subscriptions =
      account.subscriptions ++
        if (account.table.register kind topic).2.responseStatus = .ok ∧
            kind = .subscriber then
          [(fd, topic)]
        else [] := by
  simp only [register, subscriptions]
  by_cases admitted :
      (account.table.register kind topic).2.responseStatus = .ok
  · rw [if_pos admitted, List.filter_append, List.map_append]
    cases kind with
    | publisher => simp
    | subscriber => simp [admitted]
  · simp [admitted]

theorem subscriptions_unregister
    (account : Account) (fd : Fd) :
    (account.unregister fd).subscriptions =
      account.subscriptions.filter
        (fun subscription => subscription.1 ≠ fd) := by
  simp only [unregister, subscriptions, List.filter_filter, List.filter_map]
  congr 1
  apply List.filter_congr
  intro member _
  exact Bool.and_comm _ _

/-- What the service is subscribed to follows from its events. -/
theorem subscriptions_turn
    (account : Account) (message : Turn) :
    (account.turn message).subscriptions =
      (account.events message).foldl PubSub.change
        account.subscriptions := by
  cases message with
  | register fd kind topic stack =>
      rw [turn, events, subscriptions_register]
      split
      · rfl
      · exact List.append_nil _
  | message fd message memory =>
      rw [turn, events, answer]
      cases account.client fd with
      | none => rfl
      | some member =>
          simp only
          split
          · exact subscriptions_unregister account fd
          · split
            · rfl
            · rfl

theorem subscriptions_turns
    (account : Account) (turns : List Turn) :
    (turns.foldl turn account).subscriptions =
      (account.eventsOf turns).foldl PubSub.change
        account.subscriptions := by
  induction turns generalizing account with
  | nil => rfl
  | cons message rest inductionHypothesis =>
      rw [List.foldl_cons, inductionHypothesis, eventsOf, List.foldl_append,
        subscriptions_turn]

end Account

/-! ## What the broker sends -/

namespace Handlers

section Settled

variable {handlers : Handlers}

theorem Settled.client_iff
    (settled : handlers.Settled) {fd : Fd} {member : Member} :
    handlers.account.client fd = some member ↔
      handlers.phase fd = .serving member := by
  constructor
  · intro found
    have isIts : member.fd = fd := by
      simpa using List.find?_some found
    have enrolled : member ∈ handlers.roster := List.mem_of_find?_eq_some found
    rw [← isIts]
    exact (settled.mem_roster member).mp enrolled
  · intro serving
    obtain ⟨enrolled, isIts⟩ :=
      (settled.consistent.present fd member).mp (by rw [serving]; rfl)
    have isThere :
        (handlers.account.client fd).isSome = true := by
      rw [Account.client, List.find?_isSome]
      exact ⟨member, enrolled, decide_eq_true isIts⟩
    obtain ⟨other, found⟩ := Option.isSome_iff_exists.mp isThere
    have otherIts : other.fd = fd := by
      simpa using List.find?_some found
    have otherEnrolled : other ∈ handlers.roster :=
      List.mem_of_find?_eq_some found
    rw [found,
      List.inj_on_of_nodup_map settled.consistent.rosterFds otherEnrolled
        enrolled (otherIts.trans isIts.symm)]

theorem Settled.sends_unregister
    (settled : handlers.Settled) {fd : Fd} {member : Member}
    (serving : handlers.phase fd = .serving member) (memory : Memory) :
    (handlers.registry.unregister member.kind member.topic member.id
      memory).sends = [(fd, .response ⟨.ok, member.id⟩)] := by
  let sent : Handlers :=
    { handlers with quit := Function.update handlers.quit fd true }
  have quits : handlers.step (.quit fd) = some sent := rfl
  have afterQuit : sent.Consistent := by
    apply settled.consistent.step _ _ _ quits
    · exact trivial
    · exact trivial
    · exact trivial
  have finds :
      sent.step (.find fd member.topic member.id memory.stackFd) =
        some (sent.find fd member member.topic member.id memory.stackFd) := by
    have here : sent.phase fd = .serving member := serving
    have hasQuit : sent.quit fd = true := Function.update_self _ _ _
    rw [Handlers.step, here]
    exact if_pos ⟨hasQuit, settled.getTopicId_lt serving⟩
  have ownTopic :
      sent.WellBehaved (.find fd member.topic member.id memory.stackFd) := by
    intro other here
    cases serving.symm.trans here
    exact ⟨rfl, rfl⟩
  have afterFind :
      (sent.find fd member member.topic member.id
        memory.stackFd).Consistent := by
    apply afterQuit.step ownTopic _ _ finds
    · exact trivial
    · exact trivial
  obtain ⟨_, _, own⟩ :=
    afterFind.found fd _ _ _ _
      (phase_find sent fd member member.topic member.id memory)
  rw [Registry.unregister]
  exact congrArg (fun other => [(other, Packet.response ⟨.ok, member.id⟩)]) own

theorem Settled.sends_publish
    (settled : handlers.Settled) {message : ClientMessage}
    (known : message.topic ∈ handlers.registry.table.names) :
    (handlers.registry.publishMsg message).sends =
      PubSub.copies handlers.account.subscriptions
        (.publish message.topic
          (.publish message.data.timeGeneratedData message.data.text)) := by
  rw [Registry.publishMsg, settled.receivers_eq known, PubSub.copies,
    Account.subscriptions, membersOf, List.filter_map, List.filter_filter]
  simp only [List.map_map]
  congr 1
  apply List.filter_congr
  intro member _
  exact Bool.decide_and _ _

end Settled

end Handlers

namespace Exchange

section Refinement

variable {exchange next : Exchange}

/-- What the handlers do for a request the account does for its message. -/
theorem account_of_request
    {handlers later : Handlers} {request : Request}
    (settled : handlers.Settled)
    (taken : Request.step handlers request = some later) :
    later.account =
      request.messages.foldl Account.receive handlers.account := by
  rw [← Handlers.foldl_follow_expand]
  exact
    Handlers.account_of_run settled.consistent.toGenerators taken

theorem refines_register
    {fd : Fd} {kind : Kind} {topic : TopicName} {stack : Topic}
    (settled : exchange.handlers.Settled)
    (taken :
      exchange.step (.register fd kind topic stack) = some next) :
    Request.step exchange.handlers (.register fd kind topic stack) =
        some next.handlers ∧
      next.handlers.account =
        exchange.handlers.account.turn (.register fd kind topic stack) ∧
      next.sends =
        exchange.sends ++
          PubSub.deliveries exchange.handlers.account.subscriptions
            (exchange.handlers.account.events
              (.register fd kind topic stack)) := by
  obtain ⟨later, moved, rfl⟩ := Option.map_eq_some_iff.mp taken
  refine ⟨moved, account_of_request settled moved, ?_⟩
  obtain ⟨_, answer, _⟩ :=
    Registry.register_table settled.consistent.noneCounted kind topic fd stack
  have same :
      exchange.handlers.account.table = exchange.handlers.registry.table :=
    rfl
  simp only [answer, Account.events, same]
  split
  · rfl
  · rfl

theorem refines_message
    {fd : Fd} {message : ClientMessage} {memory : Memory}
    (settled : exchange.handlers.Settled)
    (admissible : exchange.Admissible (.message fd message memory))
    (taken : exchange.step (.message fd message memory) = some next) :
    ∃ member,
      exchange.handlers.phase fd = .serving member ∧
        Request.step exchange.handlers
            (message.request member.kind fd memory) =
          some next.handlers ∧
        next.handlers.account =
          exchange.handlers.account.turn (.message fd message memory) ∧
        next.sends =
          exchange.sends ++
            PubSub.deliveries exchange.handlers.account.subscriptions
              (exchange.handlers.account.events
                (.message fd message memory)) := by
  simp only [step] at taken
  split at taken
  · rename_i member serving _
    obtain ⟨later, moved, rfl⟩ := Option.map_eq_some_iff.mp taken
    obtain ⟨ownTopic, wellBehaved, _⟩ := admissible member serving
    have isClient := settled.client_iff.mpr serving
    have accounted := account_of_request settled moved
    refine ⟨member, serving, moved, ?_, ?_⟩
    · rw [accounted, Account.turn, isClient, ClientMessage.request]
      simp only
      split
      · rfl
      · rfl
    · simp only [List.append_cancel_left_eq, Account.events, Account.answer,
        isClient]
      by_cases leaves : message.action = member.kind.unregisters
      · rw [ClientMessage.request, if_pos leaves] at wellBehaved
        obtain ⟨topic, id⟩ := wellBehaved member serving
        have sends := settled.sends_unregister serving memory
        rw [← topic, ← id] at sends
        rw [if_pos leaves]
        obtain ⟨kind, memberTopic, memberId, memberFd⟩ := member
        cases kind with
        | publisher =>
            rw [Registry.talkTo, Registry.talkToPublisher, leaves]
            exact sends
        | subscriber =>
            rw [Registry.talkTo, Registry.talkToSubscriber, leaves]
            exact sends
      · rw [if_neg leaves]
        by_cases publishes :
            member.kind = .publisher ∧ message.action = .publishData
        · rw [if_pos publishes, publishes.1, Registry.talkTo,
            Registry.talkToPublisher, publishes.2, PubSub.deliveries,
            PubSub.deliveries, List.append_nil]
          apply settled.sends_publish
          rw [ownTopic publishes.1 publishes.2]
          apply settled.consistent.holds.known _ member.kind
          exact
            List.ne_nil_of_mem
              (mem_membersOf.mpr
                ⟨member,
                  ((settled.consistent.present fd member).mp
                    (by rw [serving]; rfl)).1,
                  rfl, rfl, rfl⟩)
        · rw [if_neg publishes]
          obtain ⟨kind, memberTopic, memberId, memberFd⟩ := member
          obtain ⟨action, topic, id, data⟩ := message
          cases kind with
          | publisher =>
              cases action with
              | unregisterPublisher => exact absurd rfl leaves
              | publishData => exact absurd ⟨rfl, rfl⟩ publishes
              | _ => rfl
          | subscriber =>
              cases action with
              | unregisterSubscriber => exact absurd rfl leaves
              | _ => rfl
  · cases taken

/-- One client message, with the arrays and without them. -/
theorem refines_step
    {turn : Turn} (settled : exchange.handlers.Settled)
    (admissible : exchange.Admissible turn)
    (taken : exchange.step turn = some next) :
    next.handlers.Settled ∧
      next.handlers.account = exchange.handlers.account.turn turn ∧
      next.sends =
        exchange.sends ++
          PubSub.deliveries exchange.handlers.account.subscriptions
            (exchange.handlers.account.events turn) := by
  cases turn with
  | register fd kind topic stack =>
      obtain ⟨moved, account, sends⟩ := refines_register settled taken
      exact
        ⟨settled.step admissible.1 moved (admissible.2 _ moved), account,
          sends⟩
  | message fd message memory =>
      obtain ⟨member, serving, moved, account, sends⟩ :=
        refines_message settled admissible taken
      obtain ⟨_, wellBehaved, within⟩ := admissible member serving
      exact
        ⟨settled.step wellBehaved moved (within _ moved), account, sends⟩

theorem refines_of_run :
    ∀ {turns : List Turn} {exchange final : Exchange},
      exchange.handlers.Settled →
        Obeys step Admissible exchange turns →
          run step exchange turns = some final →
            final.handlers.Settled ∧
              final.handlers.account =
                turns.foldl Account.turn exchange.handlers.account ∧
              final.sends =
                exchange.sends ++
                  PubSub.deliveries exchange.handlers.account.subscriptions
                    (exchange.handlers.account.eventsOf turns)
  | [], exchange, final, settled, _, reached => by
      cases reached
      exact ⟨settled, rfl, (List.append_nil _).symm⟩
  | turn :: rest, exchange, final, settled, admissible, reached => by
      obtain ⟨next, taken, onwards⟩ := run_cons_eq_some.mp reached
      obtain ⟨nextSettled, account, sends⟩ :=
        refines_step settled admissible.1 taken
      obtain ⟨finalSettled, finalAccount, finalSends⟩ :=
        refines_of_run nextSettled (admissible.2 next taken) onwards
      refine ⟨finalSettled, ?_, ?_⟩
      · rw [finalAccount, account, List.foldl_cons]
      · rw [finalSends, sends, account, Account.eventsOf,
          PubSub.deliveries_append, Account.subscriptions_turn,
          List.append_assoc]

end Refinement

/-- Whatever its clients send, as long as they name their own topics and ids,
the broker sends in SECUENCIAL exactly what a publish/subscribe service
sends. -/
theorem sends_of_service
    {turns : List Turn} {final : Exchange}
    (admissible : Obeys step Admissible initial turns)
    (reached : run step initial turns = some final) :
    final.handlers.account = turns.foldl Account.turn Account.empty ∧
      final.sends =
        PubSub.deliveries [] (Account.empty.eventsOf turns) := by
  obtain ⟨_, account, sends⟩ :=
    refines_of_run Handlers.settled_initial admissible reached
  exact ⟨account, sends⟩

theorem within_of_short
    {handlers : Handlers} (short : handlers.roster.length ≤ maxSubscribers) :
    handlers.Within := by
  intro name
  rw [membersOf, List.length_map]
  exact (List.length_filter_le _ _).trans short

/-- A subscriber and a publisher register, the publisher publishes, the
subscriber leaves, and the publisher publishes again. -/
def oneVisit : List Turn :=
  [.register 4 .subscriber topicT (Registry.initial.allTopics 0),
    .register 5 .publisher topicT (Registry.initial.allTopics 0),
    .message 5 ⟨.publishData, topicT, 0, blankMessage.data⟩
      ⟨0, ⟨topicT, 0, 0⟩⟩,
    .message 4 ⟨.unregisterSubscriber, topicT, 1, blankMessage.data⟩
      ⟨0, ⟨topicT, 0, 0⟩⟩,
    .message 5 ⟨.publishData, topicT, 0, blankMessage.data⟩
      ⟨0, ⟨topicT, 0, 0⟩⟩]

theorem oneVisit_admissible : Obeys step Admissible initial oneVisit := by
  refine
    Obeys.cons rfl ?_
      (Obeys.cons rfl ?_
        (Obeys.cons rfl ?_ (Obeys.cons rfl ?_ (Obeys.cons rfl ?_ trivial))))
  · refine ⟨trivial, ?_⟩
    intro next taken
    cases taken
    exact within_of_short (by decide)
  · refine ⟨trivial, ?_⟩
    intro next taken
    cases taken
    exact within_of_short (by decide)
  · intro member serving
    cases serving
    refine ⟨fun _ _ => rfl, trivial, ?_⟩
    intro next taken
    cases taken
    exact within_of_short (by decide)
  · intro member serving
    cases serving
    refine ⟨nofun, ?_, ?_⟩
    · intro member serving
      cases serving
      exact ⟨rfl, rfl⟩
    · intro next taken
      cases taken
      exact within_of_short (by decide)
  · intro member serving
    cases serving
    refine ⟨fun _ _ => rfl, trivial, ?_⟩
    intro next taken
    cases taken
    exact within_of_short (by decide)

theorem sends_of_service_oneVisit :
    ∃ final,
      run step initial oneVisit = some final ∧
        final.sends =
          [(4, .response ⟨.ok, 1⟩), (5, .response ⟨.ok, 0⟩),
            (4, .publish blankMessage.data.timeGeneratedData []),
            (4, .response ⟨.ok, 1⟩)] := by
  refine ⟨_, rfl, ?_⟩
  rw [(sends_of_service oneVisit_admissible rfl).2]
  rfl

end Exchange

end SistemasDistribuidos.Practica4
