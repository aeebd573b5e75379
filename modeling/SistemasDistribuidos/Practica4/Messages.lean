import SistemasDistribuidos.Practica4.Modes
import SistemasDistribuidos.Practica4.Receive

/-!
# Messages of registered clients

What `talk_to_publisher` and `talk_to_subscriber` do with one message when no
other handler is in the middle of something: the registry they leave, the
indices they use into `all_topics` after the lookup, and what they send.

Neither of them tests what its lookups have found.  A topic that does not
exist is looked for in the place after the last one, and an id that is not in
the array is counted out all the same: `harmless_iff`.
-/

namespace SistemasDistribuidos.Practica4

open SistemasDistribuidos SlotArray Machine

structure ClientMessage where
  action : Operation
  topic : TopicName
  id : Int
  data : Publish

inductive Packet where
  | response (response : Response)
  | publish (timeGeneratedData : Timespec) (text : List UInt8)
  deriving DecidableEq

/-- What the handling of a message leaves behind. -/
structure Effect where
  registry : Registry
  topicIds : List Nat
  sends : List (Fd × Packet)

/-- What a handler finds in the uninitialised `fd_to_del` and after the
topic. -/
structure Memory where
  stackFd : Fd
  beyond : Client

/-- `shift_client_list`, with the descriptor that its response goes to. -/
def Topic.shiftClientList (topic : Topic) (kind : Kind) (id : Int)
    (memory : Memory) : Topic × Fd :=
  let clientPos := topic.clientPos kind id
  (topic.shiftClients kind clientPos memory.beyond,
    if clientPos < capacity kind then (topic.clients kind clientPos).fd
    else memory.stackFd)

namespace Registry

/-- `unregister`; the summary at its end goes through all topics.  A `send`
that fails ends the whole broker; here every `send` succeeds. -/
def unregister (registry : Registry) (kind : Kind) (topicName : TopicName)
    (id : Int) (memory : Memory) : Effect :=
  let topicId := registry.getTopicId topicName
  let shifted :=
    (registry.allTopics topicId).shiftClientList kind id memory
  { registry :=
      registry.updateTopic topicId
        (fun _ => shifted.1.addCount kind (-1))
    topicIds := topicId :: List.range registry.currentTopics
    sends := [(shifted.2, .response ⟨.ok, id⟩)] }

/-- `publish_msg` in SECUENCIAL: the copies leave in the order of the array.
In the other modes the same copies leave, in the order of their threads. -/
def publishMsg (registry : Registry) (message : ClientMessage) : Effect where
  registry := registry
  topicIds := [registry.getTopicId message.topic]
  sends :=
    (registry.receivers message.topic).map
      (fun fd =>
        (fd,
          .publish message.data.timeGeneratedData message.data.text))

def talkToPublisher (registry : Registry) (message : ClientMessage)
    (memory : Memory) : Effect :=
  match message.action with
  | .unregisterPublisher =>
      registry.unregister .publisher message.topic message.id memory
  | .publishData => registry.publishMsg message
  | _ => ⟨registry, [], []⟩

def talkToSubscriber (registry : Registry) (message : ClientMessage)
    (memory : Memory) : Effect :=
  match message.action with
  | .unregisterSubscriber =>
      registry.unregister .subscriber message.topic message.id memory
  | _ => ⟨registry, [], []⟩

def talkTo (registry : Registry) : Kind → ClientMessage → Memory → Effect
  | .publisher => registry.talkToPublisher
  | .subscriber => registry.talkToSubscriber

def live (registry : Registry) (topicId : Nat) (kind : Kind) :
    List Client :=
  occupied ((registry.allTopics topicId).clients kind)
    ((registry.allTopics topicId).count kind).toNat

/-- The message is about a topic that does not exist or, to unregister, about
a client that the topic does not have. -/
def NamesUnregistered (registry : Registry) (message : ClientMessage) :
    Prop :=
  match message.action with
  | .unregisterPublisher =>
      message.topic ∉ registry.table.names ∨
        message.id ∉
          (registry.live (registry.getTopicId message.topic)
            .publisher).map Client.id
  | .unregisterSubscriber =>
      message.topic ∉ registry.table.names ∨
        message.id ∉
          (registry.live (registry.getTopicId message.topic)
            .subscriber).map Client.id
  | .publishData => message.topic ∉ registry.table.names
  | _ => False

end Registry

/-- The counters and the live entries stay, only topics that exist are used,
and of the registered clients only the sender is sent anything. -/
structure Effect.Harmless (effect : Effect) (registry : Registry)
    (sender : Fd) : Prop where
  currentTopics : effect.registry.currentTopics = registry.currentTopics
  currentSubscribers :
    effect.registry.currentSubscribers = registry.currentSubscribers
  nextIds : effect.registry.nextId = registry.nextId
  counts : ∀ topicId, topicId < registry.currentTopics →
    (effect.registry.allTopics topicId).count =
      (registry.allTopics topicId).count
  live : ∀ topicId, topicId < registry.currentTopics →
    effect.registry.live topicId = registry.live topicId
  inside : ∀ topicId ∈ effect.topicIds, topicId < registry.currentTopics
  unsent : ∀ sent ∈ effect.sends, sent.1 ≠ sender →
    ∀ topicId, topicId < registry.currentTopics → ∀ kind,
      sent.1 ∉ (registry.live topicId kind).map Client.fd

def Kind.Ignores : Kind → Operation → Prop
  | .publisher, action =>
      action ≠ .unregisterPublisher ∧ action ≠ .publishData
  | .subscriber, action => action ≠ .unregisterSubscriber

/-! ## The handlers that run with others -/

section Handlers

variable {handlers next : Handlers}

theorem registry_unregister
    {fd : Fd} {topicName : TopicName} {id : Int} {memory : Memory}
    {member : Member} (here : handlers.phase fd = .serving member)
    (taken :
      run Handlers.step handlers
          (Request.expand
            (.unregister fd topicName id memory.stackFd
              memory.beyond)) =
        some next) :
    next.registry =
      (handlers.registry.unregister member.kind topicName id
        memory).registry := by
  obtain ⟨serving, _, same, rfl⟩ := Handlers.run_unregister_state taken
  cases here.symm.trans same
  exact
    handlers.registry.updateTopic_updateTopic
      (handlers.registry.getTopicId topicName)
      (fun topic =>
        topic.shiftClients member.kind
          ((handlers.registry.allTopics
            (handlers.registry.getTopicId topicName)).clientPos
              member.kind id)
          memory.beyond)
      (fun topic => topic.addCount member.kind (-1))

theorem phase_find
    (handlers : Handlers) (fd : Fd) (member : Member)
    (topicName : TopicName) (id : Int) (memory : Memory) :
    (handlers.find fd member topicName id memory.stackFd).phase fd =
      .found member (handlers.registry.getTopicId topicName)
        ((handlers.registry.allTopics
          (handlers.registry.getTopicId topicName)).clientPos
            member.kind id)
        ((handlers.registry.allTopics
          (handlers.registry.getTopicId topicName)).shiftClientList
            member.kind id memory).2 :=
  Handlers.phase_setPhase_self _ _ _

/-- A finished call has sent what `publish_msg` sends, in any mode and in some
order of its threads. -/
theorem received_publishMsg
    {mode : Mode} {messages : CallId → Message} {registry : Registry}
    {actions : List PublishAction} {publishing : Publishing} {id : CallId}
    (reached :
      run (Publishing.step mode messages registry) Publishing.initial
          actions =
        some publishing)
    (finished : publishing.Finished id) {message : ClientMessage}
    (topic : message.topic = (messages id).topic)
    (data : message.data = (messages id).data) :
    ((publishing.received id).map
        (fun received =>
          (received.1, Packet.publish received.2.1 received.2.2))).Perm
      (registry.publishMsg message).sends := by
  have received :=
    (Publishing.regular_of_run reached).received_finished finished
  rw [Registry.publishMsg, topic, data]
  have sends := received.map (fun received =>
    (received.1, Packet.publish received.2.1 received.2.2))
  rw [List.map_map] at sends
  exact sends

end Handlers

/-! ## What is harmless -/

section Harmless

variable (registry : Registry) (sender : Fd)

theorem count_unregister
    (kind : Kind) (topicName : TopicName) (id : Int) (memory : Memory) :
    ((registry.unregister kind topicName id memory).registry.allTopics
        (registry.getTopicId topicName)).count kind =
      (registry.allTopics (registry.getTopicId topicName)).count kind +
        (-1) := by
  simp only [Registry.unregister, Registry.updateTopic_self,
    Topic.count_addCount, Topic.shiftClientList,
    Topic.count_shiftClients, if_true]

/-- An `UNREGISTER` that is handled changes a counter or uses a place that no
topic has. -/
theorem not_harmless_unregister
    (kind : Kind) (topicName : TopicName) (id : Int) (memory : Memory) :
    ¬ (registry.unregister kind topicName id memory).Harmless registry
        sender := by
  intro harmless
  have inside := harmless.inside _ List.mem_cons_self
  have same := congrFun (harmless.counts _ inside) kind
  have lowered := count_unregister registry kind topicName id memory
  omega

theorem not_harmless_publishMsg
    {message : ClientMessage}
    (unknown : message.topic ∉ registry.table.names) :
    ¬ (registry.publishMsg message).Harmless registry sender := by
  intro harmless
  have inside := harmless.inside _ List.mem_cons_self
  exact unknown (Registry.getTopicId_lt_iff.mp inside)

theorem harmless_ignored :
    (Effect.mk registry [] []).Harmless registry sender where
  currentTopics := rfl
  currentSubscribers := rfl
  nextIds := rfl
  counts := fun _ _ => rfl
  live := fun _ _ => rfl
  inside := fun _ listed => absurd listed List.not_mem_nil
  unsent := fun _ listed => absurd listed List.not_mem_nil

end Harmless

/-- Whatever the registry, a message that names something unregistered is
harmless exactly when the handler that reads it ignores it. -/
theorem harmless_iff
    {registry : Registry} {message : ClientMessage}
    (unregistered : registry.NamesUnregistered message)
    (kind : Kind) (sender : Fd) (memory : Memory) :
    (registry.talkTo kind message memory).Harmless registry sender ↔
      kind.Ignores message.action := by
  obtain ⟨action, topic, id, data⟩ := message
  cases kind with
  | publisher =>
      cases action with
      | unregisterPublisher =>
          exact
            iff_of_false
              (not_harmless_unregister registry sender .publisher topic id
                memory)
              (fun ignored => ignored.1 rfl)
      | publishData =>
          exact
            iff_of_false
              (not_harmless_publishMsg registry sender unregistered)
              (fun ignored => ignored.2 rfl)
      | unregisterSubscriber =>
          exact
            iff_of_true (harmless_ignored registry sender)
              ⟨Operation.noConfusion, Operation.noConfusion⟩
      | registerPublisher => exact absurd unregistered not_false
      | registerSubscriber => exact absurd unregistered not_false
  | subscriber =>
      cases action with
      | unregisterSubscriber =>
          exact
            iff_of_false
              (not_harmless_unregister registry sender .subscriber topic id
                memory)
              (fun ignored => ignored rfl)
      | unregisterPublisher =>
          exact
            iff_of_true (harmless_ignored registry sender)
              Operation.noConfusion
      | publishData =>
          exact
            iff_of_true (harmless_ignored registry sender)
              Operation.noConfusion
      | registerPublisher => exact absurd unregistered not_false
      | registerSubscriber => exact absurd unregistered not_false

/-- A publisher sends what only a subscriber's handler reads, with the id of
the subscriber that has left; another one is still there. -/
theorem harmless_iff_ignored :
    ∃ handlers,
      run Request.step Handlers.initial Handlers.threeClients =
          some handlers ∧
        handlers.registry.live 0 .subscriber = [⟨topicT, 2, 6⟩] ∧
        (handlers.registry.talkTo .publisher
              ⟨.unregisterSubscriber, topicT, 1, blankMessage.data⟩
              ⟨6, ⟨topicT, 0, 0⟩⟩).Harmless handlers.registry 5 := by
  have seen :
      (run Request.step Handlers.initial Handlers.threeClients).map
          (fun handlers =>
            (handlers.registry.live 0 .subscriber,
              (handlers.registry.live
                (handlers.registry.getTopicId topicT)
                .subscriber).map Client.id)) =
        some ([⟨topicT, 2, 6⟩], [2]) := by
    decide +kernel
  obtain ⟨handlers, reached, views⟩ := Option.map_eq_some_iff.mp seen
  obtain ⟨live, ids⟩ := Prod.mk.inj views
  refine ⟨handlers, reached, live, ?_⟩
  have unregistered :
      handlers.registry.NamesUnregistered
        ⟨.unregisterSubscriber, topicT, 1, blankMessage.data⟩ := by
    right
    rw [ids]
    decide
  refine (harmless_iff unregistered .publisher 5 _).mpr ⟨?_, ?_⟩
  · exact Operation.noConfusion
  · exact Operation.noConfusion

/-- The only publisher of a topic unregisters with the id of nobody.  The topic
counts no publisher although it still has this one, and the response goes to
whatever descriptor the handler's stack holds: here that of a subscriber. -/
theorem publisher_counted_out :
    ∃ handlers,
      run Request.step Handlers.initial
          [.register 4 .subscriber topicT (Registry.initial.allTopics 0),
            .register 5 .publisher topicT
              (Registry.initial.allTopics 0)] =
          some handlers ∧
        handlers.registry.NamesUnregistered
          ⟨.unregisterPublisher, topicT, 7, blankMessage.data⟩ ∧
        handlers.registry.live 0 .publisher = [⟨topicT, 0, 5⟩] ∧
        handlers.registry.live 0 .subscriber = [⟨topicT, 1, 4⟩] ∧
        (handlers.registry.talkTo .publisher
              ⟨.unregisterPublisher, topicT, 7, blankMessage.data⟩
              ⟨4, ⟨topicT, 0, 0⟩⟩).registry.live 0 .publisher =
          [] ∧
        (handlers.registry.talkTo .publisher
              ⟨.unregisterPublisher, topicT, 7, blankMessage.data⟩
              ⟨4, ⟨topicT, 0, 0⟩⟩).sends.map Prod.fst = [4] ∧
        ¬ (handlers.registry.talkTo .publisher
              ⟨.unregisterPublisher, topicT, 7, blankMessage.data⟩
              ⟨4, ⟨topicT, 0, 0⟩⟩).Harmless handlers.registry 5 := by
  refine ⟨_, rfl, Or.inr ?_, rfl, rfl, rfl, rfl, ?_⟩
  · decide
  · exact not_harmless_unregister _ 5 .publisher topicT 7 _

end SistemasDistribuidos.Practica4
