import SistemasDistribuidos.Practica4.Attended
import SistemasDistribuidos.Practica4.Finishing

/-!
# Every message reaches whom it is owed to

The steps of a call keep it on track with its subscribers, so a run whose steps
are `Timely` delivers every message once to everybody it is owed to.  The code
does not make its runs timely: `answered_gets_nothing` is one in which a
subscriber that has been answered misses a message.
-/

namespace SistemasDistribuidos.Practica4

open SistemasDistribuidos SlotArray Machine

namespace Broker

section Steps

variable {mode : Mode} {messages : CallId → Message} {broker : Broker}
  {id : CallId} {topic : TopicName} {call : Call}

/-- A count that is read at a good moment gives a window. -/
theorem Delivers.window
    (delivers : broker.Delivers mode messages) (id : CallId)
    (known :
      (messages id).topic ∈ broker.handlers.registry.table.names)
    (separate : ∀ fd member,
      (broker.handlers.phase fd).departing = some member →
        ¬ (member.topic = (messages id).topic ∧
            member.kind = .subscriber))
    (answered : ∀ fd member, broker.owed id fd = true →
      broker.handlers.quit fd = false →
        broker.handlers.phase fd ≠ .answered member) :
    broker.Window id (messages id).topic
      (broker.handlers.registry.getTopicId (messages id).topic)
      (broker.handlers.registry.numSubscribers
        (messages id).topic).toNat := by
  have inside := Registry.getTopicId_lt_iff.mpr known
  obtain ⟨enough, told, serving⟩ :=
    delivers.consistent.counted delivers.unfound known separate
  refine
    ⟨Registry.getElem?_names_eq_some.mpr
      ⟨inside, Registry.name_getTopicId inside⟩, enough, told, ?_⟩
  intro fd owed unquit
  obtain ⟨subscriberId, isTold⟩ := delivers.owed id fd owed unquit
  cases phase : broker.handlers.phase fd with
  | answered member => exact absurd phase (answered fd member owed unquit)
  | serving member =>
      rw [phase] at isTold
      cases isTold
      exact serving subscriberId fd phase
  | _ =>
      rw [phase] at isTold
      cases isTold

/-- A call that has served the first `index` clients of its window. -/
theorem Window.onTrack
    {topicId count index : Nat}
    (window : broker.Window id topic topicId count)
    (consistent : broker.handlers.Consistent)
    (sent : id.index < broker.sent id.publisher)
    (inside : index ≤ count)
    (stage : call.stage = .loop topicId count index)
    (fds : call.senders.map Sender.fd =
      ((broker.handlers.subscribers topic).take index).map Client.fd) :
    broker.OnTrack mode topic id call where
  unsent := fun unsent => absurd sent (by omega)
  known := fun _ => List.mem_of_getElem? window.named
  early := by
    rw [stage]
    rintro (impossible | ⟨_, _, impossible⟩) <;> cases impossible
  window := by
    intro _ _ _ reads
    rw [Call.reading, stage] at reads
    simp only [Option.ite_none_right_eq_some, Option.some.injEq,
      Prod.mk.injEq] at reads
    obtain ⟨_, rfl, rfl, rfl⟩ := reads
    exact ⟨window, fds⟩
  ended := by
    rintro (impossible | ⟨_, _, _, same, atEnd⟩)
    · rw [stage] at impossible
      cases impossible
    · rw [stage] at same
      cases same
      have all : index = count := by omega
      rw [fds, all]
      refine ⟨?_, window.owed⟩
      have distinct :=
        fds_membersOf_nodup consistent.rosterFds topic .subscriber
      rw [List.map_take]
      exact distinct.sublist (List.take_sublist _ _)

/-- The call `id` has moved. -/
theorem Delivers.of_call
    (delivers : broker.Delivers mode messages)
    {publishing : Publishing}
    (moved :
      publishing.call = Function.update broker.publishing.call id call)
    (returned : ∀ publisher,
      broker.publishing.returned publisher ≤
        publishing.returned publisher)
    (onTrack : broker.OnTrack mode (messages id).topic id call) :
    (broker.publish publishing).Delivers mode messages := by
  refine delivers.of_publishing returned ?_
  intro other
  rw [moved]
  by_cases same : other = id
  · rw [same, Function.update_self]
    exact onTrack
  · rw [Function.update_of_ne same]
    exact delivers.calls other

/-- A sender moves to another phase. -/
theorem Delivers.onTrack_setPhase
    (delivers : broker.Delivers mode messages)
    {thread : Nat} {sender : Sender} (phase : SenderPhase)
    (here :
      (broker.publishing.call id).senders[thread]? = some sender)
    (other : CallId) :
    broker.OnTrack mode (messages other).topic other
      ((broker.publishing.setPhase id thread sender phase).call other) := by
  by_cases same : other = id
  · subst same
    simp only [Publishing.setPhase, Publishing.setCall,
      Function.update_self]
    exact
      (delivers.calls other).of_same rfl (Call.fds_setPhase here phase)
  · simp only [Publishing.setPhase, Publishing.setCall,
      Function.update_of_ne same]
    exact delivers.calls other

/-- The publisher of a message that is being handled is registered. -/
theorem Delivers.known
    (delivers : broker.Delivers mode messages)
    (here : id.index = broker.publishing.returned id.publisher)
    (sent : id.index < broker.sent id.publisher) :
    (messages id).topic ∈ broker.handlers.registry.table.names := by
  obtain ⟨member, told, _, topic⟩ :=
    delivers.sending id (by omega) sent
  obtain ⟨enrolled, _⟩ := delivers.consistent.enrolled_of_told told
  apply delivers.consistent.holds.known _ member.kind
  exact
    List.ne_nil_of_mem
      (mem_membersOf.mpr ⟨member, enrolled, topic, rfl, rfl⟩)

theorem Delivers.look
    (delivers : broker.Delivers mode messages)
    (timely : broker.Timely mode messages (.publish (.look id)))
    (idle : (broker.publishing.call id).stage = .idle)
    (here : id.index = broker.publishing.returned id.publisher)
    (sent : id.index < broker.sent id.publisher) :
    (broker.publish
      (broker.publishing.look mode messages broker.handlers.registry
        id)).Delivers mode messages := by
  have known := delivers.known here sent
  have nobody := (delivers.calls id).early (Or.inl idle)
  refine delivers.of_call rfl (fun _ => Nat.le_refl _) ?_
  by_cases parallel : mode = .paralelo
  · obtain ⟨separate, answered⟩ :=
      timely.2 id ⟨by rw [parallel]; exact Mode.noConfusion, rfl⟩
    refine
      (delivers.window id known separate answered).onTrack
        delivers.consistent sent (Nat.zero_le _) ?_ nobody
    simp only [parallel, if_true]
    rfl
  · simp only [if_neg parallel]
    refine
      ⟨fun unsent => absurd sent (by omega), fun _ => known,
        fun _ => nobody, ?_, ?_⟩
    · intro _ _ _ reads
      simp only [Call.reading, Option.ite_none_left_eq_some,
        Option.some.injEq, Prod.mk.injEq] at reads
      obtain ⟨notSequential, rfl, rfl, rfl⟩ := reads
      obtain ⟨separate, answered⟩ := timely.2 id ⟨notSequential, rfl⟩
      exact ⟨delivers.window id known separate answered, nobody⟩
    · rintro (impossible | ⟨_, _, _, impossible, _⟩) <;>
        cases impossible

/-- A call that is not idle has its message. -/
theorem OnTrack.sent
    (onTrack : broker.OnTrack mode topic id call)
    (notIdle : call.stage ≠ .idle) :
    id.index < broker.sent id.publisher := by
  by_contra unsent
  exact notIdle (onTrack.unsent (by omega))

theorem Delivers.enter
    (delivers : broker.Delivers mode messages)
    (timely : broker.Timely mode messages (.publish (.enter id)))
    {publishing : Publishing}
    (taken :
      broker.publishing.step mode messages broker.handlers.registry
        (.enter id) = some publishing) :
    (broker.publish publishing).Delivers mode messages := by
  obtain ⟨topicId, count, looked, outcome⟩ :=
    Publishing.step_enter taken
  have onTrack := delivers.calls id
  have notIdle : (broker.publishing.call id).stage ≠ .idle := by
    rw [looked]
    exact Stage.noConfusion
  have sent := onTrack.sent notIdle
  have nobody := onTrack.early (Or.inr ⟨topicId, count, looked⟩)
  rcases outcome with ⟨rfl, rfl⟩ | ⟨rfl, _, rfl⟩
  · obtain ⟨separate, answered⟩ := timely.2 id ⟨rfl, rfl⟩
    exact
      delivers.of_call rfl (fun _ => Nat.le_refl _)
        ((delivers.window id (onTrack.known notIdle) separate
          answered).onTrack delivers.consistent sent (Nat.zero_le _) rfl
          nobody)
  · obtain ⟨window, _⟩ :=
      onTrack.window topicId count 0 (by rw [Call.reading, looked]; rfl)
    exact
      delivers.of_call rfl (fun _ => Nat.le_refl _)
        (window.onTrack delivers.consistent sent (Nat.zero_le _) rfl
          nobody)

theorem Delivers.next
    (delivers : broker.Delivers mode messages)
    {topicId count index : Nat}
    (looping :
      (broker.publishing.call id).stage = .loop topicId count index)
    (inside : index < count) (stack : Buffer) :
    (broker.publish
      (broker.publishing.next mode messages broker.handlers.registry id
        topicId count index stack)).Delivers mode messages := by
  have onTrack := delivers.calls id
  have sent :=
    onTrack.sent (by rw [looping]; exact Stage.noConfusion)
  obtain ⟨window, fds⟩ :=
    onTrack.window topicId count index
      (by rw [Call.reading, looping]; exact if_pos inside)
  refine
    delivers.of_call rfl (fun _ => Nat.le_refl _)
      (window.onTrack delivers.consistent sent inside rfl ?_)
  rw [List.map_append, fds, List.take_add_one,
    window.subscriberAt delivers.consistent inside]
  simp

theorem Delivers.finish
    (delivers : broker.Delivers mode messages)
    {topicId count index : Nat}
    (looping :
      (broker.publishing.call id).stage = .loop topicId count index)
    (atEnd : ¬ index < count) :
    (broker.publish (broker.publishing.finish mode id)).Delivers mode
      messages := by
  have onTrack := delivers.calls id
  have notIdle : (broker.publishing.call id).stage ≠ .idle := by
    rw [looping]
    exact Stage.noConfusion
  have sent := onTrack.sent notIdle
  refine delivers.of_call rfl ?_ ?_
  · intro publisher
    simp only [Publishing.finish]
    by_cases same : publisher = id.publisher
    · rw [same, Function.update_self]
      exact Nat.le_succ _
    · rw [Function.update_of_ne same]
  · refine
      ⟨fun unsent => absurd sent (by omega),
        fun _ => onTrack.known notIdle, ?_, ?_, ?_⟩
    · rintro (impossible | ⟨_, _, impossible⟩) <;> cases impossible
    · intro _ _ _ reads
      cases reads
    · intro _
      exact
        onTrack.ended
          (Or.inr ⟨topicId, count, index, looping, atEnd⟩)

/-- A step of a call keeps all calls on track. -/
theorem Delivers.publish
    (delivers : broker.Delivers mode messages)
    {action : PublishAction} {publishing : Publishing}
    (timely : broker.Timely mode messages (.publish action))
    (taken :
      broker.publishing.step mode messages broker.handlers.registry
        action = some publishing)
    (canLook : ∀ id, action = .look id → broker.CanLook id) :
    (broker.publish publishing).Delivers mode messages := by
  cases action with
  | look id =>
      obtain ⟨idle, here, rfl⟩ := Publishing.step_look taken
      exact delivers.look timely idle here (canLook id rfl).2
  | enter id => exact delivers.enter timely taken
  | next id stack =>
      obtain ⟨topicId, count, index, looping, inside, rfl⟩ :=
        Publishing.step_next taken
      exact delivers.next looping inside stack
  | finish id =>
      obtain ⟨topicId, count, index, looping, atEnd, _, rfl⟩ :=
        Publishing.step_finish taken
      exact delivers.finish looping atEnd
  | arrive id thread =>
      obtain ⟨sender, here, _, _, outcome⟩ :=
        Publishing.step_arrive taken
      rcases outcome with ⟨_, rfl⟩ | ⟨_, rfl⟩ <;>
        exact
          delivers.of_publishing (fun _ => Nat.le_refl _)
            (delivers.onTrack_setPhase _ here)
  | reacquire id thread =>
      obtain ⟨sender, here, _, _, rfl⟩ :=
        Publishing.step_reacquire taken
      exact
        delivers.of_publishing (fun _ => Nat.le_refl _)
          (delivers.onTrack_setPhase _ here)
  | leave id thread =>
      obtain ⟨sender, here, _, rfl⟩ := Publishing.step_leave taken
      exact
        delivers.of_publishing (fun _ => Nat.le_refl _)
          (fun other =>
            (delivers.onTrack_setPhase .sending here other).of_same rfl
              (Call.fds_wake _))
  | transmit id thread stack =>
      obtain ⟨sender, here, _, rfl⟩ := Publishing.step_transmit taken
      exact
        delivers.of_publishing (fun _ => Nat.le_refl _)
          (delivers.onTrack_setPhase _ here)

/-- Every step that is timely keeps all calls on track. -/
theorem Delivers.step
    (delivers : broker.Delivers mode messages)
    {action : BrokerAction} {next : Broker}
    (timely : broker.Timely mode messages action)
    (taken : broker.step mode messages action = some next) :
    next.Delivers mode messages := by
  have consistent := delivers.consistent
  cases action with
  | store fd kind topic stack =>
      obtain ⟨handlers, stored, rfl⟩ := handle_singleton taken
      obtain ⟨here, _, same⟩ := Handlers.step_store stored
      refine
        delivers.of_calm stored
          (consistent.step (by trivial) timely.1 timely.2 stored) ?_
      rw [same]
      exact Handlers.calm_store here kind topic stack
  | respond fd =>
      obtain ⟨handlers, responded, rfl⟩ := handle_singleton taken
      exact
        delivers.of_calm responded
          (consistent.step (by trivial) (by trivial) (by trivial) responded)
          (Handlers.calm_respond responded)
  | count fd =>
      obtain ⟨handlers, counted, rfl⟩ := handle_singleton taken
      exact
        delivers.of_calm counted
          (consistent.step (by trivial) (by trivial) (by trivial) counted)
          (Handlers.calm_count counted)
  | quit fd =>
      obtain ⟨handlers, quits, rfl⟩ := handle_singleton taken
      exact
        delivers.of_calm quits
          (consistent.step (by trivial) (by trivial) (by trivial) quits)
          (Handlers.calm_quit quits)
  | shiftClientList fd stackFd beyond =>
      exact delivers.shiftClientList timely taken
  | decrement fd =>
      obtain ⟨handlers, decremented, rfl⟩ := handle_singleton taken
      exact
        delivers.of_calm decremented
          (consistent.step (by trivial) (by trivial) (by trivial) decremented)
          (Handlers.calm_decrement decremented)
  | send publisher => exact delivers.send taken
  | publish publishAction =>
      obtain ⟨publishing, published, rfl, canLook⟩ := step_publish taken
      exact delivers.publish timely published canLook

theorem delivers_initial : initial.Delivers mode messages where
  consistent := Handlers.consistent_initial
  unfound := fun _ _ _ _ _ => Phase.noConfusion
  sending := by
    intro id _ unread
    simp [initial] at unread
  owed := by
    intro id fd owed
    cases owed
  calls := fun id =>
    { unsent := fun _ => rfl
      known := fun started => absurd rfl started
      early := fun _ => rfl
      window := fun _ _ _ reads => nomatch reads
      ended := by
        rintro (impossible | ⟨_, _, _, impossible, _⟩) <;>
          cases impossible }

/-- What holds in every state of a timely run. -/
structure Served (mode : Mode) (messages : CallId → Message)
    (broker : Broker) : Prop where
  delivers : broker.Delivers mode messages
  attended : broker.Attended messages
  flowing : broker.Flowing mode messages

theorem served_initial : initial.Served mode messages where
  delivers := delivers_initial
  attended := by
    rintro id fd ⟨sender, listed, _⟩
    cases listed
  flowing := flowing_initial

theorem Served.step
    (served : broker.Served mode messages)
    {action : BrokerAction} {next : Broker}
    (timely : broker.Timely mode messages action)
    (taken : broker.step mode messages action = some next) :
    next.Served mode messages where
  delivers := served.delivers.step timely taken
  attended := served.attended.step served.delivers timely taken
  flowing := served.flowing.step timely taken

theorem Served.run
    (served : broker.Served mode messages)
    {actions : List BrokerAction} {final : Broker}
    (timely :
      Obeys (Broker.step mode messages) (Timely mode messages) broker
        actions)
    (reached :
      run (Broker.step mode messages) broker actions = some final) :
    final.Served mode messages :=
  invariant_of_run
    (fun _ _ _ served guard taken => served.step guard taken)
    served timely reached

/-- A message reaches everybody it is owed to who has not left when the loop
ends, exactly once, and nothing is sent to anybody who is not a subscriber of
the topic.

From the end of the loop on the senders of the call take at most five steps
each; until they are all done one of them can take its next; and they can get
done without anybody else, or, in JUSTO, get to where the last of them could
only arrive to wait for ever, which a timely run does not let it do. -/
theorem delivered_to_owed
    {before after : List BrokerAction} {ended final : Broker}
    (timely :
      Obeys (Broker.step mode messages) (Timely mode messages) initial
        (before ++ after))
    (reached :
      run (Broker.step mode messages) initial before = some ended)
    (continued :
      run (Broker.step mode messages) ended after = some final) :
    (∀ id fd,
        (ended.publishing.call id).Over →
          ended.owed id fd = true → ended.handlers.quit fd = false →
            ((final.publishing.call id).senders.map Sender.fd).count fd =
                1 ∧
              ((final.publishing.call id).AllDone →
                final.publishing.sentTo id fd = 1)) ∧
      (mode = .secuencial → ∀ id, (final.publishing.call id).AllDone) ∧
      (∀ id,
        (ended.publishing.call id).Over →
          (ended.publishing.call id).left ≤
              5 * (ended.publishing.call id).senders.length ∧
            after.countP (BrokerAction.bySender id) +
                (final.publishing.call id).left ≤
              (ended.publishing.call id).left ∧
            ((final.publishing.call id).AllDone ∨
              ∃ action next,
                action.bySender id = true ∧
                  final.step mode messages (.publish action) =
                    some next) ∧
            ∃ more later,
              Obeys (Broker.step mode messages)
                  (fun state action =>
                    state.Timely mode messages action ∧
                      action.bySender id = true)
                  final more ∧
                run (Broker.step mode messages) final more =
                  some later ∧
                ((later.publishing.call id).AllDone ∨
                  mode = .justo ∧
                    ∀ thread,
                      ¬ later.Released messages
                        (.publish (.arrive id thread)))) ∧
      (∀ sent ∈ final.publishing.log,
        sent.publish.timeGeneratedData =
            (messages sent.call).data.timeGeneratedData ∧
          sent.publish.text = (messages sent.call).data.text) ∧
      (∀ action next,
        final.step mode messages action = some next →
          ∃ sends,
            next.publishing.log = final.publishing.log ++ sends ∧
              ∀ sent ∈ sends,
                final.Subscribed (messages sent.call).topic sent.fd) ∧
      ∀ id topicId count index,
        (final.publishing.call id).stage = .loop topicId count index →
          index < count →
            final.Subscribed (messages id).topic
              ((final.handlers.registry.allTopics
                topicId).subscriberAt index).fd := by
  obtain ⟨timelyBefore, timelyAfter⟩ := obeys_append.mp timely
  have servedBefore : ended.Served mode messages :=
    served_initial.run timelyBefore reached
  have served : final.Served mode messages :=
    servedBefore.run (timelyAfter ended reached) continued
  have recorded := served.flowing.toRecorded
  refine
    ⟨?_, recorded.sequential, ?_, recorded.payload, fun action next taken =>
      served.attended.sends served.delivers taken, ?_⟩
  · intro id fd isOver owed unquit
    obtain ⟨distinct, listed⟩ :=
      (servedBefore.delivers.calls id).ended isOver
    obtain ⟨_, fds⟩ := over_of_run isOver continued
    have once :
        ((final.publishing.call id).senders.map Sender.fd).count fd =
          1 := by
      rw [fds]
      exact List.count_eq_one_of_mem distinct (listed fd owed unquit)
    refine ⟨once, fun allDone => ?_⟩
    rw [recorded.logged, allDone.doneFor_eq, once]
  · intro id isOver
    obtain ⟨stillOver, _⟩ := over_of_run isOver continued
    refine
      ⟨Call.left_le _, countP_add_left_le isOver continued, ?_,
        served.flowing.exists_finish stillOver⟩
    by_cases allDone : (final.publishing.call id).AllDone
    · exact Or.inl allDone
    · exact Or.inr (served.flowing.exists_step stillOver allDone)
  · intro id topicId count index looping inside
    exact
      served.delivers.subscribed
        ⟨topicId, count, index, looping, inside, rfl⟩

end Steps

/-- Conditions that can be checked and make a run timely: nobody leaves, there
is room for everybody, counts are read while `mutex3` is free, and no last
thread arrives to wait for ever. -/
def Orderly (messages : CallId → Message) (broker : Broker) :
    BrokerAction → Prop
  | .store fd kind topic stack =>
      broker.handlers.Apart (.store fd kind topic stack)
  | .shiftClientList _ _ _ => False
  | .publish action =>
      (broker.handlers.leaving = [] ∧ broker.handlers.mutex3 = none) ∧
        broker.publishing.Released messages broker.handlers.registry action
  | _ => True

instance (messages : CallId → Message) (broker : Broker) :
    ∀ action, Decidable (broker.Orderly messages action)
  | .store fd kind topic stack =>
      inferInstanceAs
        (Decidable (broker.handlers.Apart (.store fd kind topic stack)))
  | .shiftClientList _ _ _ => inferInstanceAs (Decidable False)
  | .publish _ => inferInstanceAs (Decidable ((_ ∧ _) ∧ _))
  | .respond _ => inferInstanceAs (Decidable True)
  | .count _ => inferInstanceAs (Decidable True)
  | .quit _ => inferInstanceAs (Decidable True)
  | .decrement _ => inferInstanceAs (Decidable True)
  | .send _ => inferInstanceAs (Decidable True)

theorem Orderly.timely
    {mode : Mode} {messages : CallId → Message} {broker : Broker}
    (delivers : broker.Delivers mode messages)
    {action : BrokerAction} (orderly : broker.Orderly messages action) :
    broker.Timely mode messages action := by
  have consistent := delivers.consistent
  cases action with
  | store fd kind topic stack =>
      exact consistent.room_and_separate orderly
  | shiftClientList fd stackFd beyond => exact orderly.elim
  | publish publishAction =>
      obtain ⟨⟨nobody, unlocked⟩, released⟩ := orderly
      refine ⟨fun _ => released, fun id _ => ⟨?_, ?_⟩⟩
      · intro fd member leaves
        have listed := ((consistent.departing fd member).mp leaves).1
        rw [nobody] at listed
        cases listed
      · intro fd member _ _ answered
        have locked :=
          (consistent.locked fd).mp (by rw [answered]; rfl)
        rw [unlocked] at locked
        cases locked
  | respond fd => trivial
  | count fd => trivial
  | quit fd => trivial
  | decrement fd => trivial
  | send publisher => trivial

/-- Two subscribers and a publisher register, the publisher sends, and JUSTO
starts a thread for each subscriber. -/
def justoLoop : List BrokerAction :=
  [.store 4 .subscriber topicT (Registry.initial.allTopics 0), .respond 4,
    .count 4, .store 6 .subscriber topicT (Registry.initial.allTopics 0),
    .respond 6, .count 6,
    .store 5 .publisher topicT (Registry.initial.allTopics 0), .respond 5,
    .count 5, .send 5, .publish (.look ⟨5, 0⟩), .publish (.enter ⟨5, 0⟩),
    .publish (.next ⟨5, 0⟩ default), .publish (.next ⟨5, 0⟩ default)]

/-- The two threads meet and send; one subscriber sends its `UNREGISTER`
meanwhile. -/
def justoSends : List BrokerAction :=
  [.publish (.arrive ⟨5, 0⟩ 0), .publish (.arrive ⟨5, 0⟩ 1), .quit 4,
    .publish (.leave ⟨5, 0⟩ 1), .publish (.transmit ⟨5, 0⟩ 1 default),
    .publish (.reacquire ⟨5, 0⟩ 0), .publish (.leave ⟨5, 0⟩ 0),
    .publish (.transmit ⟨5, 0⟩ 0 default), .publish (.finish ⟨5, 0⟩)]

/-- Both subscribers get the message, also the one that leaves once the loop
has ended. -/
theorem delivered_to_owed_two :
    ∃ ended final,
      run (Broker.step .justo (fun _ => blankMessage)) initial
            justoLoop = some ended ∧
        run (Broker.step .justo (fun _ => blankMessage)) ended
            justoSends = some final ∧
        final.publishing.sentTo ⟨5, 0⟩ 4 = 1 ∧
        final.publishing.sentTo ⟨5, 0⟩ 6 = 1 := by
  have orderly :
      Obeys (Broker.step .justo (fun _ => blankMessage))
        (Orderly (fun _ => blankMessage)) initial
        (justoLoop ++ justoSends) := by
    decide +kernel
  have timely :
      Obeys (Broker.step .justo (fun _ => blankMessage))
        (Timely .justo (fun _ => blankMessage)) initial
        (justoLoop ++ justoSends) :=
    obeys_of_invariant
      (fun _ _ delivers orderly => orderly.timely delivers)
      (fun _ _ _ delivers guard taken => delivers.step guard taken)
      delivers_initial orderly
  have seenEnded :
      (run (Broker.step .justo (fun _ => blankMessage)) initial
        justoLoop).map
        (fun ended =>
          ((ended.publishing.call ⟨5, 0⟩).stage,
            [4, 6].map (ended.owed ⟨5, 0⟩),
            [4, 6].map ended.handlers.quit)) =
        some (.loop 0 2 2, [true, true], [false, false]) := by
    decide +kernel
  have seenFinal :
      (run (Broker.step .justo (fun _ => blankMessage)) initial
        (justoLoop ++ justoSends)).map
        (fun final =>
          decide (final.publishing.call ⟨5, 0⟩).AllDone) =
        some true := by
    decide +kernel
  obtain ⟨ended, reached, views⟩ := Option.map_eq_some_iff.mp seenEnded
  simp only [List.map_cons, List.map_nil, Prod.mk.injEq, List.cons.injEq,
    and_true] at views
  obtain ⟨looping, ⟨owedFirst, owedSecond⟩, unquitFirst, unquitSecond⟩ :=
    views
  obtain ⟨final, all, done⟩ := Option.map_eq_some_iff.mp seenFinal
  obtain ⟨middle, first, continued⟩ := run_append_eq_some.mp all
  cases reached.symm.trans first
  have isOver : (ended.publishing.call ⟨5, 0⟩).Over :=
    Or.inr ⟨0, 2, 2, looping, Nat.lt_irrefl 2⟩
  obtain ⟨delivered, _⟩ := delivered_to_owed timely reached continued
  have allDone := of_decide_eq_true done
  exact
    ⟨ended, final, reached, continued,
      (delivered ⟨5, 0⟩ 4 isOver owedFirst unquitFirst).2 allDone,
      (delivered ⟨5, 0⟩ 6 isOver owedSecond unquitSecond).2 allDone⟩

/-- A subscriber that has been answered and is not counted yet gets
nothing. -/
theorem answered_gets_nothing :
    ∃ final,
      run (Broker.step .secuencial (fun _ => blankMessage)) initial
            ([.store 4 .subscriber topicT (Registry.initial.allTopics 0),
              .respond 4, .count 4,
              .store 5 .publisher topicT (Registry.initial.allTopics 0),
              .respond 5, .count 5,
              .store 6 .subscriber topicT (Registry.initial.allTopics 0),
              .respond 6, .send 5, .publish (.look ⟨5, 0⟩),
              .publish (.enter ⟨5, 0⟩),
              .publish (.next ⟨5, 0⟩ default),
              .publish (.finish ⟨5, 0⟩)]) = some final ∧
        (final.publishing.call ⟨5, 0⟩).Over ∧
        final.owed ⟨5, 0⟩ 6 = true ∧
        final.handlers.quit 6 = false ∧
        ((final.publishing.call ⟨5, 0⟩).senders.map Sender.fd).count 6 =
          0 ∧
        final.publishing.sentTo ⟨5, 0⟩ 6 = 0 := by
  have seen :
      (run (Broker.step .secuencial (fun _ => blankMessage)) initial
        ([.store 4 .subscriber topicT (Registry.initial.allTopics 0),
          .respond 4, .count 4,
          .store 5 .publisher topicT (Registry.initial.allTopics 0),
          .respond 5, .count 5,
          .store 6 .subscriber topicT (Registry.initial.allTopics 0),
          .respond 6, .send 5, .publish (.look ⟨5, 0⟩),
          .publish (.enter ⟨5, 0⟩), .publish (.next ⟨5, 0⟩ default),
          .publish (.finish ⟨5, 0⟩)])).map
        (fun final =>
          ((final.publishing.call ⟨5, 0⟩).stage, final.owed ⟨5, 0⟩ 6,
            final.handlers.quit 6,
            ((final.publishing.call ⟨5, 0⟩).senders.map
              Sender.fd).count 6,
            final.publishing.sentTo ⟨5, 0⟩ 6)) =
        some (.returned, true, false, 0, 0) := by
    decide +kernel
  obtain ⟨final, reached, views⟩ := Option.map_eq_some_iff.mp seen
  simp only [Prod.mk.injEq] at views
  obtain ⟨returned, owed, unquit, notRead, notSent⟩ := views
  exact
    ⟨final, reached, Or.inl returned, owed, unquit, notRead, notSent⟩

end Broker

end SistemasDistribuidos.Practica4
