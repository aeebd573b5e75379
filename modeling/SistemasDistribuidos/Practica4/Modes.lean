import SistemasDistribuidos.Practica4.Atomic
import SistemasDistribuidos.Practica4.Issued

/-!
# The three modes agree

In a registry that was reached by handling requests one at a time, the
descriptors a call goes through are those of the live subscribers of its
topic.  Whatever the mode and the order of the threads, a call that has
returned and whose senders are done has sent its message to each of them once.
-/

namespace SistemasDistribuidos.Practica4

open SistemasDistribuidos SlotArray Machine

namespace Handlers

section Settled

variable {handlers : Handlers} {topic : TopicName}

/-- A call on an existing topic goes through its live subscribers. -/
theorem Settled.receivers_eq
    (settled : handlers.Settled)
    (known : topic ∈ handlers.registry.table.names) :
    handlers.registry.receivers topic =
      (membersOf handlers.roster topic .subscriber).map Client.fd := by
  have inside := Registry.getTopicId_lt_iff.mpr known
  have named := Registry.name_getTopicId inside
  have counted :
      handlers.registry.numSubscribers topic =
        (membersOf handlers.roster topic .subscriber).length := by
    have here := settled.count_eq inside .subscriber
    rw [named] at here
    exact here
  have fits :
      (membersOf handlers.roster topic .subscriber).length ≤
        maxSubscribers :=
    settled.consistent.holds.fits topic .subscriber
  have slots := settled.consistent.holds.slots _ inside .subscriber
  rw [named] at slots
  conv_rhs => rw [← slots]
  rw [Registry.receivers, counted, Int.toNat_natCast, occupied, occupied,
    List.map_map]
  apply List.map_congr_left
  intro index listed
  rw [List.mem_range] at listed
  simp only [Topic.subscriberAt, Function.comp_apply, Topic.clients,
    if_pos (listed.trans_le fits)]

theorem Settled.receivers_nodup
    (settled : handlers.Settled)
    (known : topic ∈ handlers.registry.table.names) :
    (handlers.registry.receivers topic).Nodup := by
  rw [settled.receivers_eq known]
  exact
    fds_membersOf_nodup settled.consistent.rosterFds topic .subscriber

theorem Settled.mem_receivers
    (settled : handlers.Settled)
    (known : topic ∈ handlers.registry.table.names) {fd : Fd} :
    fd ∈ handlers.registry.receivers topic ↔
      ∃ id, handlers.phase fd = .serving ⟨.subscriber, topic, id, fd⟩ := by
  rw [settled.receivers_eq known]
  simp only [List.mem_map, mem_membersOf]
  constructor
  · intro given
    rcases given with ⟨client, ⟨member, enrolled, rfl, kind, rfl⟩, rfl⟩
    refine ⟨member.id, ?_⟩
    rw [← kind]
    exact (settled.mem_roster member).mp enrolled
  · intro given
    rcases given with ⟨id, serving⟩
    exact
      ⟨_, ⟨⟨.subscriber, topic, id, fd⟩,
        (settled.mem_roster _).mpr serving, rfl, rfl, rfl⟩, rfl⟩

end Settled

end Handlers

namespace Publishing

/-- What the subscribers have received of a call: for each `send` the
descriptor, the time and the string. -/
def received (publishing : Publishing) (id : CallId) :
    List (Fd × Timespec × List UInt8) :=
  (publishing.log.filter (fun sent => sent.call = id)).map
    (fun sent =>
      (sent.fd, sent.publish.timeGeneratedData, sent.publish.text))

/-- The call has returned and all its senders have sent. -/
def Finished (publishing : Publishing) (id : CallId) : Prop :=
  (publishing.call id).stage = .returned ∧ (publishing.call id).AllDone

instance (publishing : Publishing) (id : CallId) :
    Decidable (publishing.Finished id) :=
  inferInstanceAs (Decidable (_ ∧ _))

section Received

variable {mode : Mode} {messages : CallId → Message}
  {registry : Registry} {publishing : Publishing} {id : CallId}

theorem regular_of_run
    {actions : List PublishAction}
    (reached :
      run (step mode messages registry) initial actions =
        some publishing) :
    publishing.Regular mode messages registry :=
  invariant_of_any_run
    (fun _ _ _ regular taken => regular.step taken)
    regular_initial reached

/-- A finished call has served every receiver as often as it is listed. -/
theorem Regular.sentTo_finished
    (regular : publishing.Regular mode messages registry)
    (finished : publishing.Finished id) (fd : Fd) :
    publishing.sentTo id fd =
      (registry.receivers (messages id).topic).count fd := by
  have issued := (regular.calls id).issued
  rw [Call.Issued, finished.1] at issued
  rw [regular.logged, finished.2.doneFor_eq, issued]

/-- A call never serves a receiver more often than it is listed. -/
theorem Regular.sentTo_le
    (regular : publishing.Regular mode messages registry)
    (id : CallId) (fd : Fd) :
    publishing.sentTo id fd ≤
      (registry.receivers (messages id).topic).count fd := by
  rw [regular.logged]
  refine (Call.doneFor_le _ fd).trans ?_
  have issued := (regular.calls id).issued
  unfold Call.Issued at issued
  split at issued
  · simp [issued]
  · simp [issued.1]
  · rw [issued.2.2.2]
    exact (List.take_sublist _ _).count_le fd
  · exact (congrArg (List.count fd) issued).le

/-- The descriptors in the log of a finished call are the receivers. -/
theorem Regular.received_finished
    (regular : publishing.Regular mode messages registry)
    (finished : publishing.Finished id) :
    (publishing.received id).Perm
      ((registry.receivers (messages id).topic).map
        (fun fd =>
          (fd, (messages id).data.timeGeneratedData,
            (messages id).data.text))) := by
  have descriptors :
      ((publishing.log.filter (fun sent => sent.call = id)).map
        Sent.fd).Perm (registry.receivers (messages id).topic) := by
    rw [List.perm_iff_count]
    intro fd
    rw [← regular.sentTo_finished finished fd, List.count, List.countP_map,
      List.countP_filter, sentTo]
    apply List.countP_congr
    intro sent _
    simp [and_comm]
  have same :
      publishing.received id =
        ((publishing.log.filter (fun sent => sent.call = id)).map
          Sent.fd).map
            (fun fd =>
              (fd, (messages id).data.timeGeneratedData,
                (messages id).data.text)) := by
    rw [received, List.map_map]
    apply List.map_congr_left
    intro sent listed
    obtain ⟨logged, ofCall⟩ := List.mem_filter.mp listed
    have ofCall : sent.call = id := of_decide_eq_true ofCall
    obtain ⟨time, text⟩ := regular.payload sent logged
    rw [ofCall] at time text
    simp only [Function.comp_apply, time, text]
  rw [same]
  exact descriptors.map _

end Received

end Publishing

namespace Handlers

open Publishing in
/-- For every reachable registry, every message on an existing topic and every
order of the threads: what a finished call has sent does not depend on the
mode, and is the time and the string of the message, once to each live
subscriber of the topic. -/
theorem modes_agree
    {requests : List Request} {handlers : Handlers}
    (admissible : Obeys Request.step Admissible initial requests)
    (reached : run Request.step initial requests = some handlers)
    (messages : CallId → Message) (id : CallId)
    (known : (messages id).topic ∈ handlers.registry.table.names)
    {first second : Mode}
    {firstActions secondActions : List PublishAction}
    {firstFinal secondFinal : Publishing}
    (firstReached :
      run (Publishing.step first messages handlers.registry)
        Publishing.initial firstActions = some firstFinal)
    (secondReached :
      run (Publishing.step second messages handlers.registry)
        Publishing.initial secondActions = some secondFinal)
    (firstFinished : firstFinal.Finished id)
    (secondFinished : secondFinal.Finished id) :
    (firstFinal.received id).Perm (secondFinal.received id) ∧
      ∃ subscribers : List Fd,
        subscribers.Nodup ∧
          (∀ fd, fd ∈ subscribers ↔
            ∃ subscriberId,
              handlers.phase fd =
                .serving
                  ⟨.subscriber, (messages id).topic, subscriberId,
                    fd⟩) ∧
          (firstFinal.received id).Perm
            (subscribers.map
              (fun fd =>
                (fd, (messages id).data.timeGeneratedData,
                  (messages id).data.text))) := by
  have settled := settled_of_run admissible reached
  have firstReceived :=
    (regular_of_run firstReached).received_finished firstFinished
  have secondReceived :=
    (regular_of_run secondReached).received_finished secondFinished
  exact
    ⟨firstReceived.trans secondReceived.symm,
      handlers.registry.receivers (messages id).topic,
      settled.receivers_nodup known,
      fun fd => settled.mem_receivers known, firstReceived⟩

/-- Three subscribers and a publisher register, and the first subscriber
leaves. -/
def twoRemain : List Request :=
  [.register 4 .subscriber topicT (Registry.initial.allTopics 0),
    .register 6 .subscriber topicT (Registry.initial.allTopics 0),
    .register 5 .publisher topicT (Registry.initial.allTopics 0),
    .register 8 .subscriber topicT (Registry.initial.allTopics 0),
    .unregister 4 topicT 1 0 ⟨topicT, 0, 0⟩]

/-- The steps of a call to two subscribers in JUSTO: the first thread waits,
and the second one wakes it and overtakes it. -/
def justSteps (id : CallId) : List PublishAction :=
  [.look id, .enter id, .next id default, .next id default, .arrive id 0,
    .arrive id 1, .leave id 1, .transmit id 1 default, .reacquire id 0,
    .leave id 0, .transmit id 0 default, .finish id]

/-- The same in PARALELO, where the call returns before its threads send. -/
def parallelSteps (id : CallId) : List PublishAction :=
  [.look id, .next id default, .next id default, .finish id,
    .transmit id 0 default, .transmit id 1 default]

theorem modes_agree_two :
    ∃ handlers just parallel,
      run Request.step initial twoRemain = some handlers ∧
        run
            (Publishing.step .justo (fun _ => blankMessage)
              handlers.registry)
            Publishing.initial (justSteps ⟨5, 0⟩) = some just ∧
        run
            (Publishing.step .paralelo (fun _ => blankMessage)
              handlers.registry)
            Publishing.initial (parallelSteps ⟨5, 0⟩) = some parallel ∧
        (just.received ⟨5, 0⟩).Perm (parallel.received ⟨5, 0⟩) := by
  have wellBehaved :
      Obeys Request.step Request.WellBehaved initial twoRemain := by
    decide +kernel
  have seen :
      (run Request.step initial twoRemain).map
        (fun handlers =>
          (decide (topicT ∈ handlers.registry.table.names),
            (run
              (Publishing.step .justo (fun _ => blankMessage)
                handlers.registry)
              Publishing.initial (justSteps ⟨5, 0⟩)).map
                (fun final => decide (final.Finished ⟨5, 0⟩)),
            (run
              (Publishing.step .paralelo (fun _ => blankMessage)
                handlers.registry)
              Publishing.initial (parallelSteps ⟨5, 0⟩)).map
                (fun final => decide (final.Finished ⟨5, 0⟩)))) =
        some (true, some true, some true) := by
    decide +kernel
  obtain ⟨handlers, reached, views⟩ := Option.map_eq_some_iff.mp seen
  simp only [Prod.mk.injEq, Option.map_eq_some_iff, decide_eq_true_eq]
    at views
  obtain ⟨known, ⟨just, justReached, justFinished⟩,
    ⟨parallel, parallelReached, parallelFinished⟩⟩ := views
  exact
    ⟨handlers, just, parallel, reached, justReached, parallelReached,
      (modes_agree (admissible_of_few wellBehaved (by decide)) reached
        (fun _ => blankMessage) ⟨5, 0⟩ known justReached parallelReached
        justFinished parallelFinished).1⟩

end Handlers

end SistemasDistribuidos.Practica4
