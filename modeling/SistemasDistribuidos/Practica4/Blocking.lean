import SistemasDistribuidos.Practica4.Atomic
import SistemasDistribuidos.Practica4.Barrier
import SistemasDistribuidos.Practica4.Broker

/-!
# JUSTO while clients come and go

The number of threads of a publish is read before `mutex2` is taken, and every
thread compares `just_threads` with the number of subscribers at the moment it
arrives.  The two agree only by chance once clients register or unregister in
between.  A publish gets out of its barrier when its last thread passes, or
while a thread that was woken has still to leave; if its last thread waits
with nobody to wake it, `mutex2` is never released again.
-/

namespace SistemasDistribuidos.Practica4

open SistemasDistribuidos Machine

/-- Whoever waits in a loop has somebody to wake it. -/
def Call.Covered (call : Call) : Prop :=
  ∀ topicId count index, call.stage = .loop topicId count index →
    0 < call.number .waiting →
      0 < call.number .started ∨ index < count ∨
        0 < call.number .woken + call.number .leaving

theorem Call.covered_of_nobody
    {call : Call} (nobody : call.number .waiting = 0) : call.Covered := by
  intro _ _ _ _ waits
  omega

namespace Publishing

/-- `mutex2` is held by a publish whose threads have all been started, and
those of them that are not done wait on `just_condition`. -/
def Stuck (publishing : Publishing) : Prop :=
  ∃ id topicId count,
    publishing.mutex2 = some id ∧
      (publishing.call id).stage = .loop topicId count count ∧
      (∃ sender ∈ (publishing.call id).senders,
        sender.phase = .waiting) ∧
      ∀ sender ∈ (publishing.call id).senders,
        sender.phase = .waiting ∨ sender.phase = .done

/-- All threads of the call have been started, and one has still to
arrive. -/
def LastArrival (publishing : Publishing) (id : CallId) : Prop :=
  (∃ topicId count,
      (publishing.call id).stage = .loop topicId count count) ∧
    (publishing.call id).number .started = 1

instance (publishing : Publishing) (id : CallId) :
    Decidable (publishing.LastArrival id) :=
  match stage : (publishing.call id).stage with
  | .loop topicId count index =>
      decidable_of_iff
        (index = count ∧ (publishing.call id).number .started = 1)
        (by simp [LastArrival, stage, eq_comm])
  | .idle => isFalse (by simp [LastArrival, stage])
  | .looked _ _ => isFalse (by simp [LastArrival, stage])
  | .returned => isFalse (by simp [LastArrival, stage])

/-- The last thread of a publish finds that enough have arrived, or one that
was woken will leave after it. -/
def Released (messages : CallId → Message) (registry : Registry)
    (publishing : Publishing) : PublishAction → Prop
  | .arrive id _ =>
      publishing.LastArrival id →
        registry.numSubscribers (messages id).topic ≤
            publishing.justThreads + 1 ∨
          0 < (publishing.call id).number .woken
  | _ => True

instance (messages : CallId → Message) (registry : Registry)
    (publishing : Publishing) :
    ∀ action, Decidable (publishing.Released messages registry action)
  | .arrive _ _ => inferInstanceAs (Decidable (_ → _ ∨ _))
  | .look _ => inferInstanceAs (Decidable True)
  | .enter _ => inferInstanceAs (Decidable True)
  | .next _ _ => inferInstanceAs (Decidable True)
  | .finish _ => inferInstanceAs (Decidable True)
  | .reacquire _ _ => inferInstanceAs (Decidable True)
  | .leave _ _ => inferInstanceAs (Decidable True)
  | .transmit _ _ _ => inferInstanceAs (Decidable True)

/-- A thread of the call waits, and none is left that will broadcast. -/
structure Blocked (publishing : Publishing) (id : CallId) : Prop where
  held : publishing.mutex2 = some id
  spawned : ∃ topicId count,
    (publishing.call id).stage = .loop topicId count count
  waiting : 0 < (publishing.call id).number .waiting
  started : (publishing.call id).number .started = 0
  woken : (publishing.call id).number .woken = 0
  leaving : (publishing.call id).number .leaving = 0

section Covered

variable {messages : CallId → Message} {registry : Registry}
  {publishing after : Publishing}

theorem Covered.not_stuck
    (covered : ∀ id, (publishing.call id).Covered) :
    ¬ publishing.Stuck := by
  intro given
  rcases given with
    ⟨id, topicId, count, _, loops, ⟨sender, listed, waiting⟩, others⟩
  have somebody :=
    covered id topicId count count loops
      (Call.number_pos_iff.mpr ⟨sender, listed, waiting⟩)
  have nobody :
      ∀ phase : SenderPhase, phase ≠ .waiting → phase ≠ .done →
        (publishing.call id).number phase = 0 := by
    intro phase notWaiting notDone
    by_contra positive
    obtain ⟨other, otherListed, here⟩ :=
      Call.number_pos_iff.mp (Nat.pos_of_ne_zero positive)
    rcases others other otherListed with waits | done
    · exact notWaiting (here.symm.trans waits)
    · exact notDone (here.symm.trans done)
  rw [nobody .started SenderPhase.noConfusion SenderPhase.noConfusion,
    nobody .woken SenderPhase.noConfusion SenderPhase.noConfusion,
    nobody .leaving SenderPhase.noConfusion SenderPhase.noConfusion]
    at somebody
  omega

/-- A step after which the last arrival has not gone wrong keeps every waiting
thread covered, whatever the registry is. -/
theorem Covered.step
    (barrier : publishing.Barrier)
    (covered : ∀ id, (publishing.call id).Covered)
    {action : PublishAction}
    (released : publishing.Released messages registry action)
    (taken :
      publishing.step .justo messages registry action = some after) :
    ∀ id, (after.call id).Covered := by
  -- a step that changes the call `id` and no other
  have single :
      ∀ (id : CallId) (call : Call),
        after.call = Function.update publishing.call id call →
          call.Covered → ∀ other, (after.call other).Covered := by
    intro id call moved callCovered other
    rw [moved]
    by_cases same : other = id
    · rw [same, Function.update_self]
      exact callCovered
    · rw [Function.update_of_ne same]
      exact covered other
  cases action with
  | look id =>
      obtain ⟨_, _, rfl⟩ := step_look taken
      refine single id _ rfl ?_
      intro _ _ _ impossible
      cases impossible
  | enter id =>
      obtain ⟨topicId, count, looked, outcome⟩ := step_enter taken
      have nobody := barrier.early id (Or.inr ⟨topicId, count, looked⟩)
      rcases outcome with ⟨_, rfl⟩ | ⟨_, _, rfl⟩ <;>
        exact
          single id _ rfl
            (Call.covered_of_nobody (Call.number_of_nil nobody _))
  | next id stack =>
      obtain ⟨_, _, _, _, _, rfl⟩ := step_next taken
      refine single id _ rfl ?_
      intro _ _ _ _ _
      left
      rw [Call.number_append]
      simp [firstPhase]
  | finish id =>
      obtain ⟨_, _, _, _, _, _, rfl⟩ := step_finish taken
      refine single id _ rfl ?_
      intro _ _ _ impossible
      cases impossible
  | arrive id thread =>
      obtain ⟨sender, here, started, unlocked, outcome⟩ :=
        step_arrive taken
      have someStarted :=
        Call.number_pos_iff.mpr ⟨sender, List.mem_of_getElem? here, started⟩
      rcases outcome with ⟨fewer, rfl⟩ | ⟨_, rfl⟩
      · refine single id _ rfl ?_
        intro topicId count index loops _
        have startedMoved := Call.number_setPhase here .waiting .started
        have wokenMoved := Call.number_setPhase here .waiting .woken
        simp only [started, reduceCtorEq, if_true, if_false]
          at startedMoved wokenMoved
        have most := (barrier.looping id topicId count index loops).2
        by_cases last :
            index = count ∧ (publishing.call id).number .started = 1
        · obtain ⟨rfl, single⟩ := last
          have woken :=
            released ⟨⟨topicId, index, loops⟩, single⟩
          omega
        · omega
      · refine single id _ rfl ?_
        intro _ _ _ _ _
        have leavingMoved := Call.number_setPhase here .leaving .leaving
        simp only [started, reduceCtorEq, if_true, if_false]
          at leavingMoved
        omega
  | reacquire id thread =>
      obtain ⟨sender, here, woken, _, rfl⟩ := step_reacquire taken
      refine single id _ rfl ?_
      intro _ _ _ _ _
      have leavingMoved := Call.number_setPhase here .leaving .leaving
      simp only [woken, reduceCtorEq, if_true, if_false] at leavingMoved
      omega
  | leave id thread =>
      obtain ⟨sender, here, leaving, rfl⟩ := step_leave taken
      intro other
      exact Call.covered_of_nobody (Call.number_wake _ .waiting)
  | transmit id thread stack =>
      obtain ⟨sender, here, sending, rfl⟩ := step_transmit taken
      refine single id _ rfl ?_
      intro topicId count index loops waits
      have startedMoved := Call.number_setPhase here .done .started
      have waitingMoved := Call.number_setPhase here .done .waiting
      have wokenMoved := Call.number_setPhase here .done .woken
      have leavingMoved := Call.number_setPhase here .done .leaving
      simp only [sending, reduceCtorEq, if_false]
        at startedMoved waitingMoved wokenMoved leavingMoved
      have before := covered id topicId count index loops (by omega)
      omega

/-- Once the threads that are sending are done, a blocked publish is stuck. -/
theorem Blocked.stuck
    {id : CallId} (blocked : publishing.Blocked id)
    (sent : (publishing.call id).number .sending = 0) :
    publishing.Stuck := by
  obtain ⟨topicId, count, spawned⟩ := blocked.spawned
  refine
    ⟨id, topicId, count, blocked.held, spawned,
      Call.number_pos_iff.mp blocked.waiting, ?_⟩
  intro sender listed
  have somebody := Call.number_pos_iff.mpr ⟨sender, listed, rfl⟩
  cases phase : sender.phase with
  | waiting => exact Or.inl rfl
  | done => exact Or.inr rfl
  | started =>
      rw [phase, blocked.started] at somebody
      cases somebody
  | woken =>
      rw [phase, blocked.woken] at somebody
      cases somebody
  | leaving =>
      rw [phase, blocked.leaving] at somebody
      cases somebody
  | sending =>
      rw [phase, sent] at somebody
      cases somebody

/-- A sender of a blocked publish sends, and the publish stays blocked. -/
theorem Blocked.transmit
    {id : CallId} (blocked : publishing.Blocked id)
    {thread : Nat} {sender : Sender}
    (here : (publishing.call id).senders[thread]? = some sender)
    (sending : sender.phase = .sending) (stack : Buffer) :
    (publishing.transmit messages id thread sender stack).Blocked id ∧
      ((publishing.transmit messages id thread sender stack).call
            id).number .sending + 1 =
        (publishing.call id).number .sending := by
  have own :
      (publishing.transmit messages id thread sender stack).call id =
        (publishing.call id).setPhase thread sender .done :=
    Function.update_self _ _ _
  have startedMoved := Call.number_setPhase here .done .started
  have waitingMoved := Call.number_setPhase here .done .waiting
  have wokenMoved := Call.number_setPhase here .done .woken
  have leavingMoved := Call.number_setPhase here .done .leaving
  have sendingMoved := Call.number_setPhase here .done .sending
  simp only [sending, reduceCtorEq, if_true, if_false, Nat.add_zero]
    at startedMoved waitingMoved wokenMoved leavingMoved sendingMoved
  rw [own]
  refine ⟨⟨blocked.held, ?_, ?_, ?_, ?_, ?_⟩, sendingMoved⟩
  · rw [own]
    exact blocked.spawned
  · rw [own, waitingMoved]
    exact blocked.waiting
  · rw [own, startedMoved]
    exact blocked.started
  · rw [own, wokenMoved]
    exact blocked.woken
  · rw [own, leavingMoved]
    exact blocked.leaving

/-- A last arrival that waits with no woken thread blocks the publish. -/
theorem Blocked.of_arrival
    (barrier : publishing.Barrier)
    {id : CallId} {thread : Nat}
    (short : ¬ publishing.Released messages registry (.arrive id thread))
    (taken :
      publishing.step .justo messages registry (.arrive id thread) =
        some after) :
    after.Blocked id := by
  simp only [Released, not_forall, not_or, exists_prop] at short
  obtain ⟨⟨spawned, last⟩, fewer, notWoken⟩ := short
  obtain ⟨sender, here, started, unlocked, outcome⟩ := step_arrive taken
  have held :=
    barrier.holder_of_sender (List.mem_of_getElem? here)
      (by rw [started]; exact SenderPhase.noConfusion)
  have notLeaving : (publishing.call id).number .leaving = 0 := by
    by_contra positive
    obtain ⟨other, listed, leaving⟩ :=
      Call.number_pos_iff.mp (Nat.pos_of_ne_zero positive)
    obtain ⟨index, there⟩ := List.mem_iff_getElem?.mp listed
    have locked :=
      (barrier.lock id index).mpr (by rw [phaseAt, there, ← leaving]; rfl)
    rw [unlocked] at locked
    cases locked
  rcases outcome with ⟨_, rfl⟩ | ⟨enough, _⟩
  · have own :
        ((publishing.setPhase id thread sender .waiting).call id) =
          (publishing.call id).setPhase thread sender .waiting :=
      Function.update_self _ _ _
    have startedMoved := Call.number_setPhase here .waiting .started
    have waitingMoved := Call.number_setPhase here .waiting .waiting
    have wokenMoved := Call.number_setPhase here .waiting .woken
    have leavingMoved := Call.number_setPhase here .waiting .leaving
    simp only [started, reduceCtorEq, if_true, if_false]
      at startedMoved waitingMoved wokenMoved leavingMoved
    refine ⟨held, ?_, ?_, ?_, ?_, ?_⟩ <;> simp only [own]
    · exact spawned
    · omega
    · omega
    · omega
    · omega
  · omega

end Covered

end Publishing

namespace Broker

/-- The condition on the last arrival, at the current registry. -/
def Released (messages : CallId → Message) (broker : Broker) :
    BrokerAction → Prop
  | .publish action =>
      broker.publishing.Released messages broker.handlers.registry action
  | _ => True

section Runs

variable {messages : CallId → Message} {broker final : Broker}

theorem barrier_of_run
    {actions : List BrokerAction}
    (reached :
      run (Broker.step .justo messages) initial actions = some final) :
    final.publishing.Barrier := by
  have preserved :
      ∀ (state : Broker) (action : BrokerAction) (next : Broker),
        state.publishing.Barrier →
          Broker.step .justo messages state action = some next →
            next.publishing.Barrier := by
    intro state action next barrier taken
    rcases step_cases taken with
      ⟨handlers, rfl⟩ | ⟨publisher, rfl⟩ |
        ⟨publishAction, publishing, rfl, published, rfl⟩
    · exact barrier
    · exact barrier
    · exact barrier.step published
  exact
    invariant_of_any_run preserved Publishing.barrier_initial reached

theorem covered_of_run
    {actions : List BrokerAction}
    (released :
      Obeys (Broker.step .justo messages) (Released messages) initial
        actions)
    (reached :
      run (Broker.step .justo messages) initial actions = some final) :
    ∀ id, (final.publishing.call id).Covered := by
  have preserved :
      ∀ (state : Broker) (action : BrokerAction) (next : Broker),
        (state.publishing.Barrier ∧
            ∀ id, (state.publishing.call id).Covered) →
          Released messages state action →
            Broker.step .justo messages state action = some next →
              next.publishing.Barrier ∧
                ∀ id, (next.publishing.call id).Covered := by
    rintro state action next ⟨barrier, covered⟩ guard taken
    rcases step_cases taken with
      ⟨handlers, rfl⟩ | ⟨publisher, rfl⟩ |
        ⟨publishAction, publishing, rfl, published, rfl⟩
    · exact ⟨barrier, covered⟩
    · exact ⟨barrier, covered⟩
    · exact
        ⟨barrier.step published,
          Publishing.Covered.step barrier covered guard published⟩
  have initially :
      initial.publishing.Barrier ∧
        ∀ id, (initial.publishing.call id).Covered :=
    ⟨Publishing.barrier_initial, fun _ => Call.covered_of_nobody rfl⟩
  exact (invariant_of_run preserved initially released reached).2

/-- A blocked publish becomes stuck by sending what is left to send. -/
theorem stuck_of_blocked (messages : CallId → Message) :
    ∀ (left : Nat) (broker : Broker) {id : CallId},
      broker.publishing.Blocked id →
        (broker.publishing.call id).number .sending = left →
          ∃ more later,
            run (Broker.step .justo messages) broker more = some later ∧
              later.publishing.Stuck
  | 0, broker, _, blocked, nobody =>
      ⟨[], broker, rfl, blocked.stuck nobody⟩
  | left + 1, broker, id, blocked, somebody => by
      obtain ⟨sender, listed, phase⟩ :=
        Call.number_pos_iff.mp (show
          0 < (broker.publishing.call id).number .sending by omega)
      obtain ⟨thread, here⟩ := List.mem_iff_getElem?.mp listed
      let sent :=
        broker.publishing.transmit messages id thread sender default
      obtain ⟨stillBlocked, fewer⟩ :
          sent.Blocked id ∧
            (sent.call id).number .sending + 1 =
              (broker.publishing.call id).number .sending :=
        blocked.transmit here phase default
      obtain ⟨more, later, reached, stuck⟩ :=
        stuck_of_blocked messages left (broker.publish sent) stillBlocked
          (Nat.succ.inj (fewer.trans somebody))
      refine
        ⟨.publish (.transmit id thread default) :: more, later, ?_, stuck⟩
      rw [run_cons, Broker.step, Publishing.step]
      · simp only [here, phase, if_true, Option.map_some, Option.bind_some]
        exact reached
      · exact fun _ => PublishAction.noConfusion

/-- JUSTO never blocks for good in a run in which the last thread of every
publish passes or finds a woken one; and a last thread that does neither can
always be followed by a state that is stuck. -/
theorem never_stuck
    {actions : List BrokerAction}
    (reached :
      run (Broker.step .justo messages) initial actions = some final) :
    (Obeys (Broker.step .justo messages) (Released messages) initial
          actions →
        ¬ final.publishing.Stuck) ∧
      ∀ id thread next,
        Broker.step .justo messages final (.publish (.arrive id thread)) =
            some next →
          ¬ Released messages final (.publish (.arrive id thread)) →
            ∃ more later,
              run (Broker.step .justo messages) next more = some later ∧
                later.publishing.Stuck := by
  constructor
  · intro released
    exact Publishing.Covered.not_stuck (covered_of_run released reached)
  · intro id thread next taken short
    obtain ⟨publishing, published, rfl, _⟩ := step_publish taken
    have blocked :=
      Publishing.Blocked.of_arrival (barrier_of_run reached) short published
    exact stuck_of_blocked messages _ _ blocked rfl

end Runs

/-- The publish begins and starts its only thread. -/
def oneThread : List BrokerAction :=
  oneSend ++
    [.publish (.look ⟨5, 0⟩), .publish (.enter ⟨5, 0⟩),
      .publish (.next ⟨5, 0⟩ default)]

theorem never_stuck_one :
    ∃ final,
      run (Broker.step .justo (fun _ => blankMessage)) initial
            (oneThread ++ [.publish (.arrive ⟨5, 0⟩ 0)]) = some final ∧
        ¬ final.publishing.Stuck := by
  have seen :
      (run (Broker.step .justo (fun _ => blankMessage)) initial
        oneThread).map
        (fun middle =>
          (decide
            (middle.handlers.registry.numSubscribers topicT ≤
              middle.publishing.justThreads + 1),
          (Broker.step .justo (fun _ => blankMessage) middle
            (.publish (.arrive ⟨5, 0⟩ 0))).isSome)) =
        some (true, true) := by
    decide +kernel
  obtain ⟨middle, begun, views⟩ := Option.map_eq_some_iff.mp seen
  obtain ⟨enough, arrives⟩ := Prod.mk.inj views
  obtain ⟨final, arrived⟩ := Option.isSome_iff_exists.mp arrives
  have reached :
      run (Broker.step .justo (fun _ => blankMessage)) initial
        (oneThread ++ [.publish (.arrive ⟨5, 0⟩ 0)]) = some final :=
    run_append_eq_some.mpr
      ⟨middle, begun, (run_singleton middle _).trans arrived⟩
  refine ⟨final, reached, (never_stuck reached).1 ?_⟩
  refine
    (obeys_of_always _ ?_).append begun
      (Obeys.cons arrived (fun _ => Or.inl (of_decide_eq_true enough))
        trivial)
  intro action listed state
  simp only [oneThread, oneSend, List.cons_append, List.nil_append,
    List.mem_cons, List.not_mem_nil, or_false] at listed
  rcases listed with rfl | rfl | rfl | rfl | rfl | rfl | rfl | rfl |
    rfl | rfl <;> trivial

/-- A second subscriber registers between the lookup and the barrier: the only
thread of the publish waits for a second one. -/
theorem justo_blocks :
    ∃ final,
      run (Broker.step .justo (fun _ => blankMessage)) initial
            (oneSend ++
              [.publish (.look ⟨5, 0⟩),
                .store 6 .subscriber topicT
                  (Registry.initial.allTopics 0),
                .respond 6, .count 6, .publish (.enter ⟨5, 0⟩),
                .publish (.next ⟨5, 0⟩ default),
                .publish (.arrive ⟨5, 0⟩ 0)]) = some final ∧
        final.publishing.Stuck := by
  have seen :
      (run (Broker.step .justo (fun _ => blankMessage)) initial
        (oneSend ++
          [.publish (.look ⟨5, 0⟩),
            .store 6 .subscriber topicT (Registry.initial.allTopics 0),
            .respond 6, .count 6, .publish (.enter ⟨5, 0⟩),
            .publish (.next ⟨5, 0⟩ default),
            .publish (.arrive ⟨5, 0⟩ 0)])).map
        (fun final =>
          (final.publishing.mutex2,
            (final.publishing.call ⟨5, 0⟩).stage,
            (final.publishing.call ⟨5, 0⟩).senders)) =
        some (some ⟨5, 0⟩, .loop 0 1 1, [⟨4, .waiting⟩]) := by
    decide +kernel
  obtain ⟨final, reached, views⟩ := Option.map_eq_some_iff.mp seen
  simp only [Prod.mk.injEq] at views
  obtain ⟨held, loops, senders⟩ := views
  refine ⟨final, reached, ⟨5, 0⟩, 0, 1, held, loops, ?_, ?_⟩
  · rw [senders]
    exact ⟨_, List.mem_singleton_self _, rfl⟩
  · rw [senders]
    intro sender listed
    rw [List.mem_singleton.mp listed]
    exact Or.inl rfl

end Broker

end SistemasDistribuidos.Practica4
