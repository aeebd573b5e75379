import SistemasDistribuidos.Practica4.Modes
import SistemasDistribuidos.Practica4.Senders

/-!
# JUSTO while no client comes or goes

With the registry fixed, the number of threads a publish starts is the number
that each of them waits for.  So nobody is let through before all have
arrived, a thread that waits always has somebody to wake it, and some thread
can take a step as long as a publish is unfinished.  A publish takes a bounded
number of steps, and from every state in which it is unfinished it can return.
-/

namespace SistemasDistribuidos.Practica4

open SistemasDistribuidos SlotArray Machine

namespace Call

/-- The senders that have been let through. -/
def released (call : Call) : Nat :=
  call.number .woken + call.number .leaving + call.number .sending +
    call.number .done

/-- Of the `total` threads of a call, none is let through before all have
arrived, and whoever waits has somebody to wake it. -/
structure Counted (total : Nat) (call : Call) : Prop where
  released : 0 < call.released →
    call.senders.length = total ∧ call.number .started = 0
  waits : 0 < call.number .waiting →
    0 < call.number .started ∨ call.senders.length < total ∨
      0 < call.number .woken + call.number .leaving

section Counted

variable {total : Nat} {call : Call} {thread : Nat} {sender : Sender}

theorem counted_of_nil
    (nobody : call.senders = []) : call.Counted total where
  released := by
    simp [Call.released, number_of_nil nobody]
  waits := by
    simp [number_of_nil nobody]

theorem Counted.of_senders
    (counted : call.Counted total) {other : Call}
    (same : other.senders = call.senders) :
    other.Counted total := by
  have numbers : ∀ phase, other.number phase = call.number phase := by
    intro phase
    rw [number, number, same]
  constructor
  · simpa only [Call.released, numbers, same] using counted.released
  · simpa only [numbers, same] using counted.waits

theorem Counted.started
    (counted : call.Counted total)
    (here : call.senders[thread]? = some sender)
    (started : sender.phase = .started) :
    call.released = 0 ∧ 0 < call.number .started := by
  have some :=
    number_pos_iff.mpr ⟨sender, List.mem_of_getElem? here, started⟩
  have onlyLater := counted.released
  omega

/-- A thread that arrives and finds too few others waits. -/
theorem Counted.wait
    (counted : call.Counted total)
    (here : call.senders[thread]? = some sender)
    (started : sender.phase = .started)
    (fewer : call.inside + 1 < total) :
    (call.setPhase thread sender .waiting).Counted total := by
  have nobody := counted.started here started
  have all := call.number_total
  have startedMoved := number_setPhase here .waiting .started
  have waitingMoved := number_setPhase here .waiting .waiting
  have wokenMoved := number_setPhase here .waiting .woken
  have leavingMoved := number_setPhase here .waiting .leaving
  have sendingMoved := number_setPhase here .waiting .sending
  have doneMoved := number_setPhase here .waiting .done
  simp only [started, reduceCtorEq, if_true, if_false]
    at startedMoved waitingMoved wokenMoved leavingMoved sendingMoved doneMoved
  simp only [Call.released, inside] at nobody fewer
  constructor
  · simp only [Call.released, length_setPhase]
    omega
  · simp only [length_setPhase]
    omega

/-- A thread that arrives and finds enough others is the last one. -/
theorem Counted.pass
    (counted : call.Counted total)
    (here : call.senders[thread]? = some sender)
    (started : sender.phase = .started)
    (enough : total ≤ call.inside + 1)
    (most : call.senders.length ≤ total) :
    (call.setPhase thread sender .leaving).Counted total := by
  have nobody := counted.started here started
  have all := call.number_total
  have startedMoved := number_setPhase here .leaving .started
  have leavingMoved := number_setPhase here .leaving .leaving
  simp only [started, reduceCtorEq, if_true, if_false]
    at startedMoved leavingMoved
  simp only [Call.released, inside] at nobody enough
  constructor
  · simp only [length_setPhase]
    omega
  · omega

/-- Later moves of a thread that has been let through. -/
theorem Counted.move
    (counted : call.Counted total)
    (here : call.senders[thread]? = some sender)
    {phase : SenderPhase}
    (moves :
      (sender.phase = .woken ∧ phase = .leaving) ∨
        (sender.phase = .sending ∧ phase = .done)) :
    (call.setPhase thread sender phase).Counted total := by
  have startedMoved := number_setPhase here phase .started
  have waitingMoved := number_setPhase here phase .waiting
  have wokenMoved := number_setPhase here phase .woken
  have leavingMoved := number_setPhase here phase .leaving
  have sendingMoved := number_setPhase here phase .sending
  have doneMoved := number_setPhase here phase .done
  have before := counted.released
  have waits := counted.waits
  simp only [Call.released] at before
  rcases moves with ⟨old, new⟩ | ⟨old, new⟩ <;>
    simp only [old, new, reduceCtorEq, if_true, if_false]
      at startedMoved waitingMoved wokenMoved leavingMoved sendingMoved
        doneMoved <;>
    subst new <;>
    constructor <;>
    simp only [Call.released, length_setPhase] <;>
    omega

/-- The broadcast lets everybody through. -/
theorem Counted.leave
    (counted : call.Counted total)
    (here : call.senders[thread]? = some sender)
    (leaving : sender.phase = .leaving) :
    (call.setPhase thread sender .sending).wake.Counted total := by
  have some :=
    number_pos_iff.mpr ⟨sender, List.mem_of_getElem? here, leaving⟩
  have startedMoved := number_setPhase here .sending .started
  simp only [leaving, reduceCtorEq, if_false] at startedMoved
  have before := counted.released
  simp only [Call.released] at before
  constructor
  · simp only [number_wake, length_wake, length_setPhase]
    omega
  · simp [number_wake]

theorem Counted.wake
    (counted : call.Counted total)
    (nobody : call.number .waiting = 0) :
    call.wake.Counted total := by
  have before := counted.released
  simp only [Call.released] at before
  constructor
  · simp only [Call.released, number_wake, length_wake]
    omega
  · simp [number_wake]

/-- One more thread is started. -/
theorem Counted.append
    (counted : call.Counted total)
    (more : call.senders.length < total) (stage : Stage) (fd : Fd) :
    Counted total ⟨stage, call.senders ++ [⟨fd, .started⟩]⟩ := by
  have before := counted.released
  simp only [Call.released] at before
  constructor
  · simp only [Call.released, number_append, reduceCtorEq, if_true,
      if_false]
    omega
  · simp only [number_append, reduceCtorEq, if_true, if_false]
    omega

end Counted

end Call

namespace Publishing

/-- JUSTO with a fixed registry. -/
structure Meeting (messages : CallId → Message) (registry : Registry)
    (publishing : Publishing) : Prop where
  regular : publishing.Regular .justo messages registry
  barrier : publishing.Barrier
  counted : ∀ id,
    (publishing.call id).Counted
      (registry.receivers (messages id).topic).length

section Meeting

variable {messages : CallId → Message} {registry : Registry}
  {publishing after : Publishing}

theorem meeting_initial : initial.Meeting messages registry where
  regular := regular_initial
  barrier := barrier_initial
  counted := fun _ => Call.counted_of_nil rfl

theorem Meeting.length_le
    (meeting : publishing.Meeting messages registry) (id : CallId) :
    (publishing.call id).senders.length ≤
      (registry.receivers (messages id).topic).length := by
  have issued := (meeting.regular.calls id).issued
  rw [← List.length_map Sender.fd]
  unfold Call.Issued at issued
  split at issued
  · simp [issued]
  · simp [issued.1]
  · rw [issued.2.2.2]
    exact List.length_take_le' _ _
  · rw [issued]

/-- One call changes and stays counted. -/
theorem Meeting.of_call
    (meeting : publishing.Meeting messages registry)
    {action : PublishAction}
    (taken :
      publishing.step .justo messages registry action = some after)
    (id : CallId)
    (others : ∀ other, other ≠ id →
      (after.call other).senders = (publishing.call other).senders ∨
        after.call other = (publishing.call other).wake ∧
          (publishing.call other).number .waiting = 0)
    (counted :
      (after.call id).Counted
        (registry.receivers (messages id).topic).length) :
    after.Meeting messages registry where
  regular := meeting.regular.step taken
  barrier := meeting.barrier.step taken
  counted := by
    intro other
    by_cases same : other = id
    · subst same
      exact counted
    · rcases others other same with unchanged | ⟨woken, nobody⟩
      · exact (meeting.counted other).of_senders unchanged
      · rw [woken]
        exact (meeting.counted other).wake nobody

theorem Meeting.step
    (meeting : publishing.Meeting messages registry)
    {action : PublishAction}
    (taken :
      publishing.step .justo messages registry action = some after) :
    after.Meeting messages registry := by
  -- a step that changes the call `id` and no other
  have single :
      ∀ (id : CallId) (call : Call),
        after.call = Function.update publishing.call id call →
          call.Counted
              (registry.receivers (messages id).topic).length →
            after.Meeting messages registry := by
    intro id call moved counted
    refine
      meeting.of_call taken id (fun other different => Or.inl ?_) ?_
    · rw [moved, Function.update_of_ne different]
    · rw [moved, Function.update_self]
      exact counted
  cases action with
  | look id =>
      obtain ⟨_, _, rfl⟩ := step_look taken
      exact single id _ rfl ((meeting.counted id).of_senders rfl)
  | enter id =>
      obtain ⟨_, _, _, ⟨_, rfl⟩ | ⟨_, _, rfl⟩⟩ := step_enter taken
      · exact single id _ rfl ((meeting.counted id).of_senders rfl)
      · exact single id _ rfl ((meeting.counted id).of_senders rfl)
  | next id stack =>
      obtain ⟨_, _, _, loops, within, rfl⟩ := step_next taken
      have issued := (meeting.regular.calls id).issued
      rw [Call.Issued, loops] at issued
      have spawned := (meeting.barrier.looping id _ _ _ loops).1
      have total :
          (registry.receivers (messages id).topic).length =
            (registry.numSubscribers (messages id).topic).toNat :=
        length_occupied _ _
      exact
        single id _ rfl
          ((meeting.counted id).append (by omega) _ _)
  | finish id =>
      obtain ⟨_, _, _, _, _, _, rfl⟩ := step_finish taken
      exact single id _ rfl ((meeting.counted id).of_senders rfl)
  | arrive id thread =>
      obtain ⟨sender, here, started, _, outcome⟩ := step_arrive taken
      have held :=
        meeting.barrier.holder_of_sender (List.mem_of_getElem? here)
          (by rw [started]; exact SenderPhase.noConfusion)
      have threads := meeting.barrier.threads id held
      have total :
          (registry.receivers (messages id).topic).length =
            (registry.numSubscribers (messages id).topic).toNat :=
        length_occupied _ _
      have most := meeting.length_le id
      rcases outcome with ⟨fewer, rfl⟩ | ⟨enough, rfl⟩
      · exact
          single id _ rfl
            ((meeting.counted id).wait here started (by omega))
      · exact
          single id _ rfl
            ((meeting.counted id).pass here started (by omega) most)
  | reacquire id thread =>
      obtain ⟨_, here, woken, _, rfl⟩ := step_reacquire taken
      exact
        single id _ rfl
          ((meeting.counted id).move here (Or.inl ⟨woken, rfl⟩))
  | leave id thread =>
      obtain ⟨sender, here, leaving, rfl⟩ := step_leave taken
      have held :=
        meeting.barrier.holder_of_sender (List.mem_of_getElem? here)
          (by rw [leaving]; exact SenderPhase.noConfusion)
      refine
        meeting.of_call taken id
          (fun other different => Or.inr ⟨?_, ?_⟩) ?_
      · simp [Publishing.leave, Publishing.setPhase, setCall, different]
      · by_contra somebody
        obtain ⟨waiter, listed, waiting⟩ :=
          Call.number_pos_iff.mp (Nat.pos_of_ne_zero somebody)
        have otherHeld :=
          meeting.barrier.holder_of_sender listed
            (by rw [waiting]; exact SenderPhase.noConfusion)
        rw [held] at otherHeld
        exact different (Option.some.inj otherHeld).symm
      · have own :
            (publishing.leave id thread sender).call id =
              ((publishing.call id).setPhase thread sender
                .sending).wake := by
          simp [Publishing.leave, Publishing.setPhase, setCall]
        rw [own]
        exact (meeting.counted id).leave here leaving
  | transmit id thread stack =>
      obtain ⟨_, here, sending, rfl⟩ := step_transmit taken
      exact
        single id _ rfl
          ((meeting.counted id).move here (Or.inr ⟨sending, rfl⟩))

theorem meeting_of_run
    {actions : List PublishAction}
    (reached :
      run (Publishing.step .justo messages registry) initial actions =
        some publishing) :
    publishing.Meeting messages registry :=
  invariant_of_any_run
    (fun _ _ _ meeting taken => meeting.step taken)
    meeting_initial reached

/-- A message has been sent only by calls whose threads have all arrived. -/
theorem Meeting.arrived
    (meeting : publishing.Meeting messages registry)
    {sent : Sent} (logged : sent ∈ publishing.log) :
    (publishing.call sent.call).senders.length =
        (registry.receivers (messages sent.call).topic).length ∧
      (publishing.call sent.call).number .started = 0 := by
  have once : 0 < publishing.sentTo sent.call sent.fd := by
    rw [sentTo, List.countP_pos_iff]
    exact ⟨sent, logged, by simp⟩
  rw [meeting.regular.logged, Call.doneFor, List.countP_pos_iff] at once
  obtain ⟨sender, listed, both⟩ := once
  have done := (of_decide_eq_true both).2
  apply (meeting.counted sent.call).released
  have positive := Call.number_pos_iff.mpr ⟨sender, listed, done⟩
  rw [Call.released]
  omega

/-- Only one call has threads inside the barrier. -/
theorem Meeting.alone
    (meeting : publishing.Meeting messages registry)
    {id : CallId} (somebody : 0 < (publishing.call id).inside) :
    publishing.mutex2 = some id := by
  have found :
      ∃ sender ∈ (publishing.call id).senders, sender.phase ≠ .done := by
    by_contra nobody
    have allDone : (publishing.call id).AllDone := by
      intro sender listed
      by_contra notDone
      exact nobody ⟨sender, listed, notDone⟩
    rw [allDone.inside_eq] at somebody
    cases somebody
  obtain ⟨sender, listed, notDone⟩ := found
  exact meeting.barrier.holder_of_sender listed notDone

/-- The call has begun and not returned. -/
def Unfinished (publishing : Publishing) (id : CallId) : Prop :=
  (publishing.call id).stage ≠ .idle ∧
    (publishing.call id).stage ≠ .returned

/-- The action begins a new call. -/
def begins : PublishAction → Prop
  | .look _ => True
  | _ => False

/-- Some thread of a publish that has begun can take a step. -/
def CanMove (messages : CallId → Message) (registry : Registry)
    (publishing : Publishing) : Prop :=
  ∃ action, ¬ begins action ∧
    ∃ after,
      publishing.step .justo messages registry action = some after

/-- The number of receivers that a call in its loop has read. -/
theorem Meeting.count_eq
    (meeting : publishing.Meeting messages registry)
    {id : CallId} {topicId count index : Nat}
    (loops : (publishing.call id).stage = .loop topicId count index) :
    count = (registry.receivers (messages id).topic).length := by
  have issued := (meeting.regular.calls id).issued
  rw [Call.Issued, loops] at issued
  rw [issued.2.1]
  exact (length_occupied _ _).symm

/-- While a publish is unfinished, the holder of `mutex2` can take a step, or
the publish itself can take `mutex2`. -/
theorem Meeting.exists_step
    (meeting : publishing.Meeting messages registry)
    {id : CallId} (unfinished : publishing.Unfinished id) :
    ∃ action after,
      ¬ begins action ∧
        publishing.step .justo messages registry action = some after ∧
        (publishing.mutex2 = some action.call ∨
          publishing.mutex2 = none ∧ action.call = id) := by
  cases held : publishing.mutex2 with
  | none =>
      -- nobody is in the loop, so the call can enter it
      cases stage : (publishing.call id).stage with
      | idle => exact absurd stage unfinished.1
      | returned => exact absurd stage unfinished.2
      | loop topicId count index =>
          have holder :=
            (meeting.barrier.holder id).mpr ⟨_, _, _, stage⟩
          rw [held] at holder
          cases holder
      | looked topicId count =>
          exact
            ⟨.enter id, publishing.enterJust id topicId count, not_false,
              by simp [Publishing.step, stage, held], Or.inr ⟨rfl, rfl⟩⟩
  | some holder =>
      obtain ⟨topicId, count, index, loops⟩ :=
        (meeting.barrier.holder holder).mp held
      by_cases more : index < count
      · exact
          ⟨.next holder default,
            publishing.next .justo messages registry holder topicId count
              index default,
            not_false, by simp [Publishing.step, loops, more], Or.inl rfl⟩
      by_cases allDone : (publishing.call holder).AllDone
      · exact
          ⟨.finish holder, publishing.finish .justo holder, not_false,
            by simp [Publishing.step, loops, more, allDone], Or.inl rfl⟩
      -- all threads have been started, so one of them will broadcast
      have spawned := (meeting.barrier.looping holder _ _ _ loops).1
      have total := meeting.count_eq loops
      have woken :
          0 < (publishing.call holder).number .waiting →
            0 < (publishing.call holder).number .started ∨
              0 < (publishing.call holder).number .woken +
                (publishing.call holder).number .leaving := by
        intro waits
        have somebody := (meeting.counted holder).waits waits
        omega
      obtain ⟨action, bySender, after, taken⟩ :=
        meeting.barrier.exists_step woken allDone
      obtain ⟨own, notLook⟩ := PublishAction.call_of_bySender bySender
      refine ⟨action, after, ?_, taken, Or.inl (by rw [own])⟩
      cases action with
      | look other => exact absurd rfl (notLook other)
      | _ => exact not_false

/-- While a publish is unfinished, some thread of a publish that has begun can
take a step. -/
theorem Meeting.progress
    (meeting : publishing.Meeting messages registry)
    {id : CallId} (unfinished : publishing.Unfinished id) :
    CanMove messages registry publishing := by
  obtain ⟨action, after, notBegins, taken, _⟩ :=
    meeting.exists_step unfinished
  exact ⟨action, notBegins, after, taken⟩

/-! ## How a publish returns -/

/-- How many steps a call that has begun still takes, at most. -/
def remaining (publishing : Publishing) (id : CallId) : Nat :=
  (publishing.call id).stage.left + (publishing.call id).left

/-- A step of a call leaves the stage of every other one alone. -/
theorem stage_of_ne
    {action : PublishAction}
    (taken :
      publishing.step .justo messages registry action = some after)
    {id : CallId} (different : id ≠ action.call) :
    (after.call id).stage = (publishing.call id).stage := by
  have moved :
      ∀ call : Call,
        (Function.update publishing.call action.call call id).stage =
          (publishing.call id).stage := by
    intro call
    rw [Function.update_of_ne different]
  cases action with
  | look other =>
      obtain ⟨_, _, rfl⟩ := step_look taken
      exact moved _
  | enter other =>
      obtain ⟨_, _, _, ⟨_, rfl⟩ | ⟨_, _, rfl⟩⟩ := step_enter taken
      · exact moved _
      · exact moved _
  | next other stack =>
      obtain ⟨_, _, _, _, _, rfl⟩ := step_next taken
      exact moved _
  | finish other =>
      obtain ⟨_, _, _, _, _, _, rfl⟩ := step_finish taken
      exact moved _
  | arrive other thread =>
      obtain ⟨_, _, _, _, ⟨_, rfl⟩ | ⟨_, rfl⟩⟩ := step_arrive taken
      · exact moved _
      · exact moved _
  | reacquire other thread =>
      obtain ⟨_, _, _, _, rfl⟩ := step_reacquire taken
      exact moved _
  | leave other thread =>
      obtain ⟨_, _, _, rfl⟩ := step_leave taken
      exact moved _
  | transmit other thread stack =>
      obtain ⟨_, _, _, rfl⟩ := step_transmit taken
      exact moved _

theorem stage_of_bySender
    {action : PublishAction} (id : CallId)
    (bySender : action.bySender id = true)
    (taken :
      publishing.step .justo messages registry action = some after) :
    (after.call id).stage = (publishing.call id).stage := by
  have moved :
      ∀ (other : CallId) (thread : Nat) (sender : Sender)
        (phase : SenderPhase),
        ((publishing.setPhase other thread sender phase).call id).stage =
          (publishing.call id).stage := by
    intro other thread sender phase
    by_cases same : id = other
    · subst same
      simp [Publishing.setPhase, setCall, Call.setPhase]
    · simp [Publishing.setPhase, setCall, same]
  cases action with
  | arrive other thread =>
      obtain ⟨_, _, _, _, ⟨_, rfl⟩ | ⟨_, rfl⟩⟩ := step_arrive taken
      · exact moved _ _ _ _
      · exact moved _ _ _ _
  | reacquire other thread =>
      obtain ⟨_, _, _, _, rfl⟩ := step_reacquire taken
      exact moved _ _ _ _
  | leave other thread =>
      obtain ⟨_, _, _, rfl⟩ := step_leave taken
      exact moved _ _ _ _
  | transmit other thread stack =>
      obtain ⟨_, _, _, rfl⟩ := step_transmit taken
      exact moved _ _ _ _
  | _ => cases bySender

/-- A call that has begun goes on, and when it returns it gives `mutex2`
back. -/
theorem stage_step
    {action : PublishAction}
    (begun : (publishing.call action.call).stage ≠ .idle)
    (taken :
      publishing.step .justo messages registry action = some after) :
    (after.call action.call).stage ≠ .idle ∧
      ((after.call action.call).stage = .returned →
        after.mutex2 = none ∨
          (publishing.call action.call).stage = .returned) := by
  cases action with
  | look id =>
      obtain ⟨idle, _⟩ := step_look taken
      exact absurd idle begun
  | enter id =>
      obtain ⟨_, _, _, ⟨_, rfl⟩ | ⟨_, _, rfl⟩⟩ := step_enter taken <;>
        simp [PublishAction.call, enterSequential, enterJust, setCall]
  | next id stack =>
      obtain ⟨_, _, _, _, _, rfl⟩ := step_next taken
      simp [PublishAction.call, Publishing.next, setCall]
  | finish id =>
      obtain ⟨_, _, _, _, _, _, rfl⟩ := step_finish taken
      simp [PublishAction.call, Publishing.finish, setCall]
  | arrive id thread | reacquire id thread | leave id thread
  | transmit id thread stack =>
      have same :=
        stage_of_bySender id (by simp [PublishAction.bySender]) taken
      simp only [PublishAction.call] at begun ⊢
      rw [same]
      exact ⟨begun, Or.inr⟩

theorem stage_ne_idle
    {action : PublishAction} {id : CallId}
    (begun : (publishing.call id).stage ≠ .idle)
    (taken :
      publishing.step .justo messages registry action = some after) :
    (after.call id).stage ≠ .idle := by
  by_cases own : id = action.call
  · rw [own] at begun ⊢
    exact (stage_step begun taken).1
  · rw [stage_of_ne taken own]
    exact begun

/-- Every step of a call that has begun leaves it less to do, and no step of
another call gives it more. -/
theorem remaining_step
    {action : PublishAction} {id : CallId}
    (begun : (publishing.call id).stage ≠ .idle)
    (taken :
      publishing.step .justo messages registry action = some after) :
    after.remaining id + (if decide (action.call = id) then 1 else 0) ≤
      publishing.remaining id := by
  have senders :
      ∀ stage,
        Call.left ⟨stage, (publishing.call id).senders⟩ =
          (publishing.call id).left :=
    fun _ => rfl
  by_cases own : action.call = id
  · subst own
    simp only [decide_true, if_true]
    cases action with
    | look id =>
        obtain ⟨idle, _⟩ := step_look taken
        exact absurd idle begun
    | enter id =>
        obtain ⟨_, _, looked, ⟨impossible, _⟩ | ⟨_, _, rfl⟩⟩ :=
          step_enter taken
        · cases impossible
        · simp only [PublishAction.call] at senders ⊢
          simp only [remaining, looked, enterJust, setCall,
            Function.update_self, senders, Stage.left]
          omega
    | next id stack =>
        obtain ⟨_, _, _, loops, inside, rfl⟩ := step_next taken
        simp only [remaining, PublishAction.call, loops, Publishing.next,
          setCall, Function.update_self, firstPhase, Call.left_append,
          Stage.left]
        omega
    | finish id =>
        obtain ⟨_, _, _, loops, _, _, rfl⟩ := step_finish taken
        simp only [PublishAction.call] at senders ⊢
        simp only [remaining, loops, Publishing.finish, setCall,
          Function.update_self, senders, Stage.left]
        omega
    | arrive id thread | reacquire id thread | leave id thread
    | transmit id thread stack =>
        have fewer :
            (after.call id).left + (if decide (id = id) then 1 else 0) ≤
              (publishing.call id).left :=
          left_step taken (fun _ => PublishAction.noConfusion)
        have same :=
          stage_of_bySender id (by simp [PublishAction.bySender]) taken
        simp only [remaining, PublishAction.call, same]
        simp only [decide_true, if_true] at fewer
        omega
  · have complete : ∀ stack, action ≠ .next id stack := by
      intro stack isNext
      rw [isNext] at own
      exact own rfl
    have fewer := (Nat.le_add_right _ _).trans (left_step taken complete)
    simp only [own, decide_false, Bool.false_eq_true, if_false,
      Nat.add_zero, remaining, stage_of_ne taken (Ne.symm own)]
    omega

/-- A call that has begun takes at most so many steps. -/
theorem countP_add_remaining_le
    {more : List PublishAction} {id : CallId}
    (begun : (publishing.call id).stage ≠ .idle)
    (onwards :
      run (Publishing.step .justo messages registry) publishing more =
        some after) :
    more.countP (fun action => action.call = id) + after.remaining id ≤
      publishing.remaining id := by
  have falls :
      ∀ (state : Publishing) (action : PublishAction) (next : Publishing),
        (state.call id).stage ≠ .idle →
          state.step .justo messages registry action = some next →
            (next.call id).stage ≠ .idle ∧
              next.remaining id +
                  (if decide (action.call = id) then 1 else 0) ≤
                state.remaining id :=
    fun state action next begun taken =>
      ⟨stage_ne_idle begun taken, remaining_step begun taken⟩
  exact (countP_add_rank_le falls begun onwards).2

/-- For each receiver, at most six steps are left. -/
theorem Meeting.remaining_le
    (meeting : publishing.Meeting messages registry) (id : CallId) :
    publishing.remaining id ≤
      6 * (registry.receivers (messages id).topic).length + 2 := by
  have issued := (meeting.regular.calls id).issued
  have senders := (publishing.call id).left_le
  have length := meeting.length_le id
  unfold remaining
  cases stage : (publishing.call id).stage with
  | idle =>
      simp only [Stage.left]
      omega
  | looked topicId count =>
      rw [Call.Issued, stage] at issued
      have total :
          (registry.receivers (messages id).topic).length =
            (registry.numSubscribers (messages id).topic).toNat :=
        length_occupied _ _
      rw [Call.left_of_nil issued.1]
      simp only [Stage.left]
      omega
  | loop topicId count index =>
      have total := meeting.count_eq stage
      have spawned := (meeting.barrier.looping id _ _ _ stage).1
      simp only [Stage.left]
      omega
  | returned =>
      simp only [Stage.left]
      omega

/-- What is left until a call returns: its own steps, and those of the call
that holds `mutex2`. -/
def pending (publishing : Publishing) (id : CallId) : Nat :=
  publishing.remaining id +
    match publishing.mutex2 with
    | some holder => if holder = id then 0 else publishing.remaining holder
    | none => 0

/-- What a step does to `mutex2`. -/
theorem mutex2_step
    {action : PublishAction}
    (taken :
      publishing.step .justo messages registry action = some after) :
    after.mutex2 = publishing.mutex2 ∨ after.mutex2 = none ∨
      publishing.mutex2 = none ∧ after.mutex2 = some action.call := by
  cases action with
  | look id =>
      obtain ⟨_, _, rfl⟩ := step_look taken
      exact Or.inl rfl
  | enter id =>
      obtain ⟨_, _, _, ⟨_, rfl⟩ | ⟨_, unheld, rfl⟩⟩ := step_enter taken
      · exact Or.inl rfl
      · exact Or.inr (Or.inr ⟨unheld, rfl⟩)
  | next id stack =>
      obtain ⟨_, _, _, _, _, rfl⟩ := step_next taken
      exact Or.inl rfl
  | finish id =>
      obtain ⟨_, _, _, _, _, _, rfl⟩ := step_finish taken
      exact Or.inr (Or.inl rfl)
  | arrive id thread =>
      obtain ⟨_, _, _, _, ⟨_, rfl⟩ | ⟨_, rfl⟩⟩ := step_arrive taken
      · exact Or.inl rfl
      · exact Or.inl rfl
  | reacquire id thread =>
      obtain ⟨_, _, _, _, rfl⟩ := step_reacquire taken
      exact Or.inl rfl
  | leave id thread =>
      obtain ⟨_, _, _, rfl⟩ := step_leave taken
      exact Or.inl rfl
  | transmit id thread stack =>
      obtain ⟨_, _, _, rfl⟩ := step_transmit taken
      exact Or.inl rfl

/-- A step of the holder of `mutex2`, or of the call itself when nobody holds
it, leaves less until the call returns. -/
theorem Meeting.pending_lt
    (meeting : publishing.Meeting messages registry) {id : CallId}
    (unfinished : publishing.Unfinished id)
    {action : PublishAction}
    (taken :
      publishing.step .justo messages registry action = some after)
    (turn :
      publishing.mutex2 = some action.call ∨
        publishing.mutex2 = none ∧ action.call = id) :
    after.pending id < publishing.pending id := by
  have own := remaining_step unfinished.1 taken
  rcases turn with held | ⟨unheld, isOwn⟩
  · obtain ⟨_, _, _, loops⟩ := (meeting.barrier.holder _).mp held
    have begun : (publishing.call action.call).stage ≠ .idle := by
      rw [loops]
      exact Stage.noConfusion
    have holders := remaining_step begun taken
    simp only [decide_true, if_true] at holders
    rcases mutex2_step taken with same | free | ⟨impossible, _⟩
    · rw [pending, pending, same, held]
      by_cases isOwn : action.call = id
      · simp only [isOwn, decide_true, if_true] at own ⊢
        omega
      · simp only [isOwn, decide_false, Bool.false_eq_true, if_false]
          at own ⊢
        omega
    · rw [pending, pending, free, held]
      by_cases isOwn : action.call = id
      · simp only [isOwn, decide_true, if_true] at own ⊢
        omega
      · simp only [isOwn, decide_false, Bool.false_eq_true, if_false]
          at own ⊢
        omega
    · rw [held] at impossible
      cases impossible
  · simp only [isOwn, decide_true, if_true] at own
    rcases mutex2_step taken with same | free | ⟨_, taking⟩
    · simp only [pending, same, unheld]
      omega
    · simp only [pending, free, unheld]
      omega
    · simp only [pending, taking, unheld, isOwn, if_true]
      omega

/-- From every state in which a call is unfinished, steps of calls that have
begun lead to one in which it has returned. -/
theorem Meeting.exists_return
    (meeting : publishing.Meeting messages registry) {id : CallId}
    (unfinished : publishing.Unfinished id) :
    ∃ more final,
      (∀ action ∈ more, ¬ begins action) ∧
        run (Publishing.step .justo messages registry) publishing more =
          some final ∧
        final.Meeting messages registry ∧
        (final.call id).stage = .returned ∧ final.mutex2 = none := by
  let Kind (state : Publishing) : Prop :=
    state.Meeting messages registry ∧
      (state.Unfinished id ∨
        (state.call id).stage = .returned ∧ state.mutex2 = none)
  have progress : ∀ state, Kind state →
      (state.Meeting messages registry ∧
          (state.call id).stage = .returned ∧ state.mutex2 = none) ∨
        ∃ action next,
          ¬ begins action ∧
            state.step .justo messages registry action = some next ∧
            Kind next ∧ next.pending id < state.pending id := by
    rintro state ⟨stateMeeting, goesOn | returned⟩
    · obtain ⟨action, next, notBegins, taken, turn⟩ :=
        stateMeeting.exists_step goesOn
      refine
        Or.inr
          ⟨action, next, notBegins, taken, ⟨stateMeeting.step taken, ?_⟩,
            stateMeeting.pending_lt goesOn taken turn⟩
      have begun := stage_ne_idle goesOn.1 taken
      by_cases returned : (next.call id).stage = .returned
      · refine Or.inr ⟨returned, ?_⟩
        by_cases own : id = action.call
        · subst own
          exact
            ((stage_step goesOn.1 taken).2 returned).resolve_right goesOn.2
        · rw [stage_of_ne taken own] at returned
          exact absurd returned goesOn.2
      · exact Or.inl ⟨begun, returned⟩
    · exact Or.inl ⟨stateMeeting, returned⟩
  have initially : Kind publishing := ⟨meeting, Or.inl unfinished⟩
  obtain ⟨more, final, obeys, onwards, reached⟩ :=
    exists_guarded_run_of_measure
      (fun state : Publishing => state.pending id) progress
      (publishing.pending id) initially le_rfl
  exact
    ⟨more, final,
      forall_mem_of_obeys (fun action => ¬ begins action)
        (fun _ _ allowed => allowed) obeys onwards,
      onwards, reached⟩

/-- The barrier of JUSTO, while no client comes or goes: nothing is sent
before all threads of the publish have arrived; two publishes never have
threads inside at once; a publish that has returned was sent to each of its
receivers, and one that has not was sent to none of them twice;
`just_threads` is zero while `mutex2` is free; and every publish that has
begun returns.  However the steps interleave, it takes only so many of them,
some step other than a new call is possible while it is unfinished, and from
there it can return without any new call, with the message sent to each of its
receivers and `mutex2` free again. -/
theorem justo_barrier
    {actions : List PublishAction}
    (reached :
      run (Publishing.step .justo messages registry) initial actions =
        some publishing) :
    (∀ sent ∈ publishing.log,
        (publishing.call sent.call).senders.length =
            (registry.receivers (messages sent.call).topic).length ∧
          (publishing.call sent.call).number .started = 0) ∧
      (∀ first second,
        0 < (publishing.call first).inside →
          0 < (publishing.call second).inside → first = second) ∧
      (∀ id fd,
        publishing.sentTo id fd ≤
            (registry.receivers (messages id).topic).count fd ∧
          ((publishing.call id).stage = .returned →
            publishing.sentTo id fd =
              (registry.receivers (messages id).topic).count fd)) ∧
      (publishing.mutex2 = none → publishing.justThreads = 0) ∧
      (∀ id, publishing.Unfinished id →
        CanMove messages registry publishing) ∧
      (∀ id, (publishing.call id).stage ≠ .idle →
        publishing.remaining id ≤
            6 * (registry.receivers (messages id).topic).length + 2 ∧
          ∀ more final,
            run (Publishing.step .justo messages registry) publishing more =
                some final →
              more.countP (fun action => action.call = id) +
                  final.remaining id ≤
                publishing.remaining id) ∧
      ∀ id, publishing.Unfinished id →
        ∃ more final,
          (∀ action ∈ more, ¬ begins action) ∧
            run (Publishing.step .justo messages registry) publishing more =
              some final ∧
            (final.call id).stage = .returned ∧ final.mutex2 = none ∧
            ∀ fd,
              final.sentTo id fd =
                (registry.receivers (messages id).topic).count fd := by
  have meeting := meeting_of_run reached
  refine
    ⟨fun sent logged => meeting.arrived logged, ?_, ?_,
      meeting.barrier.free, fun id unfinished => meeting.progress unfinished,
      ?_, ?_⟩
  · intro first second firstInside secondInside
    have firstHeld := meeting.alone firstInside
    rw [meeting.alone secondInside] at firstHeld
    exact (Option.some.inj firstHeld).symm
  · intro id fd
    refine ⟨meeting.regular.sentTo_le id fd, fun returned => ?_⟩
    exact
      meeting.regular.sentTo_finished
        ⟨returned, meeting.barrier.joined id returned⟩ fd
  · intro id begun
    exact
      ⟨meeting.remaining_le id, fun more final onwards =>
        countP_add_remaining_le begun onwards⟩
  · intro id unfinished
    obtain ⟨more, final, noneBegins, onwards, met, returned, free⟩ :=
      meeting.exists_return unfinished
    refine
      ⟨more, final, noneBegins, onwards, returned, free, fun fd => ?_⟩
    exact
      met.regular.sentTo_finished
        ⟨returned, met.barrier.joined id returned⟩ fd

end Meeting

/-- Two subscribers: the first thread waits, the second wakes it. -/
theorem justo_barrier_two :
    ∃ handlers final,
      run Request.step Handlers.initial
            [.register 4 .subscriber topicT
                (Registry.initial.allTopics 0),
              .register 6 .subscriber topicT
                (Registry.initial.allTopics 0)] = some handlers ∧
        run
            (Publishing.step .justo (fun _ => blankMessage)
              handlers.registry)
            initial
            [.look ⟨5, 0⟩, .enter ⟨5, 0⟩, .next ⟨5, 0⟩ default,
              .next ⟨5, 0⟩ default, .arrive ⟨5, 0⟩ 0, .arrive ⟨5, 0⟩ 1,
              .leave ⟨5, 0⟩ 1, .reacquire ⟨5, 0⟩ 0, .leave ⟨5, 0⟩ 0,
              .transmit ⟨5, 0⟩ 0 default, .transmit ⟨5, 0⟩ 1 default,
              .finish ⟨5, 0⟩] = some final ∧
        final.sentTo ⟨5, 0⟩ 4 =
          (handlers.registry.receivers topicT).count 4 ∧
        final.justThreads = 0 := by
  have seen :
      (run Request.step Handlers.initial
        [.register 4 .subscriber topicT
            (Registry.initial.allTopics 0),
          .register 6 .subscriber topicT
            (Registry.initial.allTopics 0)]).map
        (fun handlers =>
          (run
            (Publishing.step .justo (fun _ => blankMessage)
              handlers.registry)
            initial
            [.look ⟨5, 0⟩, .enter ⟨5, 0⟩, .next ⟨5, 0⟩ default,
              .next ⟨5, 0⟩ default, .arrive ⟨5, 0⟩ 0, .arrive ⟨5, 0⟩ 1,
              .leave ⟨5, 0⟩ 1, .reacquire ⟨5, 0⟩ 0, .leave ⟨5, 0⟩ 0,
              .transmit ⟨5, 0⟩ 0 default, .transmit ⟨5, 0⟩ 1 default,
              .finish ⟨5, 0⟩]).map
            (fun final =>
              ((final.call ⟨5, 0⟩).stage, final.mutex2))) =
        some (some (.returned, none)) := by
    decide +kernel
  obtain ⟨handlers, reached, views⟩ := Option.map_eq_some_iff.mp seen
  obtain ⟨final, published, view⟩ := Option.map_eq_some_iff.mp views
  obtain ⟨returned, unheld⟩ := Prod.mk.inj view
  obtain ⟨_, _, delivered, free, _⟩ := justo_barrier published
  exact
    ⟨handlers, final, reached, published,
      (delivered ⟨5, 0⟩ 4).2 returned, free unheld⟩

end Publishing

end SistemasDistribuidos.Practica4
