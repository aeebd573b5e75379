import SistemasDistribuidos.Practica4.Barrier

/-!
# How the senders of a call get done

A sender takes at most five steps: it arrives, waits, is woken, leaves and
sends.  What its call has left to do falls with each of them, and no other
step adds to it once all senders have been started.  While one of them is not
done, one of them can take a step, unless all of them wait.
-/

namespace SistemasDistribuidos.Practica4

open SistemasDistribuidos SlotArray Machine

/-- How many steps a sender still takes, at most. -/
def SenderPhase.left : SenderPhase → Nat
  | .started => 5
  | .waiting => 4
  | .woken => 3
  | .leaving => 2
  | .sending => 1
  | .done => 0

/-- How many steps `publish_msg` still takes, at most, counting all steps of the
senders it has not started: one into its loop, six for each subscriber, and one
to return. -/
def Stage.left : Stage → Nat
  | .idle => 0
  | .looked _ count => 6 * count + 2
  | .loop _ count index => 6 * (count - index) + 1
  | .returned => 0

/-- The call that the step belongs to. -/
def PublishAction.call : PublishAction → CallId
  | .look id => id
  | .enter id => id
  | .next id _ => id
  | .finish id => id
  | .arrive id _ => id
  | .reacquire id _ => id
  | .leave id _ => id
  | .transmit id _ _ => id

/-- The step is one of a sender of the call. -/
def PublishAction.bySender (id : CallId) : PublishAction → Bool
  | .arrive other _ => other = id
  | .reacquire other _ => other = id
  | .leave other _ => other = id
  | .transmit other _ _ => other = id
  | _ => false

theorem PublishAction.call_of_bySender
    {action : PublishAction} {id : CallId}
    (bySender : action.bySender id = true) :
    action.call = id ∧ ∀ other, action ≠ .look other := by
  cases action with
  | arrive _ _ | reacquire _ _ | leave _ _ | transmit _ _ _ =>
      exact ⟨of_decide_eq_true bySender, fun _ => PublishAction.noConfusion⟩
  | _ => cases bySender

namespace Call

/-- How many steps the senders of a call still take, at most. -/
def left (call : Call) : Nat :=
  5 * call.number .started + 4 * call.number .waiting +
    3 * call.number .woken + 2 * call.number .leaving + call.number .sending

section Left

variable {call : Call} {thread : Nat} {sender : Sender}

theorem left_setPhase
    (here : call.senders[thread]? = some sender) (phase : SenderPhase) :
    (call.setPhase thread sender phase).left + sender.phase.left =
      call.left + phase.left := by
  have started := number_setPhase here phase .started
  have waiting := number_setPhase here phase .waiting
  have woken := number_setPhase here phase .woken
  have leaving := number_setPhase here phase .leaving
  have sending := number_setPhase here phase .sending
  unfold left
  cases before : sender.phase <;> cases phase <;>
    simp only [before, reduceCtorEq, if_true, if_false]
      at started waiting woken leaving sending <;>
    simp only [SenderPhase.left] <;> omega

theorem left_wake_le (call : Call) : call.wake.left ≤ call.left := by
  simp only [left, number_wake]
  omega

theorem left_append (call : Call) (stage : Stage) (fd : Fd) :
    left ⟨stage, call.senders ++ [⟨fd, .started⟩]⟩ = call.left + 5 := by
  simp only [left, number_append, reduceCtorEq, if_true, if_false]
  omega

theorem left_of_nil (nobody : call.senders = []) : call.left = 0 := by
  simp [left, number_of_nil nobody]

theorem left_le (call : Call) : call.left ≤ 5 * call.senders.length := by
  have total := call.number_total
  unfold left
  omega

/-- A sender is not done. -/
theorem exists_of_not_allDone (notAllDone : ¬ call.AllDone) :
    ∃ sender ∈ call.senders, sender.phase ≠ .done := by
  by_contra nobody
  apply notAllDone
  intro sender listed
  by_contra notDone
  exact nobody ⟨sender, listed, notDone⟩

end Left

end Call

namespace Publishing

section Steps

variable {mode : Mode} {messages : CallId → Message}
  {registry : Registry} {publishing after : Publishing} {id : CallId}

/-- What the senders of the other calls have left does not grow, and a step of
a sender leaves its own call one step less. -/
theorem left_setPhase
    {other : CallId} {thread : Nat} {sender : Sender} {phase : SenderPhase}
    (here : (publishing.call other).senders[thread]? = some sender)
    (fewer : phase.left < sender.phase.left) :
    ((publishing.setPhase other thread sender phase).call id).left +
        (if decide (other = id) then 1 else 0) ≤
      (publishing.call id).left := by
  by_cases same : other = id
  · subst same
    have moved := Call.left_setPhase here phase
    simp only [Publishing.setPhase, setCall, Function.update_self,
      decide_true, if_true]
    omega
  · simp only [Publishing.setPhase, setCall,
      Function.update_of_ne (Ne.symm same), same, decide_false,
      Bool.false_eq_true, if_false, Nat.add_zero, le_refl]

/-- No step but the start of another sender adds to what is left. -/
theorem left_step
    {action : PublishAction}
    (taken :
      publishing.step mode messages registry action = some after)
    (complete : ∀ stack, action ≠ .next id stack) :
    (after.call id).left + (if action.bySender id then 1 else 0) ≤
      (publishing.call id).left := by
  -- a step of `publish_msg` itself that leaves the senders alone
  have unmoved :
      ∀ (other : CallId) (call : Call),
        after.call = Function.update publishing.call other call →
          call.senders = (publishing.call other).senders →
            (after.call id).left + 0 ≤ (publishing.call id).left := by
    intro other call moved same
    rw [moved]
    by_cases here : id = other
    · rw [here, Function.update_self, Call.left, Call.left]
      simp only [Call.number, same, Nat.add_zero, le_refl]
    · rw [Function.update_of_ne here]
      exact le_rfl
  cases action with
  | look other =>
      obtain ⟨_, _, rfl⟩ := step_look taken
      exact unmoved other _ rfl rfl
  | enter other =>
      obtain ⟨_, _, _, ⟨_, rfl⟩ | ⟨_, _, rfl⟩⟩ := step_enter taken
      · exact unmoved other _ rfl rfl
      · exact unmoved other _ rfl rfl
  | next other stack =>
      obtain ⟨_, _, _, _, _, rfl⟩ := step_next taken
      have different : id ≠ other := by
        intro same
        subst same
        exact complete stack rfl
      simp only [Publishing.next, setCall, Function.update_of_ne different,
        PublishAction.bySender, Bool.false_eq_true, if_false, Nat.add_zero,
        le_refl]
  | finish other =>
      obtain ⟨_, _, _, _, _, _, rfl⟩ := step_finish taken
      exact unmoved other _ rfl rfl
  | arrive other thread =>
      obtain ⟨sender, here, started, _, outcome⟩ := step_arrive taken
      rcases outcome with ⟨_, rfl⟩ | ⟨_, rfl⟩
      · exact left_setPhase here (by rw [started]; decide)
      · exact left_setPhase here (by rw [started]; decide)
  | reacquire other thread =>
      obtain ⟨sender, here, woken, _, rfl⟩ := step_reacquire taken
      exact left_setPhase here (by rw [woken]; decide)
  | leave other thread =>
      obtain ⟨sender, here, leaving, rfl⟩ := step_leave taken
      have moved :
          ((publishing.setPhase other thread sender .sending).call id).left +
              (if decide (other = id) then 1 else 0) ≤
            (publishing.call id).left :=
        left_setPhase here (by rw [leaving]; decide)
      have woken :=
        ((publishing.setPhase other thread sender .sending).call
          id).left_wake_le
      exact (Nat.add_le_add_right woken _).trans moved
  | transmit other thread stack =>
      obtain ⟨sender, here, sending, rfl⟩ := step_transmit taken
      exact left_setPhase here (by rw [sending]; decide)

/-- While `mutex` is free, every sender that is neither done nor waiting can
move. -/
theorem Barrier.exists_step_of_sender
    (barrier : publishing.Barrier)
    (unlocked : publishing.mutex = none)
    {sender : Sender} (listed : sender ∈ (publishing.call id).senders)
    (notDone : sender.phase ≠ .done)
    (notWaiting : sender.phase ≠ .waiting) :
    ∃ action : PublishAction,
      action.bySender id = true ∧
        ∃ after,
          publishing.step .justo messages registry action = some after := by
  obtain ⟨thread, here⟩ := List.mem_iff_getElem?.mp listed
  cases phase : sender.phase with
  | started =>
      exact
        ⟨.arrive id thread, decide_eq_true rfl, by
          simp [Publishing.step, here, phase, unlocked]⟩
  | waiting => exact absurd phase notWaiting
  | woken =>
      exact
        ⟨.reacquire id thread, decide_eq_true rfl, by
          simp [Publishing.step, here, phase, unlocked]⟩
  | leaving =>
      have locked :=
        (barrier.lock id thread).mpr (by
          rw [phaseAt, here, ← phase]
          rfl)
      rw [unlocked] at locked
      cases locked
  | sending =>
      exact
        ⟨.transmit id thread default, decide_eq_true rfl, by
          simp [Publishing.step, here, phase]⟩
  | done => exact absurd phase notDone

/-- As long as its senders are not done, one of them can take a step, when
those that wait have somebody to wake them. -/
theorem Barrier.exists_step
    (barrier : publishing.Barrier)
    (woken :
      0 < (publishing.call id).number .waiting →
        0 < (publishing.call id).number .started ∨
          0 < (publishing.call id).number .woken +
            (publishing.call id).number .leaving)
    (notAllDone : ¬ (publishing.call id).AllDone) :
    ∃ action : PublishAction,
      action.bySender id = true ∧
        ∃ after,
          publishing.step .justo messages registry action = some after := by
  obtain ⟨sender, listed, notDone⟩ := Call.exists_of_not_allDone notAllDone
  have held := barrier.holder_of_sender listed notDone
  cases locked : publishing.mutex with
  | some owner =>
      -- whoever holds `mutex` can leave
      obtain ⟨leaver, here, leaving⟩ :=
        Option.map_eq_some_iff.mp
          ((barrier.lock owner.1 owner.2).mp locked)
      have ownerHeld :=
        barrier.holder_of_sender (List.mem_of_getElem? here)
          (by rw [leaving]; exact SenderPhase.noConfusion)
      rw [held] at ownerHeld
      have own : owner.1 = id := (Option.some.inj ownerHeld).symm
      exact
        ⟨.leave owner.1 owner.2, decide_eq_true own, by
          simp [Publishing.step, here, leaving]⟩
  | none =>
      by_cases waiting : sender.phase = .waiting
      · have others :=
          woken (Call.number_pos_iff.mpr ⟨sender, listed, waiting⟩)
        have other :
            0 < (publishing.call id).number .started ∨
              0 < (publishing.call id).number .woken ∨
              0 < (publishing.call id).number .leaving := by
          omega
        rcases other with here | here | here <;>
          obtain ⟨mover, moverListed, phase⟩ :=
            Call.number_pos_iff.mp here <;>
          exact
            barrier.exists_step_of_sender locked moverListed
              (by rw [phase]; exact SenderPhase.noConfusion)
              (by rw [phase]; exact SenderPhase.noConfusion)
      · exact
          barrier.exists_step_of_sender locked listed notDone waiting

end Steps

/-- The threads of PARALELO have nothing to do but send. -/
def Direct (publishing : Publishing) : Prop :=
  ∀ id, ∀ sender ∈ (publishing.call id).senders,
    sender.phase = .sending ∨ sender.phase = .done

section Direct

variable {messages : CallId → Message} {registry : Registry}
  {publishing after : Publishing} {id : CallId}

theorem direct_initial : initial.Direct := fun _ => nofun

/-- One call changes. -/
theorem Direct.of_call
    (direct : publishing.Direct) {call : Call}
    (moved : after.call = Function.update publishing.call id call)
    (callDirect :
      ∀ sender ∈ call.senders,
        sender.phase = .sending ∨ sender.phase = .done) :
    after.Direct := by
  intro other
  rw [moved]
  by_cases same : other = id
  · rw [same, Function.update_self]
    exact callDirect
  · rw [Function.update_of_ne same]
    exact direct other

/-- Where all senders are sending or done, none is at the barrier. -/
theorem Direct.phase_eq
    (direct : publishing.Direct)
    {thread : Nat} {sender : Sender} {phase : SenderPhase}
    (here : (publishing.call id).senders[thread]? = some sender)
    (stands : sender.phase = phase) :
    phase = .sending ∨ phase = .done := by
  rw [← stands]
  exact direct id sender (List.mem_of_getElem? here)

theorem Direct.step
    (direct : publishing.Direct) {action : PublishAction}
    (taken :
      publishing.step .paralelo messages registry action = some after) :
    after.Direct := by
  cases action with
  | look id =>
      obtain ⟨_, _, rfl⟩ := step_look taken
      exact direct.of_call rfl (direct id)
  | enter id =>
      obtain ⟨_, _, _, ⟨impossible, _⟩ | ⟨impossible, _⟩⟩ :=
        step_enter taken <;>
        cases impossible
  | next id stack =>
      obtain ⟨_, _, _, _, _, rfl⟩ := step_next taken
      refine direct.of_call rfl ?_
      intro sender listed
      rcases List.mem_append.mp listed with before | new
      · exact direct id sender before
      · rw [List.mem_singleton.mp new]
        exact Or.inl rfl
  | finish id =>
      obtain ⟨_, _, _, _, _, _, rfl⟩ := step_finish taken
      exact direct.of_call rfl (direct id)
  | arrive id thread =>
      obtain ⟨_, here, started, _⟩ := step_arrive taken
      rcases direct.phase_eq here started with impossible | impossible <;>
        cases impossible
  | reacquire id thread =>
      obtain ⟨_, here, woken, _⟩ := step_reacquire taken
      rcases direct.phase_eq here woken with impossible | impossible <;>
        cases impossible
  | leave id thread =>
      obtain ⟨_, here, leaving, _⟩ := step_leave taken
      rcases direct.phase_eq here leaving with impossible | impossible <;>
        cases impossible
  | transmit id thread stack =>
      obtain ⟨sender, _, _, rfl⟩ := step_transmit taken
      refine direct.of_call rfl ?_
      intro other listed
      rcases List.mem_or_eq_of_mem_set listed with before | moved
      · exact direct id other before
      · rw [moved]
        exact Or.inr rfl

/-- As long as the senders of a call are not done, one of them can send. -/
theorem Direct.exists_step
    (direct : publishing.Direct)
    (notAllDone : ¬ (publishing.call id).AllDone) :
    ∃ action : PublishAction,
      action.bySender id = true ∧
        ∃ after,
          publishing.step .paralelo messages registry action =
            some after := by
  obtain ⟨sender, listed, notDone⟩ := Call.exists_of_not_allDone notAllDone
  obtain ⟨thread, here⟩ := List.mem_iff_getElem?.mp listed
  have sending := (direct.phase_eq here rfl).resolve_right notDone
  exact
    ⟨.transmit id thread default, decide_eq_true rfl, by
      simp [Publishing.step, here, sending]⟩

end Direct

end Publishing

end SistemasDistribuidos.Practica4
