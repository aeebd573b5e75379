import SistemasDistribuidos.Practica4.Issued
import SistemasDistribuidos.Practica4.Senders
import SistemasDistribuidos.Practica4.Window

/-!
# How a call whose loop has ended gets done

Such a call starts no more senders.  Each of those it has started takes at most
five steps, and as long as they are not all done one of them can take its next.
In JUSTO this rests on the last arrival, which must not be one that waits for
ever.
-/

namespace SistemasDistribuidos.Practica4

open SistemasDistribuidos SlotArray Machine

namespace Call

theorem Over.of_stage
    {call other : Call} (isOver : call.Over)
    (stage : other.stage = call.stage) : other.Over := by
  rw [Over, stage]
  exact isOver

/-- A call with something left to read is not over. -/
theorem not_over
    {call : Call}
    (unfinished :
      call.stage = .idle ∨
        (∃ topicId count, call.stage = .looked topicId count) ∨
        ∃ topicId count index,
          call.stage = .loop topicId count index ∧ index < count) :
    ¬ call.Over := by
  rintro (returned | ⟨topicId, count, index, looping, atEnd⟩)
  · rw [returned] at unfinished
    rcases unfinished with
      impossible | ⟨_, _, impossible⟩ | ⟨_, _, _, impossible, _⟩ <;>
      cases impossible
  · rw [looping] at unfinished
    rcases unfinished with
      impossible | ⟨_, _, impossible⟩ | ⟨_, _, _, same, inside⟩
    · cases impossible
    · cases impossible
    · cases same
      exact atEnd inside

end Call

namespace Publishing

section Over

variable {mode : Mode} {messages : CallId → Message}
  {registry : Registry} {publishing next : Publishing} {id : CallId}

/-- A call that is over is not one that still goes on. -/
theorem ne_of_over
    {other : CallId} (isOver : (publishing.call id).Over)
    (notOver : ¬ (publishing.call other).Over) : id ≠ other := by
  intro same
  rw [same] at isOver
  exact notOver isOver

theorem over_of_same
    (isOver : (publishing.call id).Over)
    (same : next.call id = publishing.call id) :
    (next.call id).Over ∧
      (next.call id).senders.map Sender.fd =
        (publishing.call id).senders.map Sender.fd := by
  rw [same]
  exact ⟨isOver, rfl⟩

theorem over_setPhase
    (isOver : (publishing.call id).Over)
    {other : CallId} {thread : Nat} {sender : Sender}
    (here :
      (publishing.call other).senders[thread]? = some sender)
    (phase : SenderPhase) :
    ((publishing.setPhase other thread sender phase).call id).Over ∧
      ((publishing.setPhase other thread sender phase).call
          id).senders.map Sender.fd =
        (publishing.call id).senders.map Sender.fd := by
  by_cases same : id = other
  · subst same
    have moved :
        (publishing.setPhase id thread sender phase).call id =
          (publishing.call id).setPhase thread sender phase :=
      Function.update_self _ _ _
    rw [moved]
    exact ⟨isOver.of_stage rfl, Call.fds_setPhase here phase⟩
  · exact over_of_same isOver (Function.update_of_ne same _ _)

/-- No step of a call or of a sender reopens a loop. -/
theorem over_step
    {action : PublishAction}
    (taken :
      publishing.step mode messages registry action = some next)
    (isOver : (publishing.call id).Over) :
    (next.call id).Over ∧
      (next.call id).senders.map Sender.fd =
        (publishing.call id).senders.map Sender.fd := by
  cases action with
  | look other =>
      obtain ⟨idle, _, rfl⟩ := step_look taken
      have different := ne_of_over isOver (Call.not_over (Or.inl idle))
      exact over_of_same isOver (Function.update_of_ne different _ _)
  | enter other =>
      obtain ⟨topicId, count, looked, outcome⟩ := step_enter taken
      have different :=
        ne_of_over isOver
          (Call.not_over (Or.inr (Or.inl ⟨topicId, count, looked⟩)))
      rcases outcome with ⟨_, rfl⟩ | ⟨_, _, rfl⟩ <;>
        exact over_of_same isOver (Function.update_of_ne different _ _)
  | next other stack =>
      obtain ⟨topicId, count, index, looping, inside, rfl⟩ :=
        step_next taken
      have different :=
        ne_of_over isOver
          (Call.not_over
            (Or.inr (Or.inr ⟨topicId, count, index, looping, inside⟩)))
      exact over_of_same isOver (Function.update_of_ne different _ _)
  | finish other =>
      obtain ⟨_, _, _, _, _, _, rfl⟩ := step_finish taken
      by_cases same : id = other
      · subst same
        have moved :
            (publishing.finish mode id).call id =
              { publishing.call id with stage := .returned } :=
          Function.update_self _ _ _
        rw [moved]
        exact ⟨Or.inl rfl, rfl⟩
      · exact over_of_same isOver (Function.update_of_ne same _ _)
  | arrive other thread =>
      obtain ⟨sender, here, _, _, outcome⟩ := step_arrive taken
      rcases outcome with ⟨_, rfl⟩ | ⟨_, rfl⟩
      · exact over_setPhase isOver here .waiting
      · exact over_setPhase isOver here .leaving
  | reacquire other thread =>
      obtain ⟨sender, here, _, _, rfl⟩ := step_reacquire taken
      exact over_setPhase isOver here .leaving
  | leave other thread =>
      obtain ⟨sender, here, _, rfl⟩ := step_leave taken
      obtain ⟨moved, fds⟩ := over_setPhase isOver here .sending
      exact ⟨moved.of_stage rfl, (Call.fds_wake _).trans fds⟩
  | transmit other thread stack =>
      obtain ⟨sender, here, _, rfl⟩ := step_transmit taken
      exact over_setPhase isOver here .done

end Over

end Publishing

/-- The step is one of a sender of the call. -/
def BrokerAction.bySender (id : CallId) : BrokerAction → Bool
  | .publish action => action.bySender id
  | _ => false

namespace Broker

/-- What the senders of each mode can rely on. -/
structure Flowing (mode : Mode) (messages : CallId → Message)
    (broker : Broker) : Prop
    extends broker.publishing.Recorded mode messages where
  direct : mode = .paralelo → broker.publishing.Direct
  barrier : mode = .justo → broker.publishing.Barrier
  covered : mode = .justo → ∀ id, (broker.publishing.call id).Covered

section Flowing

variable {mode : Mode} {messages : CallId → Message}
  {broker next : Broker} {id : CallId}

theorem flowing_initial : initial.Flowing mode messages where
  toRecorded := Publishing.recorded_initial
  direct := fun _ => Publishing.direct_initial
  barrier := fun _ => Publishing.barrier_initial
  covered := fun _ _ => Call.covered_of_nobody rfl

theorem Flowing.step
    (flowing : broker.Flowing mode messages)
    {action : BrokerAction}
    (timely : broker.Timely mode messages action)
    (taken : broker.step mode messages action = some next) :
    next.Flowing mode messages := by
  rcases step_cases taken with
    ⟨handlers, rfl⟩ | ⟨publisher, rfl⟩ |
      ⟨publishAction, publishing, rfl, published, rfl⟩
  · exact
      ⟨flowing.toRecorded, flowing.direct, flowing.barrier,
        flowing.covered⟩
  · exact
      ⟨flowing.toRecorded, flowing.direct, flowing.barrier,
        flowing.covered⟩
  · refine ⟨flowing.toRecorded.step published, ?_, ?_, ?_⟩
    · intro parallel
      subst parallel
      exact (flowing.direct rfl).step published
    · intro just
      subst just
      exact (flowing.barrier rfl).step published
    · intro just
      subst just
      exact
        Publishing.Covered.step (flowing.barrier rfl)
          (flowing.covered rfl) (timely.1 rfl) published

/-- A sender moves whatever the handlers do. -/
theorem step_of_bySender
    {action : PublishAction} (bySender : action.bySender id = true)
    {publishing : Publishing}
    (published :
      broker.publishing.step mode messages broker.handlers.registry
          action = some publishing) :
    broker.step mode messages (.publish action) =
      some (broker.publish publishing) := by
  cases action with
  | arrive _ _ | reacquire _ _ | leave _ _ | transmit _ _ _ =>
      rw [Broker.step]
      · rw [published, Option.map_some]
      · exact fun _ => PublishAction.noConfusion
  | _ => cases bySender

/-- As long as the senders of a call whose loop has ended are not done, one of
them can take a step. -/
theorem Flowing.exists_step
    (flowing : broker.Flowing mode messages)
    (isOver : (broker.publishing.call id).Over)
    (notAllDone : ¬ (broker.publishing.call id).AllDone) :
    ∃ action next,
      action.bySender id = true ∧
        broker.step mode messages (.publish action) = some next := by
  have lifted :
      (∃ action : PublishAction,
        action.bySender id = true ∧
          ∃ after,
            broker.publishing.step mode messages broker.handlers.registry
                action = some after) →
        ∃ action next,
          action.bySender id = true ∧
            broker.step mode messages (.publish action) = some next := by
    rintro ⟨action, bySender, after, published⟩
    exact
      ⟨action, broker.publish after, bySender,
        step_of_bySender bySender published⟩
  cases mode with
  | secuencial => exact absurd (flowing.sequential rfl id) notAllDone
  | paralelo => exact lifted ((flowing.direct rfl).exists_step notAllDone)
  | justo =>
      have barrier := flowing.barrier rfl
      rcases isOver with
        returned | ⟨topicId, count, index, looping, atEnd⟩
      · exact absurd (barrier.joined id returned) notAllDone
      · refine lifted (barrier.exists_step ?_ notAllDone)
        intro waits
        have somebody :=
          flowing.covered rfl id topicId count index looping waits
        omega

/-- A step of a sender leaves its call one step less, and no other step adds
to what is left once the loop has ended. -/
theorem left_step
    {action : BrokerAction}
    (isOver : (broker.publishing.call id).Over)
    (taken : broker.step mode messages action = some next) :
    (next.publishing.call id).left +
        (if action.bySender id then 1 else 0) ≤
      (broker.publishing.call id).left := by
  cases action with
  | publish publishAction =>
      obtain ⟨publishing, published, rfl, _⟩ := step_publish taken
      refine Publishing.left_step published ?_
      rintro stack rfl
      obtain ⟨topicId, count, index, looping, inside, _⟩ :=
        Publishing.step_next published
      exact
        Call.not_over
          (Or.inr (Or.inr ⟨topicId, count, index, looping, inside⟩))
          isOver
  | _ =>
      rcases step_cases taken with
        ⟨handlers, rfl⟩ | ⟨publisher, rfl⟩ | ⟨_, _, impossible, _⟩
      · exact Nat.le_refl _
      · exact Nat.le_refl _
      · cases impossible

theorem over_step
    {action : BrokerAction}
    (isOver : (broker.publishing.call id).Over)
    (taken : broker.step mode messages action = some next) :
    (next.publishing.call id).Over ∧
      (next.publishing.call id).senders.map Sender.fd =
        (broker.publishing.call id).senders.map Sender.fd := by
  rcases step_cases taken with
    ⟨handlers, rfl⟩ | ⟨publisher, rfl⟩ |
      ⟨publishAction, publishing, rfl, published, rfl⟩
  · exact ⟨isOver, rfl⟩
  · exact ⟨isOver, rfl⟩
  · exact Publishing.over_step published isOver

/-- A loop that has ended stays so, and its call starts no more senders. -/
theorem over_of_run
    {actions : List BrokerAction} {ended final : Broker}
    (isOver : (ended.publishing.call id).Over)
    (continued :
      run (Broker.step mode messages) ended actions = some final) :
    (final.publishing.call id).Over ∧
      (final.publishing.call id).senders.map Sender.fd =
        (ended.publishing.call id).senders.map Sender.fd := by
  have preserved :
      ∀ (state : Broker) (action : BrokerAction) (next : Broker),
        (state.publishing.call id).Over ∧
            (state.publishing.call id).senders.map Sender.fd =
              (ended.publishing.call id).senders.map Sender.fd →
          Broker.step mode messages state action = some next →
            (next.publishing.call id).Over ∧
              (next.publishing.call id).senders.map Sender.fd =
                (ended.publishing.call id).senders.map Sender.fd := by
    intro state action next before taken
    obtain ⟨stillOver, same⟩ := over_step before.1 taken
    exact ⟨stillOver, same.trans before.2⟩
  exact invariant_of_any_run preserved ⟨isOver, rfl⟩ continued

/-- The senders of a call whose loop has ended take only so many steps. -/
theorem countP_add_left_le
    {actions : List BrokerAction} {ended final : Broker}
    (isOver : (ended.publishing.call id).Over)
    (continued :
      run (Broker.step mode messages) ended actions = some final) :
    actions.countP (BrokerAction.bySender id) +
        (final.publishing.call id).left ≤
      (ended.publishing.call id).left := by
  have falls :
      ∀ (state : Broker) (action : BrokerAction) (next : Broker),
        (state.publishing.call id).Over →
          Broker.step mode messages state action = some next →
            (next.publishing.call id).Over ∧
              (next.publishing.call id).left +
                  (if action.bySender id then 1 else 0) ≤
                (state.publishing.call id).left :=
    fun _ _ _ isOver taken =>
      ⟨(over_step isOver taken).1, left_step isOver taken⟩
  exact (countP_add_rank_le falls isOver continued).2

/-- The senders of a call whose loop has ended can get done without anybody
else, or, in JUSTO, get to where the last of them can only arrive to wait for
ever. -/
theorem Flowing.exists_finish
    (flowing : broker.Flowing mode messages)
    (isOver : (broker.publishing.call id).Over) :
    ∃ more later,
      Obeys (Broker.step mode messages)
          (fun state action =>
            state.Timely mode messages action ∧
              action.bySender id = true)
          broker more ∧
        run (Broker.step mode messages) broker more = some later ∧
        ((later.publishing.call id).AllDone ∨
          mode = .justo ∧
            ∀ thread,
              ¬ later.Released messages
                (.publish (.arrive id thread))) := by
  let Kind (state : Broker) : Prop :=
    state.Flowing mode messages ∧ (state.publishing.call id).Over
  have initially : Kind broker := ⟨flowing, isOver⟩
  refine
    exists_guarded_run_of_measure
      (fun state : Broker => (state.publishing.call id).left) ?_
      (broker.publishing.call id).left initially le_rfl
  rintro state ⟨stateFlowing, stateOver⟩
  by_cases allDone : (state.publishing.call id).AllDone
  · exact Or.inl (Or.inl allDone)
  obtain ⟨action, next, bySender, taken⟩ :=
    stateFlowing.exists_step stateOver allDone
  by_cases timely : state.Timely mode messages (.publish action)
  · refine
      Or.inr
        ⟨.publish action, next, ⟨timely, bySender⟩, taken,
          ⟨stateFlowing.step timely taken, (over_step stateOver taken).1⟩,
          ?_⟩
    have fewer := left_step stateOver taken
    simp only [BrokerAction.bySender, bySender, if_true] at fewer
    omega
  · -- only the last arrival can be untimely
    left
    right
    cases action with
    | arrive other thread =>
        have own : other = id := of_decide_eq_true bySender
        subst own
        have short :
            ¬ (mode = .justo →
              state.Released messages
                (.publish (.arrive other thread))) :=
          fun released => timely ⟨released, fun _ counts => counts.elim⟩
        rw [Classical.not_imp] at short
        exact ⟨short.1, fun _ => short.2⟩
    | reacquire _ _ | leave _ _ | transmit _ _ _ =>
        exact
          absurd
            (And.intro (fun _ => trivial) (fun _ counts => counts.elim))
            timely
    | _ => cases bySender

end Flowing

end Broker

end SistemasDistribuidos.Practica4
