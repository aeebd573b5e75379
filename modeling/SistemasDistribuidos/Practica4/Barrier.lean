import SistemasDistribuidos.Practica4.Issued

/-!
# The barrier of JUSTO

`Barrier` is what holds whatever the registry does meanwhile: only the holder
of `mutex2` is in its loop, `just_threads` counts its threads between their
increment and their decrement, and `mutex` is held by the thread that is
leaving, if any.  With the registry fixed, `Counted` adds that nobody is let
through before every thread of the publish has arrived, and that a waiting
thread always has somebody to wake it.
-/

namespace SistemasDistribuidos.Practica4

open SistemasDistribuidos SlotArray Machine

namespace Call

section Numbers

variable {call : Call} {thread : Nat} {sender : Sender}

/-- A sender that moves leaves one number and joins another. -/
theorem number_setPhase
    (here : call.senders[thread]? = some sender)
    (phase counted : SenderPhase) :
    (call.setPhase thread sender phase).number counted +
        (if sender.phase = counted then 1 else 0) =
      call.number counted + (if phase = counted then 1 else 0) := by
  have moved :=
    countP_set_add here { sender with phase := phase }
      (fun sender => sender.phase = counted)
  simp only [decide_eq_true_eq] at moved
  exact moved

/-- What a sender in a phase contributes to `inside`. -/
def weight : SenderPhase → Nat
  | .waiting => 1
  | .woken => 1
  | .leaving => 1
  | _ => 0

theorem inside_setPhase
    (here : call.senders[thread]? = some sender) (phase : SenderPhase) :
    (call.setPhase thread sender phase).inside + weight sender.phase =
      call.inside + weight phase := by
  have waiting := number_setPhase here phase .waiting
  have woken := number_setPhase here phase .woken
  have leaving := number_setPhase here phase .leaving
  unfold inside
  cases before : sender.phase <;> cases phase <;>
    simp only [before, reduceCtorEq, if_true, if_false]
      at waiting woken leaving <;>
    simp only [weight] <;> omega

theorem number_append
    (call : Call) (stage : Stage) (sender : Sender)
    (counted : SenderPhase) :
    number ⟨stage, call.senders ++ [sender]⟩ counted =
      call.number counted + (if sender.phase = counted then 1 else 0) := by
  rw [number, List.countP_append, List.countP_singleton]
  simp only [decide_eq_true_eq]
  rfl

/-- The broadcast makes the waiting threads woken. -/
theorem number_wake (call : Call) (counted : SenderPhase) :
    call.wake.number counted =
      match counted with
      | .waiting => 0
      | .woken => call.number .waiting + call.number .woken
      | other => call.number other := by
  obtain ⟨stage, senders⟩ := call
  simp only [number, wake, List.countP_map]
  induction senders with
  | nil =>
      cases counted <;> rfl
  | cons sender rest inductionHypothesis =>
      simp only [List.countP_cons, inductionHypothesis]
      cases counted <;> cases phase : sender.phase <;>
        simp [Sender.wake, SenderPhase.wake, phase] <;> omega

theorem inside_wake (call : Call) :
    call.wake.inside = call.inside := by
  simp only [inside, number_wake]
  omega

theorem number_total (call : Call) :
    call.number .started + call.number .waiting + call.number .woken +
        call.number .leaving + call.number .sending + call.number .done =
      call.senders.length := by
  obtain ⟨stage, senders⟩ := call
  simp only [number]
  induction senders with
  | nil =>
      rfl
  | cons sender rest inductionHypothesis =>
      simp only [List.countP_cons, List.length_cons]
      cases sender.phase <;> simp <;> omega

theorem number_pos_iff {phase : SenderPhase} :
    0 < call.number phase ↔
      ∃ sender ∈ call.senders, sender.phase = phase := by
  simp [number, List.countP_pos_iff]

theorem number_of_nil
    (nobody : call.senders = []) (phase : SenderPhase) :
    call.number phase = 0 := by
  rw [number, nobody]
  rfl

theorem AllDone.number_eq
    (allDone : call.AllDone) {phase : SenderPhase}
    (notDone : phase ≠ .done) :
    call.number phase = 0 := by
  rw [number, List.countP_eq_zero]
  intro sender listed
  rw [allDone sender listed]
  simpa using Ne.symm notDone

theorem inside_of_nil (nobody : call.senders = []) : call.inside = 0 := by
  simp [inside, number_of_nil nobody]

theorem AllDone.inside_eq (allDone : call.AllDone) : call.inside = 0 := by
  simp [inside, allDone.number_eq]

@[simp]
theorem length_setPhase (phase : SenderPhase) :
    (call.setPhase thread sender phase).senders.length =
      call.senders.length :=
  List.length_set

@[simp]
theorem length_wake (call : Call) :
    call.wake.senders.length = call.senders.length :=
  List.length_map _

end Numbers

end Call

namespace Publishing

/-- The phase of one sender of one call. -/
def phaseAt (publishing : Publishing) (id : CallId) (thread : Nat) :
    Option SenderPhase :=
  (publishing.call id).senders[thread]?.map Sender.phase

theorem phaseAt_setPhase
    {publishing : Publishing} {id : CallId} {thread : Nat}
    {sender : Sender}
    (here : (publishing.call id).senders[thread]? = some sender)
    (phase : SenderPhase) (other : CallId) (index : Nat) :
    (publishing.setPhase id thread sender phase).phaseAt other index =
      if other = id ∧ index = thread then some phase
      else publishing.phaseAt other index := by
  obtain ⟨inside, _⟩ := List.getElem?_eq_some_iff.mp here
  by_cases same : other = id
  · subst same
    simp only [phaseAt, setPhase, setCall, Function.update_self,
      Call.setPhase, List.getElem?_set]
    by_cases sameThread : thread = index
    · subst sameThread
      simp [inside]
    · simp [sameThread, Ne.symm sameThread]
  · simp only [phaseAt, setPhase, setCall, Function.update_of_ne same]
    rw [if_neg (fun both => same both.1)]

theorem phaseAt_leave
    (publishing : Publishing) (id : CallId) (thread : Nat)
    (sender : Sender) (other : CallId) (index : Nat) :
    (publishing.leave id thread sender).phaseAt other index =
      ((publishing.setPhase id thread sender .sending).phaseAt other
        index).map SenderPhase.wake := by
  simp only [phaseAt, leave, Call.wake, List.getElem?_map, Option.map_map]
  rfl

/-- Whatever the registry does, the calls respect `mutex2` and `mutex`. -/
structure Barrier (publishing : Publishing) : Prop where
  early : ∀ id,
    ((publishing.call id).stage = .idle ∨
        ∃ topicId count,
          (publishing.call id).stage = .looked topicId count) →
      (publishing.call id).senders = []
  looping : ∀ id topicId count index,
    (publishing.call id).stage = .loop topicId count index →
      (publishing.call id).senders.length = index ∧ index ≤ count
  joined : ∀ id, (publishing.call id).stage = .returned →
    (publishing.call id).AllDone
  holder : ∀ id, publishing.mutex2 = some id ↔
    ∃ topicId count index,
      (publishing.call id).stage = .loop topicId count index
  free : publishing.mutex2 = none → publishing.justThreads = 0
  threads : ∀ id, publishing.mutex2 = some id →
    publishing.justThreads = (publishing.call id).inside
  lock : ∀ id thread, publishing.mutex = some (id, thread) ↔
    publishing.phaseAt id thread = some .leaving

theorem barrier_initial : initial.Barrier where
  early := fun _ _ => rfl
  looping := by simp [initial]
  joined := by simp [initial]
  holder := by simp [initial]
  free := fun _ => rfl
  threads := by simp [initial]
  lock := by simp [initial, phaseAt]

section Barrier

variable {messages : CallId → Message} {registry : Registry}
  {publishing after : Publishing} {id : CallId}

/-- Only the holder of `mutex2` has threads that are not done. -/
theorem Barrier.holder_of_sender
    (barrier : publishing.Barrier)
    {sender : Sender} (listed : sender ∈ (publishing.call id).senders)
    (notDone : sender.phase ≠ .done) :
    publishing.mutex2 = some id := by
  rw [barrier.holder]
  cases stage : (publishing.call id).stage with
  | idle =>
      rw [barrier.early id (Or.inl stage)] at listed
      cases listed
  | looked topicId count =>
      rw [barrier.early id (Or.inr ⟨topicId, count, stage⟩)] at listed
      cases listed
  | loop topicId count index =>
      exact ⟨topicId, count, index, rfl⟩
  | returned =>
      exact absurd (barrier.joined id stage sender listed) notDone

/-- A step of one sender of the holder of `mutex2`. -/
theorem Barrier.of_senders
    (barrier : publishing.Barrier)
    (held : publishing.mutex2 = some id)
    (sameHolder : after.mutex2 = publishing.mutex2)
    (sameStages : ∀ other,
      (after.call other).stage = (publishing.call other).stage)
    (sameLengths : ∀ other,
      (after.call other).senders.length =
        (publishing.call other).senders.length)
    (joined : ∀ other, (publishing.call other).stage = .returned →
      (after.call other).AllDone)
    (threads : after.justThreads = (after.call id).inside)
    (lock : ∀ other thread, after.mutex = some (other, thread) ↔
      after.phaseAt other thread = some .leaving) :
    after.Barrier where
  early := by
    intro other waits
    rw [sameStages] at waits
    rw [← List.length_eq_zero_iff, sameLengths, barrier.early other waits]
    rfl
  looping := by
    intro other topicId count index loops
    rw [sameStages] at loops
    rw [sameLengths]
    exact barrier.looping other topicId count index loops
  joined := by
    intro other returned
    rw [sameStages] at returned
    exact joined other returned
  holder := by
    intro other
    rw [sameHolder, sameStages]
    exact barrier.holder other
  free := by
    intro free
    rw [sameHolder, held] at free
    cases free
  threads := by
    intro other otherHeld
    rw [sameHolder, held] at otherHeld
    cases otherHeld
    exact threads
  lock := lock

/-- A sender that is not done moves and broadcasts nothing. -/
theorem Barrier.setPhase
    (barrier : publishing.Barrier)
    {thread : Nat} {sender : Sender}
    (here : (publishing.call id).senders[thread]? = some sender)
    (notDone : sender.phase ≠ .done) (phase : SenderPhase)
    (sameCall :
      after.call = (publishing.setPhase id thread sender phase).call)
    (sameHolder : after.mutex2 = publishing.mutex2)
    (threads :
      after.justThreads + (publishing.call id).inside =
        publishing.justThreads +
          ((publishing.call id).setPhase thread sender phase).inside)
    (lock : ∀ other index, after.mutex = some (other, index) ↔
      (publishing.setPhase id thread sender phase).phaseAt other index =
        some .leaving) :
    after.Barrier := by
  have held :=
    barrier.holder_of_sender (List.mem_of_getElem? here) notDone
  have own :
      after.call id =
        (publishing.call id).setPhase thread sender phase := by
    rw [sameCall]
    exact Function.update_self _ _ _
  have others :
      ∀ other, other ≠ id → after.call other = publishing.call other := by
    intro other different
    rw [sameCall]
    exact Function.update_of_ne different _ _
  apply barrier.of_senders held sameHolder
  · intro other
    by_cases same : other = id
    · subst same
      rw [own]
      rfl
    · rw [others other same]
  · intro other
    by_cases same : other = id
    · subst same
      rw [own, Call.length_setPhase]
    · rw [others other same]
  · intro other returned
    have different : other ≠ id := by
      intro equal
      subst equal
      exact
        notDone
          (barrier.joined other returned sender
            (List.mem_of_getElem? here))
    rw [others other different]
    exact barrier.joined other returned
  · rw [own]
    have before := barrier.threads id held
    omega
  · intro other index
    rw [lock, phaseAt, phaseAt, sameCall]

/-- A thread moves while `mutex` is free, and takes it if it is leaving. -/
theorem Barrier.lock_of_free
    (barrier : publishing.Barrier)
    {thread : Nat} {sender : Sender}
    (here : (publishing.call id).senders[thread]? = some sender)
    (unlocked : publishing.mutex = none) (phase : SenderPhase)
    (other : CallId) (index : Nat) :
    (if phase = .leaving then some (id, thread) else none) =
        some (other, index) ↔
      (publishing.setPhase id thread sender phase).phaseAt other index =
        some .leaving := by
  have nobody : publishing.phaseAt other index ≠ some .leaving := by
    intro leaving
    rw [← barrier.lock, unlocked] at leaving
    cases leaving
  rw [phaseAt_setPhase here]
  by_cases same : other = id ∧ index = thread
  · obtain ⟨rfl, rfl⟩ := same
    by_cases leaving : phase = .leaving <;> simp [leaving]
  · rw [if_neg same]
    simp only [nobody, iff_false]
    split
    · intro equal
      cases equal
      exact same ⟨rfl, rfl⟩
    · intro equal
      cases equal

theorem Barrier.arrive
    (barrier : publishing.Barrier)
    {thread : Nat} {sender : Sender}
    (here : (publishing.call id).senders[thread]? = some sender)
    (started : sender.phase = .started)
    (unlocked : publishing.mutex = none)
    (outcome :
      after =
          { publishing.setPhase id thread sender .waiting with
            justThreads := publishing.justThreads + 1 } ∨
        after =
          { publishing.setPhase id thread sender .leaving with
            justThreads := publishing.justThreads + 1
            mutex := some (id, thread) }) :
    after.Barrier := by
  have notDone : sender.phase ≠ .done := by
    rw [started]
    exact SenderPhase.noConfusion
  rcases outcome with rfl | rfl
  · refine barrier.setPhase here notDone .waiting rfl rfl ?_ ?_
    · have moved := Call.inside_setPhase here .waiting
      rw [started] at moved
      simp only [Call.weight] at moved
      simp only
      omega
    · intro other index
      rw [← barrier.lock_of_free here unlocked .waiting other index]
      simp [Publishing.setPhase, setCall, unlocked]
  · refine barrier.setPhase here notDone .leaving rfl rfl ?_ ?_
    · have moved := Call.inside_setPhase here .leaving
      rw [started] at moved
      simp only [Call.weight] at moved
      simp only
      omega
    · exact barrier.lock_of_free here unlocked .leaving

theorem Barrier.reacquire
    (barrier : publishing.Barrier)
    {thread : Nat} {sender : Sender}
    (here : (publishing.call id).senders[thread]? = some sender)
    (woken : sender.phase = .woken)
    (unlocked : publishing.mutex = none) :
    Barrier
      { publishing.setPhase id thread sender .leaving with
        mutex := some (id, thread) } := by
  refine
    barrier.setPhase here (by rw [woken]; exact SenderPhase.noConfusion)
      .leaving rfl rfl ?_ (barrier.lock_of_free here unlocked .leaving)
  have moved := Call.inside_setPhase here .leaving
  rw [woken] at moved
  simp only [Call.weight] at moved
  simp only [Publishing.setPhase, setCall]
  omega

theorem Barrier.transmit
    (barrier : publishing.Barrier)
    {thread : Nat} {sender : Sender}
    (here : (publishing.call id).senders[thread]? = some sender)
    (sending : sender.phase = .sending) (stack : Buffer) :
    (publishing.transmit messages id thread sender stack).Barrier := by
  refine
    barrier.setPhase here (by rw [sending]; exact SenderPhase.noConfusion)
      .done rfl rfl ?_ ?_
  · have moved := Call.inside_setPhase here .done
    rw [sending] at moved
    simp only [Call.weight] at moved
    simp only [Publishing.transmit, Publishing.setPhase, setCall]
    omega
  · intro other index
    rw [phaseAt_setPhase here]
    change publishing.mutex = _ ↔ _
    rw [barrier.lock]
    split
    · rename_i same
      obtain ⟨rfl, rfl⟩ := same
      rw [phaseAt, here]
      simp [sending]
    · exact Iff.rfl

/-- The thread that leaves wakes the others and gives `mutex` back. -/
theorem Barrier.leave
    (barrier : publishing.Barrier)
    {thread : Nat} {sender : Sender}
    (here : (publishing.call id).senders[thread]? = some sender)
    (leaving : sender.phase = .leaving) :
    (publishing.leave id thread sender).Barrier := by
  have notDone : sender.phase ≠ .done := by
    rw [leaving]
    exact SenderPhase.noConfusion
  have held :=
    barrier.holder_of_sender (List.mem_of_getElem? here) notDone
  have own :
      (publishing.leave id thread sender).call id =
        ((publishing.call id).setPhase thread sender .sending).wake := by
    simp [Publishing.leave, Publishing.setPhase, setCall]
  have others :
      ∀ other, other ≠ id →
        (publishing.leave id thread sender).call other =
          (publishing.call other).wake := by
    intro other different
    simp [Publishing.leave, Publishing.setPhase, setCall, different]
  refine barrier.of_senders held ?_ ?_ ?_ ?_ ?_ ?_
  · rfl
  · intro other
    by_cases same : other = id
    · subst same
      rw [own]
      rfl
    · rw [others other same]
      rfl
  · intro other
    by_cases same : other = id
    · subst same
      rw [own, Call.length_wake, Call.length_setPhase]
    · rw [others other same, Call.length_wake]
  · intro other returned
    have different : other ≠ id := by
      intro equal
      subst equal
      exact
        notDone
          (barrier.joined other returned sender
            (List.mem_of_getElem? here))
    rw [others other different]
    exact (barrier.joined other returned).wake
  · rw [own, Call.inside_wake]
    have before := barrier.threads id held
    have moved := Call.inside_setPhase here .sending
    rw [leaving] at moved
    simp only [Call.weight] at moved
    simp only [Publishing.leave]
    omega
  · intro other index
    have locked : publishing.mutex = some (id, thread) := by
      rw [barrier.lock, phaseAt, here, ← leaving]
      rfl
    constructor
    · intro impossible
      cases impossible
    · intro stillLeaving
      rw [phaseAt_leave, phaseAt_setPhase here] at stillLeaving
      split at stillLeaving
      · cases stillLeaving
      · rename_i different
        obtain ⟨phase, before, same⟩ :=
          Option.map_eq_some_iff.mp stillLeaving
        have before : phase = .leaving := by
          cases phase <;> simp_all [SenderPhase.wake]
        subst before
        rw [← barrier.lock, locked] at before
        cases before
        exact absurd ⟨rfl, rfl⟩ different

/-- A step of `publish_msg` itself: one call changes its stage, and may start
a thread. -/
theorem Barrier.of_call
    (barrier : publishing.Barrier)
    {call : Call}
    (moved : after.call = Function.update publishing.call id call)
    (sameThreads : after.justThreads = publishing.justThreads)
    (sameMutex : after.mutex = publishing.mutex)
    (early :
      (call.stage = .idle ∨
          ∃ topicId count, call.stage = .looked topicId count) →
        call.senders = [])
    (looping : ∀ topicId count index,
      call.stage = .loop topicId count index →
        call.senders.length = index ∧ index ≤ count)
    (joined : call.stage = .returned → call.AllDone)
    (holder : ∀ other, after.mutex2 = some other ↔
      ∃ topicId count index,
        (after.call other).stage = .loop topicId count index)
    (free : after.mutex2 = none → publishing.justThreads = 0)
    (threads : after.mutex2 = some id →
      publishing.justThreads = call.inside)
    (sameHolder : ∀ other, other ≠ id →
      after.mutex2 = some other → publishing.mutex2 = some other)
    (phases : ∀ index,
      call.senders[index]?.map Sender.phase = some .leaving ↔
        publishing.phaseAt id index = some .leaving) :
    after.Barrier := by
  have own : after.call id = call := by
    rw [moved, Function.update_self]
  have others :
      ∀ other, other ≠ id → after.call other = publishing.call other := by
    intro other different
    rw [moved, Function.update_of_ne different]
  refine ⟨?_, ?_, ?_, holder, ?_, ?_, ?_⟩
  · intro other
    by_cases same : other = id
    · subst same
      rw [own]
      exact early
    · rw [others other same]
      exact barrier.early other
  · intro other
    by_cases same : other = id
    · subst same
      rw [own]
      exact looping
    · rw [others other same]
      exact barrier.looping other
  · intro other
    by_cases same : other = id
    · subst same
      rw [own]
      exact joined
    · rw [others other same]
      exact barrier.joined other
  · intro unheld
    rw [sameThreads]
    exact free unheld
  · intro other held
    rw [sameThreads]
    by_cases same : other = id
    · subst same
      rw [own]
      exact threads held
    · rw [others other same]
      exact barrier.threads other (sameHolder other same held)
  · intro other index
    rw [sameMutex, barrier.lock]
    by_cases same : other = id
    · subst same
      rw [phaseAt, phaseAt, own]
      exact (phases index).symm
    · rw [phaseAt, phaseAt, others other same]

theorem Barrier.look
    (barrier : publishing.Barrier)
    (idle : (publishing.call id).stage = .idle) :
    (publishing.look .justo messages registry id).Barrier := by
  have nobody := barrier.early id (Or.inl idle)
  have notHolder : publishing.mutex2 ≠ some id := by
    rw [ne_eq, barrier.holder, idle]
    intro given
    rcases given with ⟨_, _, _, impossible⟩
    cases impossible
  refine
    barrier.of_call rfl rfl rfl (fun _ => nobody) ?_ ?_ ?_ barrier.free
      (barrier.threads id) (fun _ _ held => held) (fun _ => Iff.rfl)
  · intro topicId count index impossible
    cases impossible
  · intro impossible
    cases impossible
  · intro other
    by_cases same : other = id
    · subst same
      simp only [Publishing.look, setCall, Function.update_self]
      constructor
      · exact fun held => absurd held notHolder
      · intro given
        rcases given with ⟨_, _, _, impossible⟩
        cases impossible
    · simp only [Publishing.look, setCall, Function.update_of_ne same]
      exact barrier.holder other

theorem Barrier.enterJust
    (barrier : publishing.Barrier)
    {topicId count : Nat}
    (looked : (publishing.call id).stage = .looked topicId count)
    (unheld : publishing.mutex2 = none) :
    (publishing.enterJust id topicId count).Barrier := by
  have nobody := barrier.early id (Or.inr ⟨topicId, count, looked⟩)
  refine
    barrier.of_call rfl rfl rfl (fun _ => nobody) ?_ ?_ ?_ ?_ ?_ ?_
      (fun _ => Iff.rfl)
  · intro _ _ _ loops
    cases loops
    exact ⟨by simp [nobody], Nat.zero_le _⟩
  · intro impossible
    cases impossible
  · intro other
    by_cases same : other = id
    · subst same
      simp [Publishing.enterJust, setCall]
    · simp only [Publishing.enterJust, setCall,
        Function.update_of_ne same]
      rw [← barrier.holder other, unheld]
      simp [Ne.symm same]
  · intro impossible
    cases impossible
  · intro _
    rw [barrier.free unheld]
    exact (congrArg Int.ofNat (Call.inside_of_nil nobody)).symm
  · intro other different held
    cases held
    exact absurd rfl different

theorem Barrier.next
    (barrier : publishing.Barrier)
    {topicId count index : Nat}
    (loops : (publishing.call id).stage = .loop topicId count index)
    (within : index < count) (stack : Buffer) :
    (publishing.next .justo messages registry id topicId count index
      stack).Barrier := by
  have held := (barrier.holder id).mpr ⟨_, _, _, loops⟩
  have spawned := (barrier.looping id _ _ _ loops).1
  refine
    barrier.of_call rfl rfl rfl ?_ ?_ ?_ ?_ barrier.free ?_
      (fun _ _ held => held) ?_
  · rintro (impossible | ⟨_, _, impossible⟩) <;> cases impossible
  · intro _ _ _ stage
    cases stage
    exact ⟨by simp [spawned], within⟩
  · intro impossible
    cases impossible
  · intro other
    by_cases same : other = id
    · subst same
      simp only [Publishing.next, setCall, Function.update_self]
      exact ⟨fun _ => ⟨_, _, _, rfl⟩, fun _ => held⟩
    · simp only [Publishing.next, setCall, Function.update_of_ne same]
      exact barrier.holder other
  · intro _
    rw [barrier.threads id held]
    simp only [Call.inside, Call.number_append, firstPhase, reduceCtorEq,
      if_false, Nat.add_zero]
  · intro thread
    rw [phaseAt, List.getElem?_append]
    split
    · exact Iff.rfl
    · rename_i outside
      rw [List.getElem?_eq_none (Nat.le_of_not_lt outside)]
      by_cases first : thread - (publishing.call id).senders.length = 0
      · simp [first, firstPhase]
      · rw [List.getElem?_eq_none (by simp; omega)]

theorem Barrier.finish
    (barrier : publishing.Barrier)
    {topicId count index : Nat}
    (loops : (publishing.call id).stage = .loop topicId count index)
    (allDone : (publishing.call id).AllDone) :
    (publishing.finish .justo id).Barrier := by
  have held := (barrier.holder id).mpr ⟨_, _, _, loops⟩
  refine
    barrier.of_call rfl rfl rfl ?_ ?_ (fun _ => allDone) ?_ ?_ ?_ ?_
      (fun _ => Iff.rfl)
  · rintro (impossible | ⟨_, _, impossible⟩) <;> cases impossible
  · intro _ _ _ impossible
    cases impossible
  · intro other
    by_cases same : other = id
    · subst same
      simp [Publishing.finish, setCall]
    · simp only [Publishing.finish, setCall, Function.update_of_ne same]
      rw [← barrier.holder other, held]
      simp [Ne.symm same]
  · intro _
    rw [barrier.threads id held, allDone.inside_eq]
    rfl
  · intro impossible
    cases impossible
  · intro other _ impossible
    cases impossible

/-- Every step respects the two locks, whatever the registry is. -/
theorem Barrier.step
    (barrier : publishing.Barrier) {action : PublishAction}
    (taken :
      publishing.step .justo messages registry action = some after) :
    after.Barrier := by
  cases action with
  | look id =>
      obtain ⟨idle, _, rfl⟩ := step_look taken
      exact barrier.look idle
  | enter id =>
      obtain ⟨topicId, count, looked, outcome⟩ := step_enter taken
      rcases outcome with ⟨impossible, _⟩ | ⟨_, unheld, rfl⟩
      · cases impossible
      · exact barrier.enterJust looked unheld
  | next id stack =>
      obtain ⟨_, _, _, loops, within, rfl⟩ := step_next taken
      exact barrier.next loops within stack
  | finish id =>
      obtain ⟨_, _, _, loops, _, joined, rfl⟩ := step_finish taken
      exact barrier.finish loops (joined rfl)
  | arrive id thread =>
      obtain ⟨_, here, started, unlocked, outcome⟩ := step_arrive taken
      exact
        barrier.arrive here started unlocked
          (outcome.imp And.right And.right)
  | reacquire id thread =>
      obtain ⟨_, here, woken, unlocked, rfl⟩ := step_reacquire taken
      exact barrier.reacquire here woken unlocked
  | leave id thread =>
      obtain ⟨_, here, leaving, rfl⟩ := step_leave taken
      exact barrier.leave here leaving
  | transmit id thread stack =>
      obtain ⟨_, here, sending, rfl⟩ := step_transmit taken
      exact barrier.transmit here sending stack

end Barrier

end Publishing

end SistemasDistribuidos.Practica4
