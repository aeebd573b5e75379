import SistemasDistribuidos.Practica4.Publish

/-!
# What the calls send while no client comes or goes

The log holds exactly what the senders that are done have sent, with the time
and the string of the message: `Recorded`, whatever happens to the registry.

With the registry fixed, a call goes through the same descriptors whatever the
mode: `Registry.receivers`.  `Regular` says how far each call has come.  Both
are kept by every step in each of the three modes.
-/

namespace SistemasDistribuidos.Practica4

open SistemasDistribuidos SlotArray Machine

/-- The descriptors that a call on the topic goes through. -/
def Registry.receivers (registry : Registry) (topic : TopicName) :
    List Fd :=
  occupied
    (fun index =>
      ((registry.allTopics (registry.getTopicId topic)).subscriberAt
        index).fd)
    (registry.numSubscribers topic).toNat

namespace Call

/-- The senders of the call stand for the indices it has passed. -/
def Issued (registry : Registry) (topic : TopicName) (call : Call) :
    Prop :=
  match call.stage with
  | .idle => call.senders = []
  | .looked topicId count =>
      call.senders = [] ∧ topicId = registry.getTopicId topic ∧
        count = (registry.numSubscribers topic).toNat
  | .loop topicId count index =>
      topicId = registry.getTopicId topic ∧
        count = (registry.numSubscribers topic).toNat ∧
        index ≤ count ∧
        call.senders.map Sender.fd =
          (registry.receivers topic).take index
  | .returned => call.senders.map Sender.fd = registry.receivers topic

/-- Where the call and its senders may stand in each mode. -/
structure Regular (mode : Mode) (registry : Registry)
    (topic : TopicName) (call : Call) : Prop where
  issued : call.Issued registry topic
  joined : mode ≠ .paralelo → call.stage = .returned → call.AllDone

/-- How many senders to a descriptor are done. -/
def doneFor (call : Call) (fd : Fd) : Nat :=
  call.senders.countP
    (fun sender => sender.fd = fd ∧ sender.phase = .done)

section Senders

variable {mode : Mode} {registry : Registry} {topic : TopicName}
  {call : Call} {thread : Nat} {sender : Sender}

theorem fds_setPhase
    (here : call.senders[thread]? = some sender) (phase : SenderPhase) :
    (call.setPhase thread sender phase).senders.map Sender.fd =
      call.senders.map Sender.fd := by
  apply List.ext_getElem?
  intro index
  simp only [setPhase, List.map_set, List.getElem?_set,
    List.getElem?_map, List.length_map]
  by_cases same : thread = index
  · subst same
    obtain ⟨inside, value⟩ := List.getElem?_eq_some_iff.mp here
    simp [inside, value]
  · simp [same]

theorem fds_wake (call : Call) :
    call.wake.senders.map Sender.fd = call.senders.map Sender.fd := by
  rw [wake, List.map_map]
  rfl

/-- Only the stage and the descriptors of the senders matter. -/
theorem Issued.of_same
    {other : Call} (issued : call.Issued registry topic)
    (stage : other.stage = call.stage)
    (fds : other.senders.map Sender.fd = call.senders.map Sender.fd) :
    other.Issued registry topic := by
  have nothing : call.senders = [] → other.senders = [] := by
    intro empty
    rw [empty, List.map_nil, List.map_eq_nil_iff] at fds
    exact fds
  unfold Issued at issued ⊢
  rw [stage, fds]
  cases callStage : call.stage with
  | idle =>
      rw [callStage] at issued
      exact nothing issued
  | looked topicId count =>
      rw [callStage] at issued
      exact ⟨nothing issued.1, issued.2⟩
  | loop topicId count index =>
      rw [callStage] at issued
      exact issued
  | returned =>
      rw [callStage] at issued
      exact issued

/-- A call that has not entered its loop has no senders. -/
theorem Issued.senders_nil
    (issued : call.Issued registry topic)
    (waiting :
      call.stage = .idle ∨
        ∃ topicId count, call.stage = .looked topicId count) :
    call.senders = [] := by
  unfold Issued at issued
  rcases waiting with idle | ⟨topicId, count, looked⟩
  · rw [idle] at issued
    exact issued
  · rw [looked] at issued
    exact issued.1

/-- A sender that is not done moves. -/
theorem Regular.setPhase
    (regular : call.Regular mode registry topic)
    (here : call.senders[thread]? = some sender)
    (notDone : sender.phase ≠ .done) (phase : SenderPhase) :
    (call.setPhase thread sender phase).Regular mode registry topic where
  issued := regular.issued.of_same rfl (fds_setPhase here phase)
  joined := by
    intro joins returned
    exact
      absurd
        (regular.joined joins returned sender (List.mem_of_getElem? here))
        notDone

theorem AllDone.wake
    (allDone : call.AllDone) : call.wake.AllDone := by
  intro woken listed
  obtain ⟨sender, before, rfl⟩ := List.mem_map.mp listed
  simp [Sender.wake, SenderPhase.wake, allDone sender before]

theorem Regular.wake
    (regular : call.Regular mode registry topic) :
    call.wake.Regular mode registry topic where
  issued := regular.issued.of_same rfl (fds_wake call)
  joined := fun joins returned => (regular.joined joins returned).wake

theorem doneFor_setPhase
    (here : call.senders[thread]? = some sender)
    (notDone : sender.phase ≠ .done) (phase : SenderPhase) (fd : Fd) :
    (call.setPhase thread sender phase).doneFor fd =
      call.doneFor fd +
        (if sender.fd = fd ∧ phase = .done then 1 else 0) := by
  have counted :=
    countP_set_add here { sender with phase := phase }
      (fun sender => sender.fd = fd ∧ sender.phase = .done)
  simp only [notDone, and_false, decide_false, Bool.false_eq_true,
    if_false, decide_eq_true_eq] at counted
  exact counted

theorem doneFor_append
    (call : Call) (stage : Stage) (sender : Sender) (fd : Fd) :
    doneFor ⟨stage, call.senders ++ [sender]⟩ fd =
      call.doneFor fd +
        (if sender.fd = fd ∧ sender.phase = .done then 1 else 0) := by
  rw [doneFor, List.countP_append, List.countP_singleton]
  simp only [decide_eq_true_eq]
  rfl

theorem doneFor_wake (call : Call) (fd : Fd) :
    call.wake.doneFor fd = call.doneFor fd := by
  rw [doneFor, wake, List.countP_map]
  apply List.countP_congr
  intro sender _
  cases phase : sender.phase <;> simp [Sender.wake, SenderPhase.wake, phase]

/-- When all senders are done, they have served the descriptors of the
senders. -/
theorem AllDone.doneFor_eq
    (allDone : call.AllDone) (fd : Fd) :
    call.doneFor fd = (call.senders.map Sender.fd).count fd := by
  rw [List.count, List.countP_map, doneFor]
  apply List.countP_congr
  intro sender listed
  simp [allDone sender listed]

theorem doneFor_le (call : Call) (fd : Fd) :
    call.doneFor fd ≤ (call.senders.map Sender.fd).count fd := by
  rw [List.count, List.countP_map]
  apply List.countP_mono_left
  intro sender _ both
  simpa using (of_decide_eq_true both).1

end Senders

end Call

namespace Publishing

/-- How often the message of a call has been sent to a descriptor. -/
def sentTo (publishing : Publishing) (id : CallId) (fd : Fd) : Nat :=
  publishing.log.countP (fun sent => sent.call = id ∧ sent.fd = fd)

/-- The log holds what the senders have sent; in SECUENCIAL nothing is left to
send. -/
structure Recorded (mode : Mode) (messages : CallId → Message)
    (publishing : Publishing) : Prop where
  sequential : mode = .secuencial → ∀ id, (publishing.call id).AllDone
  logged : ∀ id fd,
    publishing.sentTo id fd = (publishing.call id).doneFor fd
  payload : ∀ sent ∈ publishing.log,
    sent.publish.timeGeneratedData =
        (messages sent.call).data.timeGeneratedData ∧
      sent.publish.text = (messages sent.call).data.text

/-- The calls of a publisher follow one another, and each goes through the
receivers of its topic. -/
structure Regular (mode : Mode) (messages : CallId → Message)
    (registry : Registry) (publishing : Publishing) : Prop
    extends publishing.Recorded mode messages where
  calls : ∀ id,
    (publishing.call id).Regular mode registry (messages id).topic
  before : ∀ id, id.index < publishing.returned id.publisher ↔
    (publishing.call id).stage = .returned
  beyond : ∀ id, publishing.returned id.publisher < id.index →
    (publishing.call id).stage = .idle

section Recorded

variable {mode : Mode} {messages : CallId → Message}
  {registry : Registry} {publishing after : Publishing}

theorem recorded_initial : initial.Recorded mode messages where
  sequential := fun _ _ _ listed => absurd listed List.not_mem_nil
  logged := fun _ _ => rfl
  payload := by simp [initial]

theorem sentTo_append
    (log : List Sent) (sent : Sent) (id : CallId) (fd : Fd) :
    (log ++ [sent]).countP (fun sent => sent.call = id ∧ sent.fd = fd) =
      log.countP (fun sent => sent.call = id ∧ sent.fd = fd) +
        (if sent.call = id ∧ sent.fd = fd then 1 else 0) := by
  rw [List.countP_append, List.countP_singleton]
  simp only [decide_eq_true_eq]

/-- A step that changes one call and logs as much as its senders do. -/
theorem Recorded.of_call
    (recorded : publishing.Recorded mode messages)
    {id : CallId} {call : Call}
    (moved : after.call = Function.update publishing.call id call)
    (allDone : mode = .secuencial → call.AllDone)
    (logged : ∀ fd,
      after.sentTo id fd = call.doneFor fd ∧
        ∀ other, other ≠ id →
          after.sentTo other fd = publishing.sentTo other fd)
    (payload : ∀ sent ∈ after.log,
      sent ∈ publishing.log ∨
        (sent.publish.timeGeneratedData =
            (messages sent.call).data.timeGeneratedData ∧
          sent.publish.text = (messages sent.call).data.text)) :
    after.Recorded mode messages where
  sequential := by
    intro same other
    rw [moved]
    by_cases own : other = id
    · rw [own, Function.update_self]
      exact allDone same
    · rw [Function.update_of_ne own]
      exact recorded.sequential same other
  logged := by
    intro other fd
    rw [moved]
    by_cases own : other = id
    · subst own
      rw [Function.update_self]
      exact (logged fd).1
    · rw [Function.update_of_ne own, (logged fd).2 other own]
      exact recorded.logged other fd
  payload := by
    intro sent listed
    rcases payload sent listed with old | new
    · exact recorded.payload sent old
    · exact new

/-- Only the stage of a call changes. -/
theorem Recorded.of_stage
    (recorded : publishing.Recorded mode messages)
    {id : CallId} {stage : Stage}
    (moved :
      after.call =
        Function.update publishing.call id
          { publishing.call id with stage := stage })
    (sameLog : after.log = publishing.log) :
    after.Recorded mode messages := by
  refine
    recorded.of_call moved (fun same => recorded.sequential same id)
      (fun fd => ?_) (fun sent listed => Or.inl (sameLog ▸ listed))
  simp only [sentTo, sameLog]
  exact ⟨recorded.logged id fd, fun _ _ => trivial⟩

/-- A sender that is not done moves to another phase and sends nothing. -/
theorem Recorded.setPhase
    (recorded : publishing.Recorded mode messages)
    {id : CallId} {thread : Nat} {sender : Sender} {phase : SenderPhase}
    (here : (publishing.call id).senders[thread]? = some sender)
    (notDone : sender.phase ≠ .done) (stillNotDone : phase ≠ .done)
    (sameCall :
      after.call = (publishing.setPhase id thread sender phase).call)
    (sameLog : after.log = publishing.log) :
    after.Recorded mode messages := by
  refine
    recorded.of_call sameCall ?_ (fun fd => ?_)
      (fun sent listed => Or.inl (sameLog ▸ listed))
  · intro same
    exact
      absurd
        (recorded.sequential same id sender (List.mem_of_getElem? here))
        notDone
  · rw [Call.doneFor_setPhase here notDone,
      if_neg (fun both => stillNotDone both.2)]
    simp only [sentTo, sameLog]
    exact ⟨recorded.logged id fd, fun _ _ => trivial⟩

theorem Recorded.next
    (recorded : publishing.Recorded mode messages)
    (registry : Registry) (id : CallId) (topicId count index : Nat)
    (stack : Buffer) :
    (publishing.next mode messages registry id topicId count index
      stack).Recorded mode messages := by
  refine recorded.of_call rfl ?_ (fun fd => ?_) ?_
  · rintro rfl sender listed
    rcases List.mem_append.mp listed with old | new
    · exact recorded.sequential rfl id sender old
    · rw [List.mem_singleton.mp new]
      rfl
  · have before := recorded.logged id fd
    rw [Call.doneFor_append]
    by_cases sequential : mode = .secuencial
    · subst sequential
      simp only [sentTo, Publishing.next, if_true, sentTo_append]
      constructor
      · rw [← before]
        simp [sentTo, firstPhase]
      · intro other different
        simp [Ne.symm different]
    · have notDone : firstPhase mode ≠ .done := by
        cases mode <;> simp_all [firstPhase]
      simp only [sentTo, Publishing.next, if_neg sequential]
      simp only [notDone, and_false, if_false]
      exact ⟨before, fun _ _ => trivial⟩
  · intro sent listed
    simp only [Publishing.next] at listed
    split at listed
    · rcases List.mem_append.mp listed with old | new
      · exact Or.inl old
      · rw [List.mem_singleton.mp new]
        exact Or.inr ⟨rfl, Message.text_publish _ _⟩
    · exact Or.inl listed

theorem Recorded.leave
    (recorded : publishing.Recorded mode messages)
    {id : CallId} {thread : Nat} {sender : Sender}
    (here : (publishing.call id).senders[thread]? = some sender)
    (leaving : sender.phase = .leaving) :
    (publishing.leave id thread sender).Recorded mode messages := by
  have moved :
      (publishing.setPhase id thread sender .sending).Recorded mode
        messages :=
    recorded.setPhase here (by rw [leaving]; exact SenderPhase.noConfusion)
      SenderPhase.noConfusion rfl rfl
  exact
    { sequential := fun same other => (moved.sequential same other).wake
      logged := fun other fd =>
        (moved.logged other fd).trans (Call.doneFor_wake _ fd).symm
      payload := moved.payload }

theorem Recorded.transmit
    (recorded : publishing.Recorded mode messages)
    {id : CallId} {thread : Nat} {sender : Sender}
    (here : (publishing.call id).senders[thread]? = some sender)
    (sending : sender.phase = .sending) (stack : Buffer) :
    (publishing.transmit messages id thread sender stack).Recorded mode
      messages := by
  have notDone : sender.phase ≠ .done := by
    rw [sending]
    exact SenderPhase.noConfusion
  refine recorded.of_call rfl ?_ (fun fd => ?_) ?_
  · intro same
    exact
      absurd
        (recorded.sequential same id sender (List.mem_of_getElem? here))
        notDone
  · have before := recorded.logged id fd
    rw [Call.doneFor_setPhase here notDone]
    simp only [sentTo, Publishing.transmit, sentTo_append]
    constructor
    · rw [← before]
      simp [sentTo]
    · intro other different
      simp [Ne.symm different]
  · intro sent listed
    rcases List.mem_append.mp listed with old | new
    · exact Or.inl old
    · rw [List.mem_singleton.mp new]
      exact Or.inr ⟨rfl, Message.text_publish _ _⟩

/-- Every step logs what its sender sends, whatever the registry is. -/
theorem Recorded.step
    (recorded : publishing.Recorded mode messages)
    {action : PublishAction}
    (taken :
      publishing.step mode messages registry action = some after) :
    after.Recorded mode messages := by
  cases action with
  | look id =>
      obtain ⟨_, _, rfl⟩ := step_look taken
      exact recorded.of_stage rfl rfl
  | enter id =>
      obtain ⟨_, _, _, outcome⟩ := step_enter taken
      rcases outcome with ⟨_, rfl⟩ | ⟨_, _, rfl⟩ <;>
        exact recorded.of_stage rfl rfl
  | next id stack =>
      obtain ⟨topicId, count, index, _, _, rfl⟩ := step_next taken
      exact recorded.next registry id topicId count index stack
  | finish id =>
      obtain ⟨_, _, _, _, _, _, rfl⟩ := step_finish taken
      exact recorded.of_stage rfl rfl
  | arrive id thread =>
      obtain ⟨sender, here, started, _, outcome⟩ := step_arrive taken
      have notDone : sender.phase ≠ .done := by
        rw [started]
        exact SenderPhase.noConfusion
      rcases outcome with ⟨_, rfl⟩ | ⟨_, rfl⟩ <;>
        exact
          recorded.setPhase here notDone SenderPhase.noConfusion rfl rfl
  | reacquire id thread =>
      obtain ⟨sender, here, woken, _, rfl⟩ := step_reacquire taken
      exact
        recorded.setPhase here
          (by rw [woken]; exact SenderPhase.noConfusion)
          SenderPhase.noConfusion rfl rfl
  | leave id thread =>
      obtain ⟨sender, here, leaving, rfl⟩ := step_leave taken
      exact recorded.leave here leaving
  | transmit id thread stack =>
      obtain ⟨sender, here, sending, rfl⟩ := step_transmit taken
      exact recorded.transmit here sending stack

end Recorded

section Regular

variable {mode : Mode} {messages : CallId → Message}
  {registry : Registry} {publishing after : Publishing}

theorem regular_initial :
    initial.Regular mode messages registry where
  toRecorded := recorded_initial
  calls := fun _ =>
    { issued := rfl
      joined := fun _ _ _ listed => absurd listed List.not_mem_nil }
  before := by simp [initial]
  beyond := by simp [initial]

/-- The call in progress is the one that its publisher's handler is in. -/
theorem Regular.index_eq
    (regular : publishing.Regular mode messages registry)
    {id : CallId} (notIdle : (publishing.call id).stage ≠ .idle)
    (notReturned : (publishing.call id).stage ≠ .returned) :
    id.index = publishing.returned id.publisher := by
  have notBefore := mt (regular.before id).mp notReturned
  have notBeyond := mt (regular.beyond id) notIdle
  omega

/-- A step that changes one call, and neither its being idle or returned. -/
theorem Regular.of_call
    (regular : publishing.Regular mode messages registry)
    (recorded : after.Recorded mode messages)
    {id : CallId} {call : Call}
    (moved :
      after.call = Function.update publishing.call id call)
    (sameReturned : after.returned = publishing.returned)
    (callRegular : call.Regular mode registry (messages id).topic)
    (here : id.index = publishing.returned id.publisher)
    (notReturned : call.stage ≠ .returned) :
    after.Regular mode messages registry where
  toRecorded := recorded
  calls := by
    intro other
    rw [moved]
    by_cases same : other = id
    · subst same
      rw [Function.update_self]
      exact callRegular
    · rw [Function.update_of_ne same]
      exact regular.calls other
  before := by
    intro other
    rw [moved, sameReturned]
    by_cases same : other = id
    · subst same
      rw [Function.update_self]
      simp [notReturned, here]
    · rw [Function.update_of_ne same]
      exact regular.before other
  beyond := by
    intro other later
    rw [sameReturned] at later
    have different : other ≠ id := by
      intro equal
      subst equal
      omega
    rw [moved, Function.update_of_ne different]
    exact regular.beyond other later

/-- A step that changes no stage. -/
theorem Regular.of_stages
    (regular : publishing.Regular mode messages registry)
    (recorded : after.Recorded mode messages)
    (sameStages : ∀ id, (after.call id).stage = (publishing.call id).stage)
    (sameReturned : after.returned = publishing.returned)
    (calls : ∀ id,
      (after.call id).Regular mode registry (messages id).topic) :
    after.Regular mode messages registry where
  toRecorded := recorded
  calls := calls
  before := by
    intro id
    rw [sameReturned, sameStages]
    exact regular.before id
  beyond := by
    intro id later
    rw [sameReturned] at later
    rw [sameStages]
    exact regular.beyond id later

/-- A sender that is not done moves to another phase. -/
theorem Regular.setPhase
    (regular : publishing.Regular mode messages registry)
    (recorded : after.Recorded mode messages)
    {id : CallId} {thread : Nat} {sender : Sender} {phase : SenderPhase}
    (here : (publishing.call id).senders[thread]? = some sender)
    (notDone : sender.phase ≠ .done)
    (sameCall :
      after.call = (publishing.setPhase id thread sender phase).call)
    (sameReturned : after.returned = publishing.returned) :
    after.Regular mode messages registry := by
  have own :
      after.call id =
        (publishing.call id).setPhase thread sender phase := by
    rw [sameCall]
    exact Function.update_self _ _ _
  have others :
      ∀ other, other ≠ id → after.call other = publishing.call other := by
    intro other different
    rw [sameCall]
    exact Function.update_of_ne different _ _
  apply regular.of_stages recorded _ sameReturned
  · intro other
    by_cases same : other = id
    · subst same
      rw [own]
      exact (regular.calls other).setPhase here notDone phase
    · rw [others other same]
      exact regular.calls other
  · intro other
    by_cases same : other = id
    · subst same
      rw [own]
      rfl
    · rw [others other same]

theorem Regular.look
    (regular : publishing.Regular mode messages registry)
    {id : CallId}
    (recorded :
      (publishing.look mode messages registry id).Recorded mode messages)
    (idle : (publishing.call id).stage = .idle)
    (here : id.index = publishing.returned id.publisher) :
    (publishing.look mode messages registry id).Regular mode messages
      registry := by
  have nobody : (publishing.call id).senders = [] :=
    (regular.calls id).issued.senders_nil (Or.inl idle)
  refine regular.of_call recorded rfl rfl ⟨?_, ?_⟩ here ?_
  · unfold Call.Issued
    split <;> rename_i callStage <;> simp only at callStage <;>
      split at callStage <;> cases callStage
    · exact ⟨nobody, rfl, rfl⟩
    · exact ⟨rfl, rfl, Nat.zero_le _, by simp [nobody]⟩
  · intro _ returned
    split at returned <;> cases returned
  · simp only [ne_eq]
    split <;> exact Stage.noConfusion

theorem Regular.enter
    (regular : publishing.Regular mode messages registry)
    (recorded : after.Recorded mode messages)
    {id : CallId} {topicId count : Nat}
    (looked : (publishing.call id).stage = .looked topicId count)
    (moved :
      after.call =
        Function.update publishing.call id
          { publishing.call id with
            stage :=
              .loop (registry.getTopicId (messages id).topic)
                (registry.numSubscribers (messages id).topic).toNat 0 })
    (sameReturned : after.returned = publishing.returned) :
    after.Regular mode messages registry := by
  have nobody : (publishing.call id).senders = [] :=
    (regular.calls id).issued.senders_nil
      (Or.inr ⟨topicId, count, looked⟩)
  have here :=
    regular.index_eq (by rw [looked]; exact Stage.noConfusion)
      (by rw [looked]; exact Stage.noConfusion)
  exact
    regular.of_call recorded moved sameReturned
      { issued := ⟨rfl, rfl, Nat.zero_le _, by simp [nobody]⟩
        joined := fun _ returned => Stage.noConfusion returned }
      here Stage.noConfusion

theorem Regular.next
    (regular : publishing.Regular mode messages registry)
    {id : CallId} {topicId count index : Nat}
    (looping :
      (publishing.call id).stage = .loop topicId count index)
    (inside : index < count) (stack : Buffer) :
    (publishing.next mode messages registry id topicId count index
      stack).Regular mode messages registry := by
  have recorded :=
    regular.toRecorded.next registry id topicId count index stack
  have known := (regular.calls id).issued
  rw [Call.Issued, looping] at known
  obtain ⟨rfl, rfl, _, fds⟩ := known
  have here :=
    regular.index_eq (by rw [looping]; exact Stage.noConfusion)
      (by rw [looping]; exact Stage.noConfusion)
  have nextFd :
      (registry.receivers (messages id).topic)[index]? =
        some
          ((registry.allTopics
            (registry.getTopicId (messages id).topic)).subscriberAt
              index).fd := by
    rw [Registry.receivers, getElem?_occupied, if_pos inside]
  refine
    regular.of_call recorded rfl rfl
      ⟨⟨rfl, rfl, inside, ?_⟩, fun _ => Stage.noConfusion⟩ here
      Stage.noConfusion
  rw [List.map_append, fds, List.take_add_one, nextFd]
  rfl

theorem Regular.finish
    (regular : publishing.Regular mode messages registry)
    {id : CallId} {topicId count index : Nat}
    (recorded : (publishing.finish mode id).Recorded mode messages)
    (looping :
      (publishing.call id).stage = .loop topicId count index)
    (atEnd : ¬ index < count)
    (joined : mode = .justo → (publishing.call id).AllDone) :
    (publishing.finish mode id).Regular mode messages registry := by
  have here :=
    regular.index_eq (by rw [looping]; exact Stage.noConfusion)
      (by rw [looping]; exact Stage.noConfusion)
  have known := (regular.calls id).issued
  rw [Call.Issued, looping] at known
  obtain ⟨_, rfl, most, fds⟩ := known
  have own :
      (publishing.finish mode id).call id =
        { publishing.call id with stage := .returned } :=
    Function.update_self _ _ _
  have others :
      ∀ other, other ≠ id →
        (publishing.finish mode id).call other = publishing.call other :=
    fun other different => Function.update_of_ne different _ _
  have ownReturned :
      (publishing.finish mode id).returned id.publisher =
        publishing.returned id.publisher + 1 :=
    Function.update_self _ _ _
  have othersReturned :
      ∀ publisher, publisher ≠ id.publisher →
        (publishing.finish mode id).returned publisher =
          publishing.returned publisher :=
    fun publisher different => Function.update_of_ne different _ _
  refine { toRecorded := recorded, calls := ?_, before := ?_, beyond := ?_ }
  · intro other
    by_cases same : other = id
    · subst same
      rw [own]
      refine ⟨?_, ?_⟩
      · change (publishing.call other).senders.map Sender.fd = _
        rw [fds]
        apply List.take_of_length_le
        rw [Registry.receivers, length_occupied]
        omega
      · intro joins _
        cases mode with
        | secuencial => exact regular.sequential rfl other
        | paralelo => exact absurd rfl joins
        | justo => exact joined rfl
    · rw [others other same]
      exact regular.calls other
  · intro other
    by_cases same : other = id
    · subst same
      rw [own, ownReturned, here]
      simp
    · rw [others other same, ← regular.before other]
      by_cases samePublisher : other.publisher = id.publisher
      · have differentIndex : other.index ≠ id.index := by
          intro sameIndex
          exact same (CallId.ext samePublisher sameIndex)
        rw [samePublisher, ownReturned]
        omega
      · rw [othersReturned _ samePublisher]
  · intro other later
    have different : other ≠ id := by
      intro equal
      subst equal
      omega
    rw [others other different]
    apply regular.beyond
    by_cases samePublisher : other.publisher = id.publisher
    · rw [samePublisher] at later ⊢
      omega
    · rw [othersReturned _ samePublisher] at later
      exact later

/-- Every step keeps the calls regular, in each of the three modes. -/
theorem Regular.step
    (regular : publishing.Regular mode messages registry)
    {action : PublishAction}
    (taken :
      publishing.step mode messages registry action = some after) :
    after.Regular mode messages registry := by
  have recorded := regular.toRecorded.step taken
  cases action with
  | look id =>
      obtain ⟨idle, here, rfl⟩ := step_look taken
      exact regular.look recorded idle here
  | enter id =>
      obtain ⟨topicId, count, looked, outcome⟩ := step_enter taken
      rcases outcome with ⟨_, rfl⟩ | ⟨_, _, rfl⟩
      · exact regular.enter recorded looked rfl rfl
      · have known := (regular.calls id).issued
        rw [Call.Issued, looked] at known
        obtain ⟨_, rfl, rfl⟩ := known
        exact regular.enter recorded looked rfl rfl
  | next id stack =>
      obtain ⟨topicId, count, index, looping, inside, rfl⟩ :=
        step_next taken
      exact regular.next looping inside stack
  | finish id =>
      obtain ⟨topicId, count, index, looping, atEnd, joined, rfl⟩ :=
        step_finish taken
      exact regular.finish recorded looping atEnd joined
  | arrive id thread =>
      obtain ⟨sender, here, started, _, outcome⟩ := step_arrive taken
      have notDone : sender.phase ≠ .done := by
        rw [started]
        exact SenderPhase.noConfusion
      rcases outcome with ⟨_, rfl⟩ | ⟨_, rfl⟩ <;>
        exact regular.setPhase recorded here notDone rfl rfl
  | reacquire id thread =>
      obtain ⟨sender, here, woken, _, rfl⟩ := step_reacquire taken
      exact
        regular.setPhase recorded here
          (by rw [woken]; exact SenderPhase.noConfusion) rfl rfl
  | leave id thread =>
      obtain ⟨sender, here, leaving, rfl⟩ := step_leave taken
      have notDone : sender.phase ≠ .done := by
        rw [leaving]
        exact SenderPhase.noConfusion
      have moved :
          (publishing.setPhase id thread sender .sending).Regular mode
            messages registry :=
        regular.setPhase
          (regular.toRecorded.setPhase here notDone
            SenderPhase.noConfusion rfl rfl)
          here notDone rfl rfl
      exact
        moved.of_stages recorded (fun _ => rfl) rfl
          (fun other => (moved.calls other).wake)
  | transmit id thread stack =>
      obtain ⟨sender, here, sending, rfl⟩ := step_transmit taken
      exact
        regular.setPhase recorded here
          (by rw [sending]; exact SenderPhase.noConfusion) rfl rfl

end Regular

end Publishing

end SistemasDistribuidos.Practica4
