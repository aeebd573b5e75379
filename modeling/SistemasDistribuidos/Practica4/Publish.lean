import SistemasDistribuidos.Library.Machine
import SistemasDistribuidos.Practica4.Registry

/-!
# Publishing

`publish_msg` and the threads it starts, in the three modes of the broker.  A
call is named by its publisher and by how many calls that publisher made
before: a handler makes its calls one after another.

A call looks its topic up, waits for `mutex2` (JUSTO) or looks the topic up
again (SECUENCIAL), and then takes one step per loop index, which reads the
subscriber's descriptor and sends, or starts the thread that will.  The
threads of JUSTO meet at a barrier made of `just_threads`, `mutex` and
`just_condition`.  In SECUENCIAL nothing is started: an index that has been
served is recorded as a sender that is done.
-/

namespace SistemasDistribuidos.Practica4

open SistemasDistribuidos

/-- `struct timespec`. -/
structure Timespec where
  sec : Int
  nsec : Int
  deriving DecidableEq

/-- A buffer `char data[100]`. -/
structure Buffer where
  bytes : List UInt8
  size : bytes.length = 100
  deriving DecidableEq

instance : Inhabited Buffer :=
  ⟨⟨List.replicate 100 0, by decide⟩⟩

/-- `struct publish`. -/
structure Publish where
  timeGeneratedData : Timespec
  data : Buffer
  deriving DecidableEq

/-- The string that a subscriber reads in the data. -/
def Publish.text (publish : Publish) : List UInt8 :=
  CString.ofBuffer publish.data.bytes

/-- A `PUBLISH_DATA` message: what `publish_msg` reads of `struct message`.
Its data is terminated, as `strcpy` requires. -/
structure Message where
  topic : TopicName
  data : Publish
  terminated : 0 ∈ data.data.bytes

/-- A message on the topic `t`. -/
def blankMessage : Message where
  topic := topicT
  data := ⟨⟨0, 0⟩, default⟩
  terminated := by decide

/-- The local `publish` that a sender fills; `stack` is what its buffer holds
before. -/
def Message.publish (message : Message) (stack : Buffer) : Publish where
  timeGeneratedData := message.data.timeGeneratedData
  data :=
    { bytes := CString.strcpy stack.bytes message.data.data.bytes
      size := by
        rw [CString.length_strcpy message.terminated
          (message.data.data.size.trans stack.size.symm)]
        exact stack.size }

/-- A sender passes on the time and the string of the message. -/
theorem Message.text_publish (message : Message) (stack : Buffer) :
    (message.publish stack).text = message.data.text :=
  CString.ofBuffer_strcpy _ _

inductive Mode where
  | secuencial
  | paralelo
  | justo
  deriving DecidableEq

/-- The call number `index` of a publisher's handler. -/
@[ext]
structure CallId where
  publisher : Fd
  index : Nat
  deriving DecidableEq

/-- Where `publish_msg` stands: `count` is the number of subscribers it has
read, and `index` the next loop index. -/
inductive Stage where
  | idle
  | looked (topicId count : Nat)
  | loop (topicId count index : Nat)
  | returned
  deriving DecidableEq

/-- Where a sender stands.  `waiting` is inside `pthread_cond_wait`, `woken`
waits to get `mutex` back, and `leaving` holds it. -/
inductive SenderPhase where
  | started
  | waiting
  | woken
  | leaving
  | sending
  | done
  deriving DecidableEq

structure Sender where
  fd : Fd
  phase : SenderPhase
  deriving DecidableEq

/-- A call and the senders of the indices it has passed. -/
structure Call where
  stage : Stage
  senders : List Sender

/-- A `send` to a subscriber. -/
structure Sent where
  call : CallId
  fd : Fd
  publish : Publish
  deriving DecidableEq

/-- The state of all calls, with what has been sent so far. -/
structure Publishing where
  call : CallId → Call
  /-- How many calls of each publisher have returned. -/
  returned : Fd → Nat
  justThreads : Int
  mutex : Option (CallId × Nat)
  mutex2 : Option CallId
  log : List Sent

inductive PublishAction where
  /-- `publish_msg` up to the choice of the mode. -/
  | look (id : CallId)
  /-- The beginning of `send_sequential`, or `mutex2` in JUSTO. -/
  | enter (id : CallId)
  /-- One loop index. -/
  | next (id : CallId) (stack : Buffer)
  /-- The end of the loop; in JUSTO also the joins and the unlock. -/
  | finish (id : CallId)
  /-- `send_just` from its lock of `mutex` to the wait or past the `if`. -/
  | arrive (id : CallId) (thread : Nat)
  /-- `pthread_cond_wait` returns. -/
  | reacquire (id : CallId) (thread : Nat)
  /-- `send_just` from the decrement to its unlock of `mutex`. -/
  | leave (id : CallId) (thread : Nat)
  | transmit (id : CallId) (thread : Nat) (stack : Buffer)

/-- `pthread_cond_broadcast`. -/
def SenderPhase.wake : SenderPhase → SenderPhase
  | .waiting => .woken
  | phase => phase

def Sender.wake (sender : Sender) : Sender :=
  { sender with phase := sender.phase.wake }

namespace Call

def setPhase (call : Call) (thread : Nat) (sender : Sender)
    (phase : SenderPhase) : Call :=
  { call with
    senders := call.senders.set thread { sender with phase := phase } }

def wake (call : Call) : Call :=
  { call with senders := call.senders.map Sender.wake }

/-- How many senders stand in a phase. -/
def number (call : Call) (phase : SenderPhase) : Nat :=
  call.senders.countP (fun sender => sender.phase = phase)

/-- The senders between their increment of `just_threads` and their
decrement. -/
def inside (call : Call) : Nat :=
  call.number .waiting + call.number .woken + call.number .leaving

/-- Every sender has sent. -/
def AllDone (call : Call) : Prop :=
  ∀ sender ∈ call.senders, sender.phase = .done

instance (call : Call) : Decidable call.AllDone :=
  inferInstanceAs (Decidable (∀ sender ∈ call.senders, _))

end Call

namespace Publishing

def setCall (publishing : Publishing) (id : CallId) (call : Call) :
    Publishing :=
  { publishing with call := Function.update publishing.call id call }

/-- Move one sender of a call to another phase. -/
def setPhase (publishing : Publishing) (id : CallId) (thread : Nat)
    (sender : Sender) (phase : SenderPhase) : Publishing :=
  publishing.setCall id
    ((publishing.call id).setPhase thread sender phase)

section Step

variable (mode : Mode) (messages : CallId → Message)
  (registry : Registry) (publishing : Publishing)

/-- Lines 255 and 256; PARALELO then enters its loop. -/
def look (id : CallId) : Publishing :=
  let topicId := registry.getTopicId (messages id).topic
  let count := (registry.allTopics topicId).numSubscribers.toNat
  publishing.setCall id
    { publishing.call id with
      stage :=
        if mode = .paralelo then .loop topicId count 0
        else .looked topicId count }

/-- Lines 179 and 180. -/
def enterSequential (id : CallId) : Publishing :=
  let topicId := registry.getTopicId (messages id).topic
  let count := (registry.allTopics topicId).numSubscribers.toNat
  publishing.setCall id
    { publishing.call id with stage := .loop topicId count 0 }

def enterJust (id : CallId) (topicId count : Nat) : Publishing :=
  { publishing.setCall id
      { publishing.call id with stage := .loop topicId count 0 } with
    mutex2 := some id }

/-- The phase in which a sender comes into being. -/
def firstPhase : Mode → SenderPhase
  | .secuencial => .done
  | .paralelo => .sending
  | .justo => .started

/-- One loop index; SECUENCIAL sends at once. -/
def next (id : CallId) (topicId count index : Nat) (stack : Buffer) :
    Publishing :=
  let fd := ((registry.allTopics topicId).subscriberAt index).fd
  { publishing.setCall id
      ⟨.loop topicId count (index + 1),
        (publishing.call id).senders ++ [⟨fd, firstPhase mode⟩]⟩ with
    log :=
      if mode = .secuencial then
        publishing.log ++ [⟨id, fd, (messages id).publish stack⟩]
      else
        publishing.log }

def finish (id : CallId) : Publishing :=
  { publishing.setCall id
      { publishing.call id with stage := .returned } with
    returned :=
      Function.update publishing.returned id.publisher
        (publishing.returned id.publisher + 1)
    mutex2 := if mode = .justo then none else publishing.mutex2 }

/-- A thread that waits gives `mutex` back; one that passes keeps it. -/
def arrive (id : CallId) (thread : Nat) (sender : Sender) : Publishing :=
  if publishing.justThreads + 1 <
      registry.numSubscribers (messages id).topic then
    { publishing.setPhase id thread sender .waiting with
      justThreads := publishing.justThreads + 1 }
  else
    { publishing.setPhase id thread sender .leaving with
      justThreads := publishing.justThreads + 1
      mutex := some (id, thread) }

/-- The broadcast wakes the waiting threads of every call. -/
def leave (id : CallId) (thread : Nat) (sender : Sender) : Publishing :=
  { publishing with
    call := fun other =>
      ((publishing.setPhase id thread sender .sending).call other).wake
    justThreads := publishing.justThreads - 1
    mutex := none }

def transmit (id : CallId) (thread : Nat) (sender : Sender)
    (stack : Buffer) : Publishing :=
  { publishing.setPhase id thread sender .done with
    log :=
      publishing.log ++ [⟨id, sender.fd, (messages id).publish stack⟩] }

/-- One step of one thread. -/
def step : PublishAction → Option Publishing
  | .look id =>
      if (publishing.call id).stage = .idle ∧
          id.index = publishing.returned id.publisher then
        some (publishing.look mode messages registry id)
      else
        none
  | .enter id =>
      match (publishing.call id).stage, mode with
      | .looked _ _, .secuencial =>
          some (publishing.enterSequential messages registry id)
      | .looked topicId count, .justo =>
          if publishing.mutex2 = none then
            some (publishing.enterJust id topicId count)
          else
            none
      | _, _ => none
  | .next id stack =>
      match (publishing.call id).stage with
      | .loop topicId count index =>
          if index < count then
            some
              (publishing.next mode messages registry id topicId count
                index stack)
          else
            none
      | _ => none
  | .finish id =>
      match (publishing.call id).stage with
      | .loop _ count index =>
          if ¬ index < count ∧
              (mode = .justo → (publishing.call id).AllDone) then
            some (publishing.finish mode id)
          else
            none
      | _ => none
  | .arrive id thread =>
      match (publishing.call id).senders[thread]? with
      | some sender =>
          if sender.phase = .started ∧ publishing.mutex = none then
            some (publishing.arrive messages registry id thread sender)
          else
            none
      | none => none
  | .reacquire id thread =>
      match (publishing.call id).senders[thread]? with
      | some sender =>
          if sender.phase = .woken ∧ publishing.mutex = none then
            some
              { publishing.setPhase id thread sender .leaving with
                mutex := some (id, thread) }
          else
            none
      | none => none
  | .leave id thread =>
      match (publishing.call id).senders[thread]? with
      | some sender =>
          if sender.phase = .leaving then
            some (publishing.leave id thread sender)
          else
            none
      | none => none
  | .transmit id thread stack =>
      match (publishing.call id).senders[thread]? with
      | some sender =>
          if sender.phase = .sending then
            some (publishing.transmit messages id thread sender stack)
          else
            none
      | none => none

end Step

/-- No publisher has sent anything yet. -/
def initial : Publishing where
  call := fun _ => ⟨.idle, []⟩
  returned := fun _ => 0
  justThreads := 0
  mutex := none
  mutex2 := none
  log := []

/-! ## What one step does -/

section Inversion

variable {mode : Mode} {messages : CallId → Message}
  {registry : Registry} {publishing after : Publishing} {id : CallId}
  {thread : Nat}

theorem step_look
    (taken :
      publishing.step mode messages registry (.look id) = some after) :
    (publishing.call id).stage = .idle ∧
      id.index = publishing.returned id.publisher ∧
      after = publishing.look mode messages registry id := by
  simp only [step, Option.ite_none_right_eq_some,
    Option.some.injEq] at taken
  exact ⟨taken.1.1, taken.1.2, taken.2.symm⟩

theorem step_enter
    (taken :
      publishing.step mode messages registry (.enter id) = some after) :
    ∃ topicId count, (publishing.call id).stage = .looked topicId count ∧
      ((mode = .secuencial ∧
          after = publishing.enterSequential messages registry id) ∨
        (mode = .justo ∧ publishing.mutex2 = none ∧
          after = publishing.enterJust id topicId count)) := by
  simp only [step] at taken
  split at taken
  · rename_i topicId count here
    exact
      ⟨topicId, count, here,
        Or.inl ⟨rfl, (Option.some.inj taken).symm⟩⟩
  · rename_i topicId count here
    simp only [Option.ite_none_right_eq_some,
      Option.some.injEq] at taken
    exact
      ⟨topicId, count, here, Or.inr ⟨rfl, taken.1, taken.2.symm⟩⟩
  · cases taken

theorem step_next
    {stack : Buffer}
    (taken :
      publishing.step mode messages registry (.next id stack) =
        some after) :
    ∃ topicId count index,
      (publishing.call id).stage = .loop topicId count index ∧
        index < count ∧
        after =
          publishing.next mode messages registry id topicId count index
            stack := by
  simp only [step] at taken
  split at taken
  · rename_i topicId count index here
    simp only [Option.ite_none_right_eq_some,
      Option.some.injEq] at taken
    exact ⟨topicId, count, index, here, taken.1, taken.2.symm⟩
  · cases taken

theorem step_finish
    (taken :
      publishing.step mode messages registry (.finish id) = some after) :
    ∃ topicId count index,
      (publishing.call id).stage = .loop topicId count index ∧
        ¬ index < count ∧
        (mode = .justo → (publishing.call id).AllDone) ∧
        after = publishing.finish mode id := by
  simp only [step] at taken
  split at taken
  · rename_i topicId count index here
    simp only [Option.ite_none_right_eq_some,
      Option.some.injEq] at taken
    exact
      ⟨topicId, count, index, here, taken.1.1, taken.1.2, taken.2.symm⟩
  · cases taken

theorem step_arrive
    (taken :
      publishing.step mode messages registry (.arrive id thread) =
        some after) :
    ∃ sender,
      (publishing.call id).senders[thread]? = some sender ∧
        sender.phase = .started ∧
        publishing.mutex = none ∧
        ((publishing.justThreads + 1 <
              registry.numSubscribers (messages id).topic ∧
            after =
              { publishing.setPhase id thread sender .waiting with
                justThreads := publishing.justThreads + 1 }) ∨
          (¬ publishing.justThreads + 1 <
              registry.numSubscribers (messages id).topic ∧
            after =
              { publishing.setPhase id thread sender .leaving with
                justThreads := publishing.justThreads + 1
                mutex := some (id, thread) })) := by
  simp only [step] at taken
  split at taken
  · rename_i sender here
    simp only [Option.ite_none_right_eq_some,
      Option.some.injEq] at taken
    refine ⟨sender, here, taken.1.1, taken.1.2, ?_⟩
    rw [← taken.2]
    unfold arrive
    split
    · rename_i fewer
      exact Or.inl ⟨fewer, rfl⟩
    · rename_i enough
      exact Or.inr ⟨enough, rfl⟩
  · cases taken

theorem step_reacquire
    (taken :
      publishing.step mode messages registry (.reacquire id thread) =
        some after) :
    ∃ sender,
      (publishing.call id).senders[thread]? = some sender ∧
        sender.phase = .woken ∧
        publishing.mutex = none ∧
        after =
          { publishing.setPhase id thread sender .leaving with
            mutex := some (id, thread) } := by
  simp only [step] at taken
  split at taken
  · rename_i sender here
    simp only [Option.ite_none_right_eq_some,
      Option.some.injEq] at taken
    exact ⟨sender, here, taken.1.1, taken.1.2, taken.2.symm⟩
  · cases taken

theorem step_leave
    (taken :
      publishing.step mode messages registry (.leave id thread) =
        some after) :
    ∃ sender,
      (publishing.call id).senders[thread]? = some sender ∧
        sender.phase = .leaving ∧
        after = publishing.leave id thread sender := by
  simp only [step] at taken
  split at taken
  · rename_i sender here
    simp only [Option.ite_none_right_eq_some,
      Option.some.injEq] at taken
    exact ⟨sender, here, taken.1, taken.2.symm⟩
  · cases taken

theorem step_transmit
    {stack : Buffer}
    (taken :
      publishing.step mode messages registry (.transmit id thread stack) =
        some after) :
    ∃ sender,
      (publishing.call id).senders[thread]? = some sender ∧
        sender.phase = .sending ∧
        after =
          publishing.transmit messages id thread sender stack := by
  simp only [step] at taken
  split at taken
  · rename_i sender here
    simp only [Option.ite_none_right_eq_some,
      Option.some.injEq] at taken
    exact ⟨sender, here, taken.1, taken.2.symm⟩
  · cases taken

end Inversion

end Publishing

end SistemasDistribuidos.Practica4
