import Mathlib.Data.List.ReduceOption
import SistemasDistribuidos.Practica4.Publisher
import SistemasDistribuidos.Practica4.Structs

/-!
# From a publisher to a subscriber

The bytes that `transfer_publisher` sends go through the buffer of
`talk_to_publisher`, the local `publish` of a sender and the buffer of
`transfer_subscriber`.  None of these is initialised.  What a subscriber prints
is nevertheless what the publisher has printed: the text, and the time at which
it was generated.  The seconds and nanoseconds that it computes as the latency
are the time between the two clocks; the `float` that it makes of them to print
is left out.
-/

namespace SistemasDistribuidos.Practica4

open SistemasDistribuidos Framing Stdio Layout

/-! ## Latency -/

namespace Timespec

/-- The nanoseconds are less than a second. -/
def Normalised (time : Timespec) : Prop :=
  0 ≤ time.nsec ∧ time.nsec < 1000000000

def total (time : Timespec) : Int :=
  1000000000 * time.sec + time.nsec

structure Fits (time : Timespec) : Prop where
  sec : signed (ofSigned 8 time.sec) = time.sec
  nsec : signed (ofSigned 8 time.nsec) = time.nsec

/-- `latency_seconds` and `latency_nanoseconds`. -/
def latency (received generated : Timespec) : Timespec :=
  if received.nsec - generated.nsec < 0 then
    { sec := received.sec - generated.sec - 1
      nsec := received.nsec - generated.nsec + 1000000000 }
  else
    { sec := received.sec - generated.sec
      nsec := received.nsec - generated.nsec }

/-- The latency is exactly the time in between, and normalised itself. -/
theorem latency_spec
    {received generated : Timespec} (receivedNormalised : received.Normalised)
    (generatedNormalised : generated.Normalised) :
    (latency received generated).Normalised ∧
      (latency received generated).total =
        received.total - generated.total := by
  obtain ⟨receivedLow, receivedHigh⟩ := receivedNormalised
  obtain ⟨generatedLow, generatedHigh⟩ := generatedNormalised
  rw [latency]
  split
  · refine ⟨⟨?_, ?_⟩, ?_⟩
    · simp only
      omega
    · simp only
      omega
    · simp only [total]
      omega
  · refine ⟨⟨?_, ?_⟩, ?_⟩
    · simp only
      omega
    · simp only
      omega
    · simp only [total]
      omega

end Timespec

/-! ## The publisher -/

/-- `client_topic`, and the variables of `transfer_publisher` as they lie in
memory. -/
structure PublisherMemory where
  clientTopic : TopicName
  ptr : Option Nat
  publish : StructPublish
  message : StructMessage

namespace PublisherMemory

def opened (clientTopic : TopicName) (ptr : Option Nat)
    (publish : StructPublish) (message : StructMessage) :
    PublisherMemory where
  clientTopic := clientTopic
  ptr := ptr
  publish := publish
  message := StructMessage.setAction message .publishData

def generate (memory : PublisherMemory) (sample : Sample) :
    StructPublish :=
  match memory.ptr with
  | some offset =>
      StructPublish.dataField.write memory.publish
        ((StructPublish.dataField.read memory.publish).overlay
          (fread 100 sample.content offset).1)
  | none => memory.publish

def iterate (memory : PublisherMemory) (sample : Sample) :
    PublisherMemory :=
  let publish :=
    StructPublish.setTime (memory.generate sample)
      (ofSigned 8 sample.time.sec) (ofSigned 8 sample.time.nsec)
  { memory with
    ptr := memory.ptr.map
      (fun offset => (fread 100 sample.content offset).2)
    publish := publish
    message :=
      StructMessage.setTopic (StructMessage.setData memory.message publish)
        memory.clientTopic }

def transferPublisher (memory : PublisherMemory) :
    List Sample → List StructMessage
  | [] => []
  | sample :: rest =>
      (memory.iterate sample).message ::
        transferPublisher (memory.iterate sample) rest

def view (memory : PublisherMemory) : Publisher where
  clientTopic := memory.clientTopic
  ptr := memory.ptr
  publish := StructPublish.publish memory.publish

/-- The data has a NUL at this place. -/
def EndsAt (memory : PublisherMemory) (position : Nat) : Prop :=
  (StructPublish.dataField.read memory.publish).bytes[position]? = some 0

section Iterations

variable {memory : PublisherMemory} {sample : Sample}

theorem read_generate :
    StructPublish.dataField.read (memory.generate sample) =
      match memory.ptr with
      | some offset =>
          (StructPublish.dataField.read memory.publish).overlay
            (fread 100 sample.content offset).1
      | none => StructPublish.dataField.read memory.publish := by
  rw [generate]
  cases memory.ptr with
  | none => rfl
  | some offset => exact Field.read_write _ _ _

theorem view_iterate (fits : sample.time.Fits) :
    (memory.iterate sample).view = memory.view.iterate sample := by
  have publish :
      StructPublish.publish (memory.iterate sample).publish =
        ⟨sample.time, StructPublish.data (memory.generate sample)⟩ := by
    rw [iterate, StructPublish.publish_setTime, fits.sec, fits.nsec]
  rw [view, publish, StructPublish.data, read_generate, Publisher.iterate]
  obtain ⟨clientTopic, ptr, stack, message⟩ := memory
  cases ptr with
  | none => rfl
  | some offset => rfl

theorem message_iterate
    (sample : Sample)
    (isData :
      StructMessage.action memory.message = Operation.publishData.code) :
    StructMessage.action (memory.iterate sample).message =
        Operation.publishData.code ∧
      StructMessage.topic (memory.iterate sample).message =
        some memory.clientTopic ∧
      StructMessage.data (memory.iterate sample).message =
        (memory.iterate sample).publish := by
  rw [iterate]
  simp [isData]

theorem EndsAt.iterate
    {position : Nat} (ends : memory.EndsAt position)
    (short : sample.content.length ≤ position) :
    (memory.iterate sample).EndsAt position := by
  have sameData :
      StructPublish.dataField.read (memory.iterate sample).publish =
        StructPublish.dataField.read (memory.generate sample) := by
    rw [PublisherMemory.iterate]
    simp only [StructPublish.setTime]
    rw [Field.read_write_apart _ _ (by decide),
      Field.read_write_apart _ _ (by decide)]
  rw [EndsAt, sameData, read_generate]
  cases memory.ptr with
  | none => exact ends
  | some offset =>
      have few :
          (fread 100 sample.content offset).1.bytes.length ≤ position := by
        rw [fread, List.length_take, List.length_drop]
        omega
      have behind :=
        Frame.drop_overlay (StructPublish.dataField.read memory.publish) few
      rw [EndsAt, ← List.head?_drop] at ends
      simp only
      rw [← List.head?_drop, behind]
      exact ends

theorem EndsAt.string
    {position : Nat} (ends : memory.EndsAt position) :
    ∃ text,
      Layout.string (StructPublish.dataField.read memory.publish) =
          some text ∧
        text.bytes = memory.view.publish.text := by
  have terminated :
      0 ∈ (StructPublish.dataField.read memory.publish).bytes :=
    List.mem_of_getElem? ends
  rw [Layout.string, dif_pos terminated]
  exact ⟨_, rfl, rfl⟩

end Iterations

end PublisherMemory

/-! ## The sender and the subscriber -/

/-- The struct that a sender of `publish_msg` passes on.  `strcpy` does not
stop when the data does not end. -/
def StructMessage.forward (message : StructMessage)
    (stack : StructPublish) : Option StructPublish :=
  (string
    (StructPublish.dataField.read (StructMessage.data message))).map
      (fun text =>
        StructPublish.fill stack text (StructMessage.data message))

/-- What the senders for one subscriber pass on of what `talk_to_publisher`
receives. -/
def relay (buffer : StructMessage) (chunks : List (Chunk UInt8 232))
    (locals : List StructPublish) : List StructPublish :=
  (List.zipWith StructMessage.forward (published buffer chunks)
    locals).reduceOption

/-- What `transfer_subscriber` prints, with the two numbers that its latency is
computed from. -/
structure Line where
  topic : TopicName
  text : List UInt8
  generated : Timespec
  received : Timespec
  latency : Timespec
  deriving DecidableEq

def StructPublish.line (clientTopic : TopicName) (publish : StructPublish)
    (time : Timespec) : Line where
  topic := clientTopic
  text := (StructPublish.publish publish).text
  generated := StructPublish.time publish
  received := time
  latency := time.latency (StructPublish.time publish)

def lines (clientTopic : TopicName) (buffer : StructPublish)
    (chunks : List (Chunk UInt8 120)) (clock : List Timespec) : List Line :=
  List.zipWith (StructPublish.line clientTopic)
    (transferSubscriber buffer chunks) clock

/-! ## All the way -/

/-- A message on its way: what is sampled for it, the local of its sender, and
the subscriber's clock when it has been received. -/
structure Passage where
  sample : Sample
  stack : StructPublish
  clock : Timespec

def OutgoingMessage.line (clientTopic : TopicName)
    (message : OutgoingMessage) (clock : Timespec) : Line where
  topic := clientTopic
  text := message.text
  generated := message.data.timeGeneratedData
  received := clock
  latency := clock.latency message.data.timeGeneratedData

/-- The data ends in every struct that is sent. -/
structure Proper (position : Nat) (passage : Passage) : Prop where
  fits : passage.sample.time.Fits
  short : passage.sample.content.length ≤ position

namespace PublisherMemory

section Passages

variable {memory : PublisherMemory} {passages : List Passage} {position : Nat}

@[simp]
theorem length_transferPublisher (samples : List Sample) :
    (memory.transferPublisher samples).length = samples.length := by
  induction samples generalizing memory with
  | nil => rfl
  | cons sample rest inductionHypothesis =>
      rw [transferPublisher, List.length_cons, List.length_cons,
        inductionHypothesis]

theorem action_transferPublisher
    (isData :
      StructMessage.action memory.message = Operation.publishData.code)
    (samples : List Sample) :
    ∀ sent ∈ memory.transferPublisher samples,
      StructMessage.action sent = Operation.publishData.code := by
  induction samples generalizing memory with
  | nil => nofun
  | cons sample rest inductionHypothesis =>
      obtain ⟨staysData, _, _⟩ := message_iterate sample isData
      intro sent listed
      rcases List.mem_cons.mp listed with rfl | later
      · exact staysData
      · exact inductionHypothesis staysData sent later

theorem lines_forward
    (clientTopic : TopicName)
    (isData :
      StructMessage.action memory.message = Operation.publishData.code)
    (ends : memory.EndsAt position)
    (proper : ∀ passage ∈ passages, Proper position passage) :
    (List.zipWith StructMessage.forward
          (memory.transferPublisher (passages.map Passage.sample))
          (passages.map Passage.stack)).reduceOption.length =
        passages.length ∧
      List.zipWith (StructPublish.line clientTopic)
          (List.zipWith StructMessage.forward
            (memory.transferPublisher (passages.map Passage.sample))
            (passages.map Passage.stack)).reduceOption
          (passages.map Passage.clock) =
        List.zipWith (OutgoingMessage.line clientTopic)
          (memory.view.transferPublisher (passages.map Passage.sample))
          (passages.map Passage.clock) := by
  induction passages generalizing memory with
  | nil => exact ⟨rfl, rfl⟩
  | cons passage rest inductionHypothesis =>
      obtain ⟨fits, short⟩ := proper passage List.mem_cons_self
      obtain ⟨staysData, _, carried⟩ :=
        message_iterate passage.sample isData
      have stillEnds := ends.iterate short
      obtain ⟨text, isText, sameText⟩ := stillEnds.string
      have forwarded :
          StructMessage.forward (memory.iterate passage.sample).message
              passage.stack =
            some
              (StructPublish.fill passage.stack text
                (memory.iterate passage.sample).publish) := by
        rw [StructMessage.forward, carried, isText]
        rfl
      obtain ⟨sameTime, filledText⟩ :=
        StructPublish.publish_fill passage.stack
          (memory.iterate passage.sample).publish text
      obtain ⟨sameLength, later⟩ :=
        inductionHypothesis staysData stillEnds
          (fun other listed => proper other (List.mem_cons_of_mem _ listed))
      have first :
          StructPublish.line clientTopic
              (StructPublish.fill passage.stack text
                (memory.iterate passage.sample).publish) passage.clock =
            OutgoingMessage.line clientTopic
              (memory.view.iterate passage.sample).message
              passage.clock := by
        rw [← view_iterate fits, StructPublish.line, filledText, sameTime,
          sameText]
        rfl
      rw [List.map_cons, List.map_cons, List.map_cons, transferPublisher,
        Publisher.transferPublisher, List.zipWith_cons_cons, forwarded,
        List.reduceOption_cons_of_some, List.zipWith_cons_cons,
        List.zipWith_cons_cons, first, ← view_iterate fits, later]
      exact ⟨congrArg Nat.succ sameLength, rfl⟩

end Passages

/-- When every `recv` returns a whole struct, a subscriber prints the text and
the time of each message as its publisher had them, whatever the memory of the
three programs holds; the seconds and nanoseconds of the latency are the time
in between. -/
theorem lines_of_samples
    {clientTopic : TopicName} {ptr : Option Nat} {publish : StructPublish}
    {stack received : StructMessage} {buffer : StructPublish}
    {passages : List Passage} {position : Nat}
    (ends : (opened clientTopic ptr publish stack).EndsAt position)
    (proper : ∀ passage ∈ passages, Proper position passage) :
    let memory := opened clientTopic ptr publish stack
    let sent :=
      stream (memory.transferPublisher (passages.map Passage.sample))
    let relayed :=
      relay received (cut (passages.map (fun _ => 232)) sent)
        (passages.map Passage.stack)
    let printed :=
      lines clientTopic buffer
        (cut (passages.map (fun _ => 120)) (stream relayed))
        (passages.map Passage.clock)
    printed =
        List.zipWith (OutgoingMessage.line clientTopic)
          (memory.view.transferPublisher (passages.map Passage.sample))
          (passages.map Passage.clock) ∧
      ∀ line ∈ printed,
        line.received.Normalised → line.generated.Normalised →
          line.latency.Normalised ∧
            line.latency.total =
              line.received.total - line.generated.total := by
  intro memory sent relayed printed
  have isData :
      StructMessage.action memory.message = Operation.publishData.code :=
    StructMessage.action_setAction _ _
  have onlyData :=
    action_transferPublisher isData (passages.map Passage.sample)
  have whole (size : Nat) :
      ∀ length ∈ passages.map (fun _ => size), length = size := by
    intro length listed
    obtain ⟨_, _, rfl⟩ := List.mem_map.mp listed
    rfl
  have handled :
      published received (cut (passages.map (fun _ => 232)) sent) =
        memory.transferPublisher (passages.map Passage.sample) := by
    rw [cut_stream _ (whole 232) (by simp)]
    have all := published_data received onlyData []
    rw [List.append_nil] at all
    rw [all]
    exact List.append_nil _
  have isRelayed :
      relayed =
        (List.zipWith StructMessage.forward
          (memory.transferPublisher (passages.map Passage.sample))
          (passages.map Passage.stack)).reduceOption := by
    rw [← handled]
    rfl
  obtain ⟨sameLength, sameLines⟩ :=
    lines_forward clientTopic isData ends proper
  rw [← isRelayed] at sameLength sameLines
  have isPrinted :
      printed =
        List.zipWith (StructPublish.line clientTopic) relayed
          (passages.map Passage.clock) := by
    have seenWhole :
        transferSubscriber buffer
            (cut (passages.map (fun _ => 120)) (stream relayed)) =
          relayed := by
      rw [cut_stream _ (whole 120) (by rw [List.length_map, sameLength])]
      exact seen_whole _ _
    exact congrArg (fun structs => List.zipWith _ structs _) seenWhole
  refine ⟨isPrinted.trans sameLines, ?_⟩
  intro line listed receivedNormalised generatedNormalised
  rw [isPrinted, ← List.map_uncurry_zip_eq_zipWith] at listed
  obtain ⟨_, _, rfl⟩ := List.mem_map.mp listed
  exact Timespec.latency_spec receivedNormalised generatedNormalised

/-- Two samples, printed after one second and half a second. -/
theorem lines_of_samples_two :
    let earlier : Passage :=
      ⟨Publisher.earlierSample, samplePublish, ⟨1, 0⟩⟩
    let later : Passage :=
      ⟨Publisher.laterSample, samplePublish, ⟨3, 500000000⟩⟩
    let memory :=
      opened topicT (some 0) samplePublish (sampleMessage true)
    let relayed :=
      relay (sampleMessage false)
        (cut [232, 232]
          (stream
            (memory.transferPublisher [earlier.sample, later.sample])))
        [samplePublish, samplePublish]
    lines topicT samplePublish (cut [120, 120] (stream relayed))
        [earlier.clock, later.clock] =
      [⟨topicT, Publisher.earlierSample.content, ⟨0, 0⟩, ⟨1, 0⟩, ⟨1, 0⟩⟩,
        ⟨topicT, Publisher.earlierSample.content, ⟨3, 0⟩, ⟨3, 500000000⟩,
          ⟨0, 500000000⟩⟩] := by
  intro earlier later memory relayed
  have ends : memory.EndsAt 99 := by
    rw [EndsAt]
    decide +kernel
  have proper :
      ∀ passage ∈ [earlier, later], Proper 99 passage := by
    intro passage listed
    rcases List.mem_cons.mp listed with rfl | listed
    · exact ⟨⟨by decide +kernel, by decide +kernel⟩, by decide⟩
    · cases List.mem_singleton.mp listed
      exact ⟨⟨by decide +kernel, by decide +kernel⟩, by decide⟩
  exact (lines_of_samples ends proper).1.trans (by decide +kernel)

end PublisherMemory

end SistemasDistribuidos.Practica4
