import SistemasDistribuidos.Library.CString
import SistemasDistribuidos.Library.Stdio
import SistemasDistribuidos.Practica4.Publish
import SistemasDistribuidos.Practica4.Receive

/-!
# The samples of a publisher

`transfer_publisher` opens `/proc/loadavg` once.  Its first `fread` reads the
whole content; each later one goes on where the one before has stopped, and
writes what it finds there over the beginning of `publish.data`.  Nothing
writes a NUL.

A sample is what the file contains when an iteration reads it.
-/

namespace SistemasDistribuidos.Practica4

open SistemasDistribuidos Framing Stdio

/-- What one iteration finds: the time, and the content of the file. -/
structure Sample where
  time : Timespec
  content : List UInt8
  noNul : 0 ∉ content
  fits : content.length < 100

/-- The `struct message` that `transfer_publisher` sends; it does not set
`id`. -/
structure OutgoingMessage where
  action : Operation
  topic : TopicName
  data : Publish

def OutgoingMessage.text (message : OutgoingMessage) : List UInt8 :=
  message.data.text

/-- `client_topic`, and the variables of `transfer_publisher`.  `ptr` is the
offset of the file, if it could be opened. -/
structure Publisher where
  clientTopic : TopicName
  ptr : Option Nat
  publish : Publish

namespace Buffer

def frame (buffer : Buffer) : Frame UInt8 100 :=
  ⟨buffer.bytes, buffer.size⟩

/-- The buffer after something has been read to its beginning. -/
def overlay (buffer : Buffer) (chunk : Chunk UInt8 100) : Buffer :=
  ⟨(buffer.frame.overlay chunk).bytes,
    (buffer.frame.overlay chunk).length_bytes⟩

theorem bytes_overlay (buffer : Buffer) (chunk : Chunk UInt8 100) :
    (buffer.overlay chunk).bytes =
      chunk.bytes ++ buffer.bytes.drop chunk.bytes.length :=
  rfl

end Buffer

namespace Publisher

/-- One iteration, up to the `send`. -/
def iterate (publisher : Publisher) (sample : Sample) : Publisher :=
  match publisher.ptr with
  | some offset =>
      { publisher with
        ptr := some (fread 100 sample.content offset).2
        publish :=
          { timeGeneratedData := sample.time
            data :=
              publisher.publish.data.overlay
                (fread 100 sample.content offset).1 } }
  | none =>
      { publisher with
        publish :=
          { publisher.publish with timeGeneratedData := sample.time } }

def message (publisher : Publisher) : OutgoingMessage where
  action := .publishData
  topic := publisher.clientTopic
  data := publisher.publish

def transferPublisher (publisher : Publisher) :
    List Sample → List OutgoingMessage
  | [] => []
  | sample :: rest =>
      (publisher.iterate sample).message ::
        transferPublisher (publisher.iterate sample) rest

/-- After `fopen`; `publish` is not initialised. -/
def opened (clientTopic : TopicName) (publish : Publish) : Publisher where
  clientTopic := clientTopic
  ptr := some 0
  publish := publish

/-! ## When a message has the current content -/

/-- A content that is not the one before is published all the same: it begins
again where the one before has ended, and the buffer happens to hold what is
left of it. -/
structure Coincides (stack : Buffer) (previous content : List UInt8) :
    Prop where
  longer : 2 * previous.length < content.length
  repeated :
    content.drop previous.length =
      content.take (content.length - previous.length)
  leftOver :
    content.drop (content.length - previous.length) ++ [0] <+:
      stack.bytes.drop (content.length - previous.length)

/-- Each content is the one before, or is published all the same. -/
def Repeats (stack : Buffer) : List UInt8 → List Sample → Prop
  | _, [] => True
  | previous, sample :: rest =>
      (sample.content = previous ∨
          Coincides stack previous sample.content) ∧
        Repeats stack sample.content rest

/-- The buffer has a NUL behind the first content, and no content differs
from the first one. -/
def Unchanged (stack : Buffer) : List Sample → Prop
  | [] => True
  | first :: rest =>
      [0] <+: stack.bytes.drop first.content.length ∧
        Repeats stack first.content rest

structure Shows (publisher : Publisher) (stack : Buffer)
    (content : List UInt8) : Prop where
  offset : publisher.ptr = some content.length
  noNul : 0 ∉ content
  bytes :
    publisher.publish.data.bytes =
      content ++ stack.bytes.drop content.length
  ends : [0] <+: stack.bytes.drop content.length

section Iterations

variable {publisher : Publisher} {stack : Buffer} {content : List UInt8}

/-- Behind the content the buffer is as it was. -/
theorem drop_shown
    {count : Nat} (behind : content.length ≤ count) :
    (content ++ stack.bytes.drop content.length).drop count =
      stack.bytes.drop count := by
  rw [List.drop_append, List.drop_eq_nil_of_le behind, List.nil_append,
    List.drop_drop]
  congr 1
  omega

theorem text_eq_iff
    {publish : Publish} (noNul : 0 ∉ content)
    (bytes :
      publish.data.bytes = content ++ stack.bytes.drop content.length)
    (fits : content.length < 100) :
    publish.text = content ↔ [0] <+: stack.bytes.drop content.length := by
  have shorter : ([] : List UInt8).length <
      (stack.bytes.drop content.length).length := by
    rw [List.length_drop, stack.size]
    exact Nat.sub_pos_of_lt fits
  rw [Publish.text, bytes, CString.ofBuffer_append noNul,
    List.append_right_eq_self,
    CString.ofBuffer_eq_iff List.not_mem_nil shorter]
  rfl

theorem Shows.text
    (shows : publisher.Shows stack content) (fits : content.length < 100) :
    publisher.publish.text = content :=
  (text_eq_iff shows.noNul shows.bytes fits).mpr shows.ends

theorem iterate_opened
    (clientTopic : TopicName) (publish : Publish) (sample : Sample) :
    ((opened clientTopic publish).iterate sample).publish.data.bytes =
        sample.content ++ publish.data.bytes.drop sample.content.length ∧
      ((opened clientTopic publish).iterate sample).ptr =
        some sample.content.length := by
  have whole : sample.content.length - 0 ≤ 100 := Nat.le_of_lt sample.fits
  obtain ⟨read, offset⟩ := fread_rest 100 (Nat.zero_le _) whole
  constructor
  · rw [iterate, opened]
    simp only [Buffer.bytes_overlay, read, List.drop_zero]
  · rw [iterate, opened]
    simp only [offset]

/-- Nothing is read when the file is not longer than before. -/
theorem Shows.iterate_short
    (shows : publisher.Shows stack content) {sample : Sample}
    (short : sample.content.length ≤ content.length) :
    (publisher.iterate sample).Shows stack content := by
  have nothing := fread_end 100 short
  have unread :
      (publisher.iterate sample).publish.data.bytes =
        publisher.publish.data.bytes := by
    rw [iterate, shows.offset]
    simp only [nothing]
    rfl
  refine ⟨?_, shows.noNul, unread.trans shows.bytes, shows.ends⟩
  rw [iterate, shows.offset]
  simp only [nothing]

/-- What is behind the old content is read when the file has grown. -/
theorem Shows.iterate_long
    (shows : publisher.Shows stack content) {sample : Sample}
    (long : content.length < sample.content.length) :
    (publisher.iterate sample).publish.data.bytes =
        sample.content.drop content.length ++
          (content ++ stack.bytes.drop content.length).drop
            (sample.content.length - content.length) ∧
      (publisher.iterate sample).ptr = some sample.content.length := by
  have fits := sample.fits
  obtain ⟨read, offset⟩ :=
    fread_rest 100 (Nat.le_of_lt long) (by omega)
  constructor
  · rw [iterate, shows.offset]
    simp only [Buffer.bytes_overlay, read, shows.bytes, List.length_drop]
  · rw [iterate, shows.offset]
    simp only [offset]

/-- The NUL of the old content comes too early for one that is at most twice
as long. -/
theorem Shows.text_ne
    (shows : publisher.Shows stack content) {sample : Sample}
    (long : content.length < sample.content.length)
    (few : sample.content.length ≤ 2 * content.length) :
    (publisher.iterate sample).publish.text ≠ sample.content := by
  obtain ⟨bytes, _⟩ := shows.iterate_long long
  obtain ⟨rest, ends⟩ := shows.ends
  have tooShort :
      CString.ofBuffer
          ((content ++ stack.bytes.drop content.length).drop
            (sample.content.length - content.length)) =
        content.drop (sample.content.length - content.length) := by
    rw [List.drop_append_of_le_length (by omega),
      CString.ofBuffer_append (mt List.mem_of_mem_drop shows.noNul),
      ← ends, List.singleton_append, CString.ofBuffer_zero,
      List.append_nil]
  intro same
  rw [Publish.text, bytes,
    CString.ofBuffer_append (mt List.mem_of_mem_drop sample.noNul),
    tooShort] at same
  have lengths := congrArg List.length same
  rw [List.length_append, List.length_drop, List.length_drop] at lengths
  omega

/-- A longer content is read behind the NUL of the old one. -/
theorem Shows.text_far
    (shows : publisher.Shows stack content) {sample : Sample}
    (far : 2 * content.length < sample.content.length) :
    (publisher.iterate sample).publish.text = sample.content ↔
      Coincides stack content sample.content := by
  have fits := sample.fits
  have long : content.length < sample.content.length := by
    omega
  obtain ⟨bytes, _⟩ := shows.iterate_long long
  have behind : content.length ≤
      sample.content.length - content.length := by
    omega
  have shorter :
      (sample.content.drop
          (sample.content.length - content.length)).length <
        (stack.bytes.drop
          (sample.content.length - content.length)).length := by
    rw [List.length_drop, List.length_drop, stack.size]
    omega
  have leftOver_iff :=
    CString.ofBuffer_eq_iff (mt List.mem_of_mem_drop sample.noNul) shorter
  have halves := List.take_append_drop
    (sample.content.length - content.length) sample.content
  have sameLength :
      (sample.content.drop content.length).length =
        (sample.content.take
          (sample.content.length - content.length)).length := by
    rw [List.length_drop, List.length_take]
    omega
  rw [Publish.text, bytes, drop_shown behind,
    CString.ofBuffer_append (mt List.mem_of_mem_drop sample.noNul)]
  constructor
  · intro same
    conv_rhs at same => rw [← halves]
    obtain ⟨repeated, leftOver⟩ := List.append_inj same sameLength
    exact ⟨far, repeated, leftOver_iff.mp leftOver⟩
  · intro coincides
    rw [coincides.repeated, leftOver_iff.mpr coincides.leftOver, halves]

/-- A content that is longer than the old one is shown exactly when it
coincides. -/
theorem Shows.text_long
    (shows : publisher.Shows stack content) {sample : Sample}
    (long : content.length < sample.content.length) :
    (publisher.iterate sample).publish.text = sample.content ↔
      Coincides stack content sample.content := by
  by_cases few : sample.content.length ≤ 2 * content.length
  · constructor
    · intro same
      exact absurd same (shows.text_ne long few)
    · intro coincides
      exact absurd coincides.longer (not_lt.mpr few)
  · exact shows.text_far (not_le.mp few)

theorem Shows.text_iff
    (shows : publisher.Shows stack content) (fits : content.length < 100)
    (sample : Sample) :
    (publisher.iterate sample).publish.text = sample.content ↔
      sample.content = content ∨
        Coincides stack content sample.content := by
  by_cases long : content.length < sample.content.length
  · rw [shows.text_long long]
    constructor
    · exact Or.inr
    · rintro (same | coincides)
      · rw [same] at long
        exact absurd long (lt_irrefl _)
      · exact coincides
  · have unread := shows.iterate_short (not_lt.mp long)
    rw [unread.text fits]
    constructor
    · intro same
      exact Or.inl same.symm
    · rintro (same | coincides)
      · exact same.symm
      · have longer := coincides.longer
        omega

theorem Shows.iterate
    (shows : publisher.Shows stack content) {sample : Sample}
    (follows :
      sample.content = content ∨
        Coincides stack content sample.content) :
    (publisher.iterate sample).Shows stack sample.content := by
  rcases follows with same | coincides
  · rw [same]
    exact shows.iterate_short (le_of_eq (congrArg List.length same))
  · have longer := coincides.longer
    have long : content.length < sample.content.length := by
      omega
    obtain ⟨bytes, offset⟩ := shows.iterate_long long
    obtain ⟨rest, leftOver⟩ := coincides.leftOver
    have behind : content.length ≤
        sample.content.length - content.length := by
      omega
    have restLength :
        (sample.content.drop
          (sample.content.length - content.length)).length =
            content.length := by
      rw [List.length_drop]
      omega
    have ends :
        [0] ++ rest = stack.bytes.drop sample.content.length := by
      have split := congrArg (List.drop content.length) leftOver
      rw [List.append_assoc, List.drop_left' restLength, List.drop_drop,
        Nat.sub_add_cancel (Nat.le_of_lt long)] at split
      exact split
    refine ⟨offset, sample.noNul, ?_, ⟨rest, ends⟩⟩
    rw [bytes, drop_shown behind, coincides.repeated, ← ends, ← leftOver,
      List.append_assoc, ← List.append_assoc, List.take_append_drop]

theorem Shows.texts_iff
    (shows : publisher.Shows stack content) (fits : content.length < 100)
    (samples : List Sample) :
    (publisher.transferPublisher samples).map OutgoingMessage.text =
        samples.map Sample.content ↔
      Repeats stack content samples := by
  induction samples generalizing publisher content with
  | nil => exact iff_of_true rfl trivial
  | cons sample rest inductionHypothesis =>
      have here := shows.text_iff fits sample
      rw [transferPublisher, Repeats, List.map_cons, List.map_cons,
        List.cons.injEq]
      constructor
      · rintro ⟨same, later⟩
        have follows := here.mp same
        exact
          ⟨follows,
            (inductionHypothesis (shows.iterate follows) sample.fits).mp
              later⟩
      · rintro ⟨follows, later⟩
        exact
          ⟨here.mpr follows,
            (inductionHypothesis (shows.iterate follows) sample.fits).mpr
              later⟩

/-- The broker finds a NUL in the data, and passes the content on. -/
theorem relayed
    {message : OutgoingMessage} (noNul : 0 ∉ content)
    (fits : content.length < 100) (same : message.text = content) :
    ∃ terminated : 0 ∈ message.data.data.bytes,
      ∀ buffer : Buffer,
        ((Message.mk message.topic message.data terminated).publish
          buffer).text = content := by
  have shorter : content.length < message.data.data.bytes.length :=
    lt_of_lt_of_eq fits message.data.data.size.symm
  obtain ⟨rest, begins⟩ := (CString.ofBuffer_eq_iff noNul shorter).mp same
  have terminated : 0 ∈ message.data.data.bytes := by
    rw [← begins]
    simp
  exact
    ⟨terminated, fun buffer =>
      (Message.text_publish ⟨_, _, terminated⟩ buffer).trans same⟩

end Iterations

/-- All messages have the content of their moment exactly when the content
never changes and the buffer has a NUL behind it, but for coincidences. -/
theorem texts_current_iff
    (clientTopic : TopicName) (publish : Publish) (samples : List Sample) :
    ((opened clientTopic publish).transferPublisher samples).map
          OutgoingMessage.text =
        samples.map Sample.content ↔
      Unchanged publish.data samples := by
  cases samples with
  | nil => exact iff_of_true rfl trivial
  | cons first rest =>
      obtain ⟨bytes, offset⟩ := iterate_opened clientTopic publish first
      have here := text_eq_iff first.noNul bytes first.fits
      have shows : [0] <+: publish.data.bytes.drop first.content.length →
          ((opened clientTopic publish).iterate first).Shows publish.data
            first.content :=
        fun ends => ⟨offset, first.noNul, bytes, ends⟩
      rw [transferPublisher, Unchanged, List.map_cons, List.map_cons,
        List.cons.injEq]
      constructor
      · rintro ⟨same, later⟩
        have ends := here.mp same
        exact ⟨ends, ((shows ends).texts_iff first.fits rest).mp later⟩
      · rintro ⟨ends, later⟩
        exact
          ⟨here.mpr ends, ((shows ends).texts_iff first.fits rest).mpr later⟩

/-- The content `0.20 0.18 0.12 1/80 11206`. -/
def earlierSample : Sample where
  time := ⟨0, 0⟩
  content :=
    [48, 46, 50, 48, 32, 48, 46, 49, 56, 32, 48, 46, 49, 50, 32, 49, 47, 56,
      48, 32, 49, 49, 50, 48, 54, 10]
  noNul := by decide
  fits := by decide

def laterSample : Sample where
  time := ⟨3, 0⟩
  content :=
    [48, 46, 50, 49, 32, 48, 46, 49, 56, 32, 48, 46, 49, 50, 32, 49, 47, 56,
      48, 32, 49, 49, 50, 48, 55, 10]
  noNul := by decide
  fits := by decide

/-- The earlier content is published twice. -/
theorem earlier_published_again :
    let messages :=
      (opened topicT ⟨⟨0, 0⟩, default⟩).transferPublisher
        [earlierSample, laterSample]
    messages.map OutgoingMessage.text =
        [earlierSample.content, earlierSample.content] ∧
      messages.map OutgoingMessage.text ≠
        [earlierSample, laterSample].map Sample.content := by
  decide

end Publisher

end SistemasDistribuidos.Practica4
