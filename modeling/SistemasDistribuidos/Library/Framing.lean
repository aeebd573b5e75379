import Mathlib.Algebra.Order.BigOperators.Group.List
import Mathlib.Algebra.Order.Ring.Nat

/-!
# Fixed-size frames over a byte stream

A sender writes frames of one size one after another.  A receiver reads them
with one `recv` a frame into a buffer that it keeps: each result, a `Chunk` of
at most the frame's size, is written over the beginning of the buffer.

The results of `recv` are given by their lengths.  The receiver sees the frames
that were sent exactly when every one of them is a whole frame.
-/

namespace SistemasDistribuidos.Framing

universe u

/-- The bytes of one frame. -/
@[ext]
structure Frame (Byte : Type u) (size : Nat) where
  bytes : List Byte
  length_bytes : bytes.length = size
  deriving DecidableEq

/-- What one `recv` returns. -/
@[ext]
structure Chunk (Byte : Type u) (size : Nat) where
  bytes : List Byte
  length_le : bytes.length ≤ size

variable {Byte : Type u} {size : Nat}

/-- A `recv` that returns a whole frame. -/
def Frame.chunk (frame : Frame Byte size) : Chunk Byte size :=
  ⟨frame.bytes, frame.length_bytes.le⟩

/-- A `recv` at the end of the stream. -/
def Chunk.nothing : Chunk Byte size :=
  ⟨[], Nat.zero_le _⟩

/-- A `recv` when `available` bytes of the stream have arrived. -/
def Chunk.front (available : Nat) (bytes : List Byte) : Chunk Byte size :=
  ⟨bytes.take (min available size), by
    rw [List.length_take]
    omega⟩

/-- The buffer after a `recv`. -/
def Frame.overlay (buffer : Frame Byte size) (chunk : Chunk Byte size) :
    Frame Byte size :=
  ⟨chunk.bytes ++ buffer.bytes.drop chunk.bytes.length, by
    have most := chunk.length_le
    rw [List.length_append, List.length_drop, buffer.length_bytes]
    omega⟩

@[simp]
theorem Frame.overlay_chunk (buffer frame : Frame Byte size) :
    buffer.overlay frame.chunk = frame := by
  ext1
  simp only [overlay, chunk]
  rw [List.drop_eq_nil_of_le
    (by rw [buffer.length_bytes, frame.length_bytes]), List.append_nil]

@[simp]
theorem Frame.overlay_nothing (buffer : Frame Byte size) :
    buffer.overlay .nothing = buffer :=
  rfl

theorem Frame.bytes_overlay
    (buffer : Frame Byte size) (chunk : Chunk Byte size) :
    (buffer.overlay chunk).bytes =
      chunk.bytes ++ buffer.bytes.drop chunk.bytes.length :=
  rfl

/-- Behind the chunk the buffer keeps its bytes. -/
theorem Frame.drop_overlay
    (buffer : Frame Byte size) {chunk : Chunk Byte size} {count : Nat}
    (behind : chunk.bytes.length ≤ count) :
    (buffer.overlay chunk).bytes.drop count = buffer.bytes.drop count := by
  rw [bytes_overlay, List.drop_append, List.drop_eq_nil_of_le behind,
    List.nil_append, List.drop_drop]
  congr 1
  omega

/-- The bytes of some frames, one after another. -/
def stream (frames : List (Frame Byte size)) : List Byte :=
  frames.flatMap Frame.bytes

theorem stream_cons
    (frame : Frame Byte size) (rest : List (Frame Byte size)) :
    stream (frame :: rest) = frame.bytes ++ stream rest :=
  rfl

/-- The results of `recv` on a stream, given how much has arrived at each. -/
def cut : List Nat → List Byte → List (Chunk Byte size)
  | [], _ => []
  | available :: rest, bytes =>
      .front available bytes :: cut rest (bytes.drop (min available size))

/-- Every `recv` returns something, at most a frame, and together they return
`total` bytes. -/
structure IsCut (size : Nat) (lengths : List Nat) (total : Nat) : Prop where
  positive : ∀ length ∈ lengths, 0 < length
  bounded : ∀ length ∈ lengths, length ≤ size
  complete : lengths.sum = total

theorem IsCut.tail
    {length : Nat} {rest : List Nat} {total : Nat}
    (isCut : IsCut size (length :: rest) (length + total)) :
    IsCut size rest total where
  positive := fun later listed =>
    isCut.positive later (List.mem_cons_of_mem _ listed)
  bounded := fun later listed =>
    isCut.bounded later (List.mem_cons_of_mem _ listed)
  complete := by
    have complete := isCut.complete
    rw [List.sum_cons] at complete
    omega

@[simp]
theorem length_cut (lengths : List Nat) (bytes : List Byte) :
    (cut lengths bytes : List (Chunk Byte size)).length =
      lengths.length := by
  induction lengths generalizing bytes with
  | nil => rfl
  | cons length rest inductionHypothesis =>
      rw [cut, List.length_cons, List.length_cons, inductionHypothesis]

/-- A first result that is a whole frame. -/
theorem cut_cons_whole
    (lengths : List Nat) (frame : Frame Byte size) (rest : List Byte) :
    (cut (size :: lengths) (frame.bytes ++ rest) :
        List (Chunk Byte size)) =
      frame.chunk :: cut lengths rest := by
  have exactly := frame.length_bytes
  rw [cut, Nat.min_self]
  congr 1
  · ext1
    simp only [Chunk.front, Frame.chunk, Nat.min_self]
    exact List.take_left' exactly
  · rw [List.drop_left' exactly]

/-- A stream that is cut between its frames. -/
theorem cut_stream :
    ∀ {lengths : List Nat} (frames : List (Frame Byte size)),
      (∀ length ∈ lengths, length = size) →
        lengths.length = frames.length →
          (cut lengths (stream frames) : List (Chunk Byte size)) =
            frames.map Frame.chunk
  | [], [], _, _ => rfl
  | length :: lengths, frame :: rest, whole, same => by
      rw [whole length List.mem_cons_self, stream_cons, cut_cons_whole,
        List.map_cons,
        cut_stream rest
          (fun later listed => whole later (List.mem_cons_of_mem _ listed))
          (Nat.succ.inj same)]

theorem sum_le_of_bounded
    {lengths : List Nat} (bounded : ∀ length ∈ lengths, length ≤ size) :
    lengths.sum ≤ size * lengths.length := by
  have most := List.sum_le_card_nsmul lengths size bounded
  rw [nsmul_eq_mul, Nat.cast_id, Nat.mul_comm] at most
  exact most

/-- As many results as frames: every one is a whole frame. -/
theorem whole_of_sum
    {lengths : List Nat} (bounded : ∀ length ∈ lengths, length ≤ size)
    (complete : lengths.sum = size * lengths.length) :
    ∀ length ∈ lengths, length = size := by
  induction lengths with
  | nil => simp
  | cons first rest inductionHypothesis =>
      have firstBounded := bounded first List.mem_cons_self
      have restBounded : ∀ length ∈ rest, length ≤ size :=
        fun length listed =>
          bounded length (List.mem_cons_of_mem _ listed)
      have most := sum_le_of_bounded restBounded
      rw [List.sum_cons, List.length_cons, Nat.mul_add, Nat.mul_one]
        at complete
      intro length listed
      rcases List.mem_cons.mp listed with rfl | later
      · omega
      · exact inductionHypothesis restBounded (by omega) length later

/-- Whole frames are as many as what they bring together. -/
theorem IsCut.length_eq
    {lengths : List Nat} {number : Nat} (positive : 0 < size)
    (isCut : IsCut size lengths (size * number))
    (whole : ∀ length ∈ lengths, length = size) :
    lengths.length = number := by
  have complete := isCut.complete
  rw [List.eq_replicate_of_mem whole, List.sum_replicate_nat,
    Nat.mul_comm] at complete
  exact Nat.eq_of_mul_eq_mul_left positive complete

/-- The frames that a loop with one `recv` a frame sees. -/
def seen (buffer : Frame Byte size) :
    List (Chunk Byte size) → List (Frame Byte size)
  | [] => []
  | chunk :: rest =>
      buffer.overlay chunk :: seen (buffer.overlay chunk) rest

@[simp]
theorem length_seen
    (buffer : Frame Byte size) (chunks : List (Chunk Byte size)) :
    (seen buffer chunks).length = chunks.length := by
  induction chunks generalizing buffer with
  | nil => rfl
  | cons chunk rest inductionHypothesis =>
      rw [seen, List.length_cons, List.length_cons, inductionHypothesis]

/-- Whole frames are seen as they are. -/
theorem seen_whole
    (buffer : Frame Byte size) (frames : List (Frame Byte size)) :
    seen buffer (frames.map Frame.chunk) = frames := by
  induction frames generalizing buffer with
  | nil => rfl
  | cons frame rest inductionHypothesis =>
      rw [List.map_cons, seen, Frame.overlay_chunk, inductionHypothesis]

/-- The frames that were sent are seen exactly when the stream is cut between
them. -/
theorem seen_cut_eq_iff
    (positive : 0 < size)
    (buffer : Frame Byte size) (frames : List (Frame Byte size))
    {lengths : List Nat}
    (isCut : IsCut size lengths (size * frames.length)) :
    seen buffer (cut lengths (stream frames)) = frames ↔
      ∀ length ∈ lengths, length = size := by
  constructor
  · intro same
    have number := congrArg List.length same
    rw [length_seen, length_cut] at number
    exact
      whole_of_sum isCut.bounded (by rw [number]; exact isCut.complete)
  · intro whole
    rw [cut_stream frames whole (isCut.length_eq positive whole),
      seen_whole]

end SistemasDistribuidos.Framing
