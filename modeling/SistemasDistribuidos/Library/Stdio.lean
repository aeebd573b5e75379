import Mathlib.Data.List.Basic
import SistemasDistribuidos.Library.Framing

/-!
# Reading from a stream

`fgets` and `fread` on a stream whose bytes are known.  Both write over the
beginning of a buffer and leave the rest of it as it is, so what they read is
a chunk for `Frame.overlay`.
-/

namespace SistemasDistribuidos.Stdio

open Framing

/-! ## Lines -/

def newline : UInt8 := 10

/-- The bytes up to the first newline, at most `room` of them, and what comes
after them. -/
def splitLine : Nat → List UInt8 → List UInt8 × List UInt8
  | 0, stream => ([], stream)
  | _ + 1, [] => ([], [])
  | room + 1, byte :: rest =>
      if byte = newline then ([byte], rest)
      else
        let (line, after) := splitLine room rest
        (byte :: line, after)

theorem length_splitLine_le (room : Nat) (stream : List UInt8) :
    (splitLine room stream).1.length ≤ room := by
  induction room generalizing stream with
  | zero => exact le_refl 0
  | succ room inductionHypothesis =>
      cases stream with
      | nil => exact Nat.zero_le _
      | cons byte rest =>
          rw [splitLine]
          split
          · exact Nat.succ_le_succ (Nat.zero_le room)
          · exact Nat.succ_le_succ (inductionHypothesis rest)

theorem splitLine_append
    {text : List UInt8} (noNewline : newline ∉ text) (rest : List UInt8)
    {room : Nat} (fits : text.length < room) :
    splitLine room (text ++ newline :: rest) = (text ++ [newline], rest) := by
  induction text generalizing room with
  | nil =>
      obtain ⟨less, rfl⟩ := Nat.exists_eq_succ_of_ne_zero fits.ne'
      rfl
  | cons byte text inductionHypothesis =>
      obtain ⟨less, rfl⟩ :=
        Nat.exists_eq_succ_of_ne_zero (Nat.ne_zero_of_lt fits)
      have other : byte ≠ newline := by
        rintro rfl
        exact noNewline List.mem_cons_self
      have later :=
        inductionHypothesis
          (fun listed => noNewline (List.mem_cons_of_mem _ listed))
          (Nat.lt_of_succ_lt_succ fits)
      rw [List.cons_append, splitLine, if_neg other, later]
      rfl

/-- `fgets`: what is written to the buffer, the line and a NUL, and what is
left of the stream.  It is NULL at the end of the stream. -/
def fgets {size : Nat} (positive : 0 < size) (stream : List UInt8) :
    Option (Chunk UInt8 size × List UInt8) :=
  if stream = [] then none
  else
    some
      (⟨(splitLine (size - 1) stream).1 ++ [0], by
          have most := length_splitLine_le (size - 1) stream
          rw [List.length_append, List.length_singleton]
          omega⟩,
        (splitLine (size - 1) stream).2)

/-- A line that has been typed, up to its newline. -/
structure Line (size : Nat) where
  text : List UInt8
  noNewline : newline ∉ text
  noNul : 0 ∉ text
  fits : text.length + 1 < size

section Line

variable {size : Nat}

def Line.bytes (line : Line size) : List UInt8 :=
  line.text ++ [newline]

/-- What `fgets` writes for a line. -/
def Line.chunk (line : Line size) : Chunk UInt8 size :=
  ⟨line.bytes ++ [0], by
    have fits := line.fits
    rw [Line.bytes, List.append_assoc, List.length_append]
    exact fits⟩

theorem Line.zero_notMem_bytes (line : Line size) : 0 ∉ line.bytes := by
  rw [Line.bytes, List.mem_append, not_or]
  exact ⟨line.noNul, by decide⟩

theorem Line.length_bytes_lt (line : Line size) :
    line.bytes.length < size := by
  rw [Line.bytes, List.length_append]
  exact line.fits

/-- `fgets` reads one line of those that have been typed. -/
theorem fgets_line
    (positive : 0 < size) (line : Line size) (rest : List UInt8) :
    fgets positive (line.bytes ++ rest) = some (line.chunk, rest) := by
  have fits := line.fits
  have split : splitLine (size - 1) (line.bytes ++ rest) =
      (line.bytes, rest) := by
    rw [Line.bytes, List.append_assoc, List.singleton_append]
    exact splitLine_append line.noNewline rest (by omega)
  have some_byte : line.bytes ++ rest ≠ [] := by
    rw [Line.bytes]
    simp
  rw [fgets, if_neg some_byte]
  simp only [split]
  rfl

end Line

/-! ## Blocks -/

/-- `fread` of `size` bytes from a file with this content: what is written to
the buffer, and the offset after it. -/
def fread (size : Nat) (content : List UInt8) (offset : Nat) :
    Chunk UInt8 size × Nat :=
  (⟨(content.drop offset).take size, List.length_take_le _ _⟩,
    offset + ((content.drop offset).take size).length)

/-- At the end of the file nothing is read. -/
theorem fread_end
    (size : Nat) {offset : Nat} {content : List UInt8}
    (atEnd : content.length ≤ offset) :
    fread size content offset = (Chunk.nothing, offset) := by
  rw [fread]
  simp only [List.drop_eq_nil_of_le atEnd, List.take_nil]
  rfl

/-- What is left of the file is read when it fits. -/
theorem fread_rest
    (size : Nat) {offset : Nat} {content : List UInt8}
    (inside : offset ≤ content.length)
    (fits : content.length - offset ≤ size) :
    (fread size content offset).1.bytes = content.drop offset ∧
      (fread size content offset).2 = content.length := by
  have whole : (content.drop offset).take size = content.drop offset := by
    apply List.take_of_length_le
    rw [List.length_drop]
    exact fits
  rw [fread]
  simp only [whole, List.length_drop]
  exact ⟨trivial, by omega⟩

end SistemasDistribuidos.Stdio
