import Mathlib.Data.List.Basic
import Mathlib.Data.List.TakeWhile

/-!
# C strings in character buffers

A buffer is the list of its bytes.  Its string is what stands before the
first NUL.  `CString capacity` is a string that fits in `char[capacity]`
together with its NUL, so two of them are equal exactly when `strcmp` gives
zero.
-/

namespace SistemasDistribuidos

/-- A string of nonzero bytes that fits in `char[capacity]` with its NUL. -/
structure CString (capacity : Nat) where
  bytes : List UInt8
  noNul : 0 ∉ bytes
  fits : bytes.length < capacity
  deriving DecidableEq

namespace CString

/-- The string a buffer holds: its bytes before the first NUL. -/
def ofBuffer (buffer : List UInt8) : List UInt8 :=
  buffer.takeWhile (fun byte => byte != 0)

/-- `strcpy`: the source's string and its NUL overwrite the beginning of the
destination; the rest of the destination keeps its bytes. -/
def strcpy (destination source : List UInt8) : List UInt8 :=
  ofBuffer source ++
    0 :: destination.drop ((ofBuffer source).length + 1)

@[simp]
theorem ofBuffer_zero (rest : List UInt8) : ofBuffer (0 :: rest) = [] :=
  rfl

theorem ofBuffer_append
    {text : List UInt8} (noNul : 0 ∉ text) (rest : List UInt8) :
    ofBuffer (text ++ rest) = text ++ ofBuffer rest := by
  apply List.takeWhile_append_of_pos
  intro byte member
  rw [bne_iff_ne]
  intro isNul
  rw [isNul] at member
  exact noNul member

/-- A buffer holds a string shorter than itself exactly when it begins with
that string and a NUL. -/
theorem ofBuffer_eq_iff
    {text buffer : List UInt8} (noNul : 0 ∉ text)
    (shorter : text.length < buffer.length) :
    ofBuffer buffer = text ↔ text ++ [0] <+: buffer := by
  constructor
  · intro holds
    have pieces := List.takeWhile_append_dropWhile
      (p := fun byte : UInt8 => byte != 0) (l := buffer)
    rw [ofBuffer] at holds
    rw [holds] at pieces
    cases after : buffer.dropWhile (fun byte => byte != 0) with
    | nil =>
        rw [after, List.append_nil] at pieces
        rw [pieces] at shorter
        exact absurd shorter (lt_irrefl _)
    | cons byte rest =>
        have isNul : byte = 0 := by
          have stops := List.head?_dropWhile_not
            (fun byte : UInt8 => byte != 0) buffer
          rw [after] at stops
          simpa using stops
        rw [after, isNul] at pieces
        exact ⟨rest, by rw [← pieces, List.append_assoc]; rfl⟩
  · rintro ⟨rest, rfl⟩
    rw [List.append_assoc, ofBuffer_append noNul]
    exact List.append_nil text

/-- Reading back a copied string gives the string. -/
theorem ofBuffer_strcpy (destination source : List UInt8) :
    ofBuffer (strcpy destination source) = ofBuffer source := by
  rw [strcpy]
  generalize rest : destination.drop ((ofBuffer source).length + 1) = tail
  have allNonzero :
      ∀ byte ∈ ofBuffer source, (byte != 0) = true := by
    intro byte member
    rw [ofBuffer] at member
    exact List.mem_takeWhile_imp (p := fun byte => byte != 0) member
  conv_lhs => rw [ofBuffer]
  rw [List.takeWhile_append_of_pos allNonzero,
    List.takeWhile_cons_of_neg (by simp), List.append_nil]

theorem length_ofBuffer_lt
    {buffer : List UInt8} (terminated : 0 ∈ buffer) :
    (ofBuffer buffer).length < buffer.length := by
  induction buffer with
  | nil => simp at terminated
  | cons byte rest inductionHypothesis =>
      rw [ofBuffer]
      by_cases isNul : byte = 0
      · simp [isNul]
      · have inRest : 0 ∈ rest := by
          simpa [Ne.symm isNul] using terminated
        rw [List.takeWhile_cons_of_pos (by simpa using isNul)]
        have shorter := inductionHypothesis inRest
        rw [ofBuffer] at shorter
        simp only [List.length_cons]
        omega

/-- A copy whose source is terminated inside a buffer of the destination's
size stays inside the destination. -/
theorem length_strcpy
    {destination source : List UInt8}
    (terminated : 0 ∈ source)
    (sameSize : source.length = destination.length) :
    (strcpy destination source).length = destination.length := by
  have shorter := length_ofBuffer_lt terminated
  rw [strcpy]
  simp only [List.length_append, List.length_cons, List.length_drop]
  omega

end CString

end SistemasDistribuidos
