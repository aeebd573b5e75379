import Mathlib.Data.List.GetD
import Mathlib.Data.BitVec
import SistemasDistribuidos.Library.CString
import SistemasDistribuidos.Library.Framing

/-!
# Structs as they lie in memory

A struct is a frame of bytes, and a field of it is a place in the frame.  What
is written to a field is read back from it, and the fields beside it stay.
An integer is stored least significant byte first; `char[capacity]` holds a
string when it has a NUL.  Bytes that belong to no field are padding, and keep
what they held.
-/

namespace SistemasDistribuidos.Layout

open Framing

universe u

/-! ## Fields -/

/-- A place of some width in a struct of some size. -/
structure Field (size width : Nat) where
  offset : Nat
  inside : offset + width ≤ size

namespace Field

variable {Byte : Type u} {size width : Nat}

def read (field : Field size width) (frame : Frame Byte size) :
    Frame Byte width :=
  ⟨(frame.bytes.drop field.offset).take width, by
    have inside := field.inside
    rw [List.length_take, List.length_drop, frame.length_bytes]
    omega⟩

def write (field : Field size width) (frame : Frame Byte size)
    (value : Frame Byte width) : Frame Byte size :=
  ⟨frame.bytes.take field.offset ++
      (value.bytes ++ frame.bytes.drop (field.offset + width)), by
    have inside := field.inside
    rw [List.length_append, List.length_append, List.length_take,
      List.length_drop, frame.length_bytes, value.length_bytes]
    omega⟩

/-- The two fields do not overlap. -/
def Apart {width' : Nat} (first : Field size width)
    (second : Field size width') : Prop :=
  first.offset + width ≤ second.offset ∨
    second.offset + width' ≤ first.offset

instance {width' : Nat} (first : Field size width)
    (second : Field size width') : Decidable (first.Apart second) :=
  inferInstanceAs (Decidable (_ ∨ _))

variable (field : Field size width) (frame : Frame Byte size)

theorem getElem?_read
    {index : Nat} (within : index < width) :
    (field.read frame).bytes[index]? =
      frame.bytes[field.offset + index]? := by
  rw [read]
  simp only
  rw [List.getElem?_take_of_lt within, List.getElem?_drop]

theorem getElem?_write_within
    (value : Frame Byte width) {index : Nat} (within : index < width) :
    (field.write frame value).bytes[field.offset + index]? =
      value.bytes[index]? := by
  have inside := field.inside
  have front : (frame.bytes.take field.offset).length = field.offset := by
    rw [List.length_take, frame.length_bytes]
    omega
  rw [write]
  simp only
  rw [List.getElem?_append_right (by omega), front, Nat.add_sub_cancel_left,
    List.getElem?_append_left (by rw [value.length_bytes]; exact within)]

theorem getElem?_write_outside
    (value : Frame Byte width) {index : Nat}
    (outside : index < field.offset ∨ field.offset + width ≤ index) :
    (field.write frame value).bytes[index]? = frame.bytes[index]? := by
  have inside := field.inside
  have front : (frame.bytes.take field.offset).length = field.offset := by
    rw [List.length_take, frame.length_bytes]
    omega
  rw [write]
  simp only
  rcases outside with before | behind
  · rw [List.getElem?_append_left (by omega), List.getElem?_take_of_lt before]
  · rw [List.getElem?_append_right (by omega), front,
      List.getElem?_append_right (by rw [value.length_bytes]; omega),
      value.length_bytes, List.getElem?_drop]
    congr 1
    omega

/-- Frames with the same bytes are the same. -/
theorem frame_ext
    {first second : Frame Byte size}
    (same : ∀ index, index < size →
      first.bytes[index]? = second.bytes[index]?) :
    first = second := by
  ext1
  apply List.ext_getElem?
  intro index
  by_cases within : index < size
  · exact same index within
  · rw [List.getElem?_eq_none (by rw [first.length_bytes]; omega),
      List.getElem?_eq_none (by rw [second.length_bytes]; omega)]

@[simp]
theorem read_write (value : Frame Byte width) :
    field.read (field.write frame value) = value := by
  apply frame_ext
  intro index within
  rw [getElem?_read _ _ within, getElem?_write_within _ _ _ within]

theorem read_write_apart
    {width' : Nat} {other : Field size width'}
    (apart : field.Apart other) (value : Frame Byte width') :
    field.read (other.write frame value) = field.read frame := by
  apply frame_ext
  intro index within
  rw [getElem?_read _ _ within, getElem?_read _ _ within,
    getElem?_write_outside]
  rcases apart with before | behind
  · left
    omega
  · right
    omega

end Field

/-! ## Integers -/

/-- The bytes of a number, least significant first. -/
def leastFirst : Nat → Nat → List UInt8
  | 0, _ => []
  | width + 1, value =>
      UInt8.ofNat value :: leastFirst width (value / 256)

/-- The number that some bytes stand for. -/
def number (bytes : List UInt8) : Nat :=
  bytes.foldr (fun byte value => byte.toNat + 256 * value) 0

@[simp]
theorem length_leastFirst (width value : Nat) :
    (leastFirst width value).length = width := by
  induction width generalizing value with
  | zero => rfl
  | succ width inductionHypothesis =>
      rw [leastFirst, List.length_cons, inductionHypothesis]

theorem number_cons (byte : UInt8) (rest : List UInt8) :
    number (byte :: rest) = byte.toNat + 256 * number rest :=
  rfl

theorem number_leastFirst (width value : Nat) :
    number (leastFirst width value) = value % 256 ^ width := by
  induction width generalizing value with
  | zero => rw [pow_zero, Nat.mod_one]; rfl
  | succ width inductionHypothesis =>
      have byte : (UInt8.ofNat value).toNat = value % 256 := UInt8.toNat_ofNat'
      rw [leastFirst, number_cons, inductionHypothesis, byte, pow_succ,
        Nat.mul_comm _ 256, Nat.mod_mul]

theorem number_lt (bytes : List UInt8) :
    number bytes < 256 ^ bytes.length := by
  induction bytes with
  | nil => exact Nat.one_pos
  | cons byte rest inductionHypothesis =>
      have small := byte.toNat_lt
      rw [number_cons, List.length_cons, pow_succ]
      omega

theorem leastFirst_number (bytes : List UInt8) :
    leastFirst bytes.length (number bytes) = bytes := by
  induction bytes with
  | nil => rfl
  | cons byte rest inductionHypothesis =>
      have small := byte.toNat_lt
      have first : UInt8.ofNat (number (byte :: rest)) = byte := by
        apply UInt8.toNat_inj.mp
        rw [UInt8.toNat_ofNat', number_cons]
        omega
      have later : number (byte :: rest) / 256 = number rest := by
        rw [number_cons]
        omega
      rw [List.length_cons, leastFirst, first, later, inductionHypothesis]

/-- An integer of some bytes, as it lies in memory. -/
def integer (width : Nat) : BitVec (8 * width) ≃ Frame UInt8 width where
  toFun value := ⟨leastFirst width value.toNat, length_leastFirst _ _⟩
  invFun frame := BitVec.ofNat _ (number frame.bytes)
  left_inv := by
    intro value
    apply BitVec.eq_of_toNat_eq
    have powers : 2 ^ (8 * width) = 256 ^ width := pow_mul 2 8 width
    have small := value.isLt
    rw [powers] at small
    rw [BitVec.toNat_ofNat, number_leastFirst, powers, Nat.mod_mod]
    exact Nat.mod_eq_of_lt small
  right_inv := by
    intro frame
    ext1
    have powers : 2 ^ (8 * width) = 256 ^ width := pow_mul 2 8 width
    have small := number_lt frame.bytes
    have same := leastFirst_number frame.bytes
    rw [frame.length_bytes] at small same
    simp only [BitVec.toNat_ofNat]
    rw [powers, Nat.mod_eq_of_lt small]
    exact same

/-- A signed integer in memory. -/
def signed {width : Nat} (frame : Frame UInt8 width) : Int :=
  ((integer width).symm frame).toInt

/-- A signed integer, as it is stored. -/
def ofSigned (width : Nat) (value : Int) : Frame UInt8 width :=
  integer width (BitVec.ofInt _ value)

@[simp]
theorem signed_integer {width : Nat} (value : BitVec (8 * width)) :
    signed (integer width value) = value.toInt := by
  rw [signed, Equiv.symm_apply_apply]

/-- What fits is read back. -/
theorem signed_ofSigned
    {width : Nat} (positive : 0 < width) {value : Int}
    (low : -2 ^ (8 * width - 1) ≤ value)
    (high : value < 2 ^ (8 * width - 1)) :
    signed (ofSigned width value) = value := by
  rw [signed, ofSigned, Equiv.symm_apply_apply]
  exact BitVec.toInt_ofInt_eq_self (by omega) low high

/-- What has been read can be stored again. -/
@[simp]
theorem signed_ofSigned_signed {width : Nat} (frame : Frame UInt8 width) :
    signed (ofSigned width (signed frame)) = signed frame := by
  rw [signed, ofSigned, Equiv.symm_apply_apply, signed, BitVec.ofInt_toInt]

/-! ## Strings -/

section Strings

variable {capacity : Nat}

/-- The string in a `char[capacity]`, if it ends there. -/
def string (frame : Frame UInt8 capacity) : Option (CString capacity) :=
  if terminated : 0 ∈ frame.bytes then
    some
      { bytes := CString.ofBuffer frame.bytes
        noNul := by
          intro inside
          have nonzero :=
            List.mem_takeWhile_imp (p := fun byte => byte != 0) inside
          simp at nonzero
        fits :=
          lt_of_lt_of_eq (CString.length_ofBuffer_lt terminated)
            frame.length_bytes }
  else none

/-- A string that fits does not make its destination longer. -/
theorem length_strcpy
    (frame : Frame UInt8 capacity) (text : CString capacity) :
    (CString.strcpy frame.bytes (text.bytes ++ [0])).length = capacity := by
  have fits := text.fits
  rw [CString.strcpy, CString.ofBuffer_append text.noNul,
    CString.ofBuffer_zero, List.append_nil, List.length_append,
    List.length_cons, List.length_drop, frame.length_bytes]
  omega

/-- `strcpy` into a `char[capacity]`. -/
def strcpy (frame : Frame UInt8 capacity) (text : CString capacity) :
    Frame UInt8 capacity :=
  ⟨CString.strcpy frame.bytes (text.bytes ++ [0]), length_strcpy frame text⟩

theorem ofBuffer_strcpy
    (frame : Frame UInt8 capacity) (text : CString capacity) :
    CString.ofBuffer (strcpy frame text).bytes = text.bytes := by
  rw [strcpy]
  simp only
  rw [CString.ofBuffer_strcpy, CString.ofBuffer_append text.noNul]
  exact List.append_nil _

/-- What is copied is read back. -/
@[simp]
theorem string_strcpy
    (frame : Frame UInt8 capacity) (text : CString capacity) :
    string (strcpy frame text) = some text := by
  have terminated : 0 ∈ (strcpy frame text).bytes := by
    simp [strcpy, CString.strcpy]
  rw [string, dif_pos terminated]
  congr 1
  obtain ⟨bytes, noNul, fits⟩ := text
  congr 1
  exact ofBuffer_strcpy frame ⟨bytes, noNul, fits⟩

end Strings

end SistemasDistribuidos.Layout
