import Mathlib.Data.List.Basic
import Mathlib.Data.List.TakeWhile
import Mathlib.Algebra.Order.Group.Unbundled.Int
import Mathlib.Algebra.Order.Ring.Nat

/-!
# Numbers in text files

A program keeps a number in a text file: `fprintf` with `%d` writes its decimal
text, and `fgets` and `atoi` read it back.  A buffered stream that was opened
for writing writes its buffer from its own offset on, over whatever other
streams have left in the file.
-/

namespace SistemasDistribuidos.TextFile

/-! ## Decimal text -/

/-- `%d`. -/
def text (value : Int) : List Char :=
  if value < 0 then '-' :: Nat.toDigits 10 value.natAbs
  else Nat.toDigits 10 value.natAbs

/-- `isspace`. -/
def isSpace (char : Char) : Bool :=
  char.toNat = 32 ∨ (9 ≤ char.toNat ∧ char.toNat ≤ 13)

/-- The value of the digits that some text begins with. -/
def digitsValue (chars : List Char) : Nat :=
  Nat.ofDigitChars 10 (chars.takeWhile Char.isDigit) 0

/-- The number that some text begins with, after blanks and a sign. -/
def number (chars : List Char) : Int :=
  match chars.dropWhile isSpace with
  | '-' :: rest => -(digitsValue rest : Int)
  | '+' :: rest => digitsValue rest
  | rest => digitsValue rest

/-- `strtol` to the base 10: `LONG_MIN` and `LONG_MAX` stand for what lies
beyond them. -/
def strtol (chars : List Char) : Int :=
  max (-2 ^ 63) (min (2 ^ 63 - 1) (number chars))

/-- `atoi`, which is `(int) strtol(chars, NULL, 10)`. -/
def atoi (chars : List Char) : BitVec 32 :=
  BitVec.ofInt 32 (strtol chars)

theorem digitsValue_toDigits (value : Nat) :
    digitsValue (Nat.toDigits 10 value) = value := by
  have allDigits :
      (Nat.toDigits 10 value).takeWhile Char.isDigit =
        Nat.toDigits 10 value :=
    List.takeWhile_eq_self_iff.mpr
      (fun _ listed =>
        Nat.isDigit_of_mem_toDigits (by decide) (by decide) listed)
  rw [digitsValue, allDigits, Nat.ofDigitChars_ten_toDigits]

theorem not_isSpace_of_isDigit
    {char : Char} (digit : char.isDigit = true) : isSpace char = false := by
  simp only [Char.isDigit, Bool.and_eq_true, decide_eq_true_eq] at digit
  have least : 48 ≤ char.toNat := digit.1
  simp only [isSpace, Bool.decide_or, Bool.decide_and, Bool.or_eq_false_iff,
    Bool.and_eq_false_iff, decide_eq_false_iff_not]
  omega

/-- Reading back a decimal text gives the number. -/
theorem number_text (value : Int) : number (text value) = value := by
  rw [text]
  split
  · rename_i negative
    have noSpace :
        ('-' :: Nat.toDigits 10 value.natAbs).dropWhile isSpace =
          '-' :: Nat.toDigits 10 value.natAbs :=
      List.dropWhile_cons_of_neg (by decide)
    simp only [number, noSpace, digitsValue_toDigits]
    omega
  · rename_i positive
    cases digits : Nat.toDigits 10 value.natAbs with
    | nil => exact absurd digits Nat.toDigits_ne_nil
    | cons first rest =>
        have firstDigit : first.isDigit = true :=
          Nat.isDigit_of_mem_toDigits (b := 10) (n := value.natAbs)
            (by decide) (by decide)
            (by rw [digits]; exact List.mem_cons_self)
        have noSpace : (first :: rest).dropWhile isSpace = first :: rest :=
          List.dropWhile_cons_of_neg
            (by simp [not_isSpace_of_isDigit firstDigit])
        have value_eq := digitsValue_toDigits value.natAbs
        rw [digits] at value_eq
        rw [number, noSpace]
        split
        · rename_i same
          cases same
          cases firstDigit
        · rename_i same
          cases same
          cases firstDigit
        · rw [value_eq]
          omega

theorem strtol_text
    {value : Int} (least : -2 ^ 63 ≤ value) (greatest : value < 2 ^ 63) :
    strtol (text value) = value := by
  rw [strtol, number_text, min_eq_right (by omega), max_eq_right least]

/-- The text of an `int` is read back as that `int`. -/
theorem atoi_text (value : BitVec 32) : atoi (text value.toInt) = value := by
  have least := BitVec.le_toInt value
  have greatest := BitVec.toInt_lt (x := value)
  rw [atoi, strtol_text (by omega) (by omega), BitVec.ofInt_toInt]

/-- A number past `LONG_MAX` becomes -1. -/
example : atoi (text (2 ^ 63)) = -1 := by decide +kernel

theorem text_ne_nil (value : Int) : text value ≠ [] := by
  rw [text]
  split
  · exact List.cons_ne_nil _ _
  · exact Nat.toDigits_ne_nil

/-- A decimal text has no line feed. -/
theorem newline_not_mem_text (value : Int) : Char.ofNat 10 ∉ text value := by
  have noDigit :
      ∀ number : Nat, Char.ofNat 10 ∉ Nat.toDigits 10 number := by
    intro number listed
    cases Nat.isDigit_of_mem_toDigits (by decide) (by decide) listed
  rw [text]
  split
  · intro listed
    rcases List.mem_cons.mp listed with same | later
    · cases same
    · exact noDigit _ later
  · exact noDigit _

theorem length_text_le
    {value : Int} {digits : Nat} (positive : 0 < digits)
    (small : value.natAbs < 10 ^ digits) :
    (text value).length ≤ digits + 1 := by
  have short :=
    (Nat.length_toDigits_le_iff (b := 10) (by decide) positive).mpr small
  rw [text]
  split
  · rw [List.length_cons]
    omega
  · omega

/-! ## Streams -/

/-- A buffer is written from the beginning of the file. -/
def overwrite (content buffer : List Char) : List Char :=
  buffer ++ content.drop buffer.length

@[simp]
theorem overwrite_nil (buffer : List Char) : overwrite [] buffer = buffer := by
  rw [overwrite, List.drop_nil, List.append_nil]

@[simp]
theorem overwrite_self (buffer : List Char) :
    overwrite buffer buffer = buffer := by
  rw [overwrite, List.drop_length, List.append_nil]

/-- The rest of a loop of `fgets`, when its buffer of `size` characters holds
the beginning of a line. -/
def fgetsLoop (size : Nat) : List Char → List Char → List Char
  | line, [] => line
  | line, char :: rest =>
      if line.length + 1 < size ∧ line.getLast? ≠ some (Char.ofNat 10) then
        fgetsLoop size (line ++ [char]) rest
      else
        fgetsLoop size [char] rest

/-- What the buffer holds after a loop of `fgets` over a file: the last line,
or the last part of it that fits.  Nothing is read from an empty file. -/
def lastLine (size : Nat) (buffer : List Char) : List Char → List Char
  | [] => buffer
  | char :: rest => fgetsLoop size [char] rest

theorem fgetsLoop_eq
    {size : Nat} {line rest : List Char}
    (short : (line ++ rest).length < size)
    (oneLine : Char.ofNat 10 ∉ line ++ rest) :
    fgetsLoop size line rest = line ++ rest := by
  induction rest generalizing line with
  | nil =>
      rw [fgetsLoop, List.append_nil]
  | cons char rest inductionHypothesis =>
      have fits : line.length + 1 < size := by
        rw [List.length_append, List.length_cons] at short
        omega
      have going : line.getLast? ≠ some (Char.ofNat 10) := by
        intro ends
        apply oneLine
        exact List.mem_append_left _ (List.mem_of_getLast? ends)
      have same : line ++ [char] ++ rest = line ++ char :: rest := by
        rw [List.append_assoc, List.singleton_append]
      rw [fgetsLoop, if_pos ⟨fits, going⟩]
      rw [← same] at short oneLine ⊢
      exact inductionHypothesis short oneLine

/-- A file of one short line is read whole. -/
theorem lastLine_eq
    {size : Nat} (buffer : List Char) {content : List Char}
    (filled : content ≠ []) (short : content.length < size)
    (oneLine : Char.ofNat 10 ∉ content) :
    lastLine size buffer content = content := by
  cases content with
  | nil => exact absurd rfl filled
  | cons char rest =>
      rw [lastLine]
      exact fgetsLoop_eq short oneLine

end SistemasDistribuidos.TextFile
