import Mathlib.Logic.Function.Basic
import Mathlib.Data.List.Basic
import Mathlib.Data.List.Range
import Mathlib.Data.List.Nodup

/-!
# Loops over an array of slots

An array is its indexing function `Nat → Slot`.  Three patterns of imperative
code over such an array are given a closed form here: a search loop that stops
at the first hit, a loop that moves every slot one position to the left, and
the occupied part of an array, its first slots up to a count.
-/

namespace SistemasDistribuidos.SlotArray

universe u

/-! ## Search loops -/

/-- A search loop with `fuel` iterations left, standing at `index`. -/
def searchFrom (test : Nat → Bool) : Nat → Nat → Nat
  | 0, index => index
  | fuel + 1, index =>
      if test index then index else searchFrom test fuel (index + 1)

/-- The first index below `bound` that passes the test, or `bound` itself. -/
def search (test : Nat → Bool) (bound : Nat) : Nat :=
  searchFrom test bound 0

private theorem searchFrom_le (test : Nat → Bool) :
    ∀ fuel index : Nat, searchFrom test fuel index ≤ index + fuel
  | 0, index => Nat.le_refl _
  | fuel + 1, index => by
      rw [searchFrom]
      split
      · omega
      · have later := searchFrom_le test fuel (index + 1)
        omega

private theorem searchFrom_eq_of_first
    {test : Nat → Bool} {position : Nat}
    (hit : test position = true)
    (missed : ∀ earlier, earlier < position → test earlier = false) :
    ∀ fuel index : Nat,
      index ≤ position →
        position < index + fuel →
          searchFrom test fuel index = position
  | 0, index, lower, upper => by
      omega
  | fuel + 1, index, lower, upper => by
      rw [searchFrom]
      by_cases here : index = position
      · rw [here, hit, if_pos rfl]
      · have before : index < position := by omega
        rw [missed index before, if_neg Bool.false_ne_true]
        exact
          searchFrom_eq_of_first hit missed fuel (index + 1)
            (by omega) (by omega)

private theorem searchFrom_eq_of_none (test : Nat → Bool) :
    ∀ fuel index : Nat,
      (∀ later, index ≤ later → later < index + fuel →
        test later = false) →
        searchFrom test fuel index = index + fuel
  | 0, index, _ => rfl
  | fuel + 1, index, missed => by
      rw [searchFrom, missed index (Nat.le_refl _) (by omega),
        if_neg Bool.false_ne_true,
        searchFrom_eq_of_none test fuel (index + 1)
          (fun later lower upper =>
            missed later (by omega) (by omega))]
      omega

private theorem searchFrom_hit (test : Nat → Bool) :
    ∀ fuel index : Nat,
      searchFrom test fuel index < index + fuel →
        test (searchFrom test fuel index) = true
  | 0, index, inside => by
      rw [searchFrom] at inside
      omega
  | fuel + 1, index, inside => by
      rw [searchFrom] at inside ⊢
      by_cases hit : test index = true
      · rw [if_pos hit]
        exact hit
      · rw [if_neg hit] at inside ⊢
        exact searchFrom_hit test fuel (index + 1) (by omega)

theorem search_le (test : Nat → Bool) (bound : Nat) :
    search test bound ≤ bound := by
  have upper := searchFrom_le test bound 0
  rw [search]
  omega

theorem search_eq_of_first
    {test : Nat → Bool} {bound position : Nat}
    (inside : position < bound)
    (hit : test position = true)
    (missed : ∀ earlier, earlier < position → test earlier = false) :
    search test bound = position :=
  searchFrom_eq_of_first hit missed bound 0 (Nat.zero_le _) (by omega)

/-- A search that ends inside the bound has found a hit. -/
theorem search_hit
    {test : Nat → Bool} {bound : Nat}
    (inside : search test bound < bound) :
    test (search test bound) = true := by
  rw [search] at inside ⊢
  exact searchFrom_hit test bound 0 (by omega)

/-- The search fails exactly when no index below the bound passes. -/
theorem search_lt_iff {test : Nat → Bool} {bound : Nat} :
    search test bound < bound ↔
      ∃ index, index < bound ∧ test index = true := by
  constructor
  · intro inside
    exact ⟨search test bound, inside, search_hit inside⟩
  · intro given
    rcases given with ⟨index, inside, hit⟩
    by_contra outside
    have atBound : search test bound = bound :=
      Nat.le_antisymm (search_le test bound) (by omega)
    induction index using Nat.strong_induction_on with
    | _ index inductionHypothesis =>
        by_cases earlier :
            ∃ before, before < index ∧ test before = true
        · obtain ⟨before, less, beforeHit⟩ := earlier
          exact
            inductionHypothesis before less (by omega) beforeHit
        · have first : search test bound = index :=
            search_eq_of_first inside hit (fun before less => by
              by_contra found
              exact earlier ⟨before, less, by simpa using found⟩)
          omega

/-! ## Moving slots to the left -/

variable {Slot : Type u}

/-- `fuel` iterations of `slots[i] = slots[i + 1]`, starting at `index`. -/
def shiftLoop (slots : Nat → Slot) : Nat → Nat → (Nat → Slot)
  | 0, _ => slots
  | fuel + 1, index =>
      shiftLoop (Function.update slots index (slots (index + 1)))
        fuel (index + 1)

theorem shiftLoop_apply :
    ∀ (fuel : Nat) (slots : Nat → Slot) (index position : Nat),
      shiftLoop slots fuel index position =
        if index ≤ position ∧ position < index + fuel then
          slots (position + 1)
        else
          slots position
  | 0, slots, index, position => by
      rw [shiftLoop, if_neg (by omega)]
  | fuel + 1, slots, index, position => by
      rw [shiftLoop, shiftLoop_apply fuel]
      by_cases here : position = index
      · subst here
        rw [if_neg (by omega), if_pos (by omega),
          Function.update_self]
      · by_cases later : index + 1 ≤ position ∧
            position < index + 1 + fuel
        · rw [if_pos later, if_pos (by omega),
            Function.update_of_ne (by omega)]
        · rw [if_neg later, if_neg (by omega),
            Function.update_of_ne here]

/-! ## The occupied part of an array -/

/-- The first `count` slots. -/
def occupied (slots : Nat → Slot) (count : Nat) : List Slot :=
  (List.range count).map slots

@[simp]
theorem occupied_zero (slots : Nat → Slot) :
    occupied slots 0 = [] :=
  rfl

@[simp]
theorem length_occupied (slots : Nat → Slot) (count : Nat) :
    (occupied slots count).length = count := by
  simp [occupied]

theorem getElem?_occupied (slots : Nat → Slot) (count index : Nat) :
    (occupied slots count)[index]? =
      if index < count then some (slots index) else none := by
  by_cases inside : index < count
  · simp [occupied, inside]
  · simp [occupied, inside]

theorem occupied_succ (slots : Nat → Slot) (count : Nat) :
    occupied slots (count + 1) =
      occupied slots count ++ [slots count] := by
  simp [occupied, List.range_succ]

theorem occupied_congr
    {first second : Nat → Slot} {count : Nat}
    (agree : ∀ index, index < count → first index = second index) :
    occupied first count = occupied second count := by
  apply List.map_congr_left
  intro index member
  exact agree index (List.mem_range.mp member)

/-- Storing at the end of the occupied part appends to it. -/
theorem occupied_update_end
    (slots : Nat → Slot) (count : Nat) (slot : Slot) :
    occupied (Function.update slots count slot) (count + 1) =
      occupied slots count ++ [slot] := by
  rw [occupied_succ, Function.update_self]
  congr 1
  apply occupied_congr
  intro index inside
  exact Function.update_of_ne (by omega) _ _

/-- Moving the slots from `position` on to the left erases the entry there:
`bound` is where the loop stops, past the occupied part or at its end. -/
theorem occupied_shiftLoop
    {slots : Nat → Slot} {count bound position : Nat}
    (inside : position < count) (fits : count ≤ bound) :
    occupied (shiftLoop slots (bound - position) position) (count - 1) =
      (occupied slots count).eraseIdx position := by
  apply List.ext_getElem?
  intro index
  rw [getElem?_occupied, List.getElem?_eraseIdx,
    getElem?_occupied, getElem?_occupied, shiftLoop_apply]
  by_cases before : index < position
  · rw [if_pos (by omega), if_neg (by omega), if_pos before,
      if_pos (by omega)]
  · rw [if_neg before]
    by_cases last : index < count - 1
    · rw [if_pos last, if_pos (by omega), if_pos (by omega)]
    · rw [if_neg last, if_neg (by omega)]

/-- Entries keep their positions while a list only grows at its end. -/
theorem getElem?_of_isPrefix
    {shorter longer : List Slot} (grows : shorter <+: longer)
    {index : Nat} {entry : Slot}
    (here : shorter[index]? = some entry) :
    longer[index]? = some entry := by
  obtain ⟨inside, value⟩ := List.getElem?_eq_some_iff.mp here
  rw [← value]
  exact (List.prefix_iff_getElem?.mp grows) index inside

/-- Writing one slot of a list moves one slot from one count to another. -/
theorem countP_set_add
    {slots : List Slot} {index : Nat} {before : Slot}
    (here : slots[index]? = some before) (after : Slot)
    (test : Slot → Bool) :
    (slots.set index after).countP test + (if test before then 1 else 0) =
      slots.countP test + (if test after then 1 else 0) := by
  obtain ⟨inside, value⟩ := List.getElem?_eq_some_iff.mp here
  have positive : test before → 0 < slots.countP test := by
    intro hit
    exact List.countP_pos_iff.mpr ⟨before, List.mem_of_getElem? here, hit⟩
  rw [List.countP_set inside, value]
  split
  · rename_i hit
    have := positive hit
    omega
  · omega

/-! ## Erasing an entry by its key -/

variable {Key : Type u} [DecidableEq Key]

/-- With distinct keys, dropping a key is erasing its position. -/
theorem filter_key_ne_eq_eraseIdx
    (key : Slot → Key) :
    ∀ {entries : List Slot} {position : Nat} {entry : Slot},
      (entries.map key).Nodup →
        entries[position]? = some entry →
          entries.filter (fun other => key other ≠ key entry) =
            entries.eraseIdx position
  | [], position, entry, _, found => by
      simp at found
  | head :: tail, 0, entry, distinct, found => by
      simp only [List.getElem?_cons_zero, Option.some.injEq] at found
      subst found
      rw [List.map_cons, List.nodup_cons] at distinct
      rw [List.eraseIdx_cons_zero, List.filter_cons_of_neg (by simp)]
      apply List.filter_eq_self.mpr
      intro other member
      have different : key other ≠ key head := by
        intro same
        exact distinct.1 (List.mem_map.mpr ⟨other, member, same⟩)
      simpa using different
  | head :: tail, position + 1, entry, distinct, found => by
      rw [List.getElem?_cons_succ] at found
      rw [List.map_cons, List.nodup_cons] at distinct
      have different : key head ≠ key entry := by
        intro same
        exact
          distinct.1
            (List.mem_map.mpr
              ⟨entry, List.mem_of_getElem? found, same.symm⟩)
      rw [List.eraseIdx_cons_succ,
        List.filter_cons_of_pos (by simpa using different),
        filter_key_ne_eq_eraseIdx key distinct.2 found]

end SistemasDistribuidos.SlotArray
