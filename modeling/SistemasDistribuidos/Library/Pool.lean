import Mathlib.Algebra.Order.BigOperators.Group.List
import Mathlib.Algebra.Order.Ring.Nat
import Mathlib.Data.List.Basic
import SistemasDistribuidos.Library.SlotArray

/-!
# Pools of parties

A pool is the list of the parties of a system, each with its local state.
Parties join at the end, and a step changes the state of one of them.  What a
shared variable says about the parties is kept by small rules: a lock is held
by the party that stands where the lock is held, and a counter counts the
parties that stand in some places.
-/

namespace SistemasDistribuidos.Pool

open SlotArray

universe u v

variable {Party : Type u} {pool : List Party} {index : Nat}
  {before after : Party}

/-! ## One party moves -/

/-- A party of the pool after a move is the one that moved, or another one as
it was. -/
theorem getElem?_set_cases
    {other : Nat} {party : Party}
    (here : (pool.set index after)[other]? = some party) :
    (other = index ∧ party = after) ∨
      (other ≠ index ∧ pool[other]? = some party) := by
  by_cases same : index = other
  · subst same
    rw [List.getElem?_set_self'] at here
    obtain ⟨_, _, moved⟩ := Option.map_eq_some_iff.mp here
    exact Or.inl ⟨rfl, moved.symm⟩
  · rw [List.getElem?_set_ne same] at here
    exact Or.inr ⟨Ne.symm same, here⟩

theorem getElem?_set_here
    (here : pool[index]? = some before) :
    (pool.set index after)[index]? = some after := by
  rw [List.getElem?_set_self', here]
  rfl

/-- A party that stays as it is. -/
theorem set_here (here : pool[index]? = some before) :
    pool.set index before = pool := by
  obtain ⟨inside, rfl⟩ := List.getElem?_eq_some_iff.mp here
  exact List.set_getElem_self inside

/-- A party of the pool after another one has joined. -/
theorem getElem?_append_cases
    {other : Nat} {party : Party}
    (here : (pool ++ [after])[other]? = some party) :
    (other = pool.length ∧ party = after) ∨ pool[other]? = some party := by
  by_cases inside : other < pool.length
  · rw [List.getElem?_append_left inside] at here
    exact Or.inr here
  · rw [List.getElem?_append_right (by omega)] at here
    by_cases last : other = pool.length
    · subst last
      simp only [Nat.sub_self, List.getElem?_cons_zero,
        Option.some.injEq] at here
      exact Or.inl ⟨rfl, here.symm⟩
    · rw [List.getElem?_eq_none (by
        simp only [List.length_singleton]
        omega)] at here
      cases here

/-- The move leaves it as it was whether somebody stands there. -/
theorem exists_set_iff
    (here : pool[index]? = some before) (stands : Party → Bool)
    (same : stands after = stands before) :
    (∃ party ∈ pool.set index after, stands party = true) ↔
      ∃ party ∈ pool, stands party = true := by
  have moved := countP_set_add here after stands
  rw [same] at moved
  rw [← List.countP_pos_iff, ← List.countP_pos_iff]
  omega

theorem any_set
    (here : pool[index]? = some before) (stands : Party → Bool)
    (same : stands after = stands before) :
    (pool.set index after).any stands = pool.any stands := by
  rw [Bool.eq_iff_iff, List.any_eq_true, List.any_eq_true]
  exact exists_set_iff here stands same

/-- A move changes a total by what the party that moves adds to it. -/
theorem sum_map_set_add
    (here : pool[index]? = some before) (after : Party)
    (weight : Party → Nat) :
    ((pool.set index after).map weight).sum + weight before =
      (pool.map weight).sum + weight after := by
  induction pool generalizing index with
  | nil => cases here
  | cons first rest inductionHypothesis =>
      cases index with
      | zero =>
          cases here
          simp only [List.set_cons_zero, List.map_cons, List.sum_cons]
          omega
      | succ index =>
          have later := @inductionHypothesis index here
          simp only [List.set_cons_succ, List.map_cons, List.sum_cons]
          omega

/-- A move changes what is read off the parties by what is read off the party
that moves. -/
theorem filterMap_set_perm
    {Entry : Type v} (here : pool[index]? = some before) (after : Party)
    (read : Party → Option Entry) :
    ((read before).toList ++ (pool.set index after).filterMap read).Perm
      ((read after).toList ++ pool.filterMap read) := by
  induction pool generalizing index with
  | nil => cases here
  | cons first rest inductionHypothesis =>
      have unfolded : ∀ (party : Party) (others : List Party),
          (party :: others).filterMap read =
            (read party).toList ++ others.filterMap read := by
        intro party others
        rw [List.filterMap_cons]
        cases read party <;> rfl
      cases index with
      | zero =>
          cases here
          rw [List.set_cons_zero, unfolded, unfolded]
          exact List.perm_append_comm_assoc _ _ _
      | succ index =>
          have later := @inductionHypothesis index here
          rw [List.set_cons_succ, unfolded, unfolded]
          exact
            (List.perm_append_comm_assoc _ _ _).trans
              ((later.append_left _).trans
                (List.perm_append_comm_assoc _ _ _))

/-- The parties of a kind are as many as the places where they stand. -/
theorem countP_range (pool : List Party) (stands : Party → Bool) :
    (List.range pool.length).countP
        (fun place => pool[place]?.any stands) =
      pool.countP stands := by
  induction pool with
  | nil => rfl
  | cons first rest inductionHypothesis =>
      rw [List.length_cons, List.range_succ_eq_map, List.countP_cons,
        List.countP_map, List.countP_cons, ← inductionHypothesis]
      rfl

/-- Two pools of parties that stand side by side. -/
theorem countP_le_of_beside
    {Other : Type v} {others : List Other} {stands : Party → Bool}
    {standsToo : Other → Bool}
    (length : pool.length = others.length)
    (beside : ∀ (place : Nat) (party : Party) (other : Other),
      pool[place]? = some party → others[place]? = some other →
        stands party = true → standsToo other = true) :
    pool.countP stands ≤ others.countP standsToo := by
  rw [← countP_range pool stands, ← countP_range others standsToo, length]
  apply List.countP_mono_left
  intro place inside stood
  rw [List.mem_range] at inside
  have otherHere := List.getElem?_eq_getElem inside
  rw [← length] at inside
  have here := List.getElem?_eq_getElem inside
  rw [here] at stood
  rw [otherHere]
  exact beside place _ _ here otherHere stood

/-! ## Locks -/

/-- The lock is held by the party that stands where it is held, and by no
other. -/
structure Owns (lock : Option Nat) (holds : Party → Bool)
    (pool : List Party) : Prop where
  owner : ∀ index party, pool[index]? = some party →
    (holds party = true ↔ lock = some index)
  inside : ∀ index, lock = some index → index < pool.length

section Owns

variable {lock : Option Nat} {holds : Party → Bool}

theorem owns_nil : Owns none holds ([] : List Party) where
  owner := by
    intro index party here
    cases here
  inside := by
    intro index impossible
    cases impossible

/-- Two holders are one. -/
theorem Owns.unique
    (owns : Owns lock holds pool) {first second : Nat}
    {firstParty secondParty : Party}
    (firstHere : pool[first]? = some firstParty)
    (secondHere : pool[second]? = some secondParty)
    (firstHolds : holds firstParty = true)
    (secondHolds : holds secondParty = true) :
    first = second := by
  have firstOwns := (owns.owner first firstParty firstHere).mp firstHolds
  rw [(owns.owner second secondParty secondHere).mp secondHolds] at firstOwns
  exact (Option.some.inj firstOwns).symm

/-- A free lock is held by nobody. -/
theorem Owns.free
    (owns : Owns none holds pool) {party : Party} (listed : party ∈ pool) :
    holds party = false := by
  obtain ⟨index, here⟩ := List.mem_iff_getElem?.mp listed
  rw [Bool.eq_false_iff]
  intro isHeld
  cases (owns.owner index party here).mp isHeld

/-- The move neither takes nor releases the lock. -/
theorem Owns.set
    (owns : Owns lock holds pool)
    (here : pool[index]? = some before)
    (same : holds after = holds before) :
    Owns lock holds (pool.set index after) where
  owner := by
    intro other party otherHere
    rcases getElem?_set_cases otherHere with ⟨rfl, rfl⟩ | ⟨_, unmoved⟩
    · rw [same]
      exact owns.owner other before here
    · exact owns.owner other party unmoved
  inside := by
    intro other held
    rw [List.length_set]
    exact owns.inside other held

/-- The move takes the lock. -/
theorem Owns.acquire
    (owns : Owns none holds pool)
    (here : pool[index]? = some before)
    (taken : holds after = true) :
    Owns (some index) holds (pool.set index after) where
  owner := by
    intro other party otherHere
    rcases getElem?_set_cases otherHere with ⟨rfl, rfl⟩ | ⟨other, unmoved⟩
    · simp [taken]
    · rw [owns.free (List.mem_of_getElem? unmoved)]
      simp [Ne.symm other]
  inside := by
    intro other held
    cases held
    rw [List.length_set]
    exact (List.getElem?_eq_some_iff.mp here).1

/-- The move releases the lock. -/
theorem Owns.release
    (owns : Owns lock holds pool)
    (here : pool[index]? = some before)
    (held : holds before = true) (released : holds after = false) :
    Owns none holds (pool.set index after) where
  owner := by
    intro other party otherHere
    rcases getElem?_set_cases otherHere with ⟨rfl, rfl⟩ | ⟨other, unmoved⟩
    · simp [released]
    · have notHolder : holds party = false := by
        rw [Bool.eq_false_iff]
        intro also
        exact other (owns.unique unmoved here also held)
      simp [notHolder]
  inside := by
    intro other impossible
    cases impossible

/-- A party joins that does not hold the lock. -/
theorem Owns.append
    (owns : Owns lock holds pool) (idle : holds after = false) :
    Owns lock holds (pool ++ [after]) where
  owner := by
    intro other party otherHere
    rcases getElem?_append_cases otherHere with ⟨rfl, rfl⟩ | old
    · rw [idle]
      constructor
      · intro impossible
        cases impossible
      · intro held
        have inside := owns.inside _ held
        omega
    · exact owns.owner other party old
  inside := by
    intro other held
    have inside := owns.inside other held
    rw [List.length_append]
    omega

/-- A party joins and takes the lock. -/
theorem Owns.append_holder
    (owns : Owns none holds pool) (taken : holds after = true) :
    Owns (some pool.length) holds (pool ++ [after]) where
  owner := by
    intro other party otherHere
    rcases getElem?_append_cases otherHere with ⟨rfl, rfl⟩ | old
    · simp [taken]
    · rw [owns.free (List.mem_of_getElem? old)]
      have inside := (List.getElem?_eq_some_iff.mp old).1
      simp only [Bool.false_eq_true, Option.some.injEq, false_iff]
      omega
  inside := by
    intro other held
    cases held
    rw [List.length_append, List.length_singleton]
    omega

end Owns

/-! ## Counters -/

/-- The counter counts the parties that stand where they are counted. -/
def Counts (counter : Int) (counted : Party → Bool) (pool : List Party) :
    Prop :=
  counter = pool.countP counted

section Counts

variable {counter : Int} {counted : Party → Bool}

theorem counts_nil : Counts 0 counted ([] : List Party) := rfl

/-- A move changes the counter by what the party that moves adds to it. -/
theorem Counts.set
    (counts : Counts counter counted pool)
    (here : pool[index]? = some before) {changed : Int}
    (change :
      changed + (if counted before then 1 else 0) =
        counter + (if counted after then 1 else 0)) :
    Counts changed counted (pool.set index after) := by
  have moved := countP_set_add here after counted
  unfold Counts at counts ⊢
  cases earlier : counted before <;> cases later : counted after <;>
    simp only [earlier, later, Bool.false_eq_true, if_true, if_false]
      at moved change <;>
    omega

theorem Counts.append
    (counts : Counts counter counted pool) (after : Party) :
    Counts (counter + (if counted after then 1 else 0)) counted
      (pool ++ [after]) := by
  unfold Counts at counts ⊢
  rw [List.countP_append, List.countP_singleton, counts]
  split <;> simp

/-- Somebody is counted while the counter is positive. -/
theorem Counts.exists_of_pos
    (counts : Counts counter counted pool) (positive : 0 < counter) :
    ∃ party ∈ pool, counted party = true := by
  unfold Counts at counts
  apply List.countP_pos_iff.mp
  omega

end Counts

end SistemasDistribuidos.Pool
