import SistemasDistribuidos.Practica3.Increments

/-!
# What the requests are told

A response carries the value `counter` has at line 352.  It may have counted
other writers than its own, but it has counted every writer that had stored
before the request came, its own store, and none that is still to come.  So
the responses of requests that follow one another never go back.
-/

namespace SistemasDistribuidos.Practica3

open SistemasDistribuidos Machine Pool SlotArray

namespace Ledger

/-- The writers that have stored. -/
def stored (ledger : Ledger) : Nat :=
  ledger.shares.countP Share.hasWritten

/-- One, if the request is a writer that has stored. -/
def own (ledger : Ledger) (index : Nat) : Nat :=
  if ledger.shares[index]?.any Share.hasWritten then 1 else 0

/-- What a request has been told that came when `base` writers had stored. -/
structure Since (start : BitVec 32) (base index : Nat) (ledger : Ledger) :
    Prop where
  others : base + ledger.own index ≤ ledger.stored
  told : ∀ (action : Operation) (response : BitVec 32),
    ledger.shares[index]? = some ⟨action, .answered response⟩ →
      ∃ seen,
        response = start + BitVec.ofNat 32 seen ∧
          base ≤ seen ∧ seen ≤ ledger.stored ∧
          (action = .write → base < seen)

section Steps

variable {start : BitVec 32} {base index : Nat} {ledger next : Ledger}

theorem own_of_here
    {share : Share} (here : ledger.shares[index]? = some share) :
    ledger.own index = if share.hasWritten then 1 else 0 := by
  rw [own, here]
  rfl

theorem own_set_ne
    {place : Nat} {after : Share} (different : place ≠ index)
    (shares : next.shares = ledger.shares.set place after) :
    next.own index = ledger.own index := by
  rw [own, own, shares, List.getElem?_set_ne different]

theorem stored_set
    {place : Nat} {before : Share} (here : ledger.shares[place]? = some before)
    {after : Share} (shares : next.shares = ledger.shares.set place after) :
    next.stored + (if before.hasWritten then 1 else 0) =
      ledger.stored + (if after.hasWritten then 1 else 0) := by
  rw [stored, stored, shares]
  exact countP_set_add here after Share.hasWritten

/-- A request that moves on has stored at most once, and has counted itself
when it has. -/
theorem Since.others_set
    (since : ledger.Since start base index) {place : Nat}
    {before : Share} (here : ledger.shares[place]? = some before)
    {after : Share} (shares : next.shares = ledger.shares.set place after)
    (keeps : before.hasWritten = true → after.hasWritten = true) :
    base + next.own index ≤ next.stored ∧ ledger.stored ≤ next.stored := by
  have moved := stored_set here shares
  have others := since.others
  have grows :
      (if before.hasWritten then 1 else 0) ≤
        if after.hasWritten then 1 else 0 := by
    split
    · rename_i wrote
      rw [if_pos (keeps wrote)]
    · exact Nat.zero_le _
  by_cases same : place = index
  · subst same
    have placed : next.shares[place]? = some after := by
      rw [shares]
      exact getElem?_set_here here
    rw [own_of_here here] at others
    rw [own_of_here placed]
    omega
  · rw [own_set_ne same shares]
    omega

theorem Since.set
    (since : ledger.Since start base index) {place : Nat}
    {before : Share} (here : ledger.shares[place]? = some before)
    {after : Share} (shares : next.shares = ledger.shares.set place after)
    (keeps : before.hasWritten = true → after.hasWritten = true)
    (silent : ∀ response, after.progress ≠ .answered response) :
    next.Since start base index := by
  obtain ⟨others, grows⟩ := since.others_set here shares keeps
  refine ⟨others, ?_⟩
  intro action response answered
  rw [shares] at answered
  rcases getElem?_set_cases answered with ⟨_, impossible⟩ | ⟨_, old⟩
  · exact absurd (congrArg Share.progress impossible).symm (silent response)
  · obtain ⟨seen, value, notBefore, notAfter, own⟩ :=
      since.told action response old
    exact ⟨seen, value, notBefore, notAfter.trans grows, own⟩

theorem Since.answer
    (since : ledger.Since start base index) (balanced : ledger.Balanced start)
    {place : Nat} {action : Operation}
    (here : ledger.shares[place]? = some ⟨action, .done⟩)
    (shares :
      next.shares =
        ledger.shares.set place ⟨action, .answered ledger.counter⟩) :
    next.Since start base index := by
  have same :
      Share.hasWritten ⟨action, .answered ledger.counter⟩ =
        Share.hasWritten ⟨action, .done⟩ :=
    rfl
  obtain ⟨others, grows⟩ := since.others_set here shares (fun wrote => wrote)
  refine ⟨others, ?_⟩
  intro otherAction response answered
  rw [shares] at answered
  rcases getElem?_set_cases answered with ⟨rfl, told⟩ | ⟨_, old⟩
  · obtain ⟨rfl, value⟩ := Share.mk.inj told
    cases value
    refine ⟨ledger.stored, balanced.counter, ?_, grows, ?_⟩
    · exact (Nat.le_add_right _ _).trans since.others
    · rintro rfl
      have counted := since.others
      rw [own_of_here here] at counted
      exact counted
  · obtain ⟨seen, value, notBefore, notAfter, own⟩ :=
      since.told otherAction response old
    exact ⟨seen, value, notBefore, notAfter.trans grows, own⟩

theorem Since.step
    (since : ledger.Since start base index) (balanced : ledger.Balanced start)
    {move : Move} (taken : ledger.Step next move) :
    next.Since start base index := by
  cases taken with
  | stay counter shares =>
      obtain ⟨others, told⟩ := since
      refine ⟨?_, ?_⟩
      · rw [own, stored, shares]
        exact others
      · rw [stored, shares]
        exact told
  | arrive action counter shares =>
      have nothing : Share.hasWritten ⟨action, .before⟩ = false :=
        Bool.and_false _
      have same : next.stored = ledger.stored := by
        rw [stored, stored, shares, List.countP_append, List.countP_singleton,
          nothing]
        rfl
      have sameOwn : next.own index = ledger.own index := by
        rw [own, own, shares]
        by_cases inside : index < ledger.shares.length
        · rw [List.getElem?_append_left inside]
        · rw [List.getElem?_eq_none (Nat.le_of_not_lt inside),
            List.getElem?_append_right (Nat.le_of_not_lt inside)]
          cases index - ledger.shares.length with
          | zero => simp [nothing]
          | succ _ => simp
      refine ⟨?_, ?_⟩
      · rw [same, sameOwn]
        exact since.others
      · intro other response answered
        rw [shares] at answered
        rw [same]
        rcases getElem?_append_cases answered with ⟨_, impossible⟩ | old
        · cases impossible
        · exact since.told other response old
  | load place here counter shares =>
      exact since.set here shares Bool.noConfusion (fun _ => Progress.noConfusion)
  | store place action value here counter shares =>
      apply since.set here shares _ (fun _ => Progress.noConfusion)
      intro impossible
      rw [Share.hasWritten, Bool.and_false] at impossible
      cases impossible
  | look place here counter shares =>
      exact since.set here shares Bool.noConfusion (fun _ => Progress.noConfusion)
  | answer place action here counter shares =>
      exact since.answer balanced here shares

theorem since_of_absent
    (absent : ledger.shares.length ≤ index) :
    ledger.Since start ledger.stored index where
  others := by
    rw [own, List.getElem?_eq_none absent]
    exact le_rfl
  told := by
    intro action response here
    rw [List.getElem?_eq_none absent] at here
    cases here

end Steps

/-! ## The last writer -/

/-- The writer that has stored last has been told nothing yet, or the value
that is still there. -/
def Latest (ledger : Ledger) : Prop :=
  0 < ledger.stored →
    ∃ (index : Nat) (progress : Progress),
      ledger.shares[index]? = some ⟨.write, progress⟩ ∧
        Share.hasWritten ⟨.write, progress⟩ = true ∧
        ∀ response, progress = .answered response →
          response = ledger.counter

section Latest

variable {ledger next : Ledger}

theorem Latest.set
    (latest : ledger.Latest) {place : Nat} {before after : Share}
    (here : ledger.shares[place]? = some before)
    (counter : next.counter = ledger.counter)
    (shares : next.shares = ledger.shares.set place after)
    (notYet : before.hasWritten = false)
    (stillNot : after.hasWritten = false) : next.Latest := by
  have moved := stored_set here shares
  rw [notYet, stillNot, Nat.add_right_cancel_iff] at moved
  intro positive
  rw [moved] at positive
  obtain ⟨index, progress, there, wrote, told⟩ := latest positive
  have different : place ≠ index := by
    rintro rfl
    cases here.symm.trans there
    rw [notYet] at wrote
    cases wrote
  refine ⟨index, progress, ?_, wrote, ?_⟩
  · rw [shares, List.getElem?_set_ne different]
    exact there
  · rw [counter]
    exact told

theorem Latest.answer
    (latest : ledger.Latest) {place : Nat} {action : Operation}
    (here : ledger.shares[place]? = some ⟨action, .done⟩)
    (counter : next.counter = ledger.counter)
    (shares :
      next.shares =
        ledger.shares.set place ⟨action, .answered ledger.counter⟩) :
    next.Latest := by
  have moved := stored_set here shares
  have same :
      Share.hasWritten ⟨action, .answered ledger.counter⟩ =
        Share.hasWritten ⟨action, .done⟩ :=
    rfl
  rw [same, Nat.add_right_cancel_iff] at moved
  intro positive
  rw [moved] at positive
  obtain ⟨index, progress, there, wrote, told⟩ := latest positive
  by_cases own : place = index
  · subst own
    cases here.symm.trans there
    refine ⟨place, .answered ledger.counter, ?_, rfl, ?_⟩
    · rw [shares]
      exact getElem?_set_here here
    · intro response answered
      cases answered
      exact counter.symm
  · refine ⟨index, progress, ?_, wrote, ?_⟩
    · rw [shares, List.getElem?_set_ne own]
      exact there
    · rw [counter]
      exact told

theorem Latest.step
    {start : BitVec 32} (latest : ledger.Latest)
    (balanced : ledger.Balanced start) {move : Move}
    (taken : ledger.Step next move) : next.Latest := by
  cases taken with
  | stay counter shares =>
      rw [Latest, stored, counter, shares]
      exact latest
  | arrive action counter shares =>
      have nothing : Share.hasWritten ⟨action, .before⟩ = false :=
        Bool.and_false _
      have same : next.stored = ledger.stored := by
        rw [stored, stored, shares, List.countP_append, List.countP_singleton,
          nothing]
        rfl
      intro positive
      rw [same] at positive
      obtain ⟨index, progress, there, wrote, told⟩ := latest positive
      have inside := (List.getElem?_eq_some_iff.mp there).1
      refine ⟨index, progress, ?_, wrote, ?_⟩
      · rw [shares, List.getElem?_append_left inside]
        exact there
      · rw [counter]
        exact told
  | load place here counter shares =>
      exact latest.set here counter shares rfl rfl
  | store place action value here counter shares =>
      intro _
      obtain ⟨rfl, _⟩ := balanced.loaded place action value here
      refine ⟨place, .done, ?_, rfl, fun _ => Progress.noConfusion⟩
      rw [shares]
      exact getElem?_set_here here
  | look place here counter shares =>
      exact latest.set here counter shares rfl rfl
  | answer place action here counter shares =>
      exact latest.answer here counter shares

end Latest

end Ledger

namespace Server

/-- The writers that have stored their increment. -/
def stored (server : Server) : Nat :=
  server.ledger.stored

section Run

variable {options : Options} {start : BitVec 32} {output : List Char}

/-- A request that comes after a state is told of every store before it. -/
theorem since_of_run
    {first second : List ServerAction} {middle final : Server}
    (reached :
      run (step options) (initial start output) first = some middle)
    (onwards : run (step options) middle second = some final)
    {index : Nat} (absent : middle.threads.length ≤ index) :
    final.ledger.Since start middle.stored index := by
  have preserved :
      ∀ state action next,
        state.Consistent ∧ state.ledger.Balanced start ∧
            state.ledger.Since start middle.stored index →
          step options state action = some next →
            next.Consistent ∧ next.ledger.Balanced start ∧
              next.ledger.Since start middle.stored index := by
    rintro state action next ⟨consistent, balanced, since⟩ taken
    have alone := alone_of_consistent consistent balanced
    have moved := ledger_step taken
    exact
      ⟨consistent.step taken, balanced.step alone moved,
        since.step balanced moved⟩
  have kept :=
    invariant_of_any_run preserved
      ⟨consistent_of_run reached, balanced_of_run reached,
        Ledger.since_of_absent (by
          rw [ledger, List.length_map]
          exact absent)⟩
      onwards
  exact kept.2.2

/-- A request that comes after a state has been told of every store before it,
of none that is still to come, and of its own. -/
theorem told_of_run
    {first second : List ServerAction} {middle final : Server}
    (reached :
      run (step options) (initial start output) first = some middle)
    (onwards : run (step options) middle second = some final)
    {index : Nat} (absent : middle.threads.length ≤ index)
    {thread : Thread} {response : BitVec 32}
    (here : final.threads[index]? = some thread)
    (finished : thread.phase = .finished response) :
    ∃ seen,
      response = start + BitVec.ofNat 32 seen ∧
        middle.stored ≤ seen ∧ seen ≤ final.stored ∧
        (thread.action = .write → middle.stored < seen) := by
  apply (since_of_run reached onwards absent).told
  rw [share_here here, Thread.share, finished]
  rfl

/-- When the writer that has stored last has been answered, it has been told
the value that is there. -/
theorem latest_of_run
    {actions : List ServerAction} {final : Server}
    (reached :
      run (step options) (initial start output) actions = some final) :
    final.ledger.Latest := by
  have preserved :
      ∀ state action next,
        state.Consistent ∧ state.ledger.Balanced start ∧
            state.ledger.Latest →
          step options state action = some next →
            next.Consistent ∧ next.ledger.Balanced start ∧
              next.ledger.Latest := by
    rintro state action next ⟨consistent, balanced, latest⟩ taken
    have alone := alone_of_consistent consistent balanced
    have moved := ledger_step taken
    exact
      ⟨consistent.step taken, balanced.step alone moved,
        latest.step balanced moved⟩
  have initially : (initial start output).ledger.Latest :=
    fun positive => absurd positive (Nat.lt_irrefl 0)
  have kept :=
    invariant_of_any_run preserved
      ⟨consistent_initial start output, balanced_initial start output,
        initially⟩
      reached
  exact kept.2.2

theorem stored_le (server : Server) :
    server.stored ≤ server.threads.length := by
  rw [stored, Ledger.stored]
  exact List.countP_le_length.trans_eq (List.length_map Thread.share)

end Run

/-- Requests that follow one another see the counter go up: the later one has
been told of everything the earlier one was told of, and, if it writes, of its
own increment besides. -/
theorem answers_in_order
    (options : Options) (start : BitVec 32) (output : List Char)
    {first second : List ServerAction} {middle final : Server}
    (reached :
      run (step options) (initial start output) first = some middle)
    (onwards : run (step options) middle second = some final)
    {earlier later : Nat} {before after : Thread}
    {response answer : BitVec 32}
    (here : middle.threads[earlier]? = some before)
    (answered : before.phase = .finished response)
    (follows : middle.threads.length ≤ later)
    (there : final.threads[later]? = some after)
    (alsoAnswered : after.phase = .finished answer) :
    ∃ old new,
      response = start + BitVec.ofNat 32 old ∧
        answer = start + BitVec.ofNat 32 new ∧
        old ≤ middle.stored ∧ middle.stored ≤ new ∧ new ≤ final.stored ∧
        (before.action = .write → 0 < old) ∧
        (after.action = .write → middle.stored < new) ∧
        (after.action = .write → final.threads.length < 2 ^ 32 →
          answer ≠ response) := by
  obtain ⟨old, oldValue, _, oldStored, oldOwn⟩ :=
    told_of_run (run_nil (initial start output)) reached (Nat.zero_le _) here
      answered
  obtain ⟨new, newValue, notBefore, newStored, newOwn⟩ :=
    told_of_run reached onwards follows there alsoAnswered
  refine
    ⟨old, new, oldValue, newValue, oldStored, notBefore, newStored,
      fun writes => Nat.zero_lt_of_lt (oldOwn writes), newOwn, ?_⟩
  intro writes fits same
  have above := newOwn writes
  have most := stored_le final
  rw [oldValue, newValue, BitVec.add_right_inj] at same
  have equal := congrArg BitVec.toNat same
  rw [BitVec.toNat_ofNat, BitVec.toNat_ofNat, Nat.mod_eq_of_lt (by omega),
    Nat.mod_eq_of_lt (by omega)] at equal
  omega

/-- A writer, from its arrival to its response. -/
def writerAlone (index : Nat) : List ServerAction :=
  .arrive .write :: List.replicate 14 (.advance index none)

theorem answers_in_order_twoWriters :
    ∃ middle final : Server,
      run (step ⟨.write, 0⟩) (initial 41 []) (writerAlone 0) = some middle ∧
        run (step ⟨.write, 0⟩) middle (writerAlone 1) = some final ∧
        ∃ old new,
          (42 : BitVec 32) = 41 + BitVec.ofNat 32 old ∧
            (43 : BitVec 32) = 41 + BitVec.ofNat 32 new ∧ old < new := by
  have evaluated :
      ((run (step ⟨.write, 0⟩) (initial 41 []) (writerAlone 0)).map
        Server.threads) = some [⟨.write, true, .finished 42⟩] := by
    decide
  obtain ⟨middle, reached, threads⟩ := Option.map_eq_some_iff.mp evaluated
  have further :
      ((run (step ⟨.write, 0⟩) (initial 41 [])
        (writerAlone 0 ++ writerAlone 1)).map Server.threads) =
          some [⟨.write, true, .finished 42⟩, ⟨.write, true, .finished 43⟩] := by
    decide
  obtain ⟨final, both, finalThreads⟩ := Option.map_eq_some_iff.mp further
  obtain ⟨other, otherReached, onwards⟩ := run_append_eq_some.mp both
  cases reached.symm.trans otherReached
  have here : middle.threads[0]? = some ⟨.write, true, .finished 42⟩ := by
    rw [threads]
    rfl
  have there : final.threads[1]? = some ⟨.write, true, .finished 43⟩ := by
    rw [finalThreads]
    rfl
  have follows : middle.threads.length ≤ 1 := by
    rw [threads]
    exact le_rfl
  obtain ⟨old, new, oldValue, newValue, oldStored, _, _, _, newOwn, _⟩ :=
    answers_in_order ⟨.write, 0⟩ 41 [] reached onwards here rfl follows there
      rfl
  exact
    ⟨middle, final, reached, onwards, old, new, oldValue, newValue,
      oldStored.trans_lt (newOwn rfl)⟩

end Server

end SistemasDistribuidos.Practica3
