import SistemasDistribuidos.Practica3.DoRequest

/-!
# The ratio

`ratio_counter` counts the entries of the priority kind, and an exit that
finds it at the ratio resets it and signals the other kind.  The request that
is signalled, or would have been, still competes for `mutex` with requests
that did not have to wait.  `Yields` says that these do not enter before it;
the code does not see to it.
-/

namespace SistemasDistribuidos.Practica3

open SistemasDistribuidos Machine Pool

/-- At most `ratio` entries in a row pass a request of the other kind, and
after so many it is the turn of the other kind. -/
structure RatioKept (priority : Operation) (ratio : Int)
    (entries : List Entry) : Prop where
  bound : ∀ later block earlier, entries = later ++ block ++ earlier →
    (∀ entry ∈ block, entry.passes priority) → (block.length : Int) ≤ ratio
  turn : ∀ later next block earlier,
    entries = later ++ next :: block ++ earlier →
      (∀ entry ∈ block, entry.passes priority) →
        (block.length : Int) = ratio → next.action ≠ priority

namespace Server

section Streaks

variable {priority : Operation}

theorem streak_cons_of_passes
    {entry : Entry} (passes : entry.passes priority)
    (entries : List Entry) :
    streak priority (entry :: entries) = streak priority entries + 1 := by
  unfold streak
  rw [List.takeWhile_cons, if_pos (decide_eq_true passes),
    List.length_cons]

theorem streak_cons_of_not_passes
    {entry : Entry} (stays : ¬ entry.passes priority)
    (entries : List Entry) :
    streak priority (entry :: entries) = 0 := by
  unfold streak
  rw [List.takeWhile_cons,
    if_neg (fun both => stays (of_decide_eq_true both)), List.length_nil]

theorem length_le_streak
    {block : List Entry} (passes : ∀ entry ∈ block, entry.passes priority)
    (earlier : List Entry) :
    block.length ≤ streak priority (block ++ earlier) := by
  induction block with
  | nil => exact Nat.zero_le _
  | cons entry rest inductionHypothesis =>
      rw [List.cons_append,
        streak_cons_of_passes (passes entry List.mem_cons_self),
        List.length_cons]
      apply Nat.succ_le_succ
      apply inductionHypothesis
      intro other listed
      exact passes other (List.mem_cons_of_mem _ listed)

end Streaks

/-- Whoever goes on passing a request of the other kind does so while
`ratio_counter` is below the ratio, and has not been reset for that request. -/
def Yields (options : Options) (server : Server) : ServerAction → Prop
  | .arrive _ => True
  | .advance index _ =>
      ∀ thread ∈ server.threads[index]?,
        thread.phase = .entering → thread.action = options.priority →
          server.contended options.priority = true →
            0 < streak options.priority server.entries →
              server.ratioCounter < options.ratio ∧ server.yielded = false

instance (options : Options) (server : Server) :
    ∀ action, Decidable (server.Yields options action)
  | .arrive _ => isTrue trivial
  | .advance index _ =>
      inferInstanceAs
        (Decidable
          (∀ thread ∈ server.threads[index]?,
            thread.phase = .entering → thread.action = options.priority →
              server.contended options.priority = true →
                0 < streak options.priority server.entries →
                  server.ratioCounter < options.ratio ∧
                    server.yielded = false))

/-- `ratio_counter` counts at least the present streak, and no streak is
longer than the ratio. -/
structure Rationed (options : Options) (server : Server) : Prop where
  nonneg : 0 ≤ server.ratioCounter
  counts : server.yielded = false →
    (streak options.priority server.entries : Int) ≤ server.ratioCounter
  yielded : server.yielded = true →
    0 < streak options.priority server.entries
  bound : ∀ later earlier, server.entries = later ++ earlier →
    (streak options.priority earlier : Int) ≤ options.ratio
  waits : ∀ last earlier, server.entries = last :: earlier →
    last.passes options.priority → server.contended options.priority = true
  turn : ∀ later next last earlier,
    server.entries = later ++ next :: last :: earlier →
      last.passes options.priority → next.action = options.priority →
        next.contended = true

theorem Rationed.kept
    {options : Options} {server : Server}
    (rationed : server.Rationed options) (positive : 0 < options.ratio) :
    RatioKept options.priority options.ratio server.entries where
  bound := by
    intro later block earlier entries passes
    have long := length_le_streak passes earlier
    have short := rationed.bound later (block ++ earlier)
      (by rw [entries, List.append_assoc])
    omega
  turn := by
    intro later next block earlier entries passes full same
    cases block with
    | nil =>
        rw [List.length_nil] at full
        omega
    | cons last rest =>
        have lastPasses := passes last List.mem_cons_self
        have nextPasses : next.passes options.priority :=
          ⟨same,
            rationed.turn later next last (rest ++ earlier)
              (by rw [entries]; simp) lastPasses same⟩
        have allPass :
            ∀ entry ∈ next :: last :: rest,
              entry.passes options.priority := by
          intro entry listed
          rcases List.mem_cons.mp listed with rfl | old
          · exact nextPasses
          · exact passes entry old
        have long := length_le_streak allPass earlier
        have short :=
          rationed.bound later (next :: last :: rest ++ earlier)
            (by rw [entries]; simp)
        rw [List.length_cons] at long
        omega

section Steps

variable {options : Options} {server next : Server} {index : Nat}

/-- A step that enters nothing and leaves the counter alone. -/
theorem Rationed.keep
    (rationed : server.Rationed options)
    (counter : next.ratioCounter = server.ratioCounter)
    (entries : next.entries = server.entries)
    (yielded : next.yielded = server.yielded)
    (contended :
      server.contended options.priority = true →
        next.contended options.priority = true) :
    next.Rationed options where
  nonneg := by
    rw [counter]
    exact rationed.nonneg
  counts := by
    rw [counter, entries, yielded]
    exact rationed.counts
  yielded := by
    rw [entries, yielded]
    exact rationed.yielded
  bound := by
    rw [entries]
    exact rationed.bound
  waits := by
    rw [entries]
    intro last earlier split passes
    exact contended (rationed.waits last earlier split passes)
  turn := by
    rw [entries]
    exact rationed.turn

/-- Whether a request of the other kind is there and has not entered. -/
theorem contended_set
    {before after : Thread} (here : server.threads[index]? = some before)
    (threads : next.threads = server.threads.set index after)
    (sameAction : after.action = before.action)
    (sameOutside : after.phase.outside = before.phase.outside)
    (action : Operation) :
    next.contended action = server.contended action := by
  rw [contended, threads]
  apply any_set here
  rw [sameAction, sameOutside]

theorem Rationed.arrive
    (rationed : server.Rationed options) (action : Operation) :
    (server.arrive options action).Rationed options := by
  refine rationed.keep rfl rfl rfl ?_
  intro waits
  rw [contended, List.any_eq_true] at waits ⊢
  obtain ⟨thread, listed, isOther⟩ := waits
  exact ⟨thread, List.mem_append_left _ listed, isOther⟩

/-- An entry that passes a request of the other kind. -/
theorem Rationed.pass
    (rationed : server.Rationed options) (positive : 0 < options.ratio)
    {entry : Entry} (passes : entry.passes options.priority)
    (mayPass : 0 < streak options.priority server.entries →
      server.ratioCounter < options.ratio ∧ server.yielded = false)
    (counter : next.ratioCounter = server.ratioCounter + 1)
    (entries : next.entries = entry :: server.entries)
    (yielded : next.yielded = server.yielded)
    (waits : next.contended options.priority = true) :
    next.Rationed options := by
  have longer := streak_cons_of_passes passes server.entries
  have nonneg := rationed.nonneg
  refine ⟨?_, ?_, ?_, ?_, ?_, ?_⟩
  · omega
  · intro notYielded
    rw [yielded] at notYielded
    have counts := rationed.counts notYielded
    rw [entries, longer]
    omega
  · intro _
    rw [entries, longer]
    exact Nat.succ_pos _
  · intro later earlier split
    rw [entries] at split
    rcases List.cons_eq_append_iff.mp split with
      ⟨_, rfl⟩ | ⟨rest, _, old⟩
    · rw [longer]
      by_cases first : streak options.priority server.entries = 0
      · omega
      · obtain ⟨below, notYielded⟩ := mayPass (Nat.pos_of_ne_zero first)
        have counts := rationed.counts notYielded
        omega
    · exact rationed.bound rest earlier old
  · intro _ _ _ _
    exact waits
  · intro later following last earlier split lastPasses same
    rw [entries] at split
    rcases List.cons_eq_append_iff.mp split with
      ⟨_, both⟩ | ⟨rest, _, old⟩
    · obtain ⟨rfl, _⟩ := List.cons.inj both
      exact passes.2
    · exact rationed.turn rest following last earlier old lastPasses same

/-- An entry that ends the streak. -/
theorem Rationed.interrupt
    (rationed : server.Rationed options) (positive : 0 < options.ratio)
    {entry : Entry} (stays : ¬ entry.passes options.priority)
    (contended : entry.action = options.priority →
      entry.contended = server.contended options.priority)
    (counter : 0 ≤ next.ratioCounter)
    (entries : next.entries = entry :: server.entries)
    (yielded : next.yielded = true →
      0 < streak options.priority (entry :: server.entries)) :
    next.Rationed options := by
  have none := streak_cons_of_not_passes stays server.entries
  refine ⟨counter, ?_, ?_, ?_, ?_, ?_⟩
  · intro _
    rw [entries, none]
    exact counter
  · rw [entries]
    exact yielded
  · intro later earlier split
    rw [entries] at split
    rcases List.cons_eq_append_iff.mp split with
      ⟨_, rfl⟩ | ⟨rest, _, old⟩
    · rw [none]
      exact le_of_lt positive
    · exact rationed.bound rest earlier old
  · intro last earlier split passes
    rw [entries] at split
    obtain ⟨rfl, _⟩ := List.cons.inj split
    exact absurd passes stays
  · intro later following last earlier split lastPasses same
    rw [entries] at split
    rcases List.cons_eq_append_iff.mp split with
      ⟨_, both⟩ | ⟨rest, _, old⟩
    · obtain ⟨rfl, others⟩ := List.cons.inj both
      rw [contended same]
      exact rationed.waits last earlier others.symm lastPasses
    · exact rationed.turn rest following last earlier old lastPasses same

/-- The entry of a thread. -/
theorem Rationed.enter
    (rationed : server.Rationed options) (positive : 0 < options.ratio)
    {thread : Thread} {woken : Option Nat}
    (here : server.threads[index]? = some thread)
    (enters : thread.phase = .entering)
    (yields : server.Yields options (.advance index woken)) :
    (server.enter options index thread).Rationed options := by
  have mayPass := yields thread here enters
  by_cases passes :
      (⟨thread.action, server.contended thread.action⟩ : Entry).passes
        options.priority
  · obtain ⟨same, waits⟩ := id passes
    simp only at same waits
    rw [same] at waits
    apply rationed.pass positive passes (mayPass same waits)
    · exact if_pos same
    · rfl
    · have longer := streak_cons_of_passes passes server.entries
      simp [Server.enter, longer]
    · have stillThere :
          (server.enter options index thread).contended options.priority =
            server.contended options.priority := by
        simp only [contended, Server.enter, move]
        apply any_set here
        simp [same]
      exact stillThere.trans waits
  · apply rationed.interrupt positive passes
    · intro same
      exact congrArg server.contended same
    · have nonneg := rationed.nonneg
      simp only [Server.enter]
      split <;> omega
    · rfl
    · intro yielded
      exact (of_decide_eq_true yielded).2

theorem Rationed.wake
    (rationed : server.Rationed options) {condition : Operation}
    {woken : Option Nat}
    (taken : server.wake condition woken = some next) :
    next.Rationed options := by
  rcases wake_cases taken with
    ⟨_, rfl⟩ | ⟨sleeper, thread, here, asleep, rfl⟩
  · exact rationed
  · refine rationed.keep rfl rfl rfl ?_
    simp only [sleeps, decide_eq_true_eq] at asleep
    have same :
        (server.move sleeper thread .woken).contended options.priority =
          server.contended options.priority := by
      refine contended_set here rfl ?_ ?_ _
      · rfl
      · rw [asleep.1]
        rfl
    rw [same]
    exact id

/-- An exit may reset `ratio_counter`. -/
theorem Rationed.signal
    (rationed : server.Rationed options) {thread : Thread}
    {woken : Option Nat}
    (here : server.threads[index]? = some thread)
    (departs : thread.phase = .departing)
    (taken : server.signal options index thread woken = some next) :
    next.Rationed options := by
  have same :
      (server.move index thread .signalled).contended options.priority =
        server.contended options.priority := by
    refine contended_set here rfl ?_ ?_ _
    · rfl
    · rw [departs]
      rfl
  refine Rationed.wake ?_ taken
  cases reset : (server.wakeUp options thread.action).1 with
  | false =>
      refine rationed.keep rfl rfl rfl ?_
      intro waits
      exact same.trans waits
  | true =>
      refine ⟨le_rfl, ?_, ?_, rationed.bound, ?_, rationed.turn⟩
      · intro notYielded
        obtain ⟨_, noStreak⟩ := not_or.mp (of_decide_eq_false notYielded)
        show (streak options.priority server.entries : Int) ≤ 0
        omega
      · intro yielded
        rcases of_decide_eq_true yielded with before | streak
        · exact rationed.yielded before
        · exact streak
      · intro last earlier split passes
        exact same.trans (rationed.waits last earlier split passes)

/-- Any other step. -/
theorem Rationed.follow
    (rationed : server.Rationed options) {thread : Thread}
    {woken : Option Nat}
    (here : server.threads[index]? = some thread)
    (stays : thread.phase ≠ .departing) (out : thread.phase ≠ .entering)
    (taken : server.advance options index thread woken = some next) :
    next.Rationed options := by
  obtain ⟨counter, entries, yielded⟩ := advance_keeps taken stays out
  obtain ⟨phase, locked, follows, threads⟩ := advance_follows taken stays
  apply rationed.keep counter entries yielded
  intro waits
  rw [contended_set here threads rfl (follows.outside out)]
  exact waits

theorem Rationed.step
    (rationed : server.Rationed options) (positive : 0 < options.ratio)
    {action : ServerAction} (yields : server.Yields options action)
    (taken : server.step options action = some next) :
    next.Rationed options := by
  cases action with
  | arrive action =>
      obtain ⟨_, rfl⟩ := step_arrive taken
      exact rationed.arrive action
  | advance index woken =>
      obtain ⟨thread, here, advanced⟩ := step_advance taken
      by_cases departs : thread.phase = .departing
      · apply rationed.signal here departs
        rw [← advanced, Server.advance, departs]
      · by_cases enters : thread.phase = .entering
        · rw [Server.advance, enters] at advanced
          cases advanced
          exact rationed.enter positive here enters yields
        · exact rationed.follow here departs enters advanced

theorem rationed_initial
    (positive : 0 < options.ratio) (counter : BitVec 32)
    (output : List Char) :
    (initial counter output).Rationed options where
  nonneg := le_rfl
  counts := fun _ => le_rfl
  yielded := by
    intro impossible
    cases impossible
  bound := by
    intro later earlier split
    obtain ⟨_, rfl⟩ := List.append_eq_nil_iff.mp split.symm
    exact le_of_lt positive
  waits := by
    intro last earlier impossible
    cases impossible
  turn := by
    intro later following last earlier impossible
    cases later <;> cases impossible

end Steps

/-- The ratio is kept in a run in which nobody goes on passing a request of
the other kind once `ratio_counter` has let it through. -/
theorem ratio_kept
    (options : Options) (counter : BitVec 32) (output : List Char)
    {actions : List ServerAction} {final : Server}
    (positive : 0 < options.ratio)
    (yields :
      Obeys (step options) (Yields options) (initial counter output)
        actions)
    (reached :
      run (step options) (initial counter output) actions = some final) :
    RatioKept options.priority options.ratio final.entries := by
  have rationed :=
    invariant_of_run
      (fun _ _ _ rationed yields taken =>
        Rationed.step rationed positive yields taken)
      (rationed_initial positive counter output) yields reached
  exact rationed.kept positive

/-- A reader comes while a first writer is in the region and waits for
`mutex`.  A second writer comes when the first one has been taken off the
counter, and enters before the reader. -/
def writerPassesReader : List ServerAction :=
  .arrive .write :: List.replicate 4 (.advance 0 none) ++
    .arrive .read :: List.replicate 2 (.advance 1 none) ++
    List.replicate 8 (.advance 0 none) ++
    .arrive .write :: List.replicate 2 (.advance 2 none) ++
    .advance 0 none :: List.replicate 10 (.advance 2 none)

/-- Then it is the reader's turn. -/
theorem ratio_kept_writerPassesReader :
    ∃ final : Server,
      run (step ⟨.write, 1⟩) (initial 0 [])
          (writerPassesReader ++
            .advance 2 none :: List.replicate 2 (.advance 1 none)) =
        some final ∧
        final.entries =
          [⟨.read, false⟩, ⟨.write, true⟩, ⟨.write, false⟩] ∧
        RatioKept .write 1 final.entries := by
  have evaluated :
      ((run (step ⟨.write, 1⟩) (initial 0 [])
        (writerPassesReader ++
          .advance 2 none :: List.replicate 2 (.advance 1 none))).map
        Server.entries) =
          some [⟨.read, false⟩, ⟨.write, true⟩, ⟨.write, false⟩] := by
    decide
  obtain ⟨final, reached, entries⟩ := Option.map_eq_some_iff.mp evaluated
  refine ⟨final, reached, entries, ?_⟩
  exact ratio_kept ⟨.write, 1⟩ 0 [] Int.one_pos (by decide) reached

/-- A third writer comes in the same way as the second one, and enters before
the reader too. -/
theorem ratio_exceeded :
    ¬ ∀ (options : Options) (counter : BitVec 32) (output : List Char)
        (actions : List ServerAction) (final : Server),
        0 < options.ratio →
          run (step options) (initial counter output) actions =
              some final →
            RatioKept options.priority options.ratio final.entries := by
  intro kept
  have evaluated :
      ((run (step ⟨.write, 1⟩) (initial 0 [])
        (writerPassesReader ++
          .arrive .write :: List.replicate 2 (.advance 3 none) ++
          .advance 2 none :: List.replicate 2 (.advance 3 none))).map
        Server.entries) =
          some [⟨.write, true⟩, ⟨.write, true⟩, ⟨.write, false⟩] := by
    decide
  obtain ⟨final, reached, entries⟩ := Option.map_eq_some_iff.mp evaluated
  have ratioKept := kept ⟨.write, 1⟩ 0 [] _ final Int.one_pos reached
  have tooMany :=
    ratioKept.bound [] [⟨.write, true⟩, ⟨.write, true⟩]
      [⟨.write, false⟩] entries (by decide)
  exact absurd tooMany (by decide)

end Server

end SistemasDistribuidos.Practica3
