import SistemasDistribuidos.Practica3.Locks

/-!
# Readers and writers in the region

A reader takes `mutex` only if it sees a writer counted when it tests, and it
tests before it enters.  A writer that comes after the test, or one that has
been taken off the counter and is still in the region, shares the region with
it.  `Apart` says that neither happens; the code does not see to it.
-/

namespace SistemasDistribuidos.Practica3

open SistemasDistribuidos Machine Pool

namespace Server

/-- A writer in the region is there alone. -/
def Exclusive (server : Server) : Prop :=
  ∀ (first second : Nat) (writer other : Thread),
    server.threads[first]? = some writer →
      server.threads[second]? = some other →
        first ≠ second → writer.action = .write →
          writer.phase.inRegion = true → other.phase.inRegion = false

/-- A reader goes on without `mutex` only while no writer holds it, and a
writer takes it only while everybody past the test holds it. -/
def Apart (server : Server) : ServerAction → Prop
  | .arrive _ => True
  | .advance index _ =>
      ∀ thread ∈ server.threads[index]?, ∀ other ∈ server.threads,
        (thread.phase = .testing → thread.action = .read →
            server.current .write ≤ 0 → other.action = .write →
              other.holdsMutex = false) ∧
          (thread.phase = .locking → thread.action = .write →
            other.pastTest = true → other.locked = true)

instance (server : Server) :
    ∀ action, Decidable (server.Apart action)
  | .arrive _ => isTrue trivial
  | .advance index _ =>
      inferInstanceAs
        (Decidable
          (∀ thread ∈ server.threads[index]?, ∀ other ∈ server.threads,
            (thread.phase = .testing → thread.action = .read →
                server.current .write ≤ 0 → other.action = .write →
                  other.holdsMutex = false) ∧
              (thread.phase = .locking → thread.action = .write →
                other.pastTest = true → other.locked = true)))

/-- While a writer holds `mutex`, nobody is past the test without it. -/
def Covered (server : Server) : Prop :=
  ∀ writer ∈ server.threads, writer.action = .write →
    writer.holdsMutex = true →
      ∀ other ∈ server.threads, other.pastTest = true →
        other.locked = true

section Steps

variable {options : Options} {server next : Server} {index : Nat}
  {before after : Thread}

theorem pastTest_of_inRegion
    {thread : Thread} (inside : thread.phase.inRegion = true) :
    thread.pastTest = true := by
  rw [Thread.pastTest, inside, Bool.or_true]

theorem pastTest_of_holdsMutex
    {thread : Thread} (holds : thread.holdsMutex = true) :
    thread.pastTest = true := by
  rw [Thread.holdsMutex, Bool.and_eq_true] at holds
  exact holds.2

theorem holdsMutex_of_locked
    {thread : Thread} (isLocked : thread.locked = true)
    (past : thread.pastTest = true) : thread.holdsMutex = true := by
  rw [Thread.holdsMutex, isLocked, Bool.true_and]
  exact past

/-- Writers past the test hold `mutex`, so exclusion follows. -/
theorem Covered.exclusive
    (covered : server.Covered) (consistent : server.Consistent) :
    server.Exclusive := by
  intro first second writer other writerHere otherHere different writes
    inside
  by_contra also
  have otherInside : other.phase.inRegion = true := by
    simpa using also
  have writerPast := pastTest_of_inRegion inside
  have otherPast := pastTest_of_inRegion otherInside
  have writerListed := List.mem_of_getElem? writerHere
  have otherListed := List.mem_of_getElem? otherHere
  have writerLocked :=
    (consistent.valid writer writerListed).writer writes writerPast
  have writerHolds := holdsMutex_of_locked writerLocked writerPast
  have otherLocked :=
    covered writer writerListed writes writerHolds other otherListed
      otherPast
  exact
    different
      (consistent.mutex.unique writerHere otherHere writerHolds
        (holdsMutex_of_locked otherLocked otherPast))

/-- A thread moves on and gets neither `mutex` nor past the test. -/
theorem Covered.move
    (covered : server.Covered)
    (here : server.threads[index]? = some before)
    (threads : next.threads = server.threads.set index after)
    (sameAction : after.action = before.action)
    (holds : after.holdsMutex = true → before.holdsMutex = true)
    (past : after.pastTest = true →
      before.pastTest = true ∧ after.locked = before.locked) :
    next.Covered := by
  have listed := List.mem_of_getElem? here
  intro writer writerListed writes writerHolds other otherListed otherPast
  rw [threads] at writerListed otherListed
  obtain ⟨oldWriter, oldWriterListed, oldWrites, oldHolds⟩ :
      ∃ old ∈ server.threads, old.action = .write ∧
        old.holdsMutex = true := by
    rcases List.mem_or_eq_of_mem_set writerListed with old | rfl
    · exact ⟨writer, old, writes, writerHolds⟩
    · exact ⟨before, listed, sameAction ▸ writes, holds writerHolds⟩
  rcases List.mem_or_eq_of_mem_set otherListed with old | rfl
  · exact
      covered oldWriter oldWriterListed oldWrites oldHolds other old
        otherPast
  · obtain ⟨beforePast, sameLocked⟩ := past otherPast
    rw [sameLocked]
    exact
      covered oldWriter oldWriterListed oldWrites oldHolds before listed
        beforePast

/-- A reader passes the test without `mutex`. -/
theorem covered_pass
    (threads : next.threads = server.threads.set index after)
    (reads : after.action = .read)
    (nobody : ∀ writer ∈ server.threads, writer.action = .write →
      writer.holdsMutex = false) :
    next.Covered := by
  intro writer writerListed writes writerHolds
  rw [threads] at writerListed
  rcases List.mem_or_eq_of_mem_set writerListed with old | rfl
  · rw [nobody writer old writes] at writerHolds
    cases writerHolds
  · rw [reads] at writes
    cases writes

theorem Covered.lock
    (covered : server.Covered)
    (threads : next.threads = server.threads.set index after)
    (isLocked : after.locked = true)
    (everybody : after.action = .write →
      ∀ other ∈ server.threads, other.pastTest = true →
        other.locked = true) :
    next.Covered := by
  intro writer writerListed writes writerHolds other otherListed otherPast
  rw [threads] at writerListed otherListed
  rcases List.mem_or_eq_of_mem_set otherListed with old | rfl
  · rcases List.mem_or_eq_of_mem_set writerListed with oldWriter | rfl
    · exact
        covered writer oldWriter writes writerHolds other old otherPast
    · exact everybody writes other old otherPast
  · exact isLocked

theorem Covered.wake
    (covered : server.Covered) {condition : Operation}
    {woken : Option Nat}
    (taken : server.wake condition woken = some next) :
    next.Covered := by
  rcases wake_cases taken with
    ⟨_, rfl⟩ | ⟨sleeper, thread, here, _, rfl⟩
  · exact covered
  · exact
      covered.move here rfl rfl
        (fun holds => by cases pastTest_of_holdsMutex holds)
        (fun past => by cases past)

theorem Covered.advance
    (covered : server.Covered) {thread : Thread} {woken : Option Nat}
    (apart : server.Apart (.advance index woken))
    (here : server.threads[index]? = some thread)
    (taken : server.advance options index thread woken = some next) :
    next.Covered := by
  have keptApart := apart thread here
  obtain ⟨action, locked, phase⟩ := thread
  cases phase
  case counted waits =>
    cases waits with
    | true =>
        simp only [Server.advance, Option.ite_none_right_eq_some,
          Option.some.injEq] at taken
        obtain ⟨_, rfl⟩ := taken
        exact covered.move here rfl rfl id (fun past => ⟨past, rfl⟩)
    | false =>
        cases taken
        exact covered.move here rfl rfl id (fun past => ⟨past, rfl⟩)
  case woken =>
    simp only [Server.advance, Option.ite_none_right_eq_some,
      Option.some.injEq] at taken
    obtain ⟨_, rfl⟩ := taken
    exact covered.move here rfl rfl id (fun past => ⟨past, rfl⟩)
  case testing =>
    simp only [Server.advance] at taken
    split at taken
    · cases taken
      exact covered.move here rfl rfl id (fun past => ⟨past, rfl⟩)
    · rename_i reads
      cases taken
      cases action with
      | write => exact absurd (Or.inr rfl) reads
      | read =>
          apply covered_pass rfl rfl
          have noWriter : server.current .write ≤ 0 := by
            by_contra positive
            exact reads (Or.inl ⟨not_le.mp positive, rfl⟩)
          intro writer listed writes
          exact (keptApart writer listed).1 rfl rfl noWriter writes
  case locking =>
    simp only [Server.advance, Option.ite_none_right_eq_some,
      Option.some.injEq] at taken
    obtain ⟨_, rfl⟩ := taken
    refine covered.lock rfl rfl ?_
    intro writes other listed past
    exact (keptApart other listed).2 rfl writes past
  case entered =>
    cases action <;> cases taken <;>
      exact covered.move here rfl rfl id (fun past => ⟨past, rfl⟩)
  case closed =>
    simp only [Server.advance, Option.ite_none_right_eq_some,
      Option.some.injEq] at taken
    obtain ⟨_, rfl⟩ := taken
    exact covered.move here rfl rfl id (fun past => ⟨past, rfl⟩)
  case departing =>
    have moved :
        (server.move index ⟨action, locked, .departing⟩
          .signalled).Covered :=
      covered.move here rfl rfl id (fun past => ⟨past, rfl⟩)
    simp only [Server.advance, Server.signal] at taken
    refine Covered.wake ?_ taken
    exact moved
  case signalled =>
    cases taken
    cases locked with
    | true => exact covered.move here rfl rfl id (fun past => ⟨past, rfl⟩)
    | false =>
        exact covered.move here rfl rfl id (fun past => by cases past)
  case leaving =>
    cases taken
    exact
      covered.move here rfl rfl
        (fun holds => by cases pastTest_of_holdsMutex holds)
        (fun past => by cases past)
  case waiting | finished => cases taken
  all_goals
    cases taken
    exact covered.move here rfl rfl id (fun past => ⟨past, rfl⟩)

theorem Covered.step
    (covered : server.Covered) {action : ServerAction}
    (apart : server.Apart action)
    (taken : server.step options action = some next) :
    next.Covered := by
  cases action with
  | arrive action =>
      obtain ⟨_, rfl⟩ := step_arrive taken
      intro writer writerListed writes holds other otherListed past
      rcases List.mem_append.mp writerListed with oldWriter | new
      · rcases List.mem_append.mp otherListed with old | new
        · exact covered writer oldWriter writes holds other old past
        · rw [List.mem_singleton.mp new] at past
          cases past
      · rw [List.mem_singleton.mp new] at holds
        cases holds
  | advance index woken =>
      obtain ⟨thread, here, advanced⟩ := step_advance taken
      exact covered.advance apart here advanced

theorem covered_initial (counter : BitVec 32) (output : List Char) :
    (initial counter output).Covered := by
  intro writer impossible
  cases impossible

/-! ## Where the threads are kept apart, and where they are not -/

theorem not_exclusive
    {first second : Nat} {writer other : Thread}
    (writerHere : server.threads[first]? = some writer)
    (otherHere : server.threads[second]? = some other)
    (different : first ≠ second) (writes : writer.action = .write)
    (inside : writer.phase.inRegion = true)
    (alsoInside : other.phase.inRegion = true) :
    ¬ server.Exclusive := by
  intro exclusive
  have outside :=
    exclusive first second writer other writerHere otherHere different
      writes inside
  rw [alsoInside] at outside
  cases outside

/-- One step takes a thread that is past the test into the region, and leaves
the others where they are. -/
theorem exists_run_inside
    (options : Options) {thread : Thread}
    (here : server.threads[index]? = some thread)
    (past : thread.pastTest = true) :
    ∃ actions last inside,
      run (step options) server actions = some last ∧
        last.threads = server.threads.set index inside ∧
        inside.action = thread.action ∧
        inside.phase.inRegion = true := by
  obtain ⟨action, locked, phase⟩ := thread
  cases already : phase.inRegion with
  | true =>
      refine ⟨[], server, _, rfl, ?_, rfl, already⟩
      exact (set_here here).symm
  | false =>
      simp only [Thread.pastTest, already, Bool.or_false,
        decide_eq_true_eq] at past
      subst past
      refine
        ⟨[.advance index none],
          server.enter options index ⟨action, locked, .entering⟩,
          ⟨action, locked, .entered⟩, ?_, rfl, rfl, rfl⟩
      rw [run_singleton, Server.step, here]
      rfl

/-- Two threads past the test, one of them a writer, can both go in. -/
theorem exists_run_not_exclusive
    {first second : Nat} {writer other : Thread}
    (writerHere : server.threads[first]? = some writer)
    (otherHere : server.threads[second]? = some other)
    (different : first ≠ second) (writes : writer.action = .write)
    (writerPast : writer.pastTest = true)
    (otherPast : other.pastTest = true) :
    ∃ actions last,
      run (step options) server actions = some last ∧
        ¬ last.Exclusive := by
  obtain ⟨firstActions, middle, writerInside, reached, moved, same, inside⟩ :=
    exists_run_inside options writerHere writerPast
  have otherThere : middle.threads[second]? = some other := by
    rw [moved, List.getElem?_set_ne different]
    exact otherHere
  have writerThere : middle.threads[first]? = some writerInside := by
    rw [moved]
    exact getElem?_set_here writerHere
  obtain ⟨secondActions, last, otherInside, onwards, movedAgain, _,
      alsoInside⟩ :=
    exists_run_inside options otherThere otherPast
  refine
    ⟨firstActions ++ secondActions, last,
      run_append_eq_some.mpr ⟨middle, reached, onwards⟩, ?_⟩
  have writerStays : last.threads[first]? = some writerInside := by
    rw [movedAgain, List.getElem?_set_ne (Ne.symm different)]
    exact writerThere
  have otherThereToo : last.threads[second]? = some otherInside := by
    rw [movedAgain]
    exact getElem?_set_here otherThere
  exact
    not_exclusive writerStays otherThereToo different (same.trans writes)
      inside alsoInside

/-- A step that `Apart` forbids lets two threads past the test. -/
theorem exists_run_of_not_apart
    {action : ServerAction}
    (consistent : server.Consistent)
    (taken : server.step options action = some next)
    (together : ¬ server.Apart action) :
    ∃ actions last,
      run (step options) next actions = some last ∧
        ¬ last.Exclusive := by
  cases action with
  | arrive action => exact absurd trivial together
  | advance index woken =>
      obtain ⟨thread, here, advanced⟩ := step_advance taken
      have valid := consistent.valid thread (List.mem_of_getElem? here)
      simp only [Apart, not_forall] at together
      obtain ⟨broken, brokenHere, other, listed, together⟩ := together
      cases brokenHere.symm.trans here
      obtain ⟨second, otherHere⟩ := List.mem_iff_getElem?.mp listed
      obtain ⟨action, locked, phase⟩ := thread
      rcases not_and_or.mp together with early | late
      · push Not at early
        obtain ⟨rfl, rfl, noWriter, writes, holds⟩ := early
        simp only [Server.advance] at advanced
        rw [if_neg (by simp; omega)] at advanced
        cases advanced
        have different : second ≠ index := by
          rintro rfl
          cases otherHere.symm.trans here
          cases writes
        have writerStays :
            (server.move index ⟨.read, locked, .testing⟩
              .entering).threads[second]? = some other := by
          rw [Server.move, List.getElem?_set_ne (Ne.symm different)]
          exact otherHere
        have writerPast : other.pastTest = true := by
          apply pastTest_of_holdsMutex
          simpa using holds
        exact
          exists_run_not_exclusive writerStays (getElem?_set_here here)
            different writes writerPast rfl
      · push Not at late
        obtain ⟨rfl, rfl, past, unlocked⟩ := late
        simp only [Server.advance, Option.ite_none_right_eq_some,
          Option.some.injEq] at advanced
        obtain ⟨_, rfl⟩ := advanced
        have different : index ≠ second := by
          rintro rfl
          cases otherHere.symm.trans here
          cases past
        apply exists_run_not_exclusive (getElem?_set_here here) _ different
          rfl rfl past
        · rw [Server.move, List.getElem?_set_ne different]
          exact otherHere

end Steps

/-- Nobody shares the region with a writer in a run that keeps them apart, and
a step that does not keep them apart lets somebody share it. -/
theorem region_exclusive
    (options : Options) (counter : BitVec 32) (output : List Char)
    {actions : List ServerAction} {final : Server}
    (reached :
      run (step options) (initial counter output) actions = some final) :
    (Obeys (step options) Apart (initial counter output) actions →
        final.Exclusive) ∧
      ∀ action next,
        final.step options action = some next → ¬ final.Apart action →
          ∃ more last,
            run (step options) next more = some last ∧
              ¬ last.Exclusive := by
  have consistent := consistent_of_run reached
  constructor
  · intro obeys
    have covered : final.Covered :=
      invariant_of_run
        (fun _ _ _ covered apart taken => Covered.step covered apart taken)
        (covered_initial counter output) obeys reached
    exact covered.exclusive consistent
  · intro action next taken together
    exact exists_run_of_not_apart consistent taken together

/-- A reader that comes while a writer is in the region. -/
def readerBehindWriter : List ServerAction :=
  [.arrive .write, .advance 0 none, .advance 0 none, .advance 0 none,
    .advance 0 none, .arrive .read, .advance 1 none, .advance 1 none]

/-- The reader sees the writer counted and has to take `mutex`. -/
theorem region_exclusive_readerBehindWriter :
    ∃ final : Server,
      run (step ⟨.write, 1⟩) (initial 41 []) readerBehindWriter =
          some final ∧
        final.Exclusive := by
  have evaluated :
      ((run (step ⟨.write, 1⟩) (initial 41 []) readerBehindWriter).map
        Server.threads) =
          some [⟨.write, true, .entered⟩, ⟨.read, false, .locking⟩] := by
    decide
  obtain ⟨final, reached, _⟩ := Option.map_eq_some_iff.mp evaluated
  refine ⟨final, reached, ?_⟩
  apply (region_exclusive ⟨.write, 1⟩ 41 [] reached).1
  decide

/-- A reader sees no writer when it tests.  A writer that comes after that
takes `mutex`, which the reader does not hold, and enters too. -/
theorem reader_beside_writer :
    ¬ ∀ (options : Options) (counter : BitVec 32) (output : List Char)
        (actions : List ServerAction) (final : Server),
        run (step options) (initial counter output) actions = some final →
          final.Exclusive := by
  intro always
  have evaluated :
      ((run (step ⟨.read, 1⟩) (initial 0 [])
        [.arrive .read, .advance 0 none, .advance 0 none,
          .advance 0 none, .arrive .write, .advance 1 none,
          .advance 1 none, .advance 1 none, .advance 1 none]).map
        Server.threads) =
          some [⟨.read, false, .entered⟩, ⟨.write, true, .entered⟩] := by
    decide
  obtain ⟨final, reached, threads⟩ := Option.map_eq_some_iff.mp evaluated
  have writerHere : final.threads[1]? = some ⟨.write, true, .entered⟩ := by
    rw [threads]
    rfl
  have readerHere : final.threads[0]? = some ⟨.read, false, .entered⟩ := by
    rw [threads]
    rfl
  exact
    not_exclusive writerHere readerHere Nat.one_ne_zero rfl rfl rfl
      (always _ _ _ _ final reached)

end Server

end SistemasDistribuidos.Practica3
