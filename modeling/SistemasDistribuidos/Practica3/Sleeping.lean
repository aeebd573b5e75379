import SistemasDistribuidos.Practica3.Locks

/-!
# Requests that sleep

A request that has to wait leaves `counter_mutex` before it is in
`pthread_cond_wait`, and a request that departs signals with `counter_mutex`
only.  As long as somebody is awake who has still to send its signal, the
requests that sleep can be woken.  `Heard` says that a signal that is sent
when nobody else is awake wakes somebody; the code does not see to it.
-/

namespace SistemasDistribuidos.Practica3

open SistemasDistribuidos Machine Pool

namespace Phase

/-- On the way into `pthread_cond_wait`, or in it. -/
def dozes : Phase → Bool
  | .counted waits => waits
  | .queueing => true
  | .starting => true
  | .waiting => true
  | _ => false

/-- Not on the way into `pthread_cond_wait`, and with its signal still to
send. -/
def awake : Phase → Bool
  | .counted waits => !waits
  | .woken => true
  | .resumed => true
  | .testing => true
  | .locking => true
  | .entering => true
  | .entered => true
  | .loaded _ => true
  | .acted => true
  | .opened => true
  | .formatted _ => true
  | .closed => true
  | .departing => true
  | _ => false

/-- The steps left to a thread that goes to sleep, or has sent its signal. -/
def remaining : Phase → Nat
  | .starting => 1
  | .signalled => 3
  | .leaving => 2
  | .responding => 1
  | _ => 0

/-- Without a further signal such a thread ends asleep or finished. -/
def drains : Phase → Bool
  | .starting => true
  | .waiting => true
  | .signalled => true
  | .leaving => true
  | .responding => true
  | .finished _ => true
  | _ => false

theorem Follows.dozes
    {before after : Phase} (follows : before.Follows after) :
    after.dozes = before.dozes := by
  cases follows <;> rfl

theorem Follows.awake
    {before after : Phase} (follows : before.Follows after) :
    after.awake = before.awake := by
  cases follows <;> rfl

theorem dozes_or_awake
    {phase : Phase} (isCounted : phase.isCounted = true) :
    phase.dozes = true ∨ phase.awake = true := by
  cases phase
  case counted waits =>
    cases waits with
    | true => exact Or.inl rfl
    | false => exact Or.inr rfl
  case queueing | starting | waiting => exact Or.inl rfl
  case departing | signalled | leaving | responding | finished =>
    cases isCounted
  all_goals exact Or.inr rfl

/-- Without a lock, and either asleep or past its signal. -/
theorem drains_of
    {phase : Phase} (notAwake : phase.awake = false)
    (free : phase.holdsCounter = false) : phase.drains = true := by
  cases phase
  case counted waits => cases free
  case queueing | signalled => cases free
  case starting | waiting | leaving | responding | finished => rfl
  all_goals cases notAwake

theorem waiting_of_drained
    {phase : Phase} (drains : phase.drains = true)
    (noStep : phase.remaining = 0) (unfinished : phase.isFinished = false) :
    phase = .waiting := by
  cases phase
  case waiting => rfl
  case starting | signalled | leaving | responding => cases noStep
  case finished => cases unfinished
  all_goals cases drains

theorem isFinished_of_dozes
    {phase : Phase} (dozes : phase.dozes = true) :
    phase.isFinished = false := by
  cases phase
  case finished => cases dozes
  all_goals rfl

theorem isFinished_of_awake
    {phase : Phase} (isAwake : phase.awake = true) :
    phase.isFinished = false := by
  cases phase
  case finished => cases isAwake
  all_goals rfl

end Phase

namespace Server

/-- Somebody has not finished, and whoever has not is in
`pthread_cond_wait`. -/
def Asleep (server : Server) : Prop :=
  (∃ thread ∈ server.threads, thread.phase.isFinished = false) ∧
    ∀ thread ∈ server.threads,
      thread.phase.isFinished = false → thread.phase = .waiting

/-- Whoever departs while somebody dozes leaves somebody else awake, or
signals a condition that somebody waits on. -/
def Heard (options : Options) (server : Server) : ServerAction → Prop
  | .arrive _ => True
  | .advance index _ =>
      ∀ thread ∈ server.threads[index]?,
        thread.phase = .departing →
          (∃ other ∈ server.threads, other.phase.dozes = true) →
            (∃ other ∈ server.threads.eraseIdx index,
                other.phase.awake = true) ∨
              ∃ other ∈ server.threads,
                sleeps (server.wakeUp options thread.action).2 other = true

instance (options : Options) (server : Server) :
    ∀ action, Decidable (server.Heard options action)
  | .arrive _ => isTrue trivial
  | .advance index _ =>
      inferInstanceAs
        (Decidable
          (∀ thread ∈ server.threads[index]?,
            thread.phase = .departing →
              (∃ other ∈ server.threads, other.phase.dozes = true) →
                (∃ other ∈ server.threads.eraseIdx index,
                    other.phase.awake = true) ∨
                  ∃ other ∈ server.threads,
                    sleeps (server.wakeUp options thread.action).2 other =
                      true))

/-- While somebody dozes, somebody is awake. -/
def Attended (server : Server) : Prop :=
  (∃ thread ∈ server.threads, thread.phase.dozes = true) →
    ∃ thread ∈ server.threads, thread.phase.awake = true

section Steps

variable {options : Options} {server next : Server}

theorem Attended.not_asleep (attended : server.Attended) :
    ¬ server.Asleep := by
  rintro ⟨⟨thread, listed, unfinished⟩, allWait⟩
  have waits := allWait thread listed unfinished
  obtain ⟨other, otherListed, isAwake⟩ :=
    attended ⟨thread, listed, by rw [waits]; rfl⟩
  have notFinished := Phase.isFinished_of_awake isAwake
  rw [allWait other otherListed notFinished] at isAwake
  cases isAwake

/-- A request that has to wait has found another one counted. -/
theorem exists_counted_of_mustWait
    (consistent : server.Consistent) {action : Operation}
    (waits :
      { server with
        current :=
          Function.update server.current action
            (server.current action + 1) }.mustWait options = true) :
    ∃ thread ∈ server.threads, thread.phase.isCounted = true := by
  have busy : ∃ kind, 0 < server.current kind := by
    simp only [mustWait, decide_eq_true_eq] at waits
    rcases waits.1 with some | some
    · refine ⟨.write, ?_⟩
      cases action <;> simp [Function.update] at some <;> omega
    · refine ⟨.read, ?_⟩
      cases action <;> simp [Function.update] at some <;> omega
  obtain ⟨kind, positive⟩ := busy
  obtain ⟨thread, listed, isCounted⟩ :=
    (consistent.current kind).exists_of_pos positive
  rw [Thread.isCounted, Bool.and_eq_true] at isCounted
  exact ⟨thread, listed, isCounted.2⟩

theorem Attended.arrive
    (attended : server.Attended) (consistent : server.Consistent)
    (action : Operation) : (server.arrive options action).Attended := by
  intro _
  cases waits :
      { server with
        current :=
          Function.update server.current action
            (server.current action + 1) }.mustWait options with
  | false =>
      refine ⟨_, List.mem_append_right _ (List.mem_singleton_self _), ?_⟩
      rw [waits]
      rfl
  | true =>
      obtain ⟨thread, listed, isCounted⟩ :=
        exists_counted_of_mustWait consistent waits
      obtain ⟨other, otherListed, isAwake⟩ :
          ∃ other ∈ server.threads, other.phase.awake = true := by
        rcases Phase.dozes_or_awake isCounted with dozes | isAwake
        · exact attended ⟨thread, listed, dozes⟩
        · exact ⟨thread, listed, isAwake⟩
      exact ⟨other, List.mem_append_left _ otherListed, isAwake⟩

/-- A step that is not a signal puts nobody to sleep and wakes nobody. -/
theorem Attended.follow
    (attended : server.Attended) {index : Nat} {thread : Thread}
    {phase : Phase} {locked : Bool}
    (here : server.threads[index]? = some thread)
    (follows : thread.phase.Follows phase)
    (threads :
      next.threads =
        server.threads.set index ⟨thread.action, locked, phase⟩) :
    next.Attended := by
  rw [Attended, threads,
    exists_set_iff here (fun other => other.phase.dozes) follows.dozes,
    exists_set_iff here (fun other => other.phase.awake) follows.awake]
  exact attended

/-- A departure that is heard leaves somebody awake. -/
theorem Attended.signal
    {index : Nat} {thread : Thread} {woken : Option Nat}
    (here : server.threads[index]? = some thread)
    (departs : thread.phase = .departing)
    (heard : server.Heard options (.advance index woken))
    (taken : server.signal options index thread woken = some next) :
    next.Attended := by
  rcases wake_cases taken with
    ⟨nobody, rfl⟩ | ⟨sleeper, other, otherHere, _, rfl⟩
  · rintro ⟨dozer, listed, dozes⟩
    have dozedBefore :
        ∃ other ∈ server.threads, other.phase.dozes = true := by
      rcases List.mem_or_eq_of_mem_set listed with old | rfl
      · exact ⟨dozer, old, dozes⟩
      · cases dozes
    rcases heard thread here departs dozedBefore with
      ⟨other, otherListed, isAwake⟩ | ⟨sleeper, sleeperListed, sleeps⟩
    · obtain ⟨place, different, otherHere⟩ :=
        List.mem_eraseIdx_iff_getElem?.mp otherListed
      refine ⟨other, List.mem_of_getElem? (i := place) ?_, isAwake⟩
      exact (List.getElem?_set_ne (Ne.symm different)).trans otherHere
    · obtain ⟨place, sleeperHere⟩ := List.mem_iff_getElem?.mp sleeperListed
      have different : index ≠ place := by
        rintro rfl
        cases sleeperHere.symm.trans here
        simp [Server.sleeps, departs] at sleeps
      have stillThere :=
        nobody sleeper
          (List.mem_of_getElem?
            ((List.getElem?_set_ne different).trans sleeperHere))
      rw [stillThere] at sleeps
      cases sleeps
  · intro _
    exact
      ⟨_, List.mem_of_getElem? (getElem?_set_here otherHere), rfl⟩

theorem Attended.step
    (attended : server.Attended) (consistent : server.Consistent)
    {action : ServerAction} (heard : server.Heard options action)
    (taken : server.step options action = some next) :
    next.Attended := by
  cases action with
  | arrive action =>
      obtain ⟨_, rfl⟩ := step_arrive taken
      exact attended.arrive consistent action
  | advance index woken =>
      obtain ⟨thread, here, advanced⟩ := step_advance taken
      by_cases departs : thread.phase = .departing
      · apply Attended.signal here departs heard
        rw [← advanced, Server.advance, departs]
      · obtain ⟨phase, locked, follows, threads⟩ :=
          advance_follows advanced departs
        exact attended.follow here follows threads

theorem attended_initial (counter : BitVec 32) (output : List Char) :
    (initial counter output).Attended := by
  rintro ⟨thread, impossible, _⟩
  cases impossible

/-! ## A signal that nobody hears -/

/-- Nobody will send a signal any more, and somebody sleeps. -/
structure Deserted (server : Server) : Prop where
  drains : ∀ thread ∈ server.threads, thread.phase.drains = true
  dozes : ∃ thread ∈ server.threads, thread.phase.dozes = true

def remaining (server : Server) : Nat :=
  (server.threads.map (fun thread => thread.phase.remaining)).sum

/-- A thread that is not there yet goes on towards its end. -/
theorem exists_step_of_remaining
    (options : Options) {index : Nat} {thread : Thread}
    (here : server.threads[index]? = some thread)
    (drains : thread.phase.drains = true)
    (left : 0 < thread.phase.remaining) :
    ∃ next phase locked,
      server.step options (.advance index none) = some next ∧
        thread.phase.Follows phase ∧
        phase.drains = true ∧
        phase.remaining < thread.phase.remaining ∧
        next.threads =
          server.threads.set index ⟨thread.action, locked, phase⟩ := by
  obtain ⟨action, locked, phase⟩ := thread
  simp only [Server.step, here]
  cases phase
  case starting => exact ⟨_, _, _, rfl, .sleep, rfl, Nat.one_pos, rfl⟩
  case signalled =>
    cases locked with
    | true => exact ⟨_, _, _, rfl, .leave, rfl, by decide, rfl⟩
    | false => exact ⟨_, _, _, rfl, .out, rfl, by decide, rfl⟩
  case leaving => exact ⟨_, _, _, rfl, .unlockMutex, rfl, by decide, rfl⟩
  case responding =>
    exact ⟨_, _, _, rfl, .respond _, rfl, Nat.one_pos, rfl⟩
  case waiting | finished => cases left
  all_goals cases drains

theorem Deserted.progress (deserted : server.Deserted) :
    server.Asleep ∨
      ∃ action next,
        server.step options action = some next ∧ next.Deserted ∧
          next.remaining < server.remaining := by
  by_cases done :
      ∀ thread ∈ server.threads, thread.phase.remaining = 0
  · left
    obtain ⟨thread, listed, dozes⟩ := deserted.dozes
    refine ⟨⟨thread, listed, Phase.isFinished_of_dozes dozes⟩, ?_⟩
    intro other otherListed unfinished
    exact
      Phase.waiting_of_drained (deserted.drains other otherListed)
        (done other otherListed) unfinished
  · right
    push Not at done
    obtain ⟨thread, listed, left⟩ := done
    obtain ⟨index, here⟩ := List.mem_iff_getElem?.mp listed
    obtain ⟨next, phase, locked, taken, follows, drains, smaller, threads⟩ :=
      exists_step_of_remaining options here
        (deserted.drains thread listed) (Nat.pos_of_ne_zero left)
    refine ⟨.advance index none, next, taken, ⟨?_, ?_⟩, ?_⟩
    · rw [threads]
      intro other otherListed
      rcases List.mem_or_eq_of_mem_set otherListed with old | rfl
      · exact deserted.drains other old
      · exact drains
    · rw [threads,
        exists_set_iff here (fun other => other.phase.dozes) follows.dozes]
      exact deserted.dozes
    · have moved :=
        sum_map_set_add here ⟨thread.action, locked, phase⟩
          (fun other => other.phase.remaining)
      rw [remaining, remaining, threads]
      simp only at moved
      omega

/-- A departure that nobody hears leaves only requests that sleep, or are
past their signals. -/
theorem deserted_of_not_heard
    (consistent : server.Consistent) {action : ServerAction}
    (taken : server.step options action = some next)
    (unheard : ¬ server.Heard options action) : next.Deserted := by
  cases action with
  | arrive action => exact absurd trivial unheard
  | advance index woken =>
      obtain ⟨thread, here, advanced⟩ := step_advance taken
      simp only [Heard, not_forall, not_or] at unheard
      obtain ⟨departing, departingHere, departs, dozer, noneAwake, noSleeper⟩ :=
        unheard
      cases departingHere.symm.trans here
      obtain ⟨action, locked, phase⟩ := thread
      cases departs
      rcases wake_cases advanced with
        ⟨nobody, rfl⟩ | ⟨sleeper, other, otherHere, sleeps, rfl⟩
      · refine ⟨?_, ?_⟩
        · intro other listed
          obtain ⟨place, otherHere⟩ := List.mem_iff_getElem?.mp listed
          rcases getElem?_set_cases otherHere with
            ⟨_, rfl⟩ | ⟨different, old⟩
          · rfl
          · apply Phase.drains_of
            · rw [Bool.eq_false_iff]
              intro isAwake
              apply noneAwake
              exact
                ⟨other,
                  List.mem_eraseIdx_iff_getElem?.mpr
                    ⟨place, different, old⟩,
                  isAwake⟩
            · rw [Bool.eq_false_iff]
              intro holds
              exact
                different
                  (consistent.counterMutex.unique old here holds rfl)
        · refine
            (exists_set_iff here (fun other => other.phase.dozes) ?_).mpr
              dozer
          rfl
      · rcases getElem?_set_cases otherHere with ⟨_, rfl⟩ | ⟨_, old⟩
        · simp [Server.sleeps] at sleeps
        · exact absurd ⟨other, List.mem_of_getElem? old, sleeps⟩ noSleeper

end Steps

/-- In a run whose signals are heard somebody is always awake, and after a
signal that is not heard everybody can fall asleep. -/
theorem never_asleep
    (options : Options) (counter : BitVec 32) (output : List Char)
    {actions : List ServerAction} {final : Server}
    (reached :
      run (step options) (initial counter output) actions = some final) :
    (Obeys (step options) (Heard options) (initial counter output) actions →
        ¬ final.Asleep) ∧
      ∀ action next,
        final.step options action = some next →
          ¬ final.Heard options action →
            ∃ more last,
              run (step options) next more = some last ∧ last.Asleep := by
  constructor
  · intro obeys
    have preserved :
        ∀ state action next,
          state.Consistent ∧ state.Attended → state.Heard options action →
            step options state action = some next →
              next.Consistent ∧ next.Attended := by
      intro state action next kept heard taken
      exact ⟨kept.1.step taken, kept.2.step kept.1 heard taken⟩
    have kept :=
      invariant_of_run preserved
        ⟨consistent_initial counter output,
          attended_initial counter output⟩
        obeys reached
    exact kept.2.not_asleep
  · intro action next taken unheard
    have consistent := consistent_of_run reached
    have deserted := deserted_of_not_heard consistent taken unheard
    exact
      exists_run_of_measure remaining (fun _ kind => kind.progress)
        next.remaining deserted le_rfl

/-- A reader in the region, and another one on its way to sleep. -/
def readerBehindReader : List ServerAction :=
  [.arrive .read, .advance 0 none, .advance 0 none, .advance 0 none,
    .arrive .read, .advance 1 none, .advance 1 none]

/-- The reader in the region departs; `woken` is whom its signal wakes. -/
def firstDeparts (woken : Option Nat) : List ServerAction :=
  List.replicate 5 (.advance 0 none) ++
    .advance 0 woken :: List.replicate 2 (.advance 0 none)

/-- The second reader waits when the first one departs, and is woken. -/
theorem never_asleep_readerBehindReader :
    ∃ final : Server,
      run (step ⟨.write, 1⟩) (initial 0 [])
          (readerBehindReader ++ .advance 1 none :: firstDeparts (some 1)) =
        some final ∧
        ¬ final.Asleep := by
  have evaluated :
      ((run (step ⟨.write, 1⟩) (initial 0 [])
        (readerBehindReader ++
          .advance 1 none :: firstDeparts (some 1))).map
        Server.threads) =
          some [⟨.read, false, .finished 0⟩, ⟨.read, false, .woken⟩] := by
    decide
  obtain ⟨final, reached, _⟩ := Option.map_eq_some_iff.mp evaluated
  refine ⟨final, reached, ?_⟩
  apply (never_asleep ⟨.write, 1⟩ 0 [] reached).1
  decide

/-- The first reader departs and signals before the second one waits. -/
theorem asleep_behind_lost_signal :
    ¬ ∀ (options : Options) (counter : BitVec 32) (output : List Char)
        (actions : List ServerAction) (final : Server),
        options.ratio ≠ 0 →
          run (step options) (initial counter output) actions =
              some final →
            ¬ final.Asleep := by
  intro never
  have evaluated :
      ((run (step ⟨.write, 1⟩) (initial 0 [])
        (readerBehindReader ++ firstDeparts none ++
          [.advance 1 none])).map
        Server.threads) =
          some [⟨.read, false, .finished 0⟩, ⟨.read, false, .waiting⟩] := by
    decide
  obtain ⟨final, reached, threads⟩ := Option.map_eq_some_iff.mp evaluated
  apply never ⟨.write, 1⟩ 0 [] _ final Int.one_ne_zero reached
  rw [Asleep, threads]
  decide

end Server

end SistemasDistribuidos.Practica3
