import SistemasDistribuidos.Practica3.DoRequest

/-!
# Who holds which lock

What holds in every reachable state of the server, whatever the priority and
the ratio: `counter_mutex` and `mutex` are held by the threads that stand
between their locks and unlocks, and the two counters count the requests
between their arrival and their departure.
-/

namespace SistemasDistribuidos.Practica3

open SistemasDistribuidos Machine Pool

namespace Thread

/-- Between the lock of `mutex` and its unlock. -/
def holdsMutex (thread : Thread) : Bool :=
  thread.locked && (thread.phase = .entering || thread.phase.inRegion)

/-- Counted as a request of one kind. -/
def isCounted (action : Operation) (thread : Thread) : Bool :=
  thread.action = action && thread.phase.isCounted

/-- Past the test of line 254, and not out of the region yet. -/
def pastTest (thread : Thread) : Bool :=
  thread.phase = .entering || thread.phase.inRegion

/-- What `locked` says about where a thread stands. -/
structure Valid (thread : Thread) : Prop where
  writer : thread.action = .write → thread.pastTest = true →
    thread.locked = true
  early : thread.phase.isCounted = true → thread.pastTest = false →
    thread.locked = false
  leaving : thread.phase = .leaving → thread.locked = true

/-- A thread that neither passes the test nor leaves. -/
theorem Valid.move
    {before after : Thread} (valid : before.Valid)
    (sameAction : after.action = before.action)
    (sameLocked : after.locked = before.locked)
    (samePast : after.pastTest = before.pastTest)
    (counted : after.phase.isCounted = true →
      before.phase.isCounted = true)
    (stays : after.phase ≠ .leaving) : after.Valid where
  writer := by
    rw [sameAction, sameLocked, samePast]
    exact valid.writer
  early := by
    rw [sameLocked, samePast]
    intro isCounted
    exact valid.early (counted isCounted)
  leaving := by
    intro leaves
    exact absurd leaves stays

/-- A thread that is out of the region. -/
theorem valid_of_out
    {thread : Thread} (notCounted : thread.phase.isCounted = false)
    (out : thread.pastTest = false) (stays : thread.phase ≠ .leaving) :
    thread.Valid where
  writer := by
    intro _ past
    rw [out] at past
    cases past
  early := by
    intro isCounted
    rw [notCounted] at isCounted
    cases isCounted
  leaving := by
    intro leaves
    exact absurd leaves stays

end Thread

/-- The locks and counters say where the threads stand. -/
structure Consistent (threads : List Thread) (counterMutex : Option Nat)
    (mutex : Option Nat) (current : Operation → Int) : Prop where
  counterMutex :
    Owns counterMutex (fun thread => thread.phase.holdsCounter) threads
  mutex : Owns mutex Thread.holdsMutex threads
  current : ∀ action,
    Counts (current action) (Thread.isCounted action) threads
  valid : ∀ thread ∈ threads, thread.Valid

namespace Server

def Consistent (server : Server) : Prop :=
  Practica3.Consistent server.threads server.counterMutex server.mutex
    server.current

end Server

section Moves

variable {threads : List Thread} {counterMutex mutex : Option Nat}
  {current : Operation → Int} {index : Nat} {before after : Thread}

theorem valid_set
    (valid : ∀ thread ∈ threads, thread.Valid)
    (afterValid : after.Valid) :
    ∀ thread ∈ threads.set index after, thread.Valid := by
  intro thread listed
  rcases List.mem_or_eq_of_mem_set listed with old | rfl
  · exact valid thread old
  · exact afterValid

/-- A thread that moves on stays counted, or uncounted. -/
theorem counts_set
    (counts : ∀ action,
      Counts (current action) (Thread.isCounted action) threads)
    (here : threads[index]? = some before)
    (sameAction : after.action = before.action)
    (sameCounted : after.phase.isCounted = before.phase.isCounted) :
    ∀ action,
      Counts (current action) (Thread.isCounted action)
        (threads.set index after) := by
  intro action
  apply (counts action).set here
  rw [Thread.isCounted, Thread.isCounted, sameAction, sameCounted]

/-- A step that touches no lock and no counter. -/
theorem Consistent.move
    (consistent : Consistent threads counterMutex mutex current)
    (here : threads[index]? = some before)
    (sameAction : after.action = before.action)
    (sameCounted : after.phase.isCounted = before.phase.isCounted)
    (sameCounter :
      after.phase.holdsCounter = before.phase.holdsCounter)
    (sameMutex : after.holdsMutex = before.holdsMutex)
    (valid : after.Valid) :
    Consistent (threads.set index after) counterMutex mutex current where
  counterMutex := consistent.counterMutex.set here sameCounter
  mutex := consistent.mutex.set here sameMutex
  current := counts_set consistent.current here sameAction sameCounted
  valid := valid_set consistent.valid valid

/-- The same for a thread that neither passes the test nor leaves, and so
stays valid. -/
theorem Consistent.stay
    (consistent : Consistent threads counterMutex mutex current)
    (here : threads[index]? = some before) (phase : Phase)
    (sameCounted : phase.isCounted = before.phase.isCounted)
    (sameCounter : phase.holdsCounter = before.phase.holdsCounter)
    (sameMutex :
      { before with phase := phase }.holdsMutex = before.holdsMutex)
    (samePast : { before with phase := phase }.pastTest = before.pastTest)
    (stays : phase ≠ .leaving) :
    Consistent (threads.set index { before with phase := phase })
      counterMutex mutex current := by
  have valid := consistent.valid before (List.mem_of_getElem? here)
  refine consistent.move here rfl sameCounted sameCounter sameMutex ?_
  exact
    valid.move rfl rfl samePast (fun counted => sameCounted ▸ counted) stays

/-- The unlock of `counter_mutex`. -/
theorem Consistent.unlockCounter
    (consistent : Consistent threads counterMutex mutex current)
    (here : threads[index]? = some before)
    (sameAction : after.action = before.action)
    (sameCounted : after.phase.isCounted = before.phase.isCounted)
    (held : before.phase.holdsCounter = true)
    (released : after.phase.holdsCounter = false)
    (sameMutex : after.holdsMutex = before.holdsMutex)
    (valid : after.Valid) :
    Consistent (threads.set index after) none mutex current where
  counterMutex := consistent.counterMutex.release here held released
  mutex := consistent.mutex.set here sameMutex
  current := counts_set consistent.current here sameAction sameCounted
  valid := valid_set consistent.valid valid

end Moves

namespace Server

variable {options : Options} {server next : Server}

theorem consistent_initial (counter : BitVec 32) (output : List Char) :
    (initial counter output).Consistent where
  counterMutex := owns_nil
  mutex := owns_nil
  current := fun _ => counts_nil
  valid := by
    intro thread impossible
    cases impossible

theorem Consistent.arrive
    (consistent : server.Consistent) (action : Operation)
    (unlocked : server.counterMutex = none) :
    (server.arrive options action).Consistent where
  counterMutex := by
    have owns := consistent.counterMutex
    rw [unlocked] at owns
    exact owns.append_holder rfl
  mutex := consistent.mutex.append rfl
  current := by
    intro other
    have counts :=
      (consistent.current other).append
        ⟨action, false,
          .counted
            ({ server with
              current :=
                Function.update server.current action
                  (server.current action + 1) }.mustWait options)⟩
    by_cases same : other = action
    · subst same
      simp only [Thread.isCounted, Phase.isCounted, decide_true,
        Bool.and_true, if_true] at counts
      simp only [Server.arrive, Function.update_self]
      exact counts
    · simp only [Thread.isCounted, Ne.symm same, decide_false,
        Bool.false_and, Bool.false_eq_true, if_false, add_zero] at counts
      simp only [Server.arrive, Function.update_of_ne same]
      exact counts
  valid := by
    intro thread listed
    rcases List.mem_append.mp listed with old | new
    · exact consistent.valid thread old
    · rw [List.mem_singleton.mp new]
      refine ⟨?_, fun _ _ => rfl, ?_⟩
      · intro _ impossible
        cases impossible
      · intro impossible
        cases impossible

/-- A thread that is signalled. -/
theorem Consistent.wake
    (consistent : server.Consistent) {condition : Operation}
    {woken : Option Nat}
    (taken : server.wake condition woken = some next) :
    next.Consistent := by
  rcases wake_cases taken with
    ⟨_, rfl⟩ | ⟨sleeper, thread, here, asleep, rfl⟩
  · exact consistent
  · obtain ⟨action, locked, phase⟩ := thread
    simp only [sleeps, decide_eq_true_eq] at asleep
    obtain ⟨rfl, rfl⟩ := asleep
    exact consistent.stay here _ rfl rfl rfl rfl Phase.noConfusion

theorem Consistent.advance
    (consistent : server.Consistent) {index : Nat} {thread : Thread}
    {woken : Option Nat}
    (here : server.threads[index]? = some thread)
    (taken : server.advance options index thread woken = some next) :
    next.Consistent := by
  have valid := consistent.valid thread (List.mem_of_getElem? here)
  obtain ⟨action, locked, phase⟩ := thread
  cases phase with
  | counted waits =>
      cases waits with
      | true =>
          simp only [Server.advance, Option.ite_none_right_eq_some,
            Option.some.injEq] at taken
          obtain ⟨_, rfl⟩ := taken
          exact consistent.stay here _ rfl rfl rfl rfl Phase.noConfusion
      | false =>
          cases taken
          exact
            consistent.unlockCounter here rfl rfl rfl rfl rfl
              (valid.move rfl rfl rfl (fun _ => rfl) Phase.noConfusion)
  | queueing =>
      cases taken
      exact
        consistent.unlockCounter here rfl rfl rfl rfl rfl
          (valid.move rfl rfl rfl (fun _ => rfl) Phase.noConfusion)
  | starting =>
      cases taken
      exact consistent.stay here _ rfl rfl rfl rfl Phase.noConfusion
  | waiting => cases taken
  | woken =>
      simp only [Server.advance, Option.ite_none_right_eq_some,
        Option.some.injEq] at taken
      obtain ⟨_, rfl⟩ := taken
      exact consistent.stay here _ rfl rfl rfl rfl Phase.noConfusion
  | resumed =>
      cases taken
      exact consistent.stay here _ rfl rfl rfl rfl Phase.noConfusion
  | testing =>
      have unlocked : locked = false := valid.early rfl rfl
      subst unlocked
      simp only [Server.advance] at taken
      split at taken
      · cases taken
        exact consistent.stay here _ rfl rfl rfl rfl Phase.noConfusion
      · rename_i reads
        cases taken
        refine
          consistent.move here rfl rfl rfl rfl
            ⟨?_, ?_, ?_⟩
        · intro writes
          exact absurd (Or.inr writes) reads
        · intro _ impossible
          cases impossible
        · intro impossible
          cases impossible
  | locking =>
      have unlocked : locked = false := valid.early rfl rfl
      subst unlocked
      simp only [Server.advance, Option.ite_none_right_eq_some,
        Option.some.injEq] at taken
      obtain ⟨free, rfl⟩ := taken
      have owns := consistent.mutex
      rw [free] at owns
      refine
        ⟨consistent.counterMutex.set here rfl, owns.acquire here rfl,
          counts_set consistent.current here rfl rfl,
          valid_set consistent.valid ⟨fun _ _ => rfl, ?_, fun _ => rfl⟩⟩
      intro _ impossible
      cases impossible
  | entering =>
      cases taken
      exact consistent.stay here _ rfl rfl rfl rfl Phase.noConfusion
  | entered =>
      cases action with
      | write =>
          cases taken
          exact consistent.stay here _ rfl rfl rfl rfl Phase.noConfusion
      | read =>
          cases taken
          exact consistent.stay here _ rfl rfl rfl rfl Phase.noConfusion
  | loaded value =>
      cases taken
      exact consistent.stay here _ rfl rfl rfl rfl Phase.noConfusion
  | acted =>
      cases taken
      exact consistent.stay here _ rfl rfl rfl rfl Phase.noConfusion
  | opened =>
      cases taken
      exact consistent.stay here _ rfl rfl rfl rfl Phase.noConfusion
  | formatted buffer =>
      cases taken
      exact consistent.stay here _ rfl rfl rfl rfl Phase.noConfusion
  | closed =>
      simp only [Server.advance, Option.ite_none_right_eq_some,
        Option.some.injEq] at taken
      obtain ⟨free, rfl⟩ := taken
      have owns := consistent.counterMutex
      rw [free] at owns
      refine
        ⟨owns.acquire here rfl, consistent.mutex.set here rfl, ?_,
          valid_set consistent.valid
            (valid.move rfl rfl rfl (fun _ => rfl) Phase.noConfusion)⟩
      intro other
      apply (consistent.current other).set here
      by_cases same : other = action
      · subst same
        simp [Thread.isCounted, Phase.isCounted]
      · simp [Thread.isCounted, Ne.symm same,
          Function.update_of_ne same]
  | departing =>
      have moved :
          (server.move index ⟨action, locked, .departing⟩
            .signalled).Consistent :=
        consistent.move here rfl rfl rfl rfl
          (valid.move rfl rfl rfl Bool.noConfusion
            Phase.noConfusion)
      simp only [Server.advance, Server.signal] at taken
      refine Consistent.wake ?_ taken
      exact moved
  | signalled =>
      cases taken
      cases locked with
      | true =>
          exact
            consistent.unlockCounter here rfl rfl rfl rfl rfl
              ⟨fun _ _ => rfl, fun _ _ => by contradiction,
                fun _ => rfl⟩
      | false =>
          exact
            consistent.unlockCounter here rfl rfl rfl rfl rfl
              (Thread.valid_of_out rfl rfl Phase.noConfusion)
  | leaving =>
      cases taken
      have holds : locked = true := valid.leaving rfl
      subst holds
      exact
        ⟨consistent.counterMutex.set here rfl,
          consistent.mutex.release here rfl rfl,
          counts_set consistent.current here rfl rfl,
          valid_set consistent.valid
            (Thread.valid_of_out rfl rfl Phase.noConfusion)⟩
  | responding =>
      cases taken
      refine
        consistent.move here rfl rfl rfl rfl
          (Thread.valid_of_out rfl rfl Phase.noConfusion)
  | finished response => cases taken

theorem Consistent.step
    (consistent : server.Consistent) {action : ServerAction}
    (taken : server.step options action = some next) :
    next.Consistent := by
  cases action with
  | arrive action =>
      obtain ⟨unlocked, rfl⟩ := step_arrive taken
      exact consistent.arrive action unlocked
  | advance index woken =>
      obtain ⟨thread, here, advanced⟩ := step_advance taken
      exact consistent.advance here advanced

theorem consistent_of_run
    {actions : List ServerAction} {counter : BitVec 32}
    {output : List Char} {final : Server}
    (reached :
      run (Server.step options) (initial counter output) actions =
        some final) :
    final.Consistent :=
  invariant_of_any_run
    (fun _ _ _ consistent taken => consistent.step taken)
    (consistent_initial counter output) reached

end Server

end SistemasDistribuidos.Practica3
