import SistemasDistribuidos.Practica3.Locks

/-!
# The increments of the counter

What `do_request` does to `counter` is that of a ledger: a writer loads it and
stores it again, a reader looks at it, and both read it once more for their
response.  Every step of the server is a step of the ledger.  Writers are one
at a time between their load and their store because they hold `mutex` there,
so the ledger has counted all of them.
-/

namespace SistemasDistribuidos.Practica3

open SistemasDistribuidos Machine Pool SlotArray

/-! ## The ledger -/

/-- How far a request has come with `counter`. -/
inductive Progress where
  | before
  | loaded (value : BitVec 32)
  /-- Past its increment, or past the place where a writer has one. -/
  | done
  | answered (response : BitVec 32)
  deriving DecidableEq

/-- A request, as far as `counter` is concerned. -/
structure Share where
  action : Operation
  progress : Progress
  deriving DecidableEq

structure Ledger where
  counter : BitVec 32
  shares : List Share

namespace Share

/-- A writer that has stored its increment. -/
def hasWritten (share : Share) : Bool :=
  share.action = .write &&
    match share.progress with
    | .done => true
    | .answered _ => true
    | _ => false

end Share

namespace Ledger

inductive Move where
  | stay
  | arrive (action : Operation)
  | load (index : Nat)
  | store (index : Nat)
  | look (index : Nat)
  | answer (index : Nat)
  deriving DecidableEq

/-- What one step of the ledger can do. -/
inductive Step (ledger next : Ledger) : Move → Prop where
  | stay (counter : next.counter = ledger.counter)
      (shares : next.shares = ledger.shares) : Step ledger next .stay
  | arrive (action : Operation) (counter : next.counter = ledger.counter)
      (shares : next.shares = ledger.shares ++ [⟨action, .before⟩]) :
      Step ledger next (.arrive action)
  | load (index : Nat) (here : ledger.shares[index]? = some ⟨.write, .before⟩)
      (counter : next.counter = ledger.counter)
      (shares :
        next.shares =
          ledger.shares.set index ⟨.write, .loaded ledger.counter⟩) :
      Step ledger next (.load index)
  | store (index : Nat) (action : Operation) (value : BitVec 32)
      (here : ledger.shares[index]? = some ⟨action, .loaded value⟩)
      (counter : next.counter = value + 1)
      (shares : next.shares = ledger.shares.set index ⟨action, .done⟩) :
      Step ledger next (.store index)
  | look (index : Nat) (here : ledger.shares[index]? = some ⟨.read, .before⟩)
      (counter : next.counter = ledger.counter)
      (shares : next.shares = ledger.shares.set index ⟨.read, .done⟩) :
      Step ledger next (.look index)
  | answer (index : Nat) (action : Operation)
      (here : ledger.shares[index]? = some ⟨action, .done⟩)
      (counter : next.counter = ledger.counter)
      (shares :
        next.shares =
          ledger.shares.set index ⟨action, .answered ledger.counter⟩) :
      Step ledger next (.answer index)

/-- At most one request stands between a load and its store. -/
def Alone (ledger : Ledger) : Prop :=
  ∀ (first second : Nat) (action other : Operation)
      (value another : BitVec 32),
    ledger.shares[first]? = some ⟨action, .loaded value⟩ →
      ledger.shares[second]? = some ⟨other, .loaded another⟩ →
        first = second

/-- The counter has counted the writers that have stored. -/
structure Balanced (start : BitVec 32) (ledger : Ledger) : Prop where
  counter :
    ledger.counter =
      start + BitVec.ofNat 32 (ledger.shares.countP Share.hasWritten)
  loaded : ∀ (index : Nat) (action : Operation) (value : BitVec 32),
    ledger.shares[index]? = some ⟨action, .loaded value⟩ →
      action = .write ∧ value = ledger.counter

section Balance

variable {start : BitVec 32} {ledger next : Ledger} {index : Nat}
  {before after : Share}

/-- A share moves on, and nothing is stored. -/
theorem Balanced.set
    (balanced : ledger.Balanced start)
    (here : ledger.shares[index]? = some before)
    (counter : next.counter = ledger.counter)
    (shares : next.shares = ledger.shares.set index after)
    (sameWritten : after.hasWritten = before.hasWritten)
    (loads : ∀ value, after.progress = .loaded value →
      after.action = .write ∧ value = ledger.counter) :
    next.Balanced start where
  counter := by
    have moved := countP_set_add here after Share.hasWritten
    rw [sameWritten, Nat.add_right_cancel_iff] at moved
    rw [counter, shares, moved]
    exact balanced.counter
  loaded := by
    intro other action value otherHere
    rw [shares] at otherHere
    rw [counter]
    rcases getElem?_set_cases otherHere with ⟨rfl, rfl⟩ | ⟨_, unmoved⟩
    · exact loads value rfl
    · exact balanced.loaded other action value unmoved

/-- A writer stores what it has loaded, and one more. -/
theorem Balanced.store
    (balanced : ledger.Balanced start) (alone : ledger.Alone)
    {action : Operation} {value : BitVec 32}
    (here : ledger.shares[index]? = some ⟨action, .loaded value⟩)
    (counter : next.counter = value + 1)
    (shares : next.shares = ledger.shares.set index ⟨action, .done⟩) :
    next.Balanced start := by
  obtain ⟨rfl, rfl⟩ := balanced.loaded index action value here
  refine ⟨?_, ?_⟩
  · have one :
        (ledger.shares.set index ⟨.write, .done⟩).countP Share.hasWritten =
          ledger.shares.countP Share.hasWritten + 1 :=
      countP_set_add here ⟨.write, .done⟩ Share.hasWritten
    rw [counter, shares, one, balanced.counter, BitVec.add_assoc,
      BitVec.ofNat_add]
    rfl
  · intro other otherAction otherValue otherHere
    rw [shares] at otherHere
    rcases getElem?_set_cases otherHere with
      ⟨_, impossible⟩ | ⟨different, unmoved⟩
    · cases impossible
    · exact absurd (alone _ _ _ _ _ _ unmoved here) different

theorem Balanced.step
    (balanced : ledger.Balanced start) (alone : ledger.Alone)
    {move : Move} (taken : ledger.Step next move) :
    next.Balanced start := by
  cases taken with
  | stay counter shares =>
      refine ⟨?_, ?_⟩
      · rw [counter, shares]
        exact balanced.counter
      · rw [counter, shares]
        exact balanced.loaded
  | arrive action counter shares =>
      refine ⟨?_, ?_⟩
      · have nothing : Share.hasWritten ⟨action, .before⟩ = false :=
          Bool.and_false _
        rw [counter, shares, List.countP_append, List.countP_singleton,
          nothing]
        exact balanced.counter
      · intro other otherAction value otherHere
        rw [shares] at otherHere
        rw [counter]
        rcases getElem?_append_cases otherHere with ⟨_, impossible⟩ | old
        · cases impossible
        · exact balanced.loaded other otherAction value old
  | load index here counter shares =>
      apply balanced.set here counter shares rfl
      intro value loads
      cases loads
      exact ⟨rfl, rfl⟩
  | store index action value here counter shares =>
      exact balanced.store alone here counter shares
  | look index here counter shares =>
      apply balanced.set here counter shares rfl
      intro value loads
      cases loads
  | answer index action here counter shares =>
      apply balanced.set here counter shares rfl
      intro value loads
      cases loads

/-- No share is ever removed. -/
theorem Step.length_le
    {move : Move} (taken : ledger.Step next move) :
    ledger.shares.length ≤ next.shares.length := by
  cases taken with
  | stay _ shares => rw [shares]
  | arrive action _ shares =>
      rw [shares, List.length_append]
      exact Nat.le_add_right _ _
  | load index _ _ shares => rw [shares, List.length_set]
  | store index action value _ _ shares => rw [shares, List.length_set]
  | look index _ _ shares => rw [shares, List.length_set]
  | answer index action _ _ shares => rw [shares, List.length_set]

end Balance

end Ledger

/-! ## The server keeps a ledger -/

/-- How far a thread has come with `counter`. -/
def Phase.progress : Phase → Progress
  | .loaded value => .loaded value
  | .acted => .done
  | .opened => .done
  | .formatted _ => .done
  | .closed => .done
  | .departing => .done
  | .signalled => .done
  | .leaving => .done
  | .responding => .done
  | .finished response => .answered response
  | _ => .before

/-- Between the load and the store of `counter++`. -/
def Phase.stores : Phase → Bool
  | .loaded _ => true
  | _ => false

def Thread.share (thread : Thread) : Share :=
  ⟨thread.action, thread.phase.progress⟩

namespace Server

def ledger (server : Server) : Ledger :=
  ⟨server.counter, server.threads.map Thread.share⟩

/-- What a thread that goes on does to the ledger. -/
def threadMove (index : Nat) (thread : Thread) : Ledger.Move :=
  match thread.phase with
  | .entered =>
      match thread.action with
      | .write => .load index
      | .read => .look index
  | .loaded _ => .store index
  | .responding => .answer index
  | _ => .stay

/-- What a step of the server does to its ledger. -/
def ledgerMove (server : Server) : ServerAction → Ledger.Move
  | .arrive action => .arrive action
  | .advance index _ =>
      match server.threads[index]? with
      | some thread => threadMove index thread
      | none => .stay

section Refinement

variable {options : Options} {server next : Server} {index : Nat}
  {before after : Thread}

theorem share_here (here : server.threads[index]? = some before) :
    server.ledger.shares[index]? = some before.share := by
  rw [ledger, List.getElem?_map, here]
  rfl

theorem shares_set
    (threads : next.threads = server.threads.set index after) :
    next.ledger.shares = server.ledger.shares.set index after.share := by
  rw [ledger, ledger, threads, List.map_set]

/-- A thread moves on and leaves `counter` alone. -/
theorem ledger_stay
    (here : server.threads[index]? = some before)
    (threads : next.threads = server.threads.set index after)
    (counter : next.counter = server.counter)
    (same : after.share = before.share) :
    server.ledger.Step next.ledger .stay := by
  apply Ledger.Step.stay
  · exact counter
  · rw [shares_set threads, same]
    exact set_here (share_here here)

theorem ledger_wake
    {condition : Operation} {woken : Option Nat}
    (taken : server.wake condition woken = some next) :
    server.ledger.Step next.ledger .stay := by
  rcases wake_cases taken with
    ⟨_, rfl⟩ | ⟨sleeper, thread, here, asleep, rfl⟩
  · exact Ledger.Step.stay rfl rfl
  · obtain ⟨action, locked, phase⟩ := thread
    simp only [sleeps, decide_eq_true_eq] at asleep
    obtain ⟨rfl, rfl⟩ := asleep
    exact ledger_stay here rfl rfl rfl

/-- What a thread does is what the ledger allows it to do. -/
theorem ledger_advance
    {thread : Thread} {woken : Option Nat}
    (here : server.threads[index]? = some thread)
    (taken : server.advance options index thread woken = some next) :
    server.ledger.Step next.ledger (threadMove index thread) := by
  have there := share_here here
  obtain ⟨action, locked, phase⟩ := thread
  cases phase
  case counted waits =>
    cases waits with
    | true =>
        simp only [Server.advance, Option.ite_none_right_eq_some,
          Option.some.injEq] at taken
        obtain ⟨_, rfl⟩ := taken
        exact ledger_stay here rfl rfl rfl
    | false =>
        cases taken
        exact ledger_stay here rfl rfl rfl
  case woken | locking | closed =>
    simp only [Server.advance, Option.ite_none_right_eq_some,
      Option.some.injEq] at taken
    obtain ⟨_, rfl⟩ := taken
    exact ledger_stay here rfl rfl rfl
  case testing =>
    simp only [Server.advance] at taken
    split at taken
    · cases taken
      exact ledger_stay here rfl rfl rfl
    · cases taken
      exact ledger_stay here rfl rfl rfl
  case entered =>
    cases action with
    | write =>
        cases taken
        exact Ledger.Step.load index there rfl List.map_set
    | read =>
        cases taken
        exact Ledger.Step.look index there rfl List.map_set
  case loaded value =>
    cases taken
    exact Ledger.Step.store index action value there rfl List.map_set
  case departing =>
    simp only [Server.advance, Server.signal] at taken
    have moved :
        server.ledger.Step
          (server.move index ⟨action, locked, .departing⟩ .signalled).ledger
          .stay :=
      ledger_stay here rfl rfl rfl
    cases moved with
    | stay counter shares =>
        cases ledger_wake taken with
        | stay sameCounter sameShares =>
            exact
              Ledger.Step.stay (sameCounter.trans counter)
                (sameShares.trans shares)
  case signalled =>
    cases taken
    cases locked with
    | true => exact ledger_stay here rfl rfl rfl
    | false => exact ledger_stay here rfl rfl rfl
  case responding =>
    cases taken
    exact Ledger.Step.answer index action there rfl List.map_set
  case waiting | finished => cases taken
  all_goals
    cases taken
    exact ledger_stay here rfl rfl rfl

/-- Only the store of `counter++` changes `counter`. -/
theorem counter_of_not_stores
    {thread : Thread} {woken : Option Nat}
    (here : server.threads[index]? = some thread)
    (taken : server.advance options index thread woken = some next)
    (silent : thread.phase.stores = false) :
    next.counter = server.counter := by
  have moved := ledger_advance here taken
  generalize isMove : threadMove index thread = move at moved
  cases moved with
  | stay counter _ => exact counter
  | arrive _ counter _ => exact counter
  | load _ _ counter _ => exact counter
  | store other action value _ _ _ =>
      obtain ⟨threadAction, locked, phase⟩ := thread
      cases phase
      case loaded loadedValue => cases silent
      case entered => cases threadAction <;> cases isMove
      all_goals cases isMove
  | look _ _ counter _ => exact counter
  | answer _ _ _ counter _ => exact counter

/-- Every step of the server is a step of its ledger. -/
theorem ledger_step
    {action : ServerAction}
    (taken : server.step options action = some next) :
    server.ledger.Step next.ledger (server.ledgerMove action) := by
  cases action with
  | arrive action =>
      obtain ⟨_, rfl⟩ := step_arrive taken
      exact Ledger.Step.arrive action rfl List.map_append
  | advance index woken =>
      obtain ⟨thread, here, advanced⟩ := step_advance taken
      rw [ledgerMove, here]
      exact ledger_advance here advanced

end Refinement

section Run

variable {options : Options} {server : Server} {start : BitVec 32}

/-- Between its load and its store a writer holds `mutex`. -/
theorem holdsMutex_of_loaded
    (consistent : server.Consistent)
    (balanced : server.ledger.Balanced start) {index : Nat}
    {action : Operation} {value : BitVec 32}
    (here : server.ledger.shares[index]? = some ⟨action, .loaded value⟩) :
    ∃ thread,
      server.threads[index]? = some thread ∧ thread.holdsMutex = true := by
  have writes := (balanced.loaded index action value here).1
  rw [ledger, List.getElem?_map] at here
  obtain ⟨thread, there, shares⟩ := Option.map_eq_some_iff.mp here
  refine ⟨thread, there, ?_⟩
  have valid := consistent.valid thread (List.mem_of_getElem? there)
  obtain ⟨threadAction, locked, phase⟩ := thread
  obtain ⟨rfl, progress⟩ := Share.mk.inj shares
  cases phase
  case loaded loadedValue =>
    have isLocked : locked = true := valid.writer writes rfl
    rw [isLocked]
    rfl
  all_goals cases progress

theorem alone_of_consistent
    (consistent : server.Consistent)
    (balanced : server.ledger.Balanced start) : server.ledger.Alone := by
  intro first second action other value another here there
  obtain ⟨_, firstHere, firstHolds⟩ :=
    holdsMutex_of_loaded consistent balanced here
  obtain ⟨_, secondHere, secondHolds⟩ :=
    holdsMutex_of_loaded consistent balanced there
  exact
    consistent.mutex.unique firstHere secondHere firstHolds secondHolds

theorem balanced_initial (counter : BitVec 32) (output : List Char) :
    (initial counter output).ledger.Balanced counter where
  counter := (BitVec.add_zero counter).symm
  loaded := by
    intro index action value here
    cases here

/-- The ledger is balanced in every state that is reached. -/
theorem balanced_of_run
    {actions : List ServerAction} {output : List Char} {final : Server}
    (reached :
      run (step options) (initial start output) actions = some final) :
    final.ledger.Balanced start := by
  have preserved :
      ∀ state action next,
        state.Consistent ∧ state.ledger.Balanced start →
          step options state action = some next →
            next.Consistent ∧ next.ledger.Balanced start := by
    rintro state action next ⟨consistent, balanced⟩ taken
    have alone := alone_of_consistent consistent balanced
    exact ⟨consistent.step taken, balanced.step alone (ledger_step taken)⟩
  have both :=
    invariant_of_any_run preserved
      ⟨consistent_initial start output, balanced_initial start output⟩
      reached
  exact both.2

end Run

/-! ## Nothing is lost -/

/-- A request of one kind that is done with. -/
def isCompleted (action : Operation) (thread : Thread) : Bool :=
  thread.action = action && thread.phase.isFinished

/-- What the counters say, in a server that has started from `start`. -/
structure Tallied (start : BitVec 32) (server : Server) : Prop where
  oneWriter : ∀ (first second : Nat) (writer other : Thread),
    server.threads[first]? = some writer →
      server.threads[second]? = some other →
        writer.action = .write → other.action = .write →
          writer.holdsMutex = true → other.holdsMutex = true →
            first = second
  current : ∀ action,
    server.current action =
      server.threads.countP (Thread.isCounted action)
  nonnegative : ∀ action, 0 ≤ server.current action
  atRest : server.Idle →
    server.counter =
        start +
          BitVec.ofNat 32 (server.threads.countP (isCompleted .write)) ∧
      ∀ action, server.current action = 0

section Idle

variable {server : Server}

/-- At rest, the writers that have stored are those that are done with. -/
theorem countP_hasWritten_of_idle (idle : server.Idle) :
    server.ledger.shares.countP Share.hasWritten =
      server.threads.countP (isCompleted .write) := by
  have shares : server.ledger.shares = server.threads.map Thread.share := rfl
  rw [shares, List.countP_map]
  apply List.countP_congr
  intro thread listed
  obtain ⟨response, finished⟩ := idle thread listed
  rw [Function.comp_apply, Thread.share, Share.hasWritten, isCompleted,
    finished]
  exact Iff.rfl

theorem countP_isCounted_of_idle (idle : server.Idle) (action : Operation) :
    server.threads.countP (Thread.isCounted action) = 0 := by
  rw [List.countP_eq_zero]
  intro thread listed
  obtain ⟨response, finished⟩ := idle thread listed
  simp [Thread.isCounted, finished, Phase.isCounted]

end Idle

/-- No increment is lost, whatever the priority, the ratio and the order of
the steps. -/
theorem no_increment_lost
    (options : Options) (start : BitVec 32) (output : List Char)
    {actions : List ServerAction} {final : Server}
    (reached :
      run (step options) (initial start output) actions = some final) :
    final.Tallied start := by
  have consistent := consistent_of_run reached
  have balanced := balanced_of_run reached
  refine ⟨?_, consistent.current, ?_, ?_⟩
  · intro first second writer other here there _ _ holds otherHolds
    exact consistent.mutex.unique here there holds otherHolds
  · intro action
    rw [consistent.current action]
    exact Int.natCast_nonneg _
  · intro idle
    constructor
    · rw [← countP_hasWritten_of_idle idle]
      exact balanced.counter
    · intro action
      rw [consistent.current action, countP_isCounted_of_idle idle action]
      rfl

/-- Two writers, the second one behind the first, from their arrivals to their
responses. -/
def twoWriters : List ServerAction :=
  [.arrive .write, .advance 0 none, .arrive .write, .advance 1 none] ++
    List.replicate 13 (.advance 0 none) ++
    List.replicate 13 (.advance 1 none)

theorem no_increment_lost_twoWriters :
    ∃ final : Server,
      run (step ⟨.write, 0⟩) (initial 41 []) twoWriters = some final ∧
        final.counter = 43 ∧ final.Tallied 41 := by
  have evaluated :
      ((run (step ⟨.write, 0⟩) (initial 41 []) twoWriters).map
        Server.counter) = some 43 := by
    decide
  obtain ⟨final, reached, counter⟩ := Option.map_eq_some_iff.mp evaluated
  exact
    ⟨final, reached, counter,
      no_increment_lost ⟨.write, 0⟩ 41 [] reached⟩

end Server

end SistemasDistribuidos.Practica3
