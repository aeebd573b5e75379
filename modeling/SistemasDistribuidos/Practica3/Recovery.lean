import SistemasDistribuidos.Practica3.Increments
import SistemasDistribuidos.Practica3.Output

/-!
# The counter across restarts

A server that handles its requests one at a time leaves `server_output.txt`
empty, if there were none, or with the text of `counter`.  `read_output` reads
that text back, but of an empty file it reads nothing, and then takes whatever
its buffer holds.  `Primed` says that this happens to be zero; the code does
not see to it.
-/

namespace SistemasDistribuidos.Practica3

open SistemasDistribuidos Machine Pool TextFile

/-! ## One request at a time -/

namespace Share

def isAnswered (share : Share) : Bool :=
  match share.progress with
  | .answered _ => true
  | _ => false

end Share

namespace Ledger

/-- At most one request is in progress. -/
def Solo (ledger : Ledger) : Prop :=
  ∀ (first second : Nat) (share other : Share),
    ledger.shares[first]? = some share →
      ledger.shares[second]? = some other →
        share.isAnswered = false → other.isAnswered = false →
          first = second

section Solo

variable {ledger next : Ledger} {index : Nat} {before after : Share}

theorem Solo.set
    (solo : ledger.Solo)
    (here : ledger.shares[index]? = some before)
    (unanswered : before.isAnswered = false)
    (shares : next.shares = ledger.shares.set index after) : next.Solo := by
  intro first second share other firstHere secondHere firstOpen secondOpen
  rw [shares] at firstHere secondHere
  rcases getElem?_set_cases firstHere with ⟨rfl, rfl⟩ | ⟨_, firstOld⟩
  · rcases getElem?_set_cases secondHere with ⟨rfl, _⟩ | ⟨_, secondOld⟩
    · rfl
    · exact solo _ _ _ _ here secondOld unanswered secondOpen
  · rcases getElem?_set_cases secondHere with ⟨rfl, rfl⟩ | ⟨_, secondOld⟩
    · exact solo _ _ _ _ firstOld here firstOpen unanswered
    · exact solo _ _ _ _ firstOld secondOld firstOpen secondOpen

/-- A request joins when all the others have been answered. -/
theorem Solo.step
    (solo : ledger.Solo) {move : Move}
    (alone : ∀ action, move = .arrive action →
      ∀ share ∈ ledger.shares, share.isAnswered = true)
    (taken : ledger.Step next move) : next.Solo := by
  cases taken with
  | stay counter shares =>
      rw [Solo, shares]
      exact solo
  | arrive action counter shares =>
      have answered := alone action rfl
      intro first second share other firstHere secondHere firstOpen
        secondOpen
      rw [shares] at firstHere secondHere
      rcases getElem?_append_cases firstHere with ⟨rfl, _⟩ | firstOld
      · rcases getElem?_append_cases secondHere with ⟨rfl, _⟩ | secondOld
        · rfl
        · rw [answered _ (List.mem_of_getElem? secondOld)] at secondOpen
          cases secondOpen
      · rw [answered _ (List.mem_of_getElem? firstOld)] at firstOpen
        cases firstOpen
  | load index here counter shares => exact solo.set here rfl shares
  | store index action value here counter shares =>
      exact solo.set here rfl shares
  | look index here counter shares => exact solo.set here rfl shares
  | answer index action here counter shares =>
      exact solo.set here rfl shares

end Solo

end Ledger

namespace Phase

theorem isFinished_iff (phase : Phase) :
    phase.isFinished = true ↔ ∃ response, phase = .finished response := by
  constructor
  · intro finished
    cases phase
    case finished response => exact ⟨response, rfl⟩
    all_goals cases finished
  · rintro ⟨response, rfl⟩
    rfl

theorem isFinished_of_stores
    {phase : Phase} (stores : phase.stores = true) :
    phase.isFinished = false := by
  cases phase
  case loaded => rfl
  all_goals cases stores

theorem isFinished_of_buffer
    {phase : Phase} {buffer : List Char}
    (buffered : buffer ∈ phase.buffer) : phase.isFinished = false := by
  cases phase
  case formatted => rfl
  all_goals cases buffered

theorem Follows.buffer
    {before after : Phase} (follows : before.Follows after)
    (notOpened : before ≠ .opened) : after.buffer = none := by
  cases follows
  case fprintf => exact absurd rfl notOpened
  all_goals rfl

end Phase

theorem Thread.isAnswered_share (thread : Thread) :
    thread.share.isAnswered = thread.phase.isFinished := by
  obtain ⟨action, locked, phase⟩ := thread
  cases phase <;> rfl

namespace Server

theorem idle_iff (server : Server) :
    server.Idle ↔
      ∀ thread ∈ server.threads, thread.phase.isFinished = true :=
  forall₂_congr (fun thread _ => (thread.phase.isFinished_iff).symm)

instance (server : Server) : Decidable server.Idle :=
  decidable_of_iff' _ server.idle_iff

/-- A request comes only when no other one is in progress. -/
def OneAtATime (server : Server) : ServerAction → Prop
  | .arrive _ => server.Idle
  | .advance _ _ => True

instance (server : Server) : ∀ action, Decidable (server.OneAtATime action)
  | .arrive _ => inferInstanceAs (Decidable server.Idle)
  | .advance _ _ => isTrue trivial

/-- What is in a stream's buffer is the present value of `counter`. -/
def Current (server : Server) : Prop :=
  ∀ thread ∈ server.threads, ∀ buffer ∈ thread.phase.buffer,
    buffer = text server.counter.toInt

section Steps

variable {options : Options} {server next : Server} {index : Nat}

/-- A thread moves on, and `counter` stays as it is. -/
theorem Current.set
    (current : server.Current) {after : Thread}
    (threads : next.threads = server.threads.set index after)
    (counter : next.counter = server.counter)
    (fits : ∀ buffer ∈ after.phase.buffer,
      buffer = text server.counter.toInt) :
    next.Current := by
  intro thread listed buffer buffered
  rw [counter]
  rw [threads] at listed
  rcases List.mem_or_eq_of_mem_set listed with old | rfl
  · exact current thread old buffer buffered
  · exact fits buffer buffered

theorem Current.wake
    (current : server.Current) {condition : Operation}
    {woken : Option Nat}
    (taken : server.wake condition woken = some next) : next.Current := by
  rcases wake_cases taken with ⟨_, rfl⟩ | ⟨sleeper, thread, _, _, rfl⟩
  · exact current
  · refine current.set rfl rfl ?_
    intro buffer impossible
    cases impossible

/-- Whoever stores is alone, so that nobody else has a buffer then. -/
theorem Current.advance
    (current : server.Current) (solo : server.ledger.Solo)
    {thread : Thread} {woken : Option Nat}
    (here : server.threads[index]? = some thread)
    (taken : server.advance options index thread woken = some next) :
    next.Current := by
  obtain ⟨action, locked, phase⟩ := thread
  by_cases isOpened : phase = .opened
  · subst isOpened
    cases taken
    refine current.set rfl rfl ?_
    intro buffer buffered
    exact (Option.some.inj buffered).symm
  by_cases departs : phase = .departing
  · subst departs
    simp only [Server.advance, Server.signal] at taken
    refine Current.wake ?_ taken
    refine current.set rfl rfl ?_
    intro buffer impossible
    cases impossible
  obtain ⟨after, isLocked, follows, threads⟩ := advance_follows taken departs
  have noBuffer := follows.buffer isOpened
  cases stores : phase.stores with
  | false =>
      refine
        current.set threads (counter_of_not_stores here taken stores) ?_
      intro buffer buffered
      rw [noBuffer] at buffered
      cases buffered
  | true =>
      intro other listed buffer buffered
      rw [threads] at listed
      obtain ⟨second, otherHere⟩ := List.mem_iff_getElem?.mp listed
      rcases getElem?_set_cases otherHere with ⟨_, rfl⟩ | ⟨different, old⟩
      · rw [noBuffer] at buffered
        cases buffered
      · have bufferOpen : other.share.isAnswered = false := by
          rw [Thread.isAnswered_share]
          exact Phase.isFinished_of_buffer buffered
        have storeOpen :
            Share.isAnswered (Thread.share ⟨action, locked, phase⟩) =
              false := by
          rw [Thread.isAnswered_share]
          exact Phase.isFinished_of_stores stores
        exact
          absurd
            (solo _ _ _ _ (share_here old) (share_here here) bufferOpen
              storeOpen)
            different

/-- What holds of a server that handles its requests one at a time, and was
started as `first`. -/
structure Sequential (server first : Server) : Prop where
  solo : server.ledger.Solo
  current : server.Current
  saved : server.Saved
  unserved : server.threads = [] → server = first

theorem sequential_initial (counter : BitVec 32) (output : List Char) :
    (initial counter output).Sequential (initial counter output) where
  solo := by
    intro first second share other impossible
    cases impossible
  current := by
    intro thread impossible
    cases impossible
  saved := .untouched rfl
  unserved := fun _ => rfl

theorem threadMove_ne_arrive
    (index : Nat) (thread : Thread) (action : Operation) :
    threadMove index thread ≠ .arrive action := by
  obtain ⟨kind, locked, phase⟩ := thread
  cases phase
  case entered => cases kind <;> exact Ledger.Move.noConfusion
  all_goals exact Ledger.Move.noConfusion

/-- A request that comes finds all the others answered. -/
theorem answered_of_arrive
    {action : ServerAction} (one : server.OneAtATime action)
    {kind : Operation} (arrives : server.ledgerMove action = .arrive kind) :
    ∀ share ∈ server.ledger.shares, share.isAnswered = true := by
  cases action with
  | arrive action =>
      intro share listed
      obtain ⟨thread, threadListed, rfl⟩ := List.mem_map.mp listed
      rw [Thread.isAnswered_share]
      exact server.idle_iff.mp one thread threadListed
  | advance index woken =>
      rw [ledgerMove] at arrives
      split at arrives
      · exact absurd arrives (threadMove_ne_arrive _ _ _)
      · cases arrives

/-- A server that has taken a step has had a request. -/
theorem threads_ne_nil
    {action : ServerAction}
    (taken : server.step options action = some next) :
    next.threads ≠ [] := by
  have longer : server.threads.length ≤ next.threads.length := by
    have shares := (ledger_step taken).length_le
    rw [ledger, ledger, List.length_map, List.length_map] at shares
    exact shares
  cases action with
  | arrive action =>
      obtain ⟨_, rfl⟩ := step_arrive taken
      exact List.append_ne_nil_of_right_ne_nil _ (List.cons_ne_nil _ _)
  | advance index woken =>
      obtain ⟨thread, here, _⟩ := step_advance taken
      have inside := (List.getElem?_eq_some_iff.mp here).1
      exact List.ne_nil_of_length_pos (by omega)

theorem Sequential.step
    {first : Server} (sequential : server.Sequential first)
    {action : ServerAction} (one : server.OneAtATime action)
    (taken : server.step options action = some next) :
    next.Sequential first := by
  have fresh : server.Fresh action := by
    cases action with
    | arrive action => trivial
    | advance index woken =>
        intro thread here buffer buffered
        exact
          Or.inl
            (sequential.current thread (List.mem_of_getElem? here) buffer
              buffered)
  refine
    ⟨sequential.solo.step (fun _ => answered_of_arrive one)
        (ledger_step taken), ?_, sequential.saved.step fresh taken, ?_⟩
  · cases action with
    | arrive action =>
        obtain ⟨_, rfl⟩ := step_arrive taken
        intro thread listed buffer buffered
        rcases List.mem_append.mp listed with old | new
        · exact sequential.current thread old buffer buffered
        · rw [List.mem_singleton.mp new] at buffered
          cases buffered
    | advance index woken =>
        obtain ⟨thread, here, advanced⟩ := step_advance taken
        exact sequential.current.advance sequential.solo here advanced
  · intro unserved
    exact absurd unserved (threads_ne_nil taken)

/-- What a server that is stopped between two requests leaves behind. -/
theorem output_of_sequential
    {actions : List ServerAction} {counter : BitVec 32}
    {output : List Char} {final : Server}
    (one :
      Obeys (step options) OneAtATime (initial counter output) actions)
    (reached :
      run (step options) (initial counter output) actions = some final)
    (idle : final.Idle) :
    final = initial counter output ∨
      final.output = text final.counter.toInt := by
  have preserved :
      ∀ state action next,
        state.Sequential (initial counter output) →
          state.OneAtATime action →
            step options state action = some next →
              next.Sequential (initial counter output) :=
    fun _ _ _ sequential one taken => sequential.step one taken
  have sequential :=
    invariant_of_run preserved (sequential_initial counter output) one
      reached
  by_cases unserved : final.threads = []
  · exact Or.inl (sequential.unserved unserved)
  · exact Or.inr (sequential.saved.output idle unserved)

end Steps

end Server

/-! ## One life after another -/

/-- One life of the server: what the buffer of `read_output` holds before
anything is read, and what happens until the server is stopped. -/
structure Life where
  options : Options
  buffer : List Char
  actions : List ServerAction

/-- What is left when the server is stopped: the file, and the value that
`counter` had. -/
structure Stopped where
  file : Option (List Char)
  counter : BitVec 32
  deriving DecidableEq

namespace Stopped

/-- There is no `server_output.txt` yet. -/
def initial : Stopped := ⟨none, 0⟩

/-- `read_output`, which creates the file if there is none. -/
def start (stopped : Stopped) (life : Life) : Server :=
  Server.initial (readOutput life.buffer stopped.file)
    (stopped.file.getD [])

/-- A life ends, and leaves its file. -/
def step (stopped : Stopped) (life : Life) : Option Stopped :=
  (run (Server.step life.options) (stopped.start life) life.actions).map
    (fun final => ⟨some final.output, final.counter⟩)

/-- The requests of the life are handled one at a time, and it is stopped
between two of them. -/
def Orderly (stopped : Stopped) (life : Life) : Prop :=
  Obeys (Server.step life.options) Server.OneAtATime (stopped.start life)
      life.actions ∧
    ∀ final ∈
        run (Server.step life.options) (stopped.start life) life.actions,
      final.Idle

instance (stopped : Stopped) (life : Life) :
    Decidable (stopped.Orderly life) :=
  inferInstanceAs (Decidable (_ ∧ _))

/-- The server goes on from the value it was stopped with. -/
def Recovers (stopped : Stopped) (life : Life) : Prop :=
  (stopped.start life).counter = stopped.counter

instance (stopped : Stopped) (life : Life) :
    Decidable (stopped.Recovers life) :=
  inferInstanceAs (Decidable (_ = _))

/-- The file is not empty, or the buffer happens to read as zero. -/
def Primed (stopped : Stopped) (life : Life) : Prop :=
  stopped.file = some [] → atoi life.buffer = 0

instance (stopped : Stopped) (life : Life) :
    Decidable (stopped.Primed life) :=
  inferInstanceAs (Decidable (_ → _))

/-- The file is missing or empty while nothing has been counted, and holds
the text of the counter otherwise. -/
inductive Kept : Stopped → Prop where
  | missing : Kept ⟨none, 0⟩
  | empty : Kept ⟨some [], 0⟩
  | saved (counter : BitVec 32) : Kept ⟨some (text counter.toInt), counter⟩

section Lives

variable {stopped next : Stopped} {life : Life}

theorem recovers_iff_primed (kept : stopped.Kept) (life : Life) :
    stopped.Recovers life ↔ stopped.Primed life := by
  cases kept with
  | missing =>
      constructor
      · intro _ impossible
        cases impossible
      · intro _
        rfl
  | empty =>
      constructor
      · intro recovers _
        exact recovers
      · intro primed
        exact primed rfl
  | saved counter =>
      constructor
      · intro _ isEmpty
        exact absurd (Option.some.inj isEmpty) (text_ne_nil _)
      · intro _
        exact readOutput_text life.buffer counter

/-- A life that recovers keeps the file. -/
theorem Kept.step
    (kept : stopped.Kept) (orderly : stopped.Orderly life)
    (primed : stopped.Primed life)
    (taken : stopped.step life = some next) : next.Kept := by
  obtain ⟨final, reached, rfl⟩ := Option.map_eq_some_iff.mp taken
  have recovers := (recovers_iff_primed kept life).mpr primed
  rcases Server.output_of_sequential orderly.1 reached
      (orderly.2 final reached) with
    unserved | saved
  · subst unserved
    cases kept with
    | missing => exact Kept.empty
    | empty =>
        rw [Recovers] at recovers
        simp only [start, Server.initial] at recovers ⊢
        rw [recovers]
        exact Kept.empty
    | saved counter =>
        rw [Recovers] at recovers
        simp only [start, Server.initial] at recovers ⊢
        rw [recovers]
        exact Kept.saved counter
  · rw [saved]
    exact Kept.saved final.counter

end Lives

/-- Every life goes on from the value that the one before it was stopped with
if and only if no empty file is read into a buffer that gives another one. -/
theorem counter_recovered
    (lives : List Life) (orderly : Obeys step Orderly initial lives) :
    Obeys step Recovers initial lives ↔ Obeys step Primed initial lives := by
  constructor
  · intro recovers
    have both :
        Obeys step
          (fun stopped life => stopped.Orderly life ∧ stopped.Primed life)
          initial lives :=
      obeys_of_invariant
        (fun stopped life kept given =>
          ⟨given.1, (recovers_iff_primed kept life).mp given.2⟩)
        (fun _ _ _ kept given taken => kept.step given.1 given.2 taken)
        Kept.missing (orderly.both recovers)
    exact both.mono (fun _ _ given => given.2)
  · intro primed
    have both :
        Obeys step
          (fun stopped life => stopped.Orderly life ∧ stopped.Recovers life)
          initial lives :=
      obeys_of_invariant
        (fun stopped life kept given =>
          ⟨given.1, (recovers_iff_primed kept life).mpr given.2⟩)
        (fun _ life _ kept given taken =>
          kept.step given.1 ((recovers_iff_primed kept life).mp given.2)
            taken)
        Kept.missing (orderly.both primed)
    exact both.mono (fun _ _ given => given.2)

/-- A writer, and after a restart a reader and another writer. -/
def twoLives : List Life :=
  [⟨⟨.write, 1⟩, ['4'], Server.alone .write 0⟩,
    ⟨⟨.read, 0⟩, ['7'], Server.alone .read 0 ++ Server.alone .write 1⟩]

theorem counter_recovered_twoLives :
    Obeys step Recovers initial twoLives ∧
      run step initial twoLives = some ⟨some ['2'], 2⟩ := by
  refine ⟨?_, by decide⟩
  apply (counter_recovered twoLives (by decide)).mpr
  decide

/-- A server that was stopped before its first request is started again, and
its buffer holds a digit. -/
theorem counter_invented :
    ¬ ∀ lives : List Life, Obeys step Orderly initial lives →
        Obeys step Recovers initial lives := by
  intro always
  have recovers :=
    always [⟨⟨.write, 1⟩, [], []⟩, ⟨⟨.write, 1⟩, ['7'], []⟩] (by decide)
  exact absurd recovers (by decide)

end Stopped

end SistemasDistribuidos.Practica3
