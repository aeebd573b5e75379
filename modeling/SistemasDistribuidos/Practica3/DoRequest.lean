import SistemasDistribuidos.Library.Machine
import SistemasDistribuidos.Library.Pool
import SistemasDistribuidos.Library.TextFile

/-!
# Readers and writers

`do_request` of the readers/writers server, one thread for each request.  A
thread is interrupted at every lock, unlock, wait and signal, at its unlocked
reads, between the load and the store of `counter++`, and between the three
calls of `write_output`.  A request is there from the moment it has locked
`counter_mutex`; before that it has no effect.

What is done inside one critical section of `counter_mutex` or `ratio_mutex`
without a further lock is one step.  `pthread_cond_wait` ends only by a
signal, and a signal wakes one of the threads that wait, or is lost.

`entries` and `yielded` are not in the code.  They record who has entered the
region, whether a request of the other kind was waiting for it, and whether
an exit has given way to the other kind since.
-/

namespace SistemasDistribuidos.Practica3

open SistemasDistribuidos TextFile

/-- `enum operations`. -/
inductive Operation where
  | write
  | read
  deriving DecidableEq, Repr

/-- What the server was started with. -/
structure Options where
  priority : Operation
  ratio : Int

/-- Where the thread of a request stands in `do_request`. -/
inductive Phase where
  /-- Counted, with `counter_mutex`; `waits` is the test of line 232 or 241. -/
  | counted (waits : Bool)
  /-- With `counter_mutex` and the mutex of its condition. -/
  | queueing
  /-- With the mutex of its condition only. -/
  | starting
  /-- In `pthread_cond_wait`. -/
  | waiting
  /-- Signalled, and without the mutex of its condition. -/
  | woken
  /-- Back from `pthread_cond_wait`. -/
  | resumed
  /-- Before the test of line 254. -/
  | testing
  | locking
  /-- At line 260. -/
  | entering
  /-- In the region, after line 268. -/
  | entered
  /-- Between the load and the store of `counter++`. -/
  | loaded (value : BitVec 32)
  /-- Before `write_output`. -/
  | acted
  | opened
  /-- What `fprintf` has written is in the buffer of the stream. -/
  | formatted (buffer : List Char)
  /-- After `write_output`. -/
  | closed
  /-- Not counted any more, with `counter_mutex`. -/
  | departing
  /-- Its signal has been sent. -/
  | signalled
  /-- Before the unlock of `mutex`. -/
  | leaving
  /-- Before line 352. -/
  | responding
  | finished (response : BitVec 32)
  deriving DecidableEq

/-- The thread of a request, with its local variable `locked`. -/
structure Thread where
  action : Operation
  locked : Bool
  phase : Phase
  deriving DecidableEq

namespace Phase

/-- Counted in `current_readers` or `current_writers`. -/
def isCounted : Phase → Bool
  | .departing => false
  | .signalled => false
  | .leaving => false
  | .responding => false
  | .finished _ => false
  | _ => true

/-- Counted, and not in the region yet. -/
def outside : Phase → Bool
  | .counted _ => true
  | .queueing => true
  | .starting => true
  | .waiting => true
  | .woken => true
  | .resumed => true
  | .testing => true
  | .locking => true
  | .entering => true
  | _ => false

/-- In the region, lines 260 to 349. -/
def inRegion : Phase → Bool
  | .entered => true
  | .loaded _ => true
  | .acted => true
  | .opened => true
  | .formatted _ => true
  | .closed => true
  | .departing => true
  | .signalled => true
  | .leaving => true
  | _ => false

/-- With `counter_mutex`. -/
def holdsCounter : Phase → Bool
  | .counted _ => true
  | .queueing => true
  | .departing => true
  | .signalled => true
  | _ => false

def isFinished : Phase → Bool
  | .finished _ => true
  | _ => false

/-- The lines in their order.  Only a signal leads out of
`pthread_cond_wait`, and the step that sends one is not among these. -/
inductive Follows : Phase → Phase → Prop where
  | queue : Follows (.counted true) .queueing
  | goOn : Follows (.counted false) .testing
  | unlock : Follows .queueing .starting
  | sleep : Follows .starting .waiting
  | resume : Follows .woken .resumed
  | release : Follows .resumed .testing
  | test : Follows .testing .locking
  | pass : Follows .testing .entering
  | lock : Follows .locking .entering
  | enter : Follows .entering .entered
  | load (value : BitVec 32) : Follows .entered (.loaded value)
  | look : Follows .entered .acted
  | store (value : BitVec 32) : Follows (.loaded value) .acted
  | fopen : Follows .acted .opened
  | fprintf (buffer : List Char) : Follows .opened (.formatted buffer)
  | fclose (buffer : List Char) : Follows (.formatted buffer) .closed
  | depart : Follows .closed .departing
  | leave : Follows .signalled .leaving
  | out : Follows .signalled .responding
  | unlockMutex : Follows .leaving .responding
  | respond (response : BitVec 32) : Follows .responding (.finished response)

theorem Follows.outside
    {before after : Phase} (follows : before.Follows after)
    (out : before ≠ .entering) : after.outside = before.outside := by
  cases follows
  case enter => exact absurd rfl out
  all_goals rfl

end Phase

/-- An entry into the region, and whether a request of the other kind had been
counted and not entered yet. -/
structure Entry where
  action : Operation
  contended : Bool
  deriving DecidableEq

/-- An entry of the priority kind that passes a request of the other kind. -/
def Entry.passes (priority : Operation) (entry : Entry) : Prop :=
  entry.action = priority ∧ entry.contended = true

instance (kind : Operation) (entry : Entry) :
    Decidable (entry.passes kind) :=
  inferInstanceAs (Decidable (_ ∧ _))

structure Server where
  threads : List Thread
  /-- `current_readers` and `current_writers`. -/
  current : Operation → Int
  /-- `ratio_counter`, an `int` that is taken not to overflow. -/
  ratioCounter : Int
  counter : BitVec 32
  counterMutex : Option Nat
  /-- `readers_mutex` and `writers_mutex`. -/
  queueMutex : Operation → Option Nat
  mutex : Option Nat
  /-- `server_output.txt`. -/
  output : List Char
  /-- The entries so far, the last one first. -/
  entries : List Entry
  yielded : Bool

inductive ServerAction where
  /-- A new request locks `counter_mutex` and is counted. -/
  | arrive (action : Operation)
  /-- One step of a thread; `woken` is the thread that its signal wakes. -/
  | advance (thread : Nat) (woken : Option Nat)

namespace Server

/-- A thread moves on to another phase. -/
def move (server : Server) (index : Nat) (thread : Thread) (phase : Phase) :
    Server :=
  { server with
    threads := server.threads.set index { thread with phase := phase } }

/-- Entries of the priority kind in a row, with the other kind waiting. -/
def streak (priority : Operation) (entries : List Entry) : Nat :=
  (entries.takeWhile (fun entry => entry.passes priority)).length

section Step

variable (options : Options) (server : Server)

/-- The tests of lines 232 and 241. -/
def mustWait : Bool :=
  (1 < server.current .write ∨ 1 < server.current .read) ∧
    options.ratio ≠ 0

/-- Lines 225 to 231, and the test that follows. -/
def arrive (action : Operation) : Server :=
  let counted :=
    { server with
      current :=
        Function.update server.current action (server.current action + 1) }
  { counted with
    counterMutex := some server.threads.length
    threads :=
      server.threads ++
        [⟨action, false, .counted (counted.mustWait options)⟩] }

/-- Another request of the other kind has been counted and has not entered. -/
def contended (action : Operation) : Bool :=
  server.threads.any
    (fun thread => thread.action ≠ action ∧ thread.phase.outside)

/-- Lines 262 to 268. -/
def enter (index : Nat) (thread : Thread) : Server :=
  let entry : Entry := ⟨thread.action, server.contended thread.action⟩
  { server.move index thread .entered with
    ratioCounter :=
      if thread.action = options.priority then server.ratioCounter + 1
      else 0
    entries := entry :: server.entries
    yielded :=
      server.yielded ∧ 0 < streak options.priority (entry :: server.entries) }

/-- The chain of lines 307 to 341: whether `ratio_counter` is reset, and which
condition is signalled. -/
def wakeUp (action : Operation) : Bool × Operation :=
  if options.ratio ≤ server.ratioCounter ∧ options.ratio ≠ 0 ∧
      action = .read ∧ 0 < server.current .write then
    (true, .write)
  else if options.ratio ≤ server.ratioCounter ∧ options.ratio ≠ 0 ∧
      action = .write ∧ 0 < server.current .read then
    (true, .read)
  else if options.priority = .read ∧ 0 < server.current .read then
    (false, .read)
  else if options.priority = .write ∧ 0 < server.current .write then
    (false, .write)
  else if action = .read ∧ 0 < server.current .read then
    (false, .read)
  else if action = .write ∧ 0 < server.current .write then
    (false, .write)
  else if action = .read ∧ server.current .read = 0 then
    (false, .write)
  else if action = .write ∧ server.current .write = 0 then
    (false, .read)
  else
    (false, .read)

/-- A thread waits on `allow_readers` or `allow_writers`. -/
def sleeps (condition : Operation) (thread : Thread) : Bool :=
  thread.phase = .waiting ∧ thread.action = condition

/-- `pthread_cond_signal`: one of the threads that wait is woken, if there is
one. -/
def wake (condition : Operation) : Option Nat → Option Server
  | some index =>
      match server.threads[index]? with
      | some thread =>
          if sleeps condition thread then
            some (server.move index thread .woken)
          else
            none
      | none => none
  | none => if server.threads.any (sleeps condition) then none else some server

/-- Lines 307 to 341. -/
def signal (index : Nat) (thread : Thread) (woken : Option Nat) :
    Option Server :=
  let choice := server.wakeUp options thread.action
  let moved := server.move index thread .signalled
  Server.wake
    { moved with
      ratioCounter := if choice.1 then 0 else server.ratioCounter
      yielded :=
        if choice.1 then
          server.yielded ∨ 0 < streak options.priority server.entries
        else server.yielded }
    choice.2 woken

/-- The next step of a thread, from where it stands. -/
def advance (index : Nat) (thread : Thread) (woken : Option Nat) :
    Option Server :=
  match thread.phase with
  | .counted true =>
      if server.queueMutex thread.action = none then
        some
          { server.move index thread .queueing with
            queueMutex :=
              Function.update server.queueMutex thread.action
                (some index) }
      else
        none
  | .counted false =>
      some
        { server.move index thread .testing with counterMutex := none }
  | .queueing =>
      some
        { server.move index thread .starting with counterMutex := none }
  | .starting =>
      some
        { server.move index thread .waiting with
          queueMutex :=
            Function.update server.queueMutex thread.action none }
  | .waiting => none
  | .woken =>
      if server.queueMutex thread.action = none then
        some
          { server.move index thread .resumed with
            queueMutex :=
              Function.update server.queueMutex thread.action
                (some index) }
      else
        none
  | .resumed =>
      some
        { server.move index thread .testing with
          queueMutex :=
            Function.update server.queueMutex thread.action none }
  | .testing =>
      if (0 < server.current .write ∧ thread.action = .read) ∨
          thread.action = .write then
        some (server.move index thread .locking)
      else
        some (server.move index thread .entering)
  | .locking =>
      if server.mutex = none then
        some
          { server.move index { thread with locked := true } .entering with
            mutex := some index }
      else
        none
  | .entering => some (server.enter options index thread)
  | .entered =>
      match thread.action with
      | .write => some (server.move index thread (.loaded server.counter))
      | .read => some (server.move index thread .acted)
  | .loaded value =>
      some { server.move index thread .acted with counter := value + 1 }
  | .acted => some { server.move index thread .opened with output := [] }
  | .opened =>
      some
        (server.move index thread (.formatted (text server.counter.toInt)))
  | .formatted buffer =>
      some
        { server.move index thread .closed with
          output := overwrite server.output buffer }
  | .closed =>
      if server.counterMutex = none then
        some
          { server.move index thread .departing with
            counterMutex := some index
            current :=
              Function.update server.current thread.action
                (server.current thread.action - 1) }
      else
        none
  | .departing => server.signal options index thread woken
  | .signalled =>
      some
        { server.move index thread
            (if thread.locked then .leaving else .responding) with
          counterMutex := none }
  | .leaving =>
      some { server.move index thread .responding with mutex := none }
  | .responding => some (server.move index thread (.finished server.counter))
  | .finished _ => none

def step : ServerAction → Option Server
  | .arrive action =>
      if server.counterMutex = none then some (server.arrive options action)
      else none
  | .advance index woken =>
      match server.threads[index]? with
      | some thread => server.advance options index thread woken
      | none => none

end Step

/-- The server has read its counter and no request has come yet. -/
def initial (counter : BitVec 32) (output : List Char) : Server where
  threads := []
  current := fun _ => 0
  ratioCounter := 0
  counter := counter
  counterMutex := none
  queueMutex := fun _ => none
  mutex := none
  output := output
  entries := []
  yielded := false

/-- No request is in progress. -/
def Idle (server : Server) : Prop :=
  ∀ thread ∈ server.threads, ∃ response, thread.phase = .finished response

/-! ## What one step does -/

section Inversion

variable {options : Options} {server next : Server} {action : Operation}
  {index : Nat} {woken : Option Nat}

theorem step_arrive
    (taken : server.step options (.arrive action) = some next) :
    server.counterMutex = none ∧ next = server.arrive options action := by
  simp only [step, Option.ite_none_right_eq_some, Option.some.injEq] at taken
  exact ⟨taken.1, taken.2.symm⟩

theorem step_advance
    (taken : server.step options (.advance index woken) = some next) :
    ∃ thread,
      server.threads[index]? = some thread ∧
        server.advance options index thread woken = some next := by
  simp only [step] at taken
  split at taken
  · rename_i thread here
    exact ⟨thread, here, taken⟩
  · cases taken

/-- A thread goes on through `do_request` line by line, whatever it finds. -/
theorem advance_follows
    {thread : Thread}
    (taken : server.advance options index thread woken = some next)
    (stays : thread.phase ≠ .departing) :
    ∃ phase locked,
      thread.phase.Follows phase ∧
        next.threads =
          server.threads.set index ⟨thread.action, locked, phase⟩ := by
  obtain ⟨action, locked, phase⟩ := thread
  cases phase
  case counted waits =>
    cases waits with
    | true =>
        simp only [advance, Option.ite_none_right_eq_some,
          Option.some.injEq] at taken
        obtain ⟨_, rfl⟩ := taken
        exact ⟨_, _, .queue, rfl⟩
    | false =>
        cases taken
        exact ⟨_, _, .goOn, rfl⟩
  case queueing =>
    cases taken
    exact ⟨_, _, .unlock, rfl⟩
  case starting =>
    cases taken
    exact ⟨_, _, .sleep, rfl⟩
  case waiting => cases taken
  case woken =>
    simp only [advance, Option.ite_none_right_eq_some,
      Option.some.injEq] at taken
    obtain ⟨_, rfl⟩ := taken
    exact ⟨_, _, .resume, rfl⟩
  case resumed =>
    cases taken
    exact ⟨_, _, .release, rfl⟩
  case testing =>
    simp only [advance] at taken
    split at taken
    · cases taken
      exact ⟨_, _, .test, rfl⟩
    · cases taken
      exact ⟨_, _, .pass, rfl⟩
  case locking =>
    simp only [advance, Option.ite_none_right_eq_some,
      Option.some.injEq] at taken
    obtain ⟨_, rfl⟩ := taken
    exact ⟨_, _, .lock, rfl⟩
  case entering =>
    cases taken
    exact ⟨_, _, .enter, rfl⟩
  case entered =>
    cases action with
    | write =>
        cases taken
        exact ⟨_, _, .load _, rfl⟩
    | read =>
        cases taken
        exact ⟨_, _, .look, rfl⟩
  case loaded value =>
    cases taken
    exact ⟨_, _, .store value, rfl⟩
  case acted =>
    cases taken
    exact ⟨_, _, .fopen, rfl⟩
  case opened =>
    cases taken
    exact ⟨_, _, .fprintf _, rfl⟩
  case formatted buffer =>
    cases taken
    exact ⟨_, _, .fclose buffer, rfl⟩
  case closed =>
    simp only [advance, Option.ite_none_right_eq_some,
      Option.some.injEq] at taken
    obtain ⟨_, rfl⟩ := taken
    exact ⟨_, _, .depart, rfl⟩
  case departing => exact absurd rfl stays
  case signalled =>
    cases taken
    cases locked with
    | true => exact ⟨_, _, .leave, rfl⟩
    | false => exact ⟨_, _, .out, rfl⟩
  case leaving =>
    cases taken
    exact ⟨_, _, .unlockMutex, rfl⟩
  case responding =>
    cases taken
    exact ⟨_, _, .respond _, rfl⟩
  case finished => cases taken

/-- Only an entry and a departure say anything about the ratio. -/
theorem advance_keeps
    {thread : Thread}
    (taken : server.advance options index thread woken = some next)
    (stays : thread.phase ≠ .departing) (out : thread.phase ≠ .entering) :
    next.ratioCounter = server.ratioCounter ∧
      next.entries = server.entries ∧ next.yielded = server.yielded := by
  obtain ⟨action, locked, phase⟩ := thread
  cases phase
  case counted waits =>
    cases waits with
    | true =>
        simp only [advance, Option.ite_none_right_eq_some,
          Option.some.injEq] at taken
        obtain ⟨_, rfl⟩ := taken
        exact ⟨rfl, rfl, rfl⟩
    | false =>
        cases taken
        exact ⟨rfl, rfl, rfl⟩
  case woken | locking | closed =>
    simp only [advance, Option.ite_none_right_eq_some,
      Option.some.injEq] at taken
    obtain ⟨_, rfl⟩ := taken
    exact ⟨rfl, rfl, rfl⟩
  case testing =>
    simp only [advance] at taken
    split at taken
    · cases taken
      exact ⟨rfl, rfl, rfl⟩
    · cases taken
      exact ⟨rfl, rfl, rfl⟩
  case entering => exact absurd rfl out
  case entered =>
    cases action with
    | write =>
        cases taken
        exact ⟨rfl, rfl, rfl⟩
    | read =>
        cases taken
        exact ⟨rfl, rfl, rfl⟩
  case departing => exact absurd rfl stays
  case waiting | finished => cases taken
  all_goals
    cases taken
    exact ⟨rfl, rfl, rfl⟩

/-- A signal is lost when nobody waits, and otherwise wakes one thread. -/
theorem wake_cases
    {condition : Operation}
    (taken : server.wake condition woken = some next) :
    ((∀ thread ∈ server.threads, sleeps condition thread = false) ∧
        next = server) ∨
      ∃ sleeper thread,
        server.threads[sleeper]? = some thread ∧
          sleeps condition thread = true ∧
          next = server.move sleeper thread .woken := by
  cases woken with
  | none =>
      simp only [wake, Option.ite_none_left_eq_some, Option.some.injEq]
        at taken
      obtain ⟨nobody, rfl⟩ := taken
      rw [List.any_eq_true] at nobody
      refine Or.inl ⟨fun thread listed => ?_, rfl⟩
      rw [Bool.eq_false_iff]
      intro asleep
      exact nobody ⟨thread, listed, asleep⟩
  | some sleeper =>
      simp only [wake] at taken
      split at taken
      · rename_i thread here
        simp only [Option.ite_none_right_eq_some, Option.some.injEq] at taken
        exact Or.inr ⟨sleeper, thread, here, taken.1, taken.2.symm⟩
      · cases taken

end Inversion

end Server

end SistemasDistribuidos.Practica3
