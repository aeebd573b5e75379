import SistemasDistribuidos.Library.Machine
import SistemasDistribuidos.Library.Pool

/-!
# The multithreaded server

The main loop of the multithreaded server and its `talk_to_client` threads.
Each thread gets a pointer into `fds` and reads it when it first runs.  When
`NUMBER_OF_THREADS` clients have been accepted, the main loop joins all
threads, closes all descriptors and begins again with the first slot.

The connections are numbered in the order in which they are accepted, and the
table of open descriptors is the kernel's: `accept` gives a descriptor that is
not open.  `Thread.accepted`, `Thread.used`, `Thread.joined` and `closed` are
not in the code.  They record for which descriptor a thread was created, which
connections it has used, that it has been joined, and which connection each
`close` has closed, if any.
-/

namespace SistemasDistribuidos.Practica1.MultiHilo

open SistemasDistribuidos Machine Pool

/-- `NUMBER_OF_THREADS`. -/
def numberOfThreads : Nat := 100

/-- Where a `talk_to_client` thread stands. -/
inductive ThreadPhase where
  /-- Before `*((int *)ptr)`. -/
  | created
  /-- Before `recv`. -/
  | receiving (clientSocket : Int)
  /-- Before `send`. -/
  | sending (clientSocket : Int)
  /-- After `pthread_exit`. -/
  | finished
  deriving DecidableEq

/-- A thread, with the slot that its pointer points to. -/
structure Thread where
  slot : Nat
  accepted : Int
  phase : ThreadPhase
  used : List (Option Nat)
  joined : Bool
  deriving DecidableEq

/-- At its `recv` or its `send`. -/
def Thread.talks (thread : Thread) : Bool :=
  match thread.phase with
  | .receiving _ => true
  | .sending _ => true
  | _ => false

/-- Where the main thread stands. -/
inductive MainPhase where
  /-- At the test of `current_thread`. -/
  | looping
  /-- In the first loop of the reset. -/
  | joining (i : Nat)
  /-- In the second loop of the reset. -/
  | closing (i : Nat)
  | accepting
  /-- Before `pthread_create`; what `accept` has returned. -/
  | creating (clientSocket : Int)
  deriving DecidableEq

structure Server where
  main : MainPhase
  currentThread : Nat
  fds : Nat → Int
  /-- The threads that `threads` names, in the order of their creation. -/
  threads : Nat → Nat
  pool : List Thread
  /-- The connection that an open descriptor stands for. -/
  descriptors : Int → Option Nat
  closed : List (Option Nat)
  /-- The process has ended with `exit`. -/
  exited : Bool

inductive Action where
  /-- The main thread goes on, except with `accept`. -/
  | main
  /-- `accept` returns. -/
  | accept (result : Int)
  /-- A thread goes on. -/
  | thread (index : Nat)
  /-- The `recv` or the `send` of a thread fails. -/
  | fail (index : Nat)
  /-- `sighandler`. -/
  | interrupt
  deriving DecidableEq

namespace Server

section Step

variable (server : Server)

/-- A thread goes on to another phase. -/
def move (index : Nat) (thread : Thread) (phase : ThreadPhase) : Server :=
  { server with
    pool := server.pool.set index { thread with phase := phase } }

/-- `pthread_join(threads[i], NULL)`, which returns when that thread is done. -/
def join (i : Nat) : Option Server :=
  match server.pool[server.threads i]? with
  | some thread =>
      if thread.phase = .finished then
        some
          { server with
            main := .joining (i + 1)
            pool :=
              server.pool.set (server.threads i)
                { thread with joined := true } }
      else
        none
  | none => none

/-- `close(fds[i])`, which fails for a descriptor that is not open. -/
def close (i : Nat) : Server :=
  match server.descriptors (server.fds i) with
  | some connection =>
      { server with
        main := .closing (i + 1)
        descriptors := Function.update server.descriptors (server.fds i) none
        closed := server.closed ++ [some connection] }
  | none =>
      { server with
        closed := server.closed ++ [none]
        exited := true }

def mainStep : Option Server :=
  match server.main with
  | .looping =>
      if numberOfThreads ≤ server.currentThread then
        some { server with main := .joining 0 }
      else
        some { server with main := .accepting }
  | .joining i =>
      if i < numberOfThreads then server.join i
      else some { server with main := .closing 0 }
  | .closing i =>
      if i < numberOfThreads then some (server.close i)
      else some { server with main := .accepting, currentThread := 0 }
  | .accepting => none
  | .creating clientSocket =>
      some
        { server with
          main := .looping
          threads :=
            Function.update server.threads server.currentThread
              server.pool.length
          pool :=
            server.pool ++
              [⟨server.currentThread, clientSocket, .created, [], false⟩]
          currentThread := server.currentThread + 1 }

/-- Lines 141 to 147. -/
def accept (result : Int) : Option Server :=
  if server.main = .accepting ∧ server.descriptors result = none then
    let stored :=
      { server with
        fds := Function.update server.fds server.currentThread result }
    if result < 0 then
      some { stored with exited := true }
    else
      some
        { stored with
          main := .creating result
          descriptors :=
            Function.update server.descriptors result
              (some server.pool.length) }
  else
    none

def threadStep (index : Nat) (thread : Thread) : Option Server :=
  match thread.phase with
  | .created =>
      some
        (server.move index thread (.receiving (server.fds thread.slot)))
  | .receiving clientSocket =>
      some
        (server.move index
          { thread with
            used := thread.used ++ [server.descriptors clientSocket] }
          (.sending clientSocket))
  | .sending clientSocket =>
      some
        (server.move index
          { thread with
            used := thread.used ++ [server.descriptors clientSocket] }
          .finished)
  | .finished => none

def step (action : Action) : Option Server :=
  if server.exited then
    none
  else
    match action with
    | .main => server.mainStep
    | .accept result => server.accept result
    | .thread index =>
        match server.pool[index]? with
        | some thread => server.threadStep index thread
        | none => none
    | .fail index =>
        match server.pool[index]? with
        | some thread =>
            if thread.talks then some { server with exited := true }
            else none
        | none => none
    | .interrupt => some { server with exited := true }

end Step

/-- The arrays are not initialised. -/
def initial (fds : Nat → Int) (threads : Nat → Nat) : Server where
  main := .looping
  currentThread := 0
  fds := fds
  threads := threads
  pool := []
  descriptors := fun _ => none
  closed := []
  exited := false

/-! ## What one step does -/

/-- What the main thread can do, except with `accept`. -/
inductive MainStep (server next : Server) : Prop where
  | full (here : server.main = .looping)
      (test : numberOfThreads ≤ server.currentThread)
      (moved : next = { server with main := .joining 0 })
  | room (here : server.main = .looping)
      (test : server.currentThread < numberOfThreads)
      (moved : next = { server with main := .accepting })
  | join (i : Nat) (thread : Thread) (here : server.main = .joining i)
      (inside : i < numberOfThreads)
      (named : server.pool[server.threads i]? = some thread)
      (isDone : thread.phase = .finished)
      (moved :
        next =
          { server with
            main := .joining (i + 1)
            pool :=
              server.pool.set (server.threads i)
                { thread with joined := true } })
  | joined (i : Nat) (here : server.main = .joining i)
      (all : numberOfThreads ≤ i)
      (moved : next = { server with main := .closing 0 })
  | close (i connection : Nat) (here : server.main = .closing i)
      (inside : i < numberOfThreads)
      (isOpen : server.descriptors (server.fds i) = some connection)
      (moved :
        next =
          { server with
            main := .closing (i + 1)
            descriptors :=
              Function.update server.descriptors (server.fds i) none
            closed := server.closed ++ [some connection] })
  | closeFails (i : Nat) (here : server.main = .closing i)
      (inside : i < numberOfThreads)
      (isClosed : server.descriptors (server.fds i) = none)
      (moved :
        next =
          { server with
            closed := server.closed ++ [none]
            exited := true })
  | reset (i : Nat) (here : server.main = .closing i)
      (all : numberOfThreads ≤ i)
      (moved :
        next = { server with main := .accepting, currentThread := 0 })
  | create (clientSocket : Int) (here : server.main = .creating clientSocket)
      (moved :
        next =
          { server with
            main := .looping
            threads :=
              Function.update server.threads server.currentThread
                server.pool.length
            pool :=
              server.pool ++
                [⟨server.currentThread, clientSocket, .created, [], false⟩]
            currentThread := server.currentThread + 1 })

/-- What `accept` can do. -/
inductive AcceptStep (server next : Server) (result : Int) : Prop where
  | accepted (here : server.main = .accepting)
      (isNew : server.descriptors result = none)
      (moved :
        next =
          { server with
            main := .creating result
            fds := Function.update server.fds server.currentThread result
            descriptors :=
              Function.update server.descriptors result
                (some server.pool.length) })
  | failed (here : server.main = .accepting)
      (moved :
        next =
          { server with
            fds := Function.update server.fds server.currentThread result
            exited := true })

/-- What a thread can do. -/
inductive ThreadStep (server next : Server) (index : Nat)
    (thread : Thread) : Prop where
  | read (here : thread.phase = .created)
      (moved :
        next =
          server.move index thread (.receiving (server.fds thread.slot)))
  | receive (clientSocket : Int) (here : thread.phase = .receiving clientSocket)
      (moved :
        next =
          server.move index
            { thread with
              used := thread.used ++ [server.descriptors clientSocket] }
            (.sending clientSocket))
  | send (clientSocket : Int) (here : thread.phase = .sending clientSocket)
      (moved :
        next =
          server.move index
            { thread with
              used := thread.used ++ [server.descriptors clientSocket] }
            .finished)

/-- What can happen. -/
inductive Step (server next : Server) : Prop where
  | main (taken : server.MainStep next)
  | accept (result : Int) (taken : server.AcceptStep next result)
  | thread (index : Nat) (thread : Thread)
      (here : server.pool[index]? = some thread)
      (taken : server.ThreadStep next index thread)
  | exit (moved : next = { server with exited := true })

section Inversion

variable {server next : Server}

theorem mainStep_cases (taken : server.mainStep = some next) :
    server.MainStep next := by
  rw [mainStep] at taken
  cases here : server.main with
  | looping =>
      simp only [here] at taken
      split at taken
      · rename_i test
        cases taken
        exact .full here test rfl
      · rename_i test
        cases taken
        exact .room here (not_le.mp test) rfl
  | joining i =>
      simp only [here] at taken
      split at taken
      · rename_i inside
        rw [join] at taken
        split at taken
        · rename_i thread named
          simp only [Option.ite_none_right_eq_some, Option.some.injEq]
            at taken
          exact .join i thread here inside named taken.1 taken.2.symm
        · cases taken
      · rename_i outside
        cases taken
        exact .joined i here (not_lt.mp outside) rfl
  | closing i =>
      simp only [here] at taken
      split at taken
      · rename_i inside
        cases taken
        rw [close]
        split
        · rename_i connection isOpen
          exact .close i connection here inside isOpen rfl
        · rename_i isClosed
          exact .closeFails i here inside isClosed rfl
      · rename_i outside
        cases taken
        exact .reset i here (not_lt.mp outside) rfl
  | accepting =>
      rw [here] at taken
      cases taken
  | creating clientSocket =>
      simp only [here, Option.some.injEq] at taken
      exact .create clientSocket here taken.symm

theorem accept_cases
    {result : Int} (taken : server.accept result = some next) :
    server.AcceptStep next result := by
  simp only [accept, Option.ite_none_right_eq_some] at taken
  obtain ⟨⟨here, isNew⟩, taken⟩ := taken
  split at taken
  · cases taken
    exact .failed here rfl
  · cases taken
    exact .accepted here isNew rfl

theorem threadStep_cases
    {index : Nat} {thread : Thread}
    (taken : server.threadStep index thread = some next) :
    server.ThreadStep next index thread := by
  rw [threadStep] at taken
  cases here : thread.phase with
  | created =>
      simp only [here, Option.some.injEq] at taken
      exact .read here taken.symm
  | receiving clientSocket =>
      simp only [here, Option.some.injEq] at taken
      exact .receive clientSocket here taken.symm
  | sending clientSocket =>
      simp only [here, Option.some.injEq] at taken
      exact .send clientSocket here taken.symm
  | finished =>
      rw [here] at taken
      cases taken

theorem step_cases
    {action : Action} (taken : server.step action = some next) :
    server.Step next := by
  simp only [step, Option.ite_none_left_eq_some] at taken
  obtain ⟨_, taken⟩ := taken
  cases action with
  | main => exact .main (mainStep_cases taken)
  | accept result => exact .accept result (accept_cases taken)
  | thread index =>
      simp only at taken
      split at taken
      · rename_i thread here
        exact .thread index thread here (threadStep_cases taken)
      · cases taken
  | fail index =>
      simp only at taken
      split at taken
      · simp only [Option.ite_none_right_eq_some, Option.some.injEq] at taken
        exact .exit taken.2.symm
      · cases taken
  | interrupt => exact .exit (Option.some.inj taken).symm

end Inversion

end Server

end SistemasDistribuidos.Practica1.MultiHilo
