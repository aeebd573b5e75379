import SistemasDistribuidos.Library.Machine
import SistemasDistribuidos.Library.Pool
import SistemasDistribuidos.Library.SlotArray

/-!
# The accept loop

The main loop of the readers/writers server, with the table `client_sockets`
and a `talk_2_client` thread for each accepted client.  The main thread keeps
`free_fd_mutex` from the test of `get_free_fd` to the start of its wait, or to
the end of its search.  A client that finishes releases its slot under
`free_fd_mutex`, and then counts itself out and signals `not_full` under
`current_threads_mutex`.  Accesses to `client_sockets` under `free_fd_mutex`
that need no further lock are one step.

`closed` is not in the code.  It records what a client has passed to `close`.
-/

namespace SistemasDistribuidos.Practica3

open SistemasDistribuidos Machine Pool SlotArray

/-- `MAX_THREADS`. -/
def maxThreads : Nat := 250

/-- Where a `talk_2_client` thread stands. -/
inductive ClientPhase where
  /-- Before `close`: the request, `do_request` and the response. -/
  | serving
  /-- Before `set_value_fd (id, 0)`. -/
  | closed
  /-- Before `set_current_threads(-1)`. -/
  | released
  /-- With `current_threads_mutex`, before the signal. -/
  | decremented
  /-- With `current_threads_mutex`, after the signal. -/
  | signalled
  /-- After `set_current_threads(-1)`. -/
  | finished
  deriving DecidableEq

/-- A `talk_2_client` thread, with its `values`. -/
structure Client where
  id : Nat
  clientSocket : Int
  phase : ClientPhase
  closed : List Int
  deriving DecidableEq

namespace ClientPhase

/-- The slot is the thread's. -/
def holdsSlot : ClientPhase → Bool
  | .serving => true
  | .closed => true
  | _ => false

/-- Not counted out of `current_threads` yet. -/
def isCounted : ClientPhase → Bool
  | .serving => true
  | .closed => true
  | .released => true
  | _ => false

/-- The signal is still to come. -/
def signals : ClientPhase → Bool
  | .serving => true
  | .closed => true
  | .released => true
  | .decremented => true
  | _ => false

/-- With `current_threads_mutex`. -/
def holdsThreads : ClientPhase → Bool
  | .decremented => true
  | .signalled => true
  | _ => false

end ClientPhase

/-- Where the main thread stands. -/
inductive MainPhase where
  | accepting
  /-- In `get_free_fd`, before the lock. -/
  | locking (clientSocket : Int)
  /-- With `free_fd_mutex`, before the test of `current_threads`. -/
  | testing (clientSocket : Int)
  /-- With `free_fd_mutex`, before the wait. -/
  | starting (clientSocket : Int)
  /-- In `pthread_cond_wait`. -/
  | waiting (clientSocket : Int)
  /-- Signalled, and without `free_fd_mutex`. -/
  | woken (clientSocket : Int)
  /-- With `free_fd_mutex`, before the search. -/
  | searching (clientSocket : Int)
  /-- With `free_fd_mutex`; `get_free_fd` is about to return `id`. -/
  | returning (clientSocket : Int) (id : Nat)
  /-- Before `set_value_fd (id, client_socket_)`. -/
  | storing (clientSocket : Int) (id : Nat)
  /-- Before `pthread_create`. -/
  | creating (clientSocket : Int) (id : Nat)
  /-- Before `set_current_threads(1)`. -/
  | counting
  deriving DecidableEq

namespace MainPhase

/-- With `free_fd_mutex`. -/
def holdsFree : MainPhase → Bool
  | .testing _ => true
  | .starting _ => true
  | .searching _ => true
  | .returning _ _ => true
  | _ => false

/-- The slot that `get_free_fd` has chosen, until the thread is there. -/
def slot : MainPhase → Option Nat
  | .returning _ id => some id
  | .storing _ id => some id
  | .creating _ id => some id
  | _ => none

end MainPhase

structure Acceptor where
  main : MainPhase
  clients : List Client
  clientSockets : Nat → Int
  currentThreads : Int
  /-- Only the main thread keeps it between two steps. -/
  freeFdMutex : Bool
  currentThreadsMutex : Option Nat

inductive AcceptorAction where
  /-- `accept` returns. -/
  | accept (clientSocket : Int)
  /-- The main thread goes on. -/
  | main
  /-- A client goes on. -/
  | client (index : Nat)
  deriving DecidableEq

namespace Acceptor

/-- `set_value_fd`. -/
def setValueFd (acceptor : Acceptor) (id : Nat) (value : Int) :
    Option Acceptor :=
  if acceptor.freeFdMutex = false then
    some
      { acceptor with
        clientSockets := Function.update acceptor.clientSockets id value }
  else
    none

/-- The search of `get_free_fd`, lines 99 to 107. -/
def freeFd (acceptor : Acceptor) : Nat :=
  search (fun id => acceptor.clientSockets id = 0) maxThreads

/-- A client goes on to another phase. -/
def move (acceptor : Acceptor) (index : Nat) (client : Client)
    (phase : ClientPhase) : Acceptor :=
  { acceptor with
    clients := acceptor.clients.set index { client with phase := phase } }

/-- `pthread_cond_signal(&not_full)`. -/
def signal (acceptor : Acceptor) : Acceptor :=
  match acceptor.main with
  | .waiting clientSocket =>
      { acceptor with main := .woken clientSocket }
  | _ => acceptor

def mainStep (acceptor : Acceptor) : Option Acceptor :=
  match acceptor.main with
  | .accepting => none
  | .locking clientSocket =>
      if acceptor.freeFdMutex = false then
        some
          { acceptor with
            main := .testing clientSocket
            freeFdMutex := true }
      else
        none
  | .testing clientSocket =>
      if (maxThreads : Int) ≤ acceptor.currentThreads then
        some { acceptor with main := .starting clientSocket }
      else
        some { acceptor with main := .searching clientSocket }
  | .starting clientSocket =>
      some
        { acceptor with
          main := .waiting clientSocket
          freeFdMutex := false }
  | .waiting _ => none
  | .woken clientSocket =>
      if acceptor.freeFdMutex = false then
        some
          { acceptor with
            main := .searching clientSocket
            freeFdMutex := true }
      else
        none
  | .searching clientSocket =>
      some
        { acceptor with
          main := .returning clientSocket acceptor.freeFd
          clientSockets :=
            if acceptor.freeFd < maxThreads then
              Function.update acceptor.clientSockets acceptor.freeFd 1
            else
              acceptor.clientSockets }
  | .returning clientSocket id =>
      some
        { acceptor with
          main := .storing clientSocket id
          freeFdMutex := false }
  | .storing clientSocket id =>
      { acceptor with main := .creating clientSocket id }.setValueFd id
        clientSocket
  | .creating clientSocket id =>
      some
        { acceptor with
          main := .counting
          clients :=
            acceptor.clients ++ [⟨id, clientSocket, .serving, []⟩] }
  | .counting =>
      if acceptor.currentThreadsMutex = none then
        some
          { acceptor with
            main := .accepting
            currentThreads := acceptor.currentThreads + 1 }
      else
        none

def clientStep (acceptor : Acceptor) (index : Nat) (client : Client) :
    Option Acceptor :=
  match client.phase with
  | .serving =>
      some
        (acceptor.move index
          { client with
            closed :=
              client.closed ++ [acceptor.clientSockets client.id] }
          .closed)
  | .closed =>
      (acceptor.move index client .released).setValueFd client.id 0
  | .released =>
      if acceptor.currentThreadsMutex = none then
        some
          { acceptor.move index client .decremented with
            currentThreads := acceptor.currentThreads + -1
            currentThreadsMutex := some index }
      else
        none
  | .decremented => some (acceptor.move index client .signalled).signal
  | .signalled =>
      some
        { acceptor.move index client .finished with
          currentThreadsMutex := none }
  | .finished => none

/-- A negative result of `accept` ends the server. -/
def step (acceptor : Acceptor) : AcceptorAction → Option Acceptor
  | .accept clientSocket =>
      if acceptor.main = .accepting ∧ 0 ≤ clientSocket then
        some { acceptor with main := .locking clientSocket }
      else
        none
  | .main => acceptor.mainStep
  | .client index =>
      match acceptor.clients[index]? with
      | some client => acceptor.clientStep index client
      | none => none

def initial : Acceptor where
  main := .accepting
  clients := []
  clientSockets := fun _ => 0
  currentThreads := 0
  freeFdMutex := false
  currentThreadsMutex := none

/-! ## What one step does -/

/-- What the main thread can do. -/
inductive MainStep (acceptor next : Acceptor) : Prop where
  | lock (fd : Int) (here : acceptor.main = .locking fd)
      (moved :
        next = { acceptor with main := .testing fd, freeFdMutex := true })
  | full (fd : Int) (here : acceptor.main = .testing fd)
      (test : (maxThreads : Int) ≤ acceptor.currentThreads)
      (moved : next = { acceptor with main := .starting fd })
  | room (fd : Int) (here : acceptor.main = .testing fd)
      (test : acceptor.currentThreads < maxThreads)
      (moved : next = { acceptor with main := .searching fd })
  | wait (fd : Int) (here : acceptor.main = .starting fd)
      (moved :
        next = { acceptor with main := .waiting fd, freeFdMutex := false })
  | relock (fd : Int) (here : acceptor.main = .woken fd)
      (moved :
        next = { acceptor with main := .searching fd, freeFdMutex := true })
  | found (fd : Int) (here : acceptor.main = .searching fd)
      (inside : acceptor.freeFd < maxThreads)
      (moved :
        next =
          { acceptor with
            main := .returning fd acceptor.freeFd
            clientSockets :=
              Function.update acceptor.clientSockets acceptor.freeFd 1 })
  | failed (fd : Int) (here : acceptor.main = .searching fd)
      (outside : maxThreads ≤ acceptor.freeFd)
      (moved :
        next = { acceptor with main := .returning fd acceptor.freeFd })
  | leave (fd : Int) (id : Nat) (here : acceptor.main = .returning fd id)
      (moved :
        next = { acceptor with main := .storing fd id, freeFdMutex := false })
  | store (fd : Int) (id : Nat) (here : acceptor.main = .storing fd id)
      (moved :
        next =
          { acceptor with
            main := .creating fd id
            clientSockets := Function.update acceptor.clientSockets id fd })
  | create (fd : Int) (id : Nat) (here : acceptor.main = .creating fd id)
      (moved :
        next =
          { acceptor with
            main := .counting
            clients := acceptor.clients ++ [⟨id, fd, .serving, []⟩] })
  | count (here : acceptor.main = .counting)
      (free : acceptor.currentThreadsMutex = none)
      (moved :
        next =
          { acceptor with
            main := .accepting
            currentThreads := acceptor.currentThreads + 1 })

/-- What a client can do. -/
inductive ClientStep (acceptor next : Acceptor) (index : Nat)
    (client : Client) : Prop where
  | close (here : client.phase = .serving)
      (moved :
        next =
          acceptor.move index
            { client with
              closed :=
                client.closed ++ [acceptor.clientSockets client.id] }
            .closed)
  | release (here : client.phase = .closed)
      (free : acceptor.freeFdMutex = false)
      (moved :
        next =
          { acceptor.move index client .released with
            clientSockets :=
              Function.update acceptor.clientSockets client.id 0 })
  | decrement (here : client.phase = .released)
      (free : acceptor.currentThreadsMutex = none)
      (moved :
        next =
          { acceptor.move index client .decremented with
            currentThreads := acceptor.currentThreads + -1
            currentThreadsMutex := some index })
  | signal (fd : Int) (here : client.phase = .decremented)
      (waits : acceptor.main = .waiting fd)
      (moved :
        next =
          { acceptor.move index client .signalled with main := .woken fd })
  | lose (here : client.phase = .decremented)
      (awake : ∀ fd, acceptor.main ≠ .waiting fd)
      (moved : next = acceptor.move index client .signalled)
  | unlock (here : client.phase = .signalled)
      (moved :
        next =
          { acceptor.move index client .finished with
            currentThreadsMutex := none })

section Inversion

variable {acceptor next : Acceptor}

theorem mainStep_cases (taken : acceptor.mainStep = some next) :
    acceptor.MainStep next := by
  rw [mainStep] at taken
  cases here : acceptor.main with
  | accepting =>
      rw [here] at taken
      cases taken
  | locking fd =>
      simp only [here, Option.ite_none_right_eq_some, Option.some.injEq]
        at taken
      exact .lock fd here taken.2.symm
  | testing fd =>
      simp only [here] at taken
      split at taken
      · rename_i test
        cases taken
        exact .full fd here test rfl
      · rename_i test
        cases taken
        exact .room fd here (not_le.mp test) rfl
  | starting fd =>
      simp only [here, Option.some.injEq] at taken
      exact .wait fd here taken.symm
  | waiting fd =>
      rw [here] at taken
      cases taken
  | woken fd =>
      simp only [here, Option.ite_none_right_eq_some, Option.some.injEq]
        at taken
      exact .relock fd here taken.2.symm
  | searching fd =>
      simp only [here, Option.some.injEq] at taken
      by_cases inside : acceptor.freeFd < maxThreads
      · rw [if_pos inside] at taken
        exact .found fd here inside taken.symm
      · rw [if_neg inside] at taken
        exact .failed fd here (not_lt.mp inside) taken.symm
  | returning fd id =>
      simp only [here, Option.some.injEq] at taken
      exact .leave fd id here taken.symm
  | storing fd id =>
      simp only [here, setValueFd, Option.ite_none_right_eq_some,
        Option.some.injEq] at taken
      exact .store fd id here taken.2.symm
  | creating fd id =>
      simp only [here, Option.some.injEq] at taken
      exact .create fd id here taken.symm
  | counting =>
      simp only [here, Option.ite_none_right_eq_some, Option.some.injEq]
        at taken
      exact .count here taken.1 taken.2.symm

theorem clientStep_cases
    {index : Nat} {client : Client}
    (taken : acceptor.clientStep index client = some next) :
    acceptor.ClientStep next index client := by
  rw [clientStep] at taken
  cases here : client.phase with
  | serving =>
      simp only [here, Option.some.injEq] at taken
      exact .close here taken.symm
  | closed =>
      simp only [here, setValueFd, Option.ite_none_right_eq_some,
        Option.some.injEq] at taken
      exact .release here taken.1 taken.2.symm
  | released =>
      simp only [here, Option.ite_none_right_eq_some, Option.some.injEq]
        at taken
      exact .decrement here taken.1 taken.2.symm
  | decremented =>
      simp only [here, Option.some.injEq] at taken
      rw [signal] at taken
      split at taken
      · rename_i fd waits
        exact .signal fd here waits taken.symm
      · rename_i awake
        exact .lose here awake taken.symm
  | signalled =>
      simp only [here, Option.some.injEq] at taken
      exact .unlock here taken.symm
  | finished =>
      rw [here] at taken
      cases taken

theorem step_accept
    {fd : Int} (taken : acceptor.step (.accept fd) = some next) :
    acceptor.main = .accepting ∧ next = { acceptor with main := .locking fd } := by
  simp only [step, Option.ite_none_right_eq_some, Option.some.injEq] at taken
  exact ⟨taken.1.1, taken.2.symm⟩

theorem step_client
    {index : Nat} (taken : acceptor.step (.client index) = some next) :
    ∃ client,
      acceptor.clients[index]? = some client ∧
        acceptor.clientStep index client = some next := by
  simp only [step] at taken
  split at taken
  · rename_i client here
    exact ⟨client, here, taken⟩
  · cases taken

end Inversion

end Acceptor

end SistemasDistribuidos.Practica3
