import Mathlib.Logic.Function.Basic
import SistemasDistribuidos.Library.Machine

/-!
# The ordered shutdown

P1 and P3 run `client_receive` and then `close_client`, P2 accepts both and
runs `server_receive`.  A step ends at a `connect`, an `accept`, a `send`, a
`recv` or a `close`; every socket carries whole messages in both directions,
in order and without loss.

A poll that finds nothing is always possible, as a message may still be on its
way.  After the other side has closed, and when all its messages have been
read, `recv` returns 0 and leaves the buffer as it is.

`source`, `log`, `read` and `sends` are not in the code.  They record from
where the buffer of P2 was filled, what is printed, and what P2 has received
and sent.
-/

namespace SistemasDistribuidos.Practica2

open SistemasDistribuidos

/-- `proc_name`. -/
inductive Name where
  | p1
  | p2
  | p3
  deriving DecidableEq, Repr

/-- The processes that connect to P2. -/
inductive Peer where
  | p1
  | p3
  deriving DecidableEq, Repr

namespace Peer

def name : Peer → Name
  | .p1 => .p1
  | .p3 => .p3

def other : Peer → Peer
  | .p1 => .p3
  | .p3 => .p1

end Peer

/-- `enum operations`. -/
inductive Operation where
  | readyToShutdown
  | shutdownNow
  | shutdownAck
  deriving DecidableEq, Repr

/-- `struct message`. -/
structure Message where
  origin : Name
  action : Operation
  clockLamport : Nat
  deriving DecidableEq, Repr

/-- `expected_lamport_p1`, `expected_lamport_p2` and `expected_lamport_p3`,
without the final -1. -/
def expectedLamport : Name → List Nat
  | .p1 => [3]
  | .p2 => [1, 5, 9]
  | .p3 => [7]

/-- A line that a process prints, with what was received and from where. -/
inductive Event where
  | send (process : Name) (clock : Nat) (action : Operation)
  | recv (process : Name) (clock : Nat) (source : Option Name)
      (message : Message)
  deriving DecidableEq, Repr

namespace Event

def process : Event → Name
  | .send process _ _ => process
  | .recv process _ _ _ => process

def clock : Event → Nat
  | .send _ clock _ => clock
  | .recv _ clock _ _ => clock

end Event

inductive ClientPlace where
  /-- In `socket_connect`. -/
  | connecting
  /-- Before `notify_ready_shutdown`. -/
  | starting
  /-- In the loop of `client_receive`. -/
  | receiving
  /-- Before `notify_shutdown_ack`. -/
  | received
  /-- Before the `close` of `close_client`. -/
  | acked
  | closed
  deriving DecidableEq, Repr

structure Client where
  place : ClientPlace
  lamport : Nat
  currentId : Nat
  message : Message

inductive ServerPlace where
  /-- In `socket_accept`. -/
  | acceptingFirst
  | acceptingSecond
  /-- Before the poll of `client_socket_1_`. -/
  | pollingFirst
  /-- Before the poll of `client_socket_2_`. -/
  | pollingSecond
  /-- At line 121. -/
  | matched
  /-- Before the first `send` of `notify_shutdown_now`. -/
  | notifyingFirst
  /-- Before the second one. -/
  | notifyingSecond
  /-- At line 134. -/
  | advancing
  /-- Before `close_server`. -/
  | finished
  | closed
  deriving DecidableEq, Repr

structure Server where
  place : ServerPlace
  lamport : Nat
  currentId : Nat
  message : Message
  source : Option Name

structure System where
  client : Peer → Client
  server : Server
  /-- What a client has sent and P2 has not received. -/
  toServer : Peer → List Message
  /-- What P2 has sent and a client has not received. -/
  toClient : Peer → List Message
  log : List Event
  /-- What P2 has received. -/
  read : List (Peer × Message)
  /-- What P2 has sent. -/
  sends : List (Peer × Message)

inductive Action where
  | client (peer : Peer)
  /-- `ready` is what `do_receive_in_socket` returns, if P2 polls. -/
  | server (ready : Bool)
  deriving DecidableEq, Repr

/-- Lines 63 to 66 and 123 to 126. -/
def receiveClock (lamport clock : Nat) : Nat :=
  if lamport < clock then clock + 1 else lamport

namespace System

section Step

variable (system : System)

/-! ## The clients -/

/-- `notify_ready_shutdown` and `notify_shutdown_ack`. -/
def notify (peer : Peer) (client : Client) (action : Operation)
    (place : ClientPlace) : System :=
  let lamport := client.lamport + 1
  { system with
    client :=
      Function.update system.client peer
        { client with place := place, lamport := lamport }
    toServer :=
      Function.update system.toServer peer
        (system.toServer peer ++ [⟨peer.name, action, lamport⟩])
    log := system.log ++ [.send peer.name lamport action] }

/-- Lines 61 to 76, with a message in the buffer. -/
def test (peer : Peer) (client : Client) : System :=
  let expected := expectedLamport peer.name
  let clock := client.message.clockLamport
  if expected[client.currentId]? = some clock then
    let lamport := receiveClock client.lamport clock
    { system with
      client :=
        Function.update system.client peer
          { client with
            place :=
              if expected[client.currentId + 1]? = none then .received
              else .receiving
            lamport := lamport
            currentId := client.currentId + 1 }
      log :=
        system.log ++ [.recv peer.name lamport (some .p2) client.message] }
  else
    { system with client := Function.update system.client peer client }

/-- The next step of a client. -/
def clientStep (peer : Peer) : Option System :=
  let client := system.client peer
  match client.place with
  | .connecting =>
      some
        { system with
          client :=
            Function.update system.client peer
              { client with place := .starting } }
  | .starting =>
      some (system.notify peer client .readyToShutdown .receiving)
  | .receiving =>
      match system.toClient peer with
      | message :: rest =>
          let received : System :=
            { system with
              toClient := Function.update system.toClient peer rest }
          some (received.test peer { client with message := message })
      | [] =>
          if system.server.place = .closed then
            some (system.test peer client)
          else
            none
  | .received => some (system.notify peer client .shutdownAck .acked)
  | .acked =>
      some
        { system with
          client :=
            Function.update system.client peer
              { client with place := .closed } }
  | .closed => none

/-! ## The server -/

/-- `recv`, when a message has come. -/
def recv (peer : Peer) (message : Message) (rest : List Message) : System :=
  { system with
    server :=
      { system.server with message := message, source := some peer.name }
    toServer := Function.update system.toServer peer rest
    read := system.read ++ [(peer, message)] }

/-- `do_receive_in_socket`, when it returns `ready`. -/
def receiveInSocket (peer : Peer) (ready : Bool) : Option System :=
  if ready then
    match system.toServer peer with
    | message :: rest => some (system.recv peer message rest)
    | [] =>
        if (system.client peer).place = .closed then some system else none
  else
    some system

def setPlace (place : ServerPlace) : System :=
  { system with server := { system.server with place := place } }

/-- The message in the buffer of P2 is the one it waits for. -/
def expects : Bool :=
  (expectedLamport .p2)[system.server.currentId]? =
    some system.server.message.clockLamport

/-- One `send` of `notify_shutdown_now`. -/
def sendTo (peer : Peer) (message : Message) : System :=
  { system with
    toClient :=
      if (system.client peer).place = .closed then system.toClient
      else
        Function.update system.toClient peer
          (system.toClient peer ++ [message])
    sends := system.sends ++ [(peer, message)] }

/-- The next step of P2; `first` is the client that it accepts first. -/
def serverStep (first : Peer) (ready : Bool) : Option System :=
  let server := system.server
  match server.place with
  | .acceptingFirst =>
      if (system.client first).place = .connecting then none
      else some (system.setPlace .acceptingSecond)
  | .acceptingSecond =>
      if (system.client first.other).place = .connecting then none
      else some (system.setPlace .pollingFirst)
  | .pollingFirst =>
      (system.receiveInSocket first ready).map fun polled =>
        polled.setPlace
          (if ready ∧ polled.expects then .matched else .pollingSecond)
  | .pollingSecond =>
      (system.receiveInSocket first.other ready).map fun polled =>
        polled.setPlace (if polled.expects then .matched else .pollingFirst)
  | .matched =>
      let clock := server.message.clockLamport
      let lamport := receiveClock server.lamport clock
      some
        { system with
          server :=
            { server with
              lamport := lamport
              place :=
                if clock = 1 ∨ clock = 5 then .notifyingFirst
                else .advancing }
          log :=
            system.log ++ [.recv .p2 lamport server.source server.message] }
  | .notifyingFirst =>
      let lamport := server.lamport + 1
      let notifying : System :=
        { system with
          server :=
            { server with lamport := lamport, place := .notifyingSecond } }
      some (notifying.sendTo first ⟨.p2, .shutdownNow, lamport⟩)
  | .notifyingSecond =>
      let notified : System :=
        { system with
          server := { server with place := .advancing }
          log := system.log ++ [.send .p2 server.lamport .shutdownNow] }
      some
        (notified.sendTo first.other
          ⟨.p2, .shutdownNow, server.lamport⟩)
  | .advancing =>
      if (expectedLamport .p2)[server.currentId + 1]? = none then
        some
          { system with
            server :=
              { server with
                place := .finished
                currentId := server.currentId + 1 } }
      else
        some
          { system with
            server :=
              { server with
                place := .pollingFirst
                currentId := server.currentId + 1
                message := { server.message with clockLamport := 0 } } }
  | .finished => some (system.setPlace .closed)
  | .closed => none

/-- What a process has printed. -/
def printed (process : Name) : List Event :=
  system.log.filter (fun event => event.process = process)

end Step

def step (first : Peer) (system : System) : Action → Option System
  | .client peer => system.clientStep peer
  | .server ready => system.serverStep first ready

/-- P2 listens, and the clients have not connected.  The buffers hold
anything. -/
def initial (garbage : Name → Message) : System where
  client peer := ⟨.connecting, 0, 0, garbage peer.name⟩
  server := ⟨.acceptingFirst, 0, 0, garbage .p2, none⟩
  toServer := fun _ => []
  toClient := fun _ => []
  log := []
  read := []
  sends := []

/-- Buffers of zeros. -/
def emptyBuffers : Name → Message :=
  fun _ => ⟨.p1, .readyToShutdown, 0⟩

/-! ## What a step leaves alone -/

theorem test_keeps (system : System) (peer : Peer) (client : Client) :
    (system.test peer client).server = system.server ∧
      (system.test peer client).sends = system.sends := by
  rw [test]
  split
  · exact ⟨rfl, rfl⟩
  · exact ⟨rfl, rfl⟩

/-- A client does nothing to P2 but send to it. -/
theorem clientStep_keeps
    {system next : System} {peer : Peer}
    (taken : system.clientStep peer = some next) :
    next.server = system.server ∧ next.sends = system.sends := by
  cases place : (system.client peer).place <;>
    simp only [clientStep, place] at taken
  case receiving =>
    split at taken
    · cases taken
      exact test_keeps _ _ _
    · simp only [Option.ite_none_right_eq_some, Option.some.injEq] at taken
      obtain ⟨_, rfl⟩ := taken
      exact test_keeps _ _ _
  case closed => cases taken
  all_goals
    cases taken
    exact ⟨rfl, rfl⟩

/-! ## What a poll does -/

/-- A poll finds nothing, or the end of a socket, or a message. -/
theorem receiveInSocket_cases
    {system next : System} {peer : Peer} {ready : Bool}
    (taken : system.receiveInSocket peer ready = some next) :
    next = system ∨
      ∃ message rest,
        ready = true ∧ system.toServer peer = message :: rest ∧
          next = system.recv peer message rest := by
  cases ready with
  | false =>
      cases taken
      exact Or.inl rfl
  | true =>
      cases queue : system.toServer peer with
      | nil =>
          simp only [receiveInSocket, queue, if_true,
            Option.ite_none_right_eq_some, Option.some.injEq] at taken
          exact Or.inl taken.2.symm
      | cons message rest =>
          simp only [receiveInSocket, queue, if_true,
            Option.some.injEq] at taken
          exact Or.inr ⟨message, rest, rfl, rfl, taken.symm⟩

end System

end SistemasDistribuidos.Practica2
