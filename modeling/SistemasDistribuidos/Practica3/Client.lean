import SistemasDistribuidos.Library.Layout
import SistemasDistribuidos.Practica3.Draining

/-!
# The client programs

A client program starts some threads in one mode.  Each of them connects,
sends a `struct request`, waits for its `struct response` and prints a line.
The structs are sent as they lie in memory.  Here any number of such programs
run against the whole server; the steps of all threads interleave.

A connection is named by the place of its client thread.  `thread_info`
carries the socket from `accept` to the new `talk_2_client` thread, so the
connections are served by those threads in the order in which they were
accepted.  Every `recv` returns a whole struct.  A connection carries one
struct each way, so what has been sent on it is kept here when it has been
received.

`waited` is not in the code.  It records the `waiting_time` that `do_request`
has measured for the request of each client thread.
-/

namespace SistemasDistribuidos.Practica3

open SistemasDistribuidos Machine Pool Framing Layout

/-! ## The structs as bytes -/

/-- The values of `enum operations`. -/
def Operation.code : Operation → Int
  | .write => 0
  | .read => 1

def Operation.ofCode : Int → Option Operation
  | 0 => some .write
  | 1 => some .read
  | _ => none

/-- A `struct request` as it lies in memory. -/
abbrev StructRequest := Frame UInt8 8

namespace StructRequest

theorem action_inside : 0 + 4 ≤ 8 := by decide

def actionField : Field 8 4 := ⟨0, action_inside⟩

theorem id_inside : 4 + 4 ≤ 8 := by decide

def idField : Field 8 4 := ⟨4, id_inside⟩

/-- `talk_2_server` fills its local `request`. -/
def store (stack : StructRequest) (action : Operation) (threadId : Int) :
    StructRequest :=
  idField.write (actionField.write stack (ofSigned 4 action.code))
    (ofSigned 4 threadId)

/-- `request.action`, as `do_request` reads it. -/
def action (bytes : StructRequest) : Option Operation :=
  Operation.ofCode (signed (actionField.read bytes))

@[simp]
theorem action_store
    (stack : StructRequest) (operation : Operation) (threadId : Int) :
    action (store stack operation threadId) = some operation := by
  rw [action, store, Field.read_write_apart _ _ (by decide),
    Field.read_write]
  cases operation <;> rfl

end StructRequest

/-- A `struct response` as it lies in memory. -/
abbrev StructResponse := Frame UInt8 16

/-- What a client thread prints: `[Cliente #%d] %s, contador=%d,
tiempo=%ld ns`, with `Lector` for a reader. -/
structure Line where
  threadId : Int
  mode : Operation
  counter : Int
  waitingTime : Int
  deriving DecidableEq

namespace StructResponse

def actionField : Field 16 4 := ⟨0, by decide⟩

def counterField : Field 16 4 := ⟨4, by decide⟩

def waitingTimeField : Field 16 8 := ⟨8, by decide⟩

/-- `do_request` fills its local `response`. -/
def store (stack : StructResponse) (action : Operation)
    (counter : BitVec 32) (waitingTime : BitVec 64) : StructResponse :=
  waitingTimeField.write
    (counterField.write
      (actionField.write stack (ofSigned 4 action.code))
      (integer 4 counter))
    (integer 8 waitingTime)

/-- The end of `talk_2_server`. -/
def line (threadId : Int) (bytes : StructResponse) : Line where
  threadId := threadId
  mode :=
    if signed (actionField.read bytes) = Operation.read.code then .read
    else .write
  counter := signed (counterField.read bytes)
  waitingTime := signed (waitingTimeField.read bytes)

/-- A client thread prints what the server has filled in. -/
theorem line_store
    (threadId : Int) (stack : StructResponse) (action : Operation)
    (counter : BitVec 32) (waitingTime : BitVec 64) :
    line threadId (store stack action counter waitingTime) =
      ⟨threadId, action, counter.toInt, waitingTime.toInt⟩ := by
  have readAction :
      actionField.read (store stack action counter waitingTime) =
        ofSigned 4 action.code := by
    rw [store, Field.read_write_apart _ _ (by decide),
      Field.read_write_apart _ _ (by decide), Field.read_write]
  have readCounter :
      counterField.read (store stack action counter waitingTime) =
        integer 4 counter := by
    rw [store, Field.read_write_apart _ _ (by decide), Field.read_write]
  have readWaitingTime :
      waitingTimeField.read (store stack action counter waitingTime) =
        integer 8 waitingTime := by
    rw [store, Field.read_write]
  have read :
      (signed (ofSigned 4 action.code) = Operation.read.code) ↔
        action = .read := by
    cases action <;> decide
  have mode : (if action = .read then Operation.read else .write) = action := by
    cases action <;> rfl
  simp only [line, readAction, readCounter, readWaitingTime, read, mode]
  rw [signed_integer, signed_integer]

end StructResponse

/-! ## The threads of the client programs -/

/-- Where a `talk_2_server` thread stands. -/
inductive TalkPhase where
  | starting
  | connected
  /-- In `receive_response`. -/
  | sent
  | printed (line : Line)
  deriving DecidableEq

/-- A `talk_2_server` thread. -/
structure ClientThread where
  action : Operation
  threadId : Int
  phase : TalkPhase
  deriving DecidableEq

namespace ClientThread

/-- The threads that a client program creates. -/
def program (action : Operation) (threads : Nat) : List ClientThread :=
  (List.range threads).map (fun (id : Nat) => ⟨action, id, .starting⟩)

/-- `socket_connect` has returned. -/
def isConnected (thread : ClientThread) : Bool :=
  thread.phase ≠ .starting

end ClientThread

/-! ## Clients and server -/

structure Session where
  service : Service
  clients : List ClientThread
  /-- The client threads whose connections have been accepted. -/
  accepted : List Nat
  toServer : Nat → Option StructRequest
  toClient : Nat → Option StructResponse
  waited : Nat → BitVec 64

inductive SessionAction where
  /-- A client thread goes through `socket_connect`. -/
  | connect (place : Nat)
  /-- It sends its request. -/
  | send (place : Nat) (stack : StructRequest)
  /-- It receives its response and prints its line. -/
  | print (place : Nat)
  /-- `accept` takes the connection of a client thread. -/
  | accept (place : Nat) (clientSocket : Int)
  /-- The main thread of the server goes on. -/
  | main
  /-- `receive_request` returns in a `talk_2_client` thread. -/
  | receive (client : Nat)
  /-- It goes on in `do_request`. -/
  | request (client : Nat) (woken : Option Nat)
  /-- `send_response`. -/
  | respond (client : Nat) (stack : StructResponse)
      (waitingTime : BitVec 64)
  /-- It goes on after `send_response`. -/
  | finish (client : Nat)

/-- What `do_request` has returned to a `talk_2_client` thread. -/
def Service.response (service : Service) (client : Nat) :
    Option (Operation × BitVec 32) :=
  match service.talks[client]? with
  | some (.requesting request) =>
      match service.server.threads[request]? with
      | some ⟨action, _, .finished counter⟩ => some (action, counter)
      | _ => none
  | _ => none

namespace Session

/-- A client thread goes on to another phase. -/
def moveClient (session : Session) (place : Nat) (thread : ClientThread)
    (phase : TalkPhase) : Session :=
  { session with
    clients := session.clients.set place { thread with phase := phase } }

/-- The connection waits to be accepted. -/
def isPending (session : Session) (place : Nat) : Bool :=
  session.clients[place]?.any ClientThread.isConnected ∧
    place ∉ session.accepted

/-- The server goes on. -/
def serve (options : Options) (session : Session) (action : ServiceAction) :
    Option Session :=
  (session.service.step options action).map
    (fun service => { session with service := service })

def step (options : Options) (session : Session) :
    SessionAction → Option Session
  | .connect place =>
      match session.clients[place]? with
      | some thread =>
          if thread.phase = .starting then
            some (session.moveClient place thread .connected)
          else
            none
      | none => none
  | .send place stack =>
      match session.clients[place]? with
      | some thread =>
          if thread.phase = .connected then
            some
              { session.moveClient place thread .sent with
                toServer :=
                  Function.update session.toServer place
                    (some (.store stack thread.action thread.threadId)) }
          else
            none
      | none => none
  | .print place =>
      match session.clients[place]?, session.toClient place with
      | some thread, some bytes =>
          if thread.phase = .sent then
            some
              (session.moveClient place thread
                (.printed (StructResponse.line thread.threadId bytes)))
          else
            none
      | _, _ => none
  | .accept place clientSocket =>
      if session.isPending place then
        { session with
          accepted := session.accepted ++ [place] }.serve options
            (.accept clientSocket)
      else
        none
  | .main => session.serve options .main
  | .receive client =>
      match session.accepted[client]? with
      | some place =>
          match (session.toServer place).bind StructRequest.action with
          | some action => session.serve options (.receive client action)
          | none => none
      | none => none
  | .request client woken => session.serve options (.request client woken)
  | .respond client stack waitingTime =>
      match session.accepted[client]?, session.service.response client with
      | some place, some (action, counter) =>
          { session with
            toClient :=
              Function.update session.toClient place
                (some (.store stack action counter waitingTime))
            waited :=
              Function.update session.waited place
                waitingTime }.serve options (.respond client)
      | _, _ => none
  | .finish client => session.serve options (.finish client)

/-- The server has started, and so have the client programs. -/
def initial (counter : BitVec 32) (output : List Char)
    (programs : List (Operation × Nat)) : Session where
  service := Service.initial counter output
  clients :=
    programs.flatMap
      (fun program => ClientThread.program program.1 program.2)
  accepted := []
  toServer := fun _ => none
  toClient := fun _ => none
  waited := fun _ => 0

/-! ## What one step does -/

/-- What a client thread does. -/
inductive ClientMove (session next : Session) (place : Nat)
    (thread : ClientThread) : Prop where
  | connect (phase : thread.phase = .starting)
      (moved : next = session.moveClient place thread .connected)
  | send (stack : StructRequest) (phase : thread.phase = .connected)
      (moved :
        next =
          { session.moveClient place thread .sent with
            toServer :=
              Function.update session.toServer place
                (some (.store stack thread.action thread.threadId)) })
  | print (bytes : StructResponse) (phase : thread.phase = .sent)
      (received : session.toClient place = some bytes)
      (moved :
        next =
          session.moveClient place thread
            (.printed (StructResponse.line thread.threadId bytes)))

/-- The server goes on, and neither a connection nor a response is new. -/
def isQuiet : ServiceAction → Bool
  | .accept _ => false
  | .respond _ => false
  | _ => true

/-- A step is that of a client thread or one of the server, which may take a
connection, or send a response. -/
inductive Step (options : Options) (session next : Session)
    (action : SessionAction) : Prop where
  | client (place : Nat) (thread : ClientThread)
      (here : session.clients[place]? = some thread)
      (move : session.ClientMove next place thread)
  | accept (place : Nat) (clientSocket : Int)
      (same : action = .accept place clientSocket)
      (pending : session.isPending place = true)
      (service : Service)
      (served :
        session.service.step options (.accept clientSocket) = some service)
      (moved :
        next =
          { session with
            service := service
            accepted := session.accepted ++ [place] })
  | quiet (move : ServiceAction) (quiet : isQuiet move = true)
      (asked : ∀ client operation, move = .receive client operation →
        ∃ place bytes,
          session.accepted[client]? = some place ∧
            session.toServer place = some bytes ∧
            StructRequest.action bytes = some operation)
      (service : Service)
      (served : session.service.step options move = some service)
      (moved : next = { session with service := service })
  | respond (client place : Nat) (stack : StructResponse)
      (waitingTime : BitVec 64) (operation : Operation)
      (counter : BitVec 32)
      (here : session.accepted[client]? = some place)
      (response :
        session.service.response client = some (operation, counter))
      (service : Service)
      (served :
        session.service.step options (.respond client) = some service)
      (moved :
        next =
          { session with
            service := service
            toClient :=
              Function.update session.toClient place
                (some (.store stack operation counter waitingTime))
            waited :=
              Function.update session.waited place waitingTime })

section Inversion

variable {options : Options} {session next : Session}

theorem serve_eq_some
    {action : ServiceAction}
    (taken : session.serve options action = some next) :
    ∃ service,
      session.service.step options action = some service ∧
        next = { session with service := service } := by
  obtain ⟨service, served, moved⟩ := Option.map_eq_some_iff.mp taken
  exact ⟨service, served, moved.symm⟩

/-- The server makes a step that asks nothing of the connections. -/
theorem step_of_serve
    {action : SessionAction} {move : ServiceAction}
    (quiet : isQuiet move = true)
    (notReceive : ∀ client operation, move ≠ .receive client operation)
    (taken : session.serve options move = some next) :
    session.Step options next action := by
  obtain ⟨service, served, moved⟩ := serve_eq_some taken
  exact
    .quiet move quiet
      (fun client operation same =>
        absurd same (notReceive client operation))
      service served moved

theorem step_cases
    {action : SessionAction}
    (taken : session.step options action = some next) :
    session.Step options next action := by
  cases action with
  | connect place =>
      simp only [step] at taken
      split at taken
      · rename_i thread here
        simp only [Option.ite_none_right_eq_some, Option.some.injEq]
          at taken
        exact .client place thread here (.connect taken.1 taken.2.symm)
      · cases taken
  | send place stack =>
      simp only [step] at taken
      split at taken
      · rename_i thread here
        simp only [Option.ite_none_right_eq_some, Option.some.injEq]
          at taken
        exact .client place thread here (.send stack taken.1 taken.2.symm)
      · cases taken
  | print place =>
      simp only [step] at taken
      split at taken
      · rename_i thread bytes here received
        simp only [Option.ite_none_right_eq_some, Option.some.injEq]
          at taken
        exact
          .client place thread here
            (.print bytes taken.1 received taken.2.symm)
      · cases taken
  | accept place clientSocket =>
      simp only [step, Option.ite_none_right_eq_some] at taken
      obtain ⟨service, served, moved⟩ := serve_eq_some taken.2
      exact .accept place clientSocket rfl taken.1 service served moved
  | main =>
      exact step_of_serve rfl (fun _ _ => ServiceAction.noConfusion) taken
  | receive client =>
      simp only [step] at taken
      split at taken
      · rename_i place here
        split at taken
        · rename_i operation read
          obtain ⟨bytes, arrived, action⟩ := Option.bind_eq_some_iff.mp read
          obtain ⟨service, served, moved⟩ := serve_eq_some taken
          refine
            .quiet (.receive client operation) rfl ?_ service served moved
          intro other otherOperation same
          cases same
          exact ⟨place, bytes, here, arrived, action⟩
        · cases taken
      · cases taken
  | request client woken =>
      exact step_of_serve rfl (fun _ _ => ServiceAction.noConfusion) taken
  | respond client stack waitingTime =>
      simp only [step] at taken
      split at taken
      · rename_i place action counter here response
        obtain ⟨service, served, moved⟩ := serve_eq_some taken
        exact
          .respond client place stack waitingTime action counter here
            response service served moved
      · cases taken
  | finish client =>
      exact step_of_serve rfl (fun _ _ => ServiceAction.noConfusion) taken

/-- What has been returned is that of the thread's own request. -/
theorem response_eq_some
    {service : Service} {client : Nat} {action : Operation}
    {counter : BitVec 32}
    (response : service.response client = some (action, counter)) :
    ∃ request thread,
      service.talks[client]? = some (.requesting request) ∧
        service.server.threads[request]? = some thread ∧
        thread.action = action ∧ thread.phase = .finished counter := by
  simp only [Service.response] at response
  split at response
  · rename_i request here
    split at response
    · rename_i otherAction locked otherCounter there
      cases response
      exact ⟨request, _, here, there, rfl, rfl⟩
    · cases response
  · cases response

end Inversion

end Session

end SistemasDistribuidos.Practica3
