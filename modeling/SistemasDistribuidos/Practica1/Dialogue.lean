import SistemasDistribuidos.Library.CString
import SistemasDistribuidos.Library.TextFile
import SistemasDistribuidos.Practica1.Batches

/-!
# The clients of the multithreaded server

Each client connects, sends a greeting with its number and prints what it is
answered; the thread of its connection prints the greeting and answers.  Any
number of clients run against the server, and the steps of all threads
interleave.  A connection is named by the place of its client; the server
numbers the connections in the order in which it accepts them, and finds them
through its descriptors.

Every `send` is received by one `recv`, and neither fails.  A connection
carries one message each way, so what has been sent on it is kept here when it
has been received.  The block that a client allocates for its greeting is one
byte short for the NUL; that the byte behind it can be written is assumed.

`screen` records what the server has printed, and for which client.
-/

namespace SistemasDistribuidos.Practica1.MultiHilo

open SistemasDistribuidos Machine Pool TextFile

/-! ## The messages -/

/-- `BUFFER_SIZE`. -/
def bufferSize : Nat := 1024

def bytesOf (chars : List Char) : List UInt8 :=
  chars.map (fun char => UInt8.ofNat char.toNat)

/-- `Hello server! From client: %d`. -/
def greeting (clientId : BitVec 32) : List UInt8 :=
  bytesOf ("Hello server! From client: ".toList ++ text clientId.toInt)

/-- `Hello client!`. -/
def answer : List UInt8 :=
  bytesOf "Hello client!".toList

/-- What is sent of a string: `strlen` bytes and one more. -/
def message (text : List UInt8) : List UInt8 :=
  text ++ [0]

/-- What is printed of a buffer after a `recv`. -/
def shown (buffer bytes : List UInt8) : List UInt8 :=
  CString.ofBuffer
    (bytes.take bufferSize ++ buffer.drop (bytes.take bufferSize).length)

/-- A string that fits is printed as it was sent. -/
theorem shown_message
    {text : List UInt8} (noNul : 0 ∉ text) (fits : text.length < bufferSize)
    (buffer : List UInt8) : shown buffer (message text) = text := by
  have whole : (message text).take bufferSize = message text := by
    apply List.take_of_length_le
    rw [message, List.length_append]
    exact fits
  rw [shown, whole, message, List.append_assoc, CString.ofBuffer_append noNul,
    List.singleton_append, CString.ofBuffer_zero, List.append_nil]

theorem noNul_bytesOf
    {chars : List Char}
    (ascii : ∀ char ∈ chars, 0 < char.toNat ∧ char.toNat < 256) :
    0 ∉ bytesOf chars := by
  intro listed
  obtain ⟨char, inChars, isNul⟩ := List.mem_map.mp listed
  obtain ⟨positive, small⟩ := ascii char inChars
  have value := congrArg UInt8.toNat isNul
  rw [UInt8.toNat_ofNat', Nat.mod_eq_of_lt small] at value
  exact absurd value (Nat.ne_of_gt positive)

theorem ascii_text (value : Int) :
    ∀ char ∈ text value, 0 < char.toNat ∧ char.toNat < 256 := by
  have digits : ∀ number : Nat, ∀ char ∈ Nat.toDigits 10 number,
      0 < char.toNat ∧ char.toNat < 256 := by
    intro number char listed
    have digit : char.isDigit = true :=
      Nat.isDigit_of_mem_toDigits (by decide) (by decide) listed
    simp only [Char.isDigit, Bool.and_eq_true, decide_eq_true_eq] at digit
    have least : 48 ≤ char.toNat := digit.1
    have most : char.toNat ≤ 57 := digit.2
    omega
  intro char listed
  rw [text] at listed
  split at listed
  · rcases List.mem_cons.mp listed with rfl | later
    · decide
    · exact digits _ char later
  · exact digits _ char listed

theorem shown_greeting (buffer : List UInt8) (clientId : BitVec 32) :
    shown buffer (message (greeting clientId)) = greeting clientId := by
  have ascii :
      "Hello server! From client: ".toList.all
          (fun char => decide (0 < char.toNat ∧ char.toNat < 256)) =
        true := by
    decide
  apply shown_message
  · apply noNul_bytesOf
    intro char listed
    rcases List.mem_append.mp listed with fixed | number
    · exact of_decide_eq_true (List.all_eq_true.mp ascii char fixed)
    · exact ascii_text _ char number
  · have small : clientId.toInt.natAbs < 10 ^ 10 := by
      have low := clientId.le_toInt
      have high := clientId.toInt_lt
      omega
    have short := length_text_le (by decide) small
    have fixed : "Hello server! From client: ".toList.length = 27 := rfl
    rw [greeting, bytesOf, List.length_map, List.length_append, fixed,
      bufferSize]
    omega

theorem shown_answer (buffer : List UInt8) :
    shown buffer (message answer) = answer :=
  shown_message (by decide) (by decide) buffer

/-! ## The clients -/

/-- Where a client stands. -/
inductive ClientPhase where
  /-- In the loop around `connect`. -/
  | starting
  | connected
  /-- In `receive_message`. -/
  | sent
  /-- It has printed this, and has ended. -/
  | done (line : List UInt8)
  deriving DecidableEq

structure Client where
  clientId : BitVec 32
  phase : ClientPhase
  deriving DecidableEq

namespace Client

def isConnected (client : Client) : Bool :=
  client.phase ≠ .starting

def hasSent (client : Client) : Bool :=
  match client.phase with
  | .sent => true
  | .done _ => true
  | _ => false

theorem isConnected_of_hasSent {client : Client}
    (sent : client.hasSent = true) : client.isConnected = true := by
  obtain ⟨clientId, phase⟩ := client
  cases phase with
  | starting => cases sent
  | _ => rfl

end Client

/-! ## Clients and server -/

structure Dialogue where
  server : Server
  clients : List Client
  /-- The client of each connection that has been accepted. -/
  accepted : List Nat
  toServer : Nat → Option (List UInt8)
  toClient : Nat → Option (List UInt8)
  screen : List (Nat × List UInt8)

inductive DialogueAction where
  /-- A client leaves its loop around `connect`. -/
  | connect (place : Nat)
  | send (place : Nat)
  /-- A client receives and prints; `buffer` is its `in_buffer`. -/
  | receive (place : Nat) (buffer : List UInt8)
  /-- `accept` takes the connection of a client. -/
  | accept (place : Nat) (result : Int)
  | main
  /-- A thread goes on; `buffer` is its `in_buffer`. -/
  | thread (index : Nat) (buffer : List UInt8)

namespace Dialogue

/-- A client goes on to another phase. -/
def moveClient (dialogue : Dialogue) (place : Nat) (client : Client)
    (phase : ClientPhase) : Dialogue :=
  { dialogue with
    clients := dialogue.clients.set place { client with phase := phase } }

def isPending (dialogue : Dialogue) (place : Nat) : Bool :=
  dialogue.clients[place]?.any Client.isConnected &&
    !dialogue.accepted.contains place

/-- The client at the other end of a socket. -/
def peer (dialogue : Dialogue) (clientSocket : Int) : Option Nat :=
  (dialogue.server.descriptors clientSocket).bind
    (fun connection => dialogue.accepted[connection]?)

/-- The server goes on. -/
def serve (dialogue : Dialogue) (action : Action) : Option Dialogue :=
  (dialogue.server.step action).map
    (fun server => { dialogue with server := server })

def step (dialogue : Dialogue) : DialogueAction → Option Dialogue
  | .connect place =>
      match dialogue.clients[place]? with
      | some client =>
          if client.phase = .starting then
            some (dialogue.moveClient place client .connected)
          else
            none
      | none => none
  | .send place =>
      match dialogue.clients[place]? with
      | some client =>
          if client.phase = .connected then
            some
              { dialogue.moveClient place client .sent with
                toServer :=
                  Function.update dialogue.toServer place
                    (some (message (greeting client.clientId))) }
          else
            none
      | none => none
  | .receive place buffer =>
      match dialogue.clients[place]?, dialogue.toClient place with
      | some client, some bytes =>
          if client.phase = .sent then
            some
              (dialogue.moveClient place client
                (.done (shown (0 :: buffer.tail) bytes)))
          else
            none
      | _, _ => none
  | .accept place result =>
      if dialogue.isPending place ∧ 0 ≤ result then
        { dialogue with
          accepted := dialogue.accepted ++ [place] }.serve (.accept result)
      else
        none
  | .main => dialogue.serve .main
  | .thread index buffer =>
      match dialogue.server.pool[index]? with
      | some thread =>
          match thread.phase with
          | .receiving clientSocket =>
              match dialogue.peer clientSocket with
              | some place =>
                  match dialogue.toServer place with
                  | some bytes =>
                      { dialogue with
                        screen :=
                          dialogue.screen ++
                            [(place, shown buffer bytes)] }.serve
                              (.thread index)
                  | none => none
              | none => none
          | .sending clientSocket =>
              match dialogue.peer clientSocket with
              | some place =>
                  { dialogue with
                    toClient :=
                      Function.update dialogue.toClient place
                        (some (message answer)) }.serve (.thread index)
              | none => none
          | _ => dialogue.serve (.thread index)
      | none => none

/-- The server and the clients with these numbers have been started. -/
def initial (fds : Nat → Int) (threads : Nat → Nat)
    (clientIds : List (BitVec 32)) : Dialogue where
  server := Server.initial fds threads
  clients := clientIds.map (fun clientId => ⟨clientId, .starting⟩)
  accepted := []
  toServer := fun _ => none
  toClient := fun _ => none
  screen := []

/-! ## What one step does -/

inductive ClientMove (dialogue next : Dialogue) (place : Nat)
    (client : Client) : Prop where
  | connect (phase : client.phase = .starting)
      (moved : next = dialogue.moveClient place client .connected)
  | send (phase : client.phase = .connected)
      (moved :
        next =
          { dialogue.moveClient place client .sent with
            toServer :=
              Function.update dialogue.toServer place
                (some (message (greeting client.clientId))) })
  | receive (buffer bytes : List UInt8) (phase : client.phase = .sent)
      (received : dialogue.toClient place = some bytes)
      (moved :
        next =
          dialogue.moveClient place client
            (.done (shown (0 :: buffer.tail) bytes)))

inductive Step (dialogue next : Dialogue) : Prop where
  | client (place : Nat) (client : Client)
      (here : dialogue.clients[place]? = some client)
      (move : dialogue.ClientMove next place client)
  | accept (place : Nat) (result : Int)
      (pending : dialogue.isPending place = true) (positive : 0 ≤ result)
      (server : Server)
      (served : dialogue.server.step (.accept result) = some server)
      (moved :
        next =
          { dialogue with
            server := server, accepted := dialogue.accepted ++ [place] })
  | main (server : Server)
      (served : dialogue.server.step .main = some server)
      (moved : next = { dialogue with server := server })
  | read (index : Nat) (thread : Thread)
      (here : dialogue.server.pool[index]? = some thread)
      (silent : thread.talks = false) (server : Server)
      (served : dialogue.server.step (.thread index) = some server)
      (moved : next = { dialogue with server := server })
  | receive (index place : Nat) (thread : Thread) (clientSocket : Int)
      (buffer bytes : List UInt8)
      (here : dialogue.server.pool[index]? = some thread)
      (phase : thread.phase = .receiving clientSocket)
      (peer : dialogue.peer clientSocket = some place)
      (arrived : dialogue.toServer place = some bytes) (server : Server)
      (served : dialogue.server.step (.thread index) = some server)
      (moved :
        next =
          { dialogue with
            server := server
            screen := dialogue.screen ++ [(place, shown buffer bytes)] })
  | send (index place : Nat) (thread : Thread) (clientSocket : Int)
      (here : dialogue.server.pool[index]? = some thread)
      (phase : thread.phase = .sending clientSocket)
      (peer : dialogue.peer clientSocket = some place) (server : Server)
      (served : dialogue.server.step (.thread index) = some server)
      (moved :
        next =
          { dialogue with
            server := server
            toClient :=
              Function.update dialogue.toClient place
                (some (message answer)) })

section Inversion

variable {dialogue next : Dialogue}

theorem serve_eq_some
    {action : Action} (taken : dialogue.serve action = some next) :
    ∃ server,
      dialogue.server.step action = some server ∧
        next = { dialogue with server := server } := by
  obtain ⟨server, served, moved⟩ := Option.map_eq_some_iff.mp taken
  exact ⟨server, served, moved.symm⟩

theorem step_thread
    {index : Nat} {buffer : List UInt8}
    (taken : dialogue.step (.thread index buffer) = some next) :
    dialogue.Step next := by
  simp only [step] at taken
  split at taken
  · rename_i thread here
    split at taken
    · rename_i clientSocket phase
      split at taken
      · rename_i place peer
        split at taken
        · rename_i bytes arrived
          obtain ⟨server, served, moved⟩ := serve_eq_some taken
          exact
            .receive index place thread clientSocket buffer bytes here phase
              peer arrived server served moved
        · cases taken
      · cases taken
    · rename_i clientSocket phase
      split at taken
      · rename_i place peer
        obtain ⟨server, served, moved⟩ := serve_eq_some taken
        exact
          .send index place thread clientSocket here phase peer server served
            moved
      · cases taken
    · rename_i notReceiving notSending
      obtain ⟨server, served, moved⟩ := serve_eq_some taken
      refine .read index thread here ?_ server served moved
      rw [Thread.talks]
      split
      · rename_i clientSocket phase
        exact absurd phase (notReceiving clientSocket)
      · rename_i clientSocket phase
        exact absurd phase (notSending clientSocket)
      · rfl
  · cases taken

theorem step_cases
    {action : DialogueAction}
    (taken : dialogue.step action = some next) : dialogue.Step next := by
  cases action with
  | connect place =>
      simp only [step] at taken
      split at taken
      · rename_i client here
        simp only [Option.ite_none_right_eq_some, Option.some.injEq]
          at taken
        exact .client place client here (.connect taken.1 taken.2.symm)
      · cases taken
  | send place =>
      simp only [step] at taken
      split at taken
      · rename_i client here
        simp only [Option.ite_none_right_eq_some, Option.some.injEq]
          at taken
        exact .client place client here (.send taken.1 taken.2.symm)
      · cases taken
  | receive place buffer =>
      simp only [step] at taken
      split at taken
      · rename_i client bytes here received
        simp only [Option.ite_none_right_eq_some, Option.some.injEq]
          at taken
        exact
          .client place client here
            (.receive buffer bytes taken.1 received taken.2.symm)
      · cases taken
  | accept place result =>
      simp only [step, Option.ite_none_right_eq_some] at taken
      obtain ⟨server, served, moved⟩ := serve_eq_some taken.2
      exact
        .accept place result taken.1.1 taken.1.2 server served moved
  | main =>
      obtain ⟨server, served, moved⟩ := serve_eq_some taken
      exact .main server served moved
  | thread index buffer => exact step_thread taken

end Inversion

end Dialogue

end SistemasDistribuidos.Practica1.MultiHilo
