import SistemasDistribuidos.Practica4.Inbox
import SistemasDistribuidos.Practica4.Network

/-!
# Clients and broker

The processes of `talk_to_server` and the broker, with the messages between
them.  The broker receives one message at a time, in any order among the
connections and in the order of each of them.  A client reads a
`struct publish` at once, but `sighandler` reads it eight bytes at a time, as
if it were responses: what it takes them for is left open.

What a client has sent and printed, and the messages in the order in which the
broker has handled them, are kept as a record.
-/

namespace SistemasDistribuidos.Practica4

open SistemasDistribuidos Machine

/-- The message in a turn, if it comes from this connection. -/
def Turn.messageOf (fd : Fd) : Turn → Option ClientMessage
  | .register _ _ _ _ => none
  | .message other content _ => if other = fd then some content else none

/-- The payload in a turn, if it is a `PUBLISH_DATA` on this topic. -/
def Turn.payload (topic : TopicName) : Turn → Option Packet
  | .register _ _ _ _ => none
  | .message _ content _ =>
      if content.action = .publishData ∧ content.topic = topic then
        some (.publish content.data.timeGeneratedData content.data.text)
      else
        none

structure Traffic where
  exchange : Exchange
  process : Fd → Process
  /-- What a client has sent and its handler has not received. -/
  outgoing : Fd → List ClientMessage
  /-- How many of the packets sent to it a client has read. -/
  received : Fd → Nat
  /-- How much of the next one, in units of eight bytes. -/
  words : Fd → Nat
  turns : List Turn
  sent : Fd → List ClientMessage
  screen : Fd → List Packet

inductive TrafficAction where
  /-- The broker handles a `REGISTER`. -/
  | register (fd : Fd) (stack : Topic)
  /-- A handler receives the next message of its client. -/
  | handle (fd : Fd) (memory : Memory)
  /-- The `recv` of `talk_to_server`. -/
  | receive (fd : Fd) (seen : Int × Int)
  /-- `client_id = response.id`. -/
  | identify (fd : Fd)
  /-- The status is looked at, and the transfer begins. -/
  | start (fd : Fd)
  /-- One turn of `transfer_publisher`; the id of its message is not set. -/
  | publish (fd : Fd) (id : Int) (data : Publish)
  /-- One turn of `transfer_subscriber`. -/
  | transfer (fd : Fd)
  /-- `sighandler` up to its first `send`; its message has no data. -/
  | sigint (fd : Fd) (stack : Publish)
  /-- One `recv` of `sighandler`, and the next `send` unless it is `OK`. -/
  | poll (fd : Fd) (stack : Publish) (seen : Int × Int)

namespace Traffic

section Step

variable (options : Fd → Options) (traffic : Traffic)

/-- What has been sent to a client and it has not read. -/
def unread (fd : Fd) : List Packet :=
  (traffic.exchange.inbox fd).drop (traffic.received fd)

/-- The broker handles a message. -/
def take (turn : Turn) : Option Traffic :=
  (traffic.exchange.step turn).map
    (fun exchange =>
      { traffic with exchange := exchange, turns := traffic.turns ++ [turn] })

/-- A client sends a message. -/
def send (fd : Fd) (message : ClientMessage) : Traffic :=
  { traffic with
    outgoing :=
      Function.update traffic.outgoing fd (traffic.outgoing fd ++ [message])
    sent := Function.update traffic.sent fd (traffic.sent fd ++ [message]) }

def setProcess (fd : Fd) (process : Process) : Traffic :=
  { traffic with process := Function.update traffic.process fd process }

/-- A client has read a packet to its end. -/
def consume (fd : Fd) : Traffic :=
  { traffic with
    received := Function.update traffic.received fd (traffic.received fd + 1)
    words := Function.update traffic.words fd 0 }

/-- A client has read eight bytes of a packet. -/
def advance (fd : Fd) : Traffic :=
  if traffic.words fd + 1 < publishWords then
    { traffic with
      words := Function.update traffic.words fd (traffic.words fd + 1) }
  else
    traffic.consume fd

/-- A subscriber prints a packet. -/
def print (fd : Fd) (packet : Packet) : Traffic :=
  { traffic with
    screen :=
      Function.update traffic.screen fd (traffic.screen fd ++ [packet]) }

/-- A `recv` of a `struct response`, with what is found in it; `seen` is what
is found in eight bytes of a `struct publish`. -/
def recvResponse (fd : Fd) (seen : Int × Int) :
    Option (Traffic × (Int × Int)) :=
  match traffic.unread fd with
  | [] => none
  | .response response :: _ =>
      some
        (traffic.consume fd, (response.responseStatus.code, response.id))
  | .publish _ _ :: _ => some (traffic.advance fd, seen)

/-- The `UNREGISTER` of a client, with the `client_id` that it has stored. -/
def unregistration (fd : Fd) (stack : Publish) : ClientMessage where
  action := (options fd).clientType.unregisters
  topic := (options fd).clientTopic
  id := (traffic.process fd).clientId
  data := stack

def step : TrafficAction → Option Traffic
  | .register fd stack =>
      traffic.take
        (.register fd (options fd).clientType (options fd).clientTopic stack)
  | .handle fd memory =>
      match traffic.outgoing fd with
      | message :: rest =>
          { traffic with
            outgoing := Function.update traffic.outgoing fd rest }.take
              (.message fd message memory)
      | [] => none
  | .receive fd seen =>
      match (traffic.process fd).place with
      | .registering =>
          (traffic.recvResponse fd seen).map
            (fun read =>
              read.1.setProcess fd
                { traffic.process fd with
                  place := .responded read.2.1 read.2.2 })
      | _ => none
  | .identify fd =>
      match (traffic.process fd).place with
      | .responded responseStatus id =>
          some (traffic.setProcess fd ⟨id, .identified responseStatus⟩)
      | _ => none
  | .start fd =>
      match (traffic.process fd).place with
      | .identified responseStatus =>
          some
            (traffic.setProcess fd
              { traffic.process fd with
                place :=
                  if responseStatus = Status.ok.code then .transferring
                  else .exited })
      | _ => none
  | .publish fd id data =>
      if (traffic.process fd).place = .transferring ∧
          (options fd).clientType = .publisher then
        some
          (traffic.send fd
            ⟨.publishData, (options fd).clientTopic, id, data⟩)
      else
        none
  | .transfer fd =>
      if (traffic.process fd).place = .transferring ∧
          (options fd).clientType = .subscriber ∧ traffic.words fd = 0 then
        match traffic.unread fd with
        | .publish time text :: _ =>
            some ((traffic.consume fd).print fd (.publish time text))
        | _ => none
      else
        none
  | .sigint fd stack =>
      if (traffic.process fd).place.running then
        let sent :=
          traffic.send fd (traffic.unregistration options fd stack)
        some
          (sent.setProcess fd
            { traffic.process fd with place := .waiting })
      else
        none
  | .poll fd stack seen =>
      match (traffic.process fd).place with
      | .waiting =>
          (traffic.recvResponse fd seen).map
            (fun read =>
              if read.2.1 = Status.ok.code then
                read.1.setProcess fd
                  { traffic.process fd with place := .reported }
              else
                read.1.send fd (traffic.unregistration options fd stack))
      | _ => none

end Step

/-- Every client has sent its `REGISTER`. -/
def initial : Traffic where
  exchange := Exchange.initial
  process := fun _ => ⟨0, .registering⟩
  outgoing := fun _ => []
  received := fun _ => 0
  words := fun _ => 0
  turns := []
  sent := fun _ => []
  screen := fun _ => []

/-- No topic gets more subscribers than its array has slots, `SIGINT` comes
when `client_id` has been stored, and no eight bytes of a `struct publish` that
`sighandler` reads look like `OK`. -/
def Proper (options : Fd → Options) (traffic : Traffic) :
    TrafficAction → Prop
  | .register fd stack =>
      Exchange.Admissible traffic.exchange
        (.register fd (options fd).clientType (options fd).clientTopic stack)
  | .sigint fd _ => (traffic.process fd).place.stored = true
  | .poll fd _ seen =>
      ∀ time text, (traffic.unread fd).head? = some (.publish time text) →
        seen.1 ≠ Status.ok.code
  | _ => True

end Traffic

end SistemasDistribuidos.Practica4
