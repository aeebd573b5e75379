import SistemasDistribuidos.Practica4.Consistency

/-!
# De-registration

The clients of `talk_to_server` and the handlers of the broker, with the bytes
that are on their way to each client.  A client sends its `REGISTER`, reads the
response and stores `client_id`; `SIGINT` may interrupt it at any of these
points, and its handler then sends `UNREGISTER` messages until it reads a
response that says `OK`.  The broker's thread handles the first of them and
exits.

The socket is read eight bytes at a time there, the size of a response, so each
`struct publish` that is still queued counts as fifteen responses.  Which
messages a publish sends to whom plays no part: any may be sent at any time.

`client_id` is 0 until it is stored, which is a publisher's id, and a response
to `REGISTER` looks like one to `UNREGISTER`.  The broker trusts the id.
-/

namespace SistemasDistribuidos.Practica4

open SistemasDistribuidos SlotArray Machine

/-- What a client was started with. -/
structure Options where
  clientType : Kind
  clientTopic : TopicName

def Status.code : Status → Int
  | .error => 0
  | .limit => 1
  | .ok => 2

/-- What the broker sent when it sent some bytes.  Clients cannot see it. -/
inductive Origin where
  | registration
  | unregistration
  | publication
  deriving DecidableEq

/-- Eight bytes, read as a `struct response`. -/
structure Word where
  responseStatus : Int
  id : Int
  origin : Origin
  deriving DecidableEq

/-- How many of them a `struct publish` takes. -/
def publishWords : Nat := 15

/-- Where a client stands.  In `responded` it has read a response and not
stored `client_id`, in `identified` it has not looked at the status. -/
inductive Place where
  | registering
  | responded (responseStatus id : Int)
  | identified (responseStatus : Int)
  | transferring
  | exited
  | waiting
  | reported
  deriving DecidableEq

structure Process where
  clientId : Int
  place : Place
  deriving DecidableEq

/-- `client_id` has been stored and the client runs. -/
def Place.stored : Place → Bool
  | .identified _ => true
  | .transferring => true
  | _ => false

def Place.running : Place → Bool
  | .registering => true
  | .responded _ _ => true
  | .identified _ => true
  | .transferring => true
  | _ => false

namespace Phase

def unanswered : Phase → Bool
  | .accepted => true
  | .stored _ => true
  | .refusing _ => true
  | _ => false

def removed : Phase → Bool
  | .replied _ _ => true
  | .finished => true
  | _ => false

def responses : Phase → List Word
  | .stored member => [⟨Status.ok.code, member.id, .registration⟩]
  | .refusing status => [⟨status.code, -1, .registration⟩]
  | _ => []

end Phase

/-- The broker's handlers, the clients, and what each can read. -/
structure Network where
  handlers : Handlers
  process : Fd → Process
  inbox : Fd → List Word

inductive NetworkAction where
  | store (fd : Fd) (stack : Topic)
  | respond (fd : Fd)
  | count (fd : Fd)
  | find (fd : Fd) (stackFd : Fd)
  | shift (fd : Fd) (beyond : Client)
  | reply (fd : Fd)
  | decrement (fd : Fd)
  /-- A `struct publish` is sent to the client. -/
  | publish (fd : Fd) (words : List (Int × Int))
  /-- The `recv` of `talk_to_server`. -/
  | receive (fd : Fd)
  /-- `client_id = response.id`. -/
  | identify (fd : Fd)
  /-- The status is looked at, and the transfer begins. -/
  | start (fd : Fd)
  /-- One `recv` of `transfer_subscriber`. -/
  | transfer (fd : Fd)
  /-- `sighandler` up to its first `send`. -/
  | sigint (fd : Fd)
  /-- One `recv` of `sighandler`, and the next `send` unless it is `OK`. -/
  | poll (fd : Fd)

namespace Network

/-- A step of a handler. -/
def handle (network : Network) (action : HandlerAction) :
    Option Network :=
  (network.handlers.step action).map
    (fun handlers => { network with handlers := handlers })

def deliver (network : Network) (fd : Fd) (words : List Word) : Network :=
  { network with
    inbox := Function.update network.inbox fd (network.inbox fd ++ words) }

def setProcess (network : Network) (fd : Fd) (process : Process) :
    Network :=
  { network with
    process := Function.update network.process fd process }

def read (network : Network) (fd : Fd) (rest : List Word)
    (place : Place) : Network :=
  { network.setProcess fd { network.process fd with place := place } with
    inbox := Function.update network.inbox fd rest }

/-- One step of a handler, of a sender or of a client.  A client's `UNREGISTER`
carries the topic it was started with and its `client_id`. -/
def step (options : Fd → Options) (network : Network) :
    NetworkAction → Option Network
  | .store fd stack =>
      network.handle
        (.store fd (options fd).clientType (options fd).clientTopic stack)
  | .respond fd =>
      (network.handle (.respond fd)).map
        (fun next => next.deliver fd (network.handlers.phase fd).responses)
  | .count fd => network.handle (.count fd)
  | .find fd stackFd =>
      network.handle
        (.find fd (options fd).clientTopic (network.process fd).clientId
          stackFd)
  | .shift fd beyond => network.handle (.shift fd beyond)
  | .reply fd =>
      match network.handlers.phase fd with
      | .shifted _ _ fdToDel =>
          (network.handle (.reply fd)).map
            (fun next =>
              next.deliver fdToDel
                [⟨Status.ok.code, (network.process fd).clientId,
                  .unregistration⟩])
      | _ => none
  | .decrement fd => network.handle (.decrement fd)
  | .publish fd words =>
      if words.length = publishWords then
        some
          (network.deliver fd
            (words.map (fun word => ⟨word.1, word.2, .publication⟩)))
      else
        none
  | .receive fd =>
      match (network.process fd).place, network.inbox fd with
      | .registering, word :: rest =>
          some
            (network.read fd rest (.responded word.responseStatus word.id))
      | _, _ => none
  | .identify fd =>
      match (network.process fd).place with
      | .responded responseStatus id =>
          some (network.setProcess fd ⟨id, .identified responseStatus⟩)
      | _ => none
  | .start fd =>
      match (network.process fd).place with
      | .identified responseStatus =>
          some
            (network.setProcess fd
              { network.process fd with
                place :=
                  if responseStatus = Status.ok.code then .transferring
                  else .exited })
      | _ => none
  | .transfer fd =>
      if (network.process fd).place = .transferring ∧
          (options fd).clientType = .subscriber then
        some
          (network.read fd ((network.inbox fd).drop publishWords)
            .transferring)
      else
        none
  | .sigint fd =>
      if (network.process fd).place.running then
        (network.handle (.quit fd)).map
          (fun next =>
            next.setProcess fd
              { network.process fd with place := .waiting })
      else
        none
  | .poll fd =>
      match (network.process fd).place, network.inbox fd with
      | .waiting, word :: rest =>
          some
            (network.read fd rest
              (if word.responseStatus = Status.ok.code then .reported
              else .waiting))
      | _, _ => none

def initial : Network where
  handlers := Handlers.initial
  process := fun _ => ⟨0, .registering⟩
  inbox := fun _ => []

/-- The entries of an array: as many slots as clients have been stored there
and not removed. -/
def entries (network : Network) (topicId : Nat) (kind : Kind) :
    List Client :=
  occupied ((network.handlers.registry.allTopics topicId).clients kind)
    (membersOf network.handlers.roster
      (network.handlers.registry.allTopics topicId).name kind).length

/-- The conditions under which clients de-register as they should: the
handlers do not disturb each other, no `publish` overtakes the response to
`REGISTER`, `SIGINT` comes when `client_id` has been stored, and no eight bytes
of a queued `publish` that `sighandler` reads look like `OK`. -/
def Proper (options : Fd → Options) (network : Network) :
    NetworkAction → Prop
  | .store fd stack =>
      network.handlers.Room
          (.store fd (options fd).clientType (options fd).clientTopic
            stack) ∧
        network.handlers.Separate
          (.store fd (options fd).clientType (options fd).clientTopic
            stack)
  | .shift fd beyond => network.handlers.Separate (.shift fd beyond)
  | .publish fd _ => (network.handlers.phase fd).unanswered = false
  | .sigint fd => (network.process fd).place.stored = true
  | .poll fd =>
      ∀ word ∈ (network.inbox fd).head?,
        word.origin = .publication →
          word.responseStatus ≠ Status.ok.code
  | _ => True

end Network

end SistemasDistribuidos.Practica4
