import SistemasDistribuidos.Library.CString
import SistemasDistribuidos.Library.SlotArray

/-!
# The broker's registry

The global variables of `proxy_broker.c` that describe topics and clients,
and the functions that read and write them.  The code handles subscribers
and publishers in two parallel branches; a `Kind` tells them apart here.

Memory past an array is not invented: in `struct topic` the publishers follow
the subscribers and have the same layout, so a subscriber slot past the end
is a publisher slot; what follows the publishers is a parameter.  Ids are
unbounded: `accept` never returns a descriptor twice, so there are fewer
registrations than values of an `int`.
-/

namespace SistemasDistribuidos.Practica4

open SistemasDistribuidos SlotArray

def maxTopics : Nat := 10
def maxPublishers : Nat := 100
def maxSubscribers : Nat := 900

/-- A topic name: `char name[100]`. -/
abbrev TopicName := CString 100

/-- A topic named `t`. -/
def topicT : TopicName :=
  ⟨[116], by decide, by decide⟩

/-- A file descriptor; every accepted connection has its own. -/
abbrev Fd := Int

inductive Kind where
  | publisher
  | subscriber
  deriving DecidableEq, Repr

/-- Slots of the client array of each kind in a topic. -/
def capacity : Kind → Nat
  | .publisher => maxPublishers
  | .subscriber => maxSubscribers

/-- `struct publisher` and `struct subscriber`. -/
structure Client where
  topic : TopicName
  id : Int
  fd : Fd
  deriving DecidableEq

/-- `struct topic`. -/
structure Topic where
  name : TopicName
  numSubscribers : Int
  numPublishers : Int
  subscribers : Nat → Client
  publishers : Nat → Client

inductive Status where
  | error
  | limit
  | ok
  deriving DecidableEq, Repr

/-- `struct response`. -/
structure Response where
  responseStatus : Status
  id : Int
  deriving DecidableEq

namespace Topic

def clients (topic : Topic) : Kind → Nat → Client
  | .publisher => topic.publishers
  | .subscriber => topic.subscribers

def count (topic : Topic) : Kind → Int
  | .publisher => topic.numPublishers
  | .subscriber => topic.numSubscribers

def setClients (topic : Topic) (kind : Kind) (slots : Nat → Client) :
    Topic :=
  match kind with
  | .publisher => { topic with publishers := slots }
  | .subscriber => { topic with subscribers := slots }

/-- Add to the counter of one kind. -/
def addCount (topic : Topic) (kind : Kind) (amount : Int) : Topic :=
  match kind with
  | .publisher =>
      { topic with numPublishers := topic.numPublishers + amount }
  | .subscriber =>
      { topic with numSubscribers := topic.numSubscribers + amount }

/-- The slots that `subscribers[index]` and `publishers[index]` can name inside
the topic: a subscriber index past the array falls on the publishers, and a
negative publisher index on the subscribers. -/
def HasSlot (kind : Kind) (index : Int) : Prop :=
  match kind with
  | .publisher => -maxSubscribers ≤ index ∧ index < maxPublishers
  | .subscriber => 0 ≤ index ∧ index < maxSubscribers + maxPublishers

instance (kind : Kind) (index : Int) : Decidable (HasSlot kind index) :=
  match kind with
  | .publisher => inferInstanceAs (Decidable (_ ∧ _))
  | .subscriber => inferInstanceAs (Decidable (_ ∧ _))

/-- `subscribers[index] = client` and `publishers[index] = client`, for an
index that has a slot in the topic.  What any other index overwrites (the
counters and the name, the next topic, the globals before the first one) is
not modelled, and no step of the broker makes such a store. -/
def store (topic : Topic) (kind : Kind) (index : Int) (client : Client) :
    Topic :=
  match kind with
  | .publisher =>
      if 0 ≤ index then
        { topic with
          publishers :=
            Function.update topic.publishers index.toNat client }
      else
        { topic with
          subscribers :=
            Function.update topic.subscribers
              (maxSubscribers + index).toNat client }
  | .subscriber =>
      if index < maxSubscribers then
        { topic with
          subscribers :=
            Function.update topic.subscribers index.toNat client }
      else
        { topic with
          publishers :=
            Function.update topic.publishers
              (index - maxSubscribers).toNat client }

/-- `subscribers[index]`, with the publishers after the array. -/
def subscriberAt (topic : Topic) (index : Nat) : Client :=
  if index < maxSubscribers then topic.subscribers index
  else topic.publishers (index - maxSubscribers)

/-- First loop of `shift_client_list`: the position of the id, or the size of
the array when no slot has it. -/
def clientPos (topic : Topic) (kind : Kind) (id : Int) : Nat :=
  search (fun position => (topic.clients kind position).id == id)
    (capacity kind)

/-- What `subscribers[MAX_SUBSCRIBERS]` and `publishers[MAX_PUBLISHERS]`
read: the first publisher, and whatever follows the topic. -/
def pastEnd (topic : Topic) (beyond : Client) : Kind → Client
  | .publisher => beyond
  | .subscriber => topic.publishers 0

/-- Second loop of `shift_client_list`, from `clientPos` to the end of the
array. -/
def shiftClients
    (topic : Topic) (kind : Kind) (clientPos : Nat) (beyond : Client) :
    Topic :=
  topic.setClients kind
    (shiftLoop
      (Function.update (topic.clients kind) (capacity kind)
        (topic.pastEnd beyond kind))
      (capacity kind - clientPos) clientPos)

end Topic

/-- The globals of the broker that a registration reads or writes. -/
structure Registry where
  allTopics : Nat → Topic
  currentTopics : Nat
  nextPublisherId : Int
  nextSubscriberId : Int
  currentSubscribers : Int

namespace Registry

def updateTopic (registry : Registry) (topicId : Nat)
    (change : Topic → Topic) : Registry :=
  { registry with
    allTopics :=
      Function.update registry.allTopics topicId
        (change (registry.allTopics topicId)) }

/-- `get_topic_id`: the first topic of that name, or `current_topics`. -/
def getTopicId (registry : Registry) (name : TopicName) : Nat :=
  search (fun topicId => (registry.allTopics topicId).name == name)
    registry.currentTopics

/-- The client counter of the topic that `get_topic_id` gives. -/
def numSubscribers (registry : Registry) (name : TopicName) : Int :=
  (registry.allTopics (registry.getTopicId name)).numSubscribers

/-- The end of `create_topic`: `stack` is what the uninitialised local
`new_topic` holds. -/
def addTopic (registry : Registry) (name : TopicName) (stack : Topic) :
    Registry :=
  { registry with
    allTopics :=
      Function.update registry.allTopics registry.currentTopics
        { stack with
          name := name, numPublishers := 0, numSubscribers := 0 }
    currentTopics := registry.currentTopics + 1 }

/-- `create_topic`: 0 for a new topic, 2 for a known one, 1 for a full table. -/
def createTopic (registry : Registry) (name : TopicName) (stack : Topic) :
    Registry × Nat :=
  if registry.currentTopics < maxTopics then
    if registry.getTopicId name < registry.currentTopics then
      (registry, 2)
    else
      (registry.addTopic name stack, 0)
  else
    (registry, 1)

/-- `talk_to_client`, the branch of `REGISTER_SUBSCRIBER`. -/
def registerSubscriber
    (registry : Registry) (name : TopicName) (fd : Fd) (stack : Topic) :
    Registry × Response :=
  let created := registry.createTopic name stack
  if created.2 ≠ 1 then
    if created.1.currentSubscribers < maxSubscribers then
      let newSubscriber : Client :=
        ⟨name, created.1.nextSubscriberId, fd⟩
      let topicId := created.1.getTopicId name
      let topicSubscribers := (created.1.allTopics topicId).numSubscribers
      ({ created.1.updateTopic topicId
          (fun topic =>
            topic.store .subscriber topicSubscribers newSubscriber) with
          nextSubscriberId := created.1.nextSubscriberId + 1 },
        ⟨.ok, created.1.nextSubscriberId⟩)
    else
      (created.1, ⟨.limit, -1⟩)
  else
    (created.1, ⟨.error, -1⟩)

/-- `talk_to_client`, the branch of `REGISTER_PUBLISHER`. -/
def registerPublisher
    (registry : Registry) (name : TopicName) (fd : Fd) :
    Registry × Response :=
  let topicId := registry.getTopicId name
  if topicId < registry.currentTopics then
    if registry.nextPublisherId < maxPublishers then
      let newPublisher : Client := ⟨name, registry.nextPublisherId, fd⟩
      let topicPublishers := (registry.allTopics topicId).numPublishers
      ({ registry.updateTopic topicId
          (fun topic =>
            topic.store .publisher topicPublishers newPublisher) with
          nextPublisherId := registry.nextPublisherId + 1 },
        ⟨.ok, registry.nextPublisherId⟩)
    else
      (registry, ⟨.limit, -1⟩)
  else
    (registry, ⟨.error, -1⟩)

/-- `talk_to_client` up to the response, on a registration of either kind. -/
def register
    (registry : Registry) (kind : Kind) (name : TopicName) (fd : Fd)
    (stack : Topic) : Registry × Response :=
  match kind with
  | .publisher => registry.registerPublisher name fd
  | .subscriber => registry.registerSubscriber name fd stack

/-- The topics as a registration finds them when it stores its client: a
subscriber may have brought its topic into being. -/
def opened
    (registry : Registry) (kind : Kind) (name : TopicName) (stack : Topic) :
    Registry :=
  match kind with
  | .publisher => registry
  | .subscriber => (registry.createTopic name stack).1

/-- A client that is admitted is stored in a slot of its topic. -/
def StoresInside
    (registry : Registry) (kind : Kind) (name : TopicName) (fd : Fd)
    (stack : Topic) : Prop :=
  (registry.register kind name fd stack).2.responseStatus = .ok →
    Topic.HasSlot kind
      (((registry.opened kind name stack).allTopics
        ((registry.opened kind name stack).getTopicId name)).count kind)

instance
    (registry : Registry) (kind : Kind) (name : TopicName) (fd : Fd)
    (stack : Topic) :
    Decidable (registry.StoresInside kind name fd stack) :=
  inferInstanceAs (Decidable (_ → _))

/-- The loop of `talk_to_client` after the response: every topic whose name
is the registered one counts one more client. -/
def countClient (registry : Registry) (kind : Kind) (name : TopicName) :
    Registry :=
  { registry with
    allTopics := fun topicId =>
      if topicId < registry.currentTopics ∧
          (registry.allTopics topicId).name = name then
        (registry.allTopics topicId).addCount kind 1
      else
        registry.allTopics topicId }

/-- The zero-initialised globals; `next_subscriber_id` starts at 1. -/
def initial : Registry where
  allTopics := fun _ =>
    { name := ⟨[], by decide, by decide⟩
      numSubscribers := 0
      numPublishers := 0
      subscribers := fun _ => ⟨⟨[], by decide, by decide⟩, 0, 0⟩
      publishers := fun _ => ⟨⟨[], by decide, by decide⟩, 0, 0⟩ }
  currentTopics := 0
  nextPublisherId := 0
  nextSubscriberId := 1
  currentSubscribers := 0

end Registry

end SistemasDistribuidos.Practica4
