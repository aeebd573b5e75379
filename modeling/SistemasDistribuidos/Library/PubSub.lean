import Mathlib.Data.List.Basic
import Mathlib.Data.List.Count

/-!
# Publish and subscribe

What is published on a topic goes to the clients that are subscribed to it at
that moment, in the order in which they came; and something may be told to one
client alone.  What a client hears is then a matter of its own subscriptions:
between two changes of them it hears what is told to it and what is published
on its topics, in order and nothing else.
-/

namespace SistemasDistribuidos.PubSub

universe u v w

variable {Client : Type u} {Topic : Type v} {Payload : Type w}

inductive Event (Client : Type u) (Topic : Type v) (Payload : Type w) where
  | subscribe (client : Client) (topic : Topic)
  | leave (client : Client)
  | publish (topic : Topic) (payload : Payload)
  | tell (client : Client) (payload : Payload)

/-- Who is subscribed to what, in the order of the subscriptions. -/
abbrev Subscriptions (Client : Type u) (Topic : Type v) :=
  List (Client × Topic)

variable [DecidableEq Client] [DecidableEq Topic]

/-- The subscriptions after an event. -/
def change (subscriptions : Subscriptions Client Topic) :
    Event Client Topic Payload → Subscriptions Client Topic
  | .subscribe client topic => subscriptions ++ [(client, topic)]
  | .leave client =>
      subscriptions.filter (fun subscription => subscription.1 ≠ client)
  | .publish _ _ => subscriptions
  | .tell _ _ => subscriptions

/-- What is sent on an event, and to whom. -/
def copies (subscriptions : Subscriptions Client Topic) :
    Event Client Topic Payload → List (Client × Payload)
  | .publish topic payload =>
      (subscriptions.filter (fun subscription => subscription.2 = topic)).map
        (fun subscription => (subscription.1, payload))
  | .tell client payload => [(client, payload)]
  | .subscribe _ _ => []
  | .leave _ => []

/-- What is sent on a sequence of events. -/
def deliveries :
    Subscriptions Client Topic → List (Event Client Topic Payload) →
      List (Client × Payload)
  | _, [] => []
  | subscriptions, event :: rest =>
      copies subscriptions event ++
        deliveries (change subscriptions event) rest

/-- What one client gets of it. -/
def inbox (client : Client) (sends : List (Client × Payload)) :
    List Payload :=
  (sends.filter (fun sent => sent.1 = client)).map Prod.snd

/-- The topics that a client is subscribed to. -/
def topicsOf (client : Client)
    (subscriptions : Subscriptions Client Topic) : List Topic :=
  (subscriptions.filter (fun subscription => subscription.1 = client)).map
    Prod.snd

/-- What a client with some topics hears of an event. -/
def heard (client : Client) (topics : List Topic) :
    Event Client Topic Payload → List Payload
  | .publish topic payload => List.replicate (topics.count topic) payload
  | .tell other payload => if other = client then [payload] else []
  | .subscribe _ _ => []
  | .leave _ => []

/-- The event changes what a client is subscribed to. -/
def concerns (client : Client) : Event Client Topic Payload → Bool
  | .subscribe other _ => other = client
  | .leave other => other = client
  | .publish _ _ => false
  | .tell _ _ => false

/-- The event changes what a client is subscribed to, or is told to it. -/
def involves (client : Client) : Event Client Topic Payload → Bool
  | .subscribe other _ => other = client
  | .leave other => other = client
  | .publish _ _ => false
  | .tell other _ => other = client

/-- What is published on a topic. -/
def published (topic : Topic) :
    Event Client Topic Payload → Option Payload
  | .publish other payload => if other = topic then some payload else none
  | _ => none

section Laws

variable {client : Client} {subscriptions : Subscriptions Client Topic}

theorem deliveries_append
    (subscriptions : Subscriptions Client Topic)
    (first second : List (Event Client Topic Payload)) :
    deliveries subscriptions (first ++ second) =
      deliveries subscriptions first ++
        deliveries (first.foldl change subscriptions) second := by
  induction first generalizing subscriptions with
  | nil => rfl
  | cons event rest inductionHypothesis =>
      rw [List.cons_append, deliveries, deliveries, inductionHypothesis,
        List.append_assoc, List.foldl_cons]

theorem inbox_append (client : Client) (first second : List (Client × Payload)) :
    inbox client (first ++ second) =
      inbox client first ++ inbox client second := by
  rw [inbox, List.filter_append, List.map_append]
  rfl

omit [DecidableEq Topic] in
theorem topicsOf_append
    (client : Client) (first second : Subscriptions Client Topic) :
    topicsOf client (first ++ second) =
      topicsOf client first ++ topicsOf client second := by
  rw [topicsOf, List.filter_append, List.map_append]
  rfl

/-- A client gets as many copies as it has subscriptions to the topic. -/
theorem inbox_publish
    (client : Client) (subscriptions : Subscriptions Client Topic)
    (topic : Topic) (payload : Payload) :
    inbox client (copies subscriptions (.publish topic payload)) =
      List.replicate ((topicsOf client subscriptions).count topic)
        payload := by
  induction subscriptions with
  | nil => rfl
  | cons subscription rest inductionHypothesis =>
      obtain ⟨other, otherTopic⟩ := subscription
      have gets :
          inbox client
              (copies ((other, otherTopic) :: rest)
                (.publish topic payload)) =
            (if otherTopic = topic ∧ other = client then [payload] else []) ++
              inbox client (copies rest (.publish topic payload)) := by
        by_cases sameTopic : otherTopic = topic <;>
          by_cases same : other = client <;>
          simp [inbox, copies, sameTopic, same]
      have counted :
          (topicsOf client ((other, otherTopic) :: rest)).count topic =
            (if otherTopic = topic ∧ other = client then 1 else 0) +
              (topicsOf client rest).count topic := by
        by_cases sameTopic : otherTopic = topic <;>
          by_cases same : other = client <;>
          simp [topicsOf, sameTopic, same, Nat.add_comm]
      rw [gets, counted, inductionHypothesis, List.replicate_add]
      split
      · rfl
      · rfl

/-- A client gets what it hears. -/
theorem inbox_copies
    (client : Client) (subscriptions : Subscriptions Client Topic)
    (event : Event Client Topic Payload) :
    inbox client (copies subscriptions event) =
      heard client (topicsOf client subscriptions) event := by
  cases event with
  | subscribe other topic => rfl
  | leave other => rfl
  | publish topic payload => exact inbox_publish _ _ _ _
  | tell other payload =>
      rw [copies, heard, inbox]
      by_cases same : other = client
      · simp [same]
      · simp [same]

omit [DecidableEq Topic] in
theorem topicsOf_change
    {event : Event Client Topic Payload}
    (unconcerned : concerns client event = false) :
    topicsOf client (change subscriptions event) =
      topicsOf client subscriptions := by
  cases event with
  | subscribe other topic =>
      have different : other ≠ client := of_decide_eq_false unconcerned
      rw [change, topicsOf_append]
      simp [topicsOf, different]
  | leave other =>
      have different : other ≠ client := of_decide_eq_false unconcerned
      rw [change, topicsOf, topicsOf, List.filter_filter]
      congr 1
      apply List.filter_congr
      intro subscription _
      by_cases same : subscription.1 = client
      · simp [same, different.symm]
      · simp [same]
  | publish topic payload => rfl
  | tell other payload => rfl

omit [DecidableEq Topic] in
theorem topicsOf_foldl
    {events : List (Event Client Topic Payload)}
    (unconcerned : ∀ event ∈ events, concerns client event = false) :
    topicsOf client (events.foldl change subscriptions) =
      topicsOf client subscriptions := by
  induction events generalizing subscriptions with
  | nil => rfl
  | cons event rest inductionHypothesis =>
      rw [List.foldl_cons,
        inductionHypothesis
          (fun later listed =>
            unconcerned later (List.mem_cons_of_mem _ listed)),
        topicsOf_change (unconcerned event List.mem_cons_self)]

/-- As long as nothing changes a client's subscriptions it gets what is told
to it and what is published on its topics. -/
theorem inbox_deliveries
    {events : List (Event Client Topic Payload)}
    (unconcerned : ∀ event ∈ events, concerns client event = false) :
    inbox client (deliveries subscriptions events) =
      events.flatMap (heard client (topicsOf client subscriptions)) := by
  induction events generalizing subscriptions with
  | nil => rfl
  | cons event rest inductionHypothesis =>
      rw [deliveries, inbox_append, inbox_copies, List.flatMap_cons,
        inductionHypothesis
          (fun later listed =>
            unconcerned later (List.mem_cons_of_mem _ listed)),
        topicsOf_change (unconcerned event List.mem_cons_self)]

omit [DecidableEq Topic] in
/-- A client that has left is subscribed to nothing. -/
theorem topicsOf_leave
    (client : Client) (subscriptions : Subscriptions Client Topic) :
    topicsOf client
      (change subscriptions
        (.leave client : Event Client Topic Payload)) = [] := by
  rw [change, topicsOf, List.filter_filter, List.map_eq_nil_iff,
    List.filter_eq_nil_iff]
  intro subscription _
  by_cases same : subscription.1 = client
  · simp [same]
  · simp [same]

omit [DecidableEq Topic] in
theorem concerns_of_involves
    {event : Event Client Topic Payload}
    (uninvolved : involves client event = false) :
    concerns client event = false := by
  cases event with
  | subscribe other topic => exact uninvolved
  | leave other => exact uninvolved
  | publish topic payload => rfl
  | tell other payload => rfl

/-- Without a topic a client hears only what involves it. -/
theorem flatMap_heard_nil
    {events : List (Event Client Topic Payload)}
    (uninvolved : ∀ event ∈ events, involves client event = false) :
    events.flatMap (heard client []) = [] := by
  rw [List.flatMap_eq_nil_iff]
  intro event listed
  have silent := uninvolved event listed
  cases event with
  | subscribe other topic => rfl
  | leave other => rfl
  | publish topic payload => rfl
  | tell other payload => exact if_neg (of_decide_eq_false silent)

/-- With one topic it hears what is published on it besides. -/
theorem flatMap_heard_singleton
    {topic : Topic} {events : List (Event Client Topic Payload)}
    (uninvolved : ∀ event ∈ events, involves client event = false) :
    events.flatMap (heard client [topic]) =
      events.filterMap (published topic) := by
  induction events with
  | nil => rfl
  | cons event rest inductionHypothesis =>
      have silent := uninvolved event List.mem_cons_self
      have later :=
        inductionHypothesis
          (fun other listed =>
            uninvolved other (List.mem_cons_of_mem _ listed))
      rw [List.flatMap_cons, List.filterMap_cons, later]
      cases event with
      | subscribe other otherTopic => rfl
      | leave other => rfl
      | tell other payload =>
          rw [heard, if_neg (of_decide_eq_false silent)]
          rfl
      | publish otherTopic payload =>
          by_cases same : otherTopic = topic
          · simp [heard, published, same]
          · simp [heard, published, same, Ne.symm same]

end Laws

end SistemasDistribuidos.PubSub
