import Mathlib.Data.List.Dedup
import SistemasDistribuidos.Practica4.Admission

/-!
# Answers from the history

What a registration is answered depends only on the registrations that had
`mutex3` before it, on their kinds, their topics and their order.  Nothing
that a client does afterwards counts: a broker that has refused a subscriber
refuses every later one, and one that has answered `LIMIT` admits no further
publisher, however many clients have left.
-/

namespace SistemasDistribuidos.Practica4

open SistemasDistribuidos Machine

/-- What a client asks for with its first message. -/
structure Application where
  kind : Kind
  topic : TopicName
  deriving DecidableEq

def HandlerAction.application : HandlerAction → Option Application
  | .store _ kind topic _ => some ⟨kind, topic⟩
  | _ => none

/-- The registrations of a run, in the order in which they had `mutex3`. -/
def applications (actions : List HandlerAction) : List Application :=
  actions.filterMap HandlerAction.application

namespace Application

/-- The topic that a subscriber asks for. -/
def subscription (application : Application) : Option TopicName :=
  match application.kind with
  | .subscriber => some application.topic
  | .publisher => none

/-- The topics that subscribers have asked for, one for each subscriber. -/
def subscribed (history : List Application) : List TopicName :=
  history.filterMap subscription

/-- The same without repetitions, each at its first place. -/
def wanted (history : List Application) : List TopicName :=
  (subscribed history).reverse.dedup.reverse

/-- The topics of the broker. -/
def topics (history : List Application) : List TopicName :=
  (wanted history).take maxTopics

/-- The topic is there. -/
def knows (history : List Application) (topic : TopicName) : Bool :=
  (topics history).contains topic

/-- A publisher of a topic that is there. -/
def isServed (earlier : List Application) (application : Application) :
    Bool :=
  application.kind = .publisher && knows earlier application.topic

/-- The publishers that have asked for a topic that was there. -/
def served (history : List Application) : Nat :=
  history.zipIdx.countP
    (fun entry => isServed (history.take entry.2) entry.1)

/-- What the broker answers after this history. -/
def answer (history : List Application) (application : Application) :
    Response :=
  match application.kind with
  | .subscriber =>
      if (wanted history).length < maxTopics then
        ⟨.ok, 1 + (subscribed history).length⟩
      else
        ⟨.error, -1⟩
  | .publisher =>
      if knows history application.topic then
        if served history < maxPublishers then
          ⟨.ok, served history⟩
        else
          ⟨.limit, -1⟩
      else
        ⟨.error, -1⟩

theorem knows_iff {history : List Application} {topic : TopicName} :
    knows history topic = true ↔ topic ∈ topics history :=
  List.contains_iff_mem

theorem isServed_publisher {history : List Application} {topic : TopicName} :
    isServed history ⟨.publisher, topic⟩ = true ↔
      topic ∈ topics history := by
  rw [isServed, decide_eq_true rfl, Bool.true_and, knows_iff]

/-! ## One more registration -/

section Next

variable (history : List Application) (topic : TopicName)

theorem subscribed_concat (application : Application) :
    subscribed (history ++ [application]) =
      subscribed history ++ application.subscription.toList := by
  rw [subscribed, List.filterMap_append]
  cases given : application.subscription with
  | none => simp [given, subscribed]
  | some topic => simp [given, subscribed]

theorem mem_wanted :
    topic ∈ wanted history ↔ topic ∈ subscribed history := by
  rw [wanted, List.mem_reverse, List.mem_dedup, List.mem_reverse]

theorem wanted_subscriber :
    wanted (history ++ [⟨.subscriber, topic⟩]) =
      if topic ∈ wanted history then wanted history
      else wanted history ++ [topic] := by
  have grown :
      subscribed (history ++ [⟨.subscriber, topic⟩]) =
        subscribed history ++ [topic] :=
    subscribed_concat history _
  by_cases known : topic ∈ subscribed history
  · rw [if_pos ((mem_wanted history topic).mpr known), wanted, grown,
      List.reverse_append, List.reverse_singleton, List.singleton_append,
      List.dedup_cons_of_mem (List.mem_reverse.mpr known)]
    rfl
  · have new : topic ∉ (subscribed history).reverse :=
      fun old => known (List.mem_reverse.mp old)
    rw [if_neg (fun old => known ((mem_wanted history topic).mp old)),
      wanted, grown, List.reverse_append, List.reverse_singleton,
      List.singleton_append, List.dedup_cons_of_notMem new,
      List.reverse_cons]
    rfl

theorem wanted_publisher :
    wanted (history ++ [⟨.publisher, topic⟩]) = wanted history := by
  have same :
      subscribed (history ++ [⟨.publisher, topic⟩]) = subscribed history :=
    (subscribed_concat history _).trans (List.append_nil _)
  rw [wanted, same]
  rfl

theorem length_topics_lt :
    (topics history).length < maxTopics ↔
      (wanted history).length < maxTopics := by
  rw [topics, List.length_take]
  omega

/-- With room in the table the topics are all that are wanted. -/
theorem topics_of_room (room : (wanted history).length < maxTopics) :
    topics history = wanted history :=
  List.take_of_length_le (Nat.le_of_lt room)

theorem served_concat (application : Application) :
    served (history ++ [application]) =
      served history +
        (if isServed history application then 1 else 0) := by
  rw [served, List.zipIdx_append, List.countP_append, Nat.zero_add,
    List.zipIdx_singleton, List.countP_singleton, List.take_left]
  congr 1
  refine List.countP_congr ?_
  rintro ⟨entry, place⟩ listed
  have inside : place < 0 + history.length :=
    List.snd_lt_add_of_mem_zipIdx listed
  rw [List.take_append_of_le_length (by omega)]

end Next

/-! ## What can only grow -/

theorem length_wanted_le (history later : List Application) :
    (wanted history).length ≤ (wanted (history ++ later)).length := by
  induction later generalizing history with
  | nil => rw [List.append_nil]
  | cons application rest inductionHypothesis =>
      have grown :
          (wanted history).length ≤
            (wanted (history ++ [application])).length := by
        obtain ⟨kind, topic⟩ := application
        cases kind with
        | publisher => rw [wanted_publisher]
        | subscriber =>
            rw [wanted_subscriber]
            split
            · exact le_rfl
            · rw [List.length_append]
              exact Nat.le_add_right _ _
      rw [List.append_cons]
      exact grown.trans (inductionHypothesis _)

theorem served_le (history later : List Application) :
    served history ≤ served (history ++ later) := by
  induction later generalizing history with
  | nil => rw [List.append_nil]
  | cons application rest inductionHypothesis =>
      have grown : served history ≤ served (history ++ [application]) := by
        rw [served_concat]
        exact Nat.le_add_right _ _
      rw [List.append_cons]
      exact grown.trans (inductionHypothesis _)

/-! ## What a refusal says of the history -/

/-- A subscriber is refused when the topics are all taken. -/
theorem full_of_refused
    {history : List Application} {topic : TopicName}
    (refused :
      (answer history ⟨.subscriber, topic⟩).responseStatus ≠ .ok) :
    maxTopics ≤ (wanted history).length := by
  by_contra room
  refine refused ?_
  simp only [answer, if_pos (Nat.lt_of_not_le room)]

theorem refused_of_full
    {history : List Application}
    (full : maxTopics ≤ (wanted history).length) (topic : TopicName) :
    answer history ⟨.subscriber, topic⟩ = ⟨.error, -1⟩ := by
  simp only [answer, if_neg (Nat.not_lt_of_le full)]

/-- A publisher is answered `LIMIT` when all ids have been given. -/
theorem spent_of_limited
    {history : List Application} {topic : TopicName}
    (limited :
      (answer history ⟨.publisher, topic⟩).responseStatus = .limit) :
    maxPublishers ≤ served history := by
  simp only [answer] at limited
  split at limited
  · split at limited
    · cases limited
    · omega
  · cases limited

theorem not_ok_of_spent
    {history : List Application}
    (spent : maxPublishers ≤ served history) (topic : TopicName) :
    (answer history ⟨.publisher, topic⟩).responseStatus ≠ .ok := by
  simp only [answer, if_neg (Nat.not_lt_of_le spent)]
  split <;> exact Status.noConfusion

end Application

open Application

/-! ## The table of a history -/

/-- The table of topics is the one that this history has made. -/
structure Table.Records (table : Table) (history : List Application) :
    Prop where
  names : table.names = topics history
  publishers : table.nextPublisherId = min (served history) maxPublishers
  subscribers :
    (wanted history).length < maxTopics →
      table.nextSubscriberId = 1 + (subscribed history).length

namespace Table.Records

variable {table : Table} {history : List Application}

theorem empty : Account.empty.table.Records [] where
  names := rfl
  publishers := rfl
  subscribers := fun _ => rfl

theorem room_iff (records : table.Records history) :
    table.names.length < maxTopics ↔
      (wanted history).length < maxTopics := by
  rw [records.names, length_topics_lt]

/-- What the table answers is what the history says. -/
theorem answers (records : table.Records history) (kind : Kind)
    (topic : TopicName) :
    (table.register kind topic).2 = answer history ⟨kind, topic⟩ := by
  cases kind with
  | subscriber =>
      simp only [register, answer, records.room_iff]
      split
      · rename_i room
        rw [records.subscribers room]
      · rfl
  | publisher =>
      simp only [register, answer, records.names, knows_iff]
      split
      · have publishers := records.publishers
        by_cases few : served history < maxPublishers
        · have next : table.nextPublisherId = served history := by omega
          rw [if_pos few, if_pos (by omega), next]
        · rw [if_neg few, if_neg (by omega)]
      · rfl

theorem register_subscriber
    (records : table.Records history) (topic : TopicName) :
    (table.register .subscriber topic).1.Records
      (history ++ [⟨.subscriber, topic⟩]) := by
  have nobodyServed :
      served (history ++ [⟨.subscriber, topic⟩]) = served history :=
    served_concat history _
  have grown := wanted_subscriber history topic
  by_cases room : (wanted history).length < maxTopics
  · have inside := records.room_iff.mpr room
    have names := records.names
    rw [topics_of_room history room] at names
    have newNames :
        (table.register .subscriber topic).1.names =
          wanted (history ++ [⟨.subscriber, topic⟩]) := by
      rw [register, if_pos inside, grown, names]
    refine ⟨?_, ?_, ?_⟩
    · rw [newNames, topics, List.take_of_length_le]
      rw [grown]
      split
      · exact Nat.le_of_lt room
      · rw [List.length_append]
        exact room
    · rw [nobodyServed, register, if_pos inside]
      exact records.publishers
    · intro _
      have moved :
          (table.register .subscriber topic).1.nextSubscriberId =
            table.nextSubscriberId + 1 := by
        rw [register, if_pos inside]
      have one :
          subscribed (history ++ [⟨.subscriber, topic⟩]) =
            subscribed history ++ [topic] :=
        subscribed_concat history _
      rw [moved, records.subscribers room, one, List.length_append,
        List.length_singleton]
      omega
  · have outside :
        (table.register .subscriber topic).1 = table := by
      rw [register, if_neg (fun inside => room (records.room_iff.mp inside))]
    have longer := length_wanted_le history [⟨.subscriber, topic⟩]
    rw [outside]
    refine ⟨?_, ?_, fun small => absurd small (by omega)⟩
    · rw [records.names, topics, topics, grown]
      split
      · rfl
      · rw [List.take_append_of_le_length (Nat.le_of_not_lt room)]
    · rw [nobodyServed]
      exact records.publishers

theorem register_publisher
    (records : table.Records history) (topic : TopicName) :
    (table.register .publisher topic).1.Records
      (history ++ [⟨.publisher, topic⟩]) := by
  have same := wanted_publisher history topic
  have sameSubscribed :
      subscribed (history ++ [⟨.publisher, topic⟩]) = subscribed history :=
    (subscribed_concat history _).trans (List.append_nil _)
  have counted := served_concat history ⟨.publisher, topic⟩
  have publishers := records.publishers
  have kept :
      (table.register .publisher topic).1.names = table.names ∧
        (table.register .publisher topic).1.nextSubscriberId =
          table.nextSubscriberId := by
    simp only [register]
    split
    · split <;> exact ⟨rfl, rfl⟩
    · exact ⟨rfl, rfl⟩
  refine ⟨?_, ?_, ?_⟩
  · rw [kept.1, records.names, topics, topics, same]
  · rw [counted]
    by_cases known : topic ∈ topics history
    · have isServed := isServed_publisher.mpr known
      have listed : topic ∈ table.names := records.names ▸ known
      rw [if_pos isServed, register, if_pos listed]
      by_cases few : table.nextPublisherId < maxPublishers
      · rw [if_pos few]
        simp only
        omega
      · rw [if_neg few]
        simp only
        omega
    · have notServed := mt isServed_publisher.mp known
      have absent : topic ∉ table.names := records.names ▸ known
      rw [if_neg notServed, register, if_neg absent]
      exact publishers
  · rw [same, sameSubscribed, kept.2]
    exact records.subscribers

theorem register
    (records : table.Records history) (kind : Kind) (topic : TopicName) :
    (table.register kind topic).1.Records (history ++ [⟨kind, topic⟩]) := by
  cases kind with
  | subscriber => exact records.register_subscriber topic
  | publisher => exact records.register_publisher topic

end Table.Records

theorem Account.table_register (account : Account) (fd : Fd) (kind : Kind)
    (topic : TopicName) :
    (account.register fd kind topic).table =
      (account.table.register kind topic).1 := by
  simp only [register]
  split <;> rfl

/-- Only registrations move the table. -/
theorem Account.records_foldl
    {account : Account} {history : List Application}
    (records : account.table.Records history)
    (actions : List HandlerAction) :
    (actions.foldl follow account).table.Records
      (history ++ applications actions) := by
  induction actions generalizing account history with
  | nil =>
      rw [applications, List.filterMap_nil, List.append_nil]
      exact records
  | cons action rest inductionHypothesis =>
      rw [List.foldl_cons]
      cases action with
      | store fd kind topic stack =>
          rw [show applications (.store fd kind topic stack :: rest) =
              ⟨kind, topic⟩ :: applications rest from rfl,
            List.append_cons]
          apply inductionHypothesis
          rw [follow, table_register]
          exact records.register kind topic
      | respond _ | count _ | quit _ | find _ _ _ _ | shift _ _ | reply _
      | decrement _ => exact inductionHypothesis records

namespace Handlers

theorem records_of_run
    {actions : List HandlerAction} {handlers : Handlers}
    (reached : run step initial actions = some handlers) :
    handlers.Generators ∧
      handlers.registry.table.Records (applications actions) := by
  have account := account_of_run generators_initial reached
  have records := Account.records_foldl Table.Records.empty actions
  have same :
      handlers.registry.table =
        (actions.foldl Account.follow Account.empty).table :=
    congrArg Account.table account
  exact ⟨(topics_le_of_run reached).1, same ▸ records⟩

/-- However the handlers interleave and whoever leaves, as long as every store
stays in its topic, the topics and the answers are those of the history; a
broker that has refused a subscriber refuses every later one, and one that has
answered `LIMIT` admits no further publisher. -/
theorem answers_of_history
    {actions more : List HandlerAction} {handlers final : Handlers}
    (reached : run step initial actions = some handlers)
    (onwards : run step handlers more = some final) :
    handlers.registry.table.names = topics (applications actions) ∧
      (∀ kind topic fd stack,
        handlers.registry.StoresInside kind topic fd stack →
          (handlers.registry.register kind topic fd stack).2 =
            answer (applications actions) ⟨kind, topic⟩) ∧
      (∀ topic fd stack,
        (handlers.registry.register .subscriber topic fd
            stack).2.responseStatus ≠ .ok →
          ∀ other otherFd otherStack,
            (final.registry.register .subscriber other otherFd
              otherStack).2 = ⟨.error, -1⟩) ∧
      (∀ topic fd stack,
        (handlers.registry.register .publisher topic fd
            stack).2.responseStatus = .limit →
          ∀ other otherFd otherStack,
            (final.registry.register .publisher other otherFd
              otherStack).2.responseStatus ≠ .ok) := by
  obtain ⟨generators, records⟩ := records_of_run reached
  obtain ⟨laterGenerators, laterRecords⟩ :=
    records_of_run (run_append_eq_some.mpr ⟨handlers, reached, onwards⟩)
  rw [applications, List.filterMap_append] at laterRecords
  have answered : ∀ kind topic fd stack,
      (handlers.registry.register kind topic fd stack).2 =
        answer (applications actions) ⟨kind, topic⟩ := by
    intro kind topic fd stack
    rw [answer_eq generators, records.answers]
  have laterAnswered : ∀ kind topic fd stack,
      (final.registry.register kind topic fd stack).2 =
        answer (applications actions ++ applications more)
          ⟨kind, topic⟩ := by
    intro kind topic fd stack
    rw [answer_eq laterGenerators]
    exact laterRecords.answers kind topic
  refine
    ⟨records.names, fun kind topic fd stack _ => answered kind topic fd stack,
      ?_, ?_⟩
  · intro topic fd stack refused other otherFd otherStack
    rw [answered] at refused
    have full := full_of_refused refused
    rw [laterAnswered]
    exact
      Application.refused_of_full
        (full.trans (length_wanted_le _ (applications more))) other
  · intro topic fd stack limited other otherFd otherStack
    rw [answered] at limited
    have spent := spent_of_limited limited
    rw [laterAnswered]
    exact
      not_ok_of_spent (spent.trans (served_le _ (applications more))) other

/-- A publisher comes in while one of two subscribers is on its way out. -/
theorem answers_of_history_crossing :
    ∃ handlers,
      run step initial crossing = some handlers ∧
        (handlers.registry.register .publisher topicT 6
          (Registry.initial.allTopics 0)).2 = ⟨.ok, 0⟩ := by
  have seen :
      (run step initial crossing).map
        (fun handlers =>
          decide (handlers.registry.StoresInside .publisher topicT 6
            (Registry.initial.allTopics 0))) = some true := by
    decide +kernel
  obtain ⟨handlers, reached, inside⟩ := Option.map_eq_some_iff.mp seen
  have answered :=
    (answers_of_history reached (run_nil handlers)).2.1 .publisher topicT 6
      (Registry.initial.allTopics 0) (of_decide_eq_true inside)
  exact ⟨handlers, reached, answered.trans (by decide +kernel)⟩

end Handlers

end SistemasDistribuidos.Practica4
