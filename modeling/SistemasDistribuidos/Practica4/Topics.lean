import SistemasDistribuidos.Practica4.Registry

/-!
# What the registry stands for

`Table` is the abstract side of the registry: the topic names in order of
creation and the two id generators.  `Table.register` says who is admitted,
and `register_table` that the code admits exactly those.

`Holds registry lists` says that the arrays of every topic begin with the
given lists of clients, and `Counts registry expected` what the counters are.
Each operation of the registry has one lemma about each of the two.
-/

namespace SistemasDistribuidos.Practica4

open SistemasDistribuidos SlotArray

/-! ## Admission -/

/-- Topic names in order of creation, and the next id of each kind. -/
structure Table where
  names : List TopicName
  nextPublisherId : Int
  nextSubscriberId : Int
  deriving DecidableEq

namespace Table

def nextId (table : Table) : Kind → Int
  | .publisher => table.nextPublisherId
  | .subscriber => table.nextSubscriberId

/-- A subscriber is admitted while the table of topics has room, and brings
its topic into being; a publisher is admitted to an existing topic until
`MAX_PUBLISHERS` ids have been given. -/
def register (table : Table) (kind : Kind) (name : TopicName) :
    Table × Response :=
  match kind with
  | .subscriber =>
      if table.names.length < maxTopics then
        ({ table with
            names :=
              if name ∈ table.names then table.names
              else table.names ++ [name]
            nextSubscriberId := table.nextSubscriberId + 1 },
          ⟨.ok, table.nextSubscriberId⟩)
      else
        (table, ⟨.error, -1⟩)
  | .publisher =>
      if name ∈ table.names then
        if table.nextPublisherId < maxPublishers then
          ({ table with nextPublisherId := table.nextPublisherId + 1 },
            ⟨.ok, table.nextPublisherId⟩)
        else
          (table, ⟨.limit, -1⟩)
      else
        (table, ⟨.error, -1⟩)

/-- A refused registration leaves the table as it was. -/
theorem register_refused
    {table : Table} {kind : Kind} {name : TopicName}
    (generated : 0 ≤ table.nextId kind)
    (refused : (table.register kind name).2.id = -1) :
    (table.register kind name).1 = table ∧
      (table.register kind name).2.responseStatus ≠ .ok := by
  cases kind with
  | subscriber =>
      have generated : 0 ≤ table.nextSubscriberId := generated
      simp only [register] at refused ⊢
      split at refused
      · simp only at refused
        omega
      · rename_i full
        simp [full]
  | publisher =>
      have generated : 0 ≤ table.nextPublisherId := generated
      simp only [register] at refused ⊢
      split at refused
      · rename_i known
        split at refused
        · simp only at refused
          omega
        · rename_i full
          simp [known, full]
      · rename_i unknown
        simp [unknown]

/-- Names are only ever added at the end. -/
theorem names_register (table : Table) (kind : Kind) (name : TopicName) :
    table.names <+: (table.register kind name).1.names := by
  cases kind with
  | subscriber =>
      simp only [register]
      split
      · simp only
        split
        · exact List.prefix_rfl
        · exact List.prefix_append _ _
      · exact List.prefix_rfl
  | publisher =>
      simp only [register]
      split
      · split
        · exact List.prefix_rfl
        · exact List.prefix_rfl
      · exact List.prefix_rfl

/-- An admitted client gets the next id of its kind, and only that generator
moves; its topic is then in the table. -/
theorem register_granted
    {table : Table} {kind : Kind} {name : TopicName}
    (granted : (table.register kind name).2.id ≠ -1) :
    (table.register kind name).2 = ⟨.ok, table.nextId kind⟩ ∧
      (∀ other, (table.register kind name).1.nextId other =
        if other = kind then table.nextId other + 1
        else table.nextId other) ∧
      name ∈ (table.register kind name).1.names := by
  cases kind with
  | subscriber =>
      by_cases room : table.names.length < maxTopics
      · simp only [register, if_pos room]
        refine ⟨rfl, ?_, ?_⟩
        · intro other
          cases other <;> rfl
        · split
          · assumption
          · simp
      · simp [register, room] at granted
  | publisher =>
      by_cases known : name ∈ table.names
      · by_cases room : table.nextPublisherId < maxPublishers
        · simp only [register, if_pos known, if_pos room]
          refine ⟨rfl, ?_, known⟩
          intro other
          cases other <;> rfl
        · simp [register, known, room] at granted
      · simp [register, known] at granted

/-- The generators never go below zero. -/
theorem generated_register
    {table : Table} {kind : Kind} {name : TopicName}
    (generated : ∀ other, 0 ≤ table.nextId other) (other : Kind) :
    0 ≤ (table.register kind name).1.nextId other := by
  by_cases refused : (table.register kind name).2.id = -1
  · rw [(register_refused (generated kind) refused).1]
    exact generated other
  · rw [(register_granted refused).2.1 other]
    have before := generated other
    split <;> omega

/-- Ids of publishers stay below `MAX_PUBLISHERS`. -/
theorem register_granted_publisher
    {table : Table} {name : TopicName}
    (granted : (table.register .publisher name).2.id ≠ -1) :
    table.nextPublisherId < maxPublishers := by
  by_contra full
  simp only [register, if_neg full] at granted
  split at granted <;> exact granted rfl

end Table

namespace Registry

/-- The abstract side of a registry. -/
def table (registry : Registry) : Table where
  names :=
    occupied (fun topicId => (registry.allTopics topicId).name)
      registry.currentTopics
  nextPublisherId := registry.nextPublisherId
  nextSubscriberId := registry.nextSubscriberId

def nextId (registry : Registry) : Kind → Int
  | .publisher => registry.nextPublisherId
  | .subscriber => registry.nextSubscriberId

@[simp]
theorem nextId_table (registry : Registry) (kind : Kind) :
    registry.table.nextId kind = registry.nextId kind := by
  cases kind <;> rfl

@[simp]
theorem length_names_table (registry : Registry) :
    registry.table.names.length = registry.currentTopics := by
  simp [table]

theorem mem_names_table {registry : Registry} {name : TopicName} :
    name ∈ registry.table.names ↔
      ∃ topicId, topicId < registry.currentTopics ∧
        (registry.allTopics topicId).name = name := by
  simp [table, occupied]

theorem getTopicId_lt_iff {registry : Registry} {name : TopicName} :
    registry.getTopicId name < registry.currentTopics ↔
      name ∈ registry.table.names := by
  rw [getTopicId, search_lt_iff, mem_names_table]
  simp

/-- A successful lookup gives a topic of that name. -/
theorem name_getTopicId {registry : Registry} {name : TopicName}
    (inside : registry.getTopicId name < registry.currentTopics) :
    (registry.allTopics (registry.getTopicId name)).name = name := by
  simpa [getTopicId] using search_hit inside

/-- What `create_topic` does, by its three return values. -/
theorem createTopic_cases
    (registry : Registry) (name : TopicName) (stack : Topic) :
    (name ∈ registry.table.names ∧
        registry.currentTopics < maxTopics ∧
        registry.createTopic name stack = (registry, 2)) ∨
      (name ∉ registry.table.names ∧
        registry.currentTopics < maxTopics ∧
        registry.createTopic name stack =
          (registry.addTopic name stack, 0)) ∨
      (maxTopics ≤ registry.currentTopics ∧
        registry.createTopic name stack = (registry, 1)) := by
  by_cases room : registry.currentTopics < maxTopics
  · by_cases exists_ : registry.getTopicId name < registry.currentTopics
    · refine Or.inl ⟨getTopicId_lt_iff.mp exists_, room, ?_⟩
      rw [createTopic, if_pos room, if_pos exists_]
    · refine Or.inr (Or.inl ⟨?_, room, ?_⟩)
      · intro member
        exact exists_ (getTopicId_lt_iff.mpr member)
      · rw [createTopic, if_pos room, if_neg exists_]
  · refine Or.inr (Or.inr ⟨by omega, ?_⟩)
    rw [createTopic, if_neg room]

@[simp]
theorem addTopic_self
    (registry : Registry) (name : TopicName) (stack : Topic) :
    (registry.addTopic name stack).allTopics registry.currentTopics =
      { stack with
        name := name, numPublishers := 0, numSubscribers := 0 } := by
  simp [addTopic]

theorem addTopic_of_lt
    {registry : Registry} {topicId : Nat}
    (inside : topicId < registry.currentTopics)
    (name : TopicName) (stack : Topic) :
    (registry.addTopic name stack).allTopics topicId =
      registry.allTopics topicId :=
  Function.update_of_ne (by omega) _ _

/-- A new topic is found where it has been added. -/
theorem getTopicId_addTopic
    {registry : Registry} {name : TopicName}
    (new : name ∉ registry.table.names) (stack : Topic) :
    (registry.addTopic name stack).getTopicId name =
      registry.currentTopics := by
  apply search_eq_of_first (Nat.lt_succ_self _)
  · rw [addTopic_self]
    exact beq_self_eq_true name
  · intro topicId older
    rw [addTopic_of_lt older]
    refine beq_eq_false_iff_ne.mpr (fun same => new ?_)
    exact mem_names_table.mpr ⟨topicId, older, same⟩

theorem table_addTopic
    (registry : Registry) (name : TopicName) (stack : Topic) :
    (registry.addTopic name stack).table =
      { registry.table with names := registry.table.names ++ [name] } := by
  have names :
      occupied
          (fun topicId =>
            ((registry.addTopic name stack).allTopics topicId).name)
          (registry.currentTopics + 1) =
        registry.table.names ++ [name] := by
    rw [occupied_succ, addTopic_self]
    congr 1
    apply occupied_congr
    intro index inside
    rw [addTopic_of_lt inside]
  exact
    congrArg
      (fun names : List TopicName =>
        { registry.table with names := names })
      names

/-- Changing one topic but not its name leaves the table alone. -/
theorem table_updateTopic
    (registry : Registry) {topicId : Nat} {change : Topic → Topic}
    (sameName :
      (change (registry.allTopics topicId)).name =
        (registry.allTopics topicId).name) :
    (registry.updateTopic topicId change).table = registry.table := by
  unfold table
  congr 1
  apply occupied_congr
  intro index _
  by_cases same : index = topicId
  · subst same
    simpa [updateTopic] using sameName
  · simp [updateTopic, same]

@[simp]
theorem name_store
    (topic : Topic) (kind : Kind) (index : Int) (client : Client) :
    (topic.store kind index client).name = topic.name := by
  cases kind <;> simp only [Topic.store] <;> (repeat' split) <;> rfl

@[simp]
theorem name_addCount (topic : Topic) (kind : Kind) (amount : Int) :
    (topic.addCount kind amount).name = topic.name := by
  cases kind <;> rfl

@[simp]
theorem name_shiftClients
    (topic : Topic) (kind : Kind) (position : Nat) (beyond : Client) :
    (topic.shiftClients kind position beyond).name = topic.name := by
  cases kind <;> rfl

theorem table_shiftClients
    (registry : Registry) (topicId : Nat) (kind : Kind) (position : Nat)
    (beyond : Client) :
    (registry.updateTopic topicId
        (fun topic => topic.shiftClients kind position beyond)).table =
      registry.table :=
  table_updateTopic registry (name_shiftClients _ _ _ _)

theorem table_addCount
    (registry : Registry) (topicId : Nat) (kind : Kind) (amount : Int) :
    (registry.updateTopic topicId
        (fun topic => topic.addCount kind amount)).table =
      registry.table :=
  table_updateTopic registry (name_addCount _ _ _)

theorem table_countClient
    (registry : Registry) (kind : Kind) (name : TopicName) :
    (registry.countClient kind name).table = registry.table := by
  unfold table
  congr 1
  apply occupied_congr
  intro index _
  simp only [countClient]
  split
  · exact name_addCount _ _ _
  · rfl

/-- The table after `create_topic`, when it does not answer 1. -/
theorem table_createTopic
    {registry : Registry} (name : TopicName) (stack : Topic)
    (room : registry.currentTopics < maxTopics) :
    (registry.createTopic name stack).1.table =
      { registry.table with
        names :=
          if name ∈ registry.table.names then registry.table.names
          else registry.table.names ++ [name] } := by
  rcases createTopic_cases registry name stack with
    ⟨known, _, equation⟩ | ⟨new, _, equation⟩ | ⟨full, _⟩
  · rw [equation, if_pos known]
  · rw [equation, if_neg new]
    exact table_addTopic registry name stack
  · omega

theorem currentSubscribers_createTopic
    (registry : Registry) (name : TopicName) (stack : Topic) :
    (registry.createTopic name stack).1.currentSubscribers =
      registry.currentSubscribers := by
  rcases createTopic_cases registry name stack with
    ⟨_, _, equation⟩ | ⟨_, _, equation⟩ | ⟨_, equation⟩
  · rw [equation]
  · rw [equation]
    rfl
  · rw [equation]

/-- The code admits exactly the clients that the table admits, and answers
them as the table does. -/
theorem register_table
    {registry : Registry} (noneCounted : registry.currentSubscribers = 0)
    (kind : Kind) (name : TopicName) (fd : Fd) (stack : Topic) :
    (registry.register kind name fd stack).1.table =
        (registry.table.register kind name).1 ∧
      (registry.register kind name fd stack).2 =
        (registry.table.register kind name).2 ∧
      (registry.register kind name fd stack).1.currentSubscribers = 0 := by
  cases kind with
  | publisher =>
      simp only [register, registerPublisher, Table.register,
        getTopicId_lt_iff]
      by_cases known : name ∈ registry.table.names
      · rw [if_pos known, if_pos known]
        by_cases room : registry.nextPublisherId < maxPublishers
        · rw [if_pos room, if_pos (show
            registry.table.nextPublisherId < maxPublishers from room)]
          refine ⟨?_, rfl, noneCounted⟩
          have unchanged :
              (registry.updateTopic (registry.getTopicId name)
                (fun topic =>
                  topic.store .publisher
                    (registry.allTopics
                      (registry.getTopicId name)).numPublishers
                    ⟨name, registry.nextPublisherId, fd⟩)).table =
                registry.table :=
            table_updateTopic _ (name_store _ _ _ _)
          exact
            congrArg
              (fun table : Table =>
                { table with
                  nextPublisherId := registry.nextPublisherId + 1 })
              unchanged
        · rw [if_neg room, if_neg (show
            ¬ registry.table.nextPublisherId < maxPublishers from room)]
          exact ⟨rfl, rfl, noneCounted⟩
      · rw [if_neg known, if_neg known]
        exact ⟨rfl, rfl, noneCounted⟩
  | subscriber =>
      simp only [register, registerSubscriber, Table.register,
        length_names_table]
      have counted :=
        currentSubscribers_createTopic registry name stack
      by_cases room : registry.currentTopics < maxTopics
      · have status : (registry.createTopic name stack).2 ≠ 1 := by
          rcases createTopic_cases registry name stack with
            ⟨_, _, equation⟩ | ⟨_, _, equation⟩ | ⟨full, _⟩
          · simp [equation]
          · simp [equation]
          · omega
        have created := table_createTopic name stack room
        have generator :
            (registry.createTopic name stack).1.nextSubscriberId =
              registry.nextSubscriberId :=
          congrArg Table.nextSubscriberId created
        rw [if_pos status, if_pos room,
          if_pos (by rw [counted, noneCounted]; decide)]
        refine ⟨?_, by rw [generator]; rfl, by
          rw [← noneCounted, ← counted]; rfl⟩
        generalize (registry.createTopic name stack).1 = middle at *
        have unchanged :
            (middle.updateTopic (middle.getTopicId name)
              (fun topic =>
                topic.store .subscriber
                  (middle.allTopics
                    (middle.getTopicId name)).numSubscribers
                  ⟨name, middle.nextSubscriberId, fd⟩)).table =
              middle.table :=
          table_updateTopic _ (name_store _ _ _ _)
        rw [created] at unchanged
        have raised :=
          congrArg
            (fun table : Table =>
              { table with
                nextSubscriberId := middle.nextSubscriberId + 1 })
            unchanged
        rw [generator] at raised ⊢
        exact raised
      · have full : registry.createTopic name stack = (registry, 1) := by
          rw [createTopic, if_neg room]
        rw [full, if_neg (by simp), if_neg room]
        exact ⟨rfl, rfl, noneCounted⟩

end Registry

end SistemasDistribuidos.Practica4
