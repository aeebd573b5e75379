import SistemasDistribuidos.Practica4.Topics

/-!
# The client arrays of the topics

`Holds registry lists`: the arrays of every topic begin with the given lists
of clients.  `Counts registry expected`: the counters of every topic have the
given values.  The two are kept apart because the code changes an array and
its counter at different moments.
-/

namespace SistemasDistribuidos.Practica4

open SistemasDistribuidos SlotArray

/-- The clients of every topic and kind, in the order of their slots. -/
abbrev Lists := TopicName → Kind → List Client

namespace Lists

def append (lists : Lists) (client : Client) (kind : Kind) : Lists :=
  fun name other =>
    if name = client.topic ∧ other = kind then
      lists name other ++ [client]
    else
      lists name other

def erase (lists : Lists) (name : TopicName) (kind : Kind)
    (position : Nat) : Lists :=
  fun other otherKind =>
    if other = name ∧ otherKind = kind then
      (lists other otherKind).eraseIdx position
    else
      lists other otherKind

theorem length_append
    (lists : Lists) (client : Client) (kind : Kind)
    (name : TopicName) (other : Kind) :
    (lists.append client kind name other).length =
      (lists name other).length +
        if name = client.topic ∧ other = kind then 1 else 0 := by
  rw [append]
  split <;> simp

end Lists

/-! ## Arrays after one operation -/

namespace Topic

@[simp]
theorem clients_addCount
    (topic : Topic) (kind : Kind) (amount : Int) :
    (topic.addCount kind amount).clients = topic.clients := by
  funext other
  cases kind <;> cases other <;> rfl

theorem count_addCount
    (topic : Topic) (kind other : Kind) (amount : Int) :
    (topic.addCount kind amount).count other =
      if other = kind then topic.count other + amount
      else topic.count other := by
  cases kind <;> cases other <;> rfl

@[simp]
theorem count_store
    (topic : Topic) (kind : Kind) (index : Int) (client : Client) :
    (topic.store kind index client).count = topic.count := by
  funext other
  cases kind <;> cases other <;>
    simp only [Topic.store] <;> (repeat' split) <;> rfl

@[simp]
theorem count_shiftClients
    (topic : Topic) (kind : Kind) (position : Nat) (beyond : Client) :
    (topic.shiftClients kind position beyond).count = topic.count := by
  funext other
  cases kind <;> cases other <;> rfl

/-- A store inside the array changes one slot of it. -/
theorem clients_store
    (topic : Topic) {kind : Kind} {index : Nat} (client : Client)
    (inside : index < capacity kind) (other : Kind) :
    (topic.store kind index client).clients other =
      if other = kind then
        Function.update (topic.clients kind) index client
      else
        topic.clients other := by
  cases kind with
  | publisher =>
      have range : (0 : Int) ≤ index := Int.natCast_nonneg index
      cases other <;> simp [Topic.store, Topic.clients, range]
  | subscriber =>
      have range : (index : Int) < maxSubscribers := by
        exact_mod_cast inside
      cases other <;> simp [Topic.store, Topic.clients, range]

theorem clients_shiftClients
    (topic : Topic) (kind other : Kind) (position : Nat)
    (beyond : Client) :
    (topic.shiftClients kind position beyond).clients other =
      if other = kind then
        shiftLoop
          (Function.update (topic.clients kind) (capacity kind)
            (topic.pastEnd beyond kind))
          (capacity kind - position) position
      else
        topic.clients other := by
  cases kind <;> cases other <;> rfl

end Topic

namespace Registry

@[simp]
theorem currentTopics_updateTopic
    (registry : Registry) (topicId : Nat) (change : Topic → Topic) :
    (registry.updateTopic topicId change).currentTopics =
      registry.currentTopics :=
  rfl

@[simp]
theorem updateTopic_self
    (registry : Registry) (topicId : Nat) (change : Topic → Topic) :
    (registry.updateTopic topicId change).allTopics topicId =
      change (registry.allTopics topicId) :=
  Function.update_self _ _ _

theorem updateTopic_of_ne
    (registry : Registry) {topicId other : Nat} (change : Topic → Topic)
    (different : other ≠ topicId) :
    (registry.updateTopic topicId change).allTopics other =
      registry.allTopics other :=
  Function.update_of_ne different _ _

theorem updateTopic_updateTopic
    (registry : Registry) (topicId : Nat) (first second : Topic → Topic) :
    (registry.updateTopic topicId first).updateTopic topicId second =
      registry.updateTopic topicId (fun topic => second (first topic)) := by
  simp [updateTopic]

/-- A change that leaves the counters of its topic leaves all of them. -/
theorem count_updateTopic
    (registry : Registry) {topicId : Nat} {change : Topic → Topic}
    (same :
      (change (registry.allTopics topicId)).count =
        (registry.allTopics topicId).count) (other : Nat) :
    ((registry.updateTopic topicId change).allTopics other).count =
      (registry.allTopics other).count := by
  by_cases here : other = topicId
  · rw [here, updateTopic_self, same]
  · rw [updateTopic_of_ne _ _ here]

/-! ## Arrays and lists -/

/-- The arrays of every topic begin with the given lists. -/
structure Holds (registry : Registry) (lists : Lists) : Prop where
  topics_le : registry.currentTopics ≤ maxTopics
  names_nodup : registry.table.names.Nodup
  slots : ∀ topicId, topicId < registry.currentTopics → ∀ kind,
    occupied ((registry.allTopics topicId).clients kind)
        (lists (registry.allTopics topicId).name kind).length =
      lists (registry.allTopics topicId).name kind
  fits : ∀ name kind, (lists name kind).length ≤ capacity kind
  known : ∀ name kind, lists name kind ≠ [] →
    name ∈ registry.table.names

/-- The counters of every topic have the given values. -/
def Counts (registry : Registry) (expected : TopicName → Kind → Int) :
    Prop :=
  ∀ topicId, topicId < registry.currentTopics → ∀ kind,
    (registry.allTopics topicId).count kind =
      expected (registry.allTopics topicId).name kind

theorem getElem?_names
    {registry : Registry} {topicId : Nat}
    (inside : topicId < registry.currentTopics) :
    registry.table.names[topicId]? =
      some (registry.allTopics topicId).name := by
  rw [table, getElem?_occupied, if_pos inside]

theorem getElem?_names_eq_some
    {registry : Registry} {topicId : Nat} {name : TopicName} :
    registry.table.names[topicId]? = some name ↔
      topicId < registry.currentTopics ∧
        (registry.allTopics topicId).name = name := by
  rw [table, getElem?_occupied]
  by_cases inside : topicId < registry.currentTopics
  · simp [inside]
  · simp [inside]

theorem name_injective
    {registry : Registry} (distinct : registry.table.names.Nodup)
    {first second : Nat}
    (firstInside : first < registry.currentTopics)
    (secondInside : second < registry.currentTopics)
    (same :
      (registry.allTopics first).name =
        (registry.allTopics second).name) :
    first = second := by
  have equalSlots :
      registry.table.names[first]? = registry.table.names[second]? := by
    rw [getElem?_names firstInside, getElem?_names secondInside, same]
  exact
    (List.getElem?_inj (by simpa using firstInside) distinct).mp
      equalSlots

/-- `Holds` only looks at the names and the arrays. -/
theorem Holds.of_same
    {registry other : Registry} {lists : Lists}
    (holds : registry.Holds lists)
    (topics : other.currentTopics = registry.currentTopics)
    (names : other.table.names = registry.table.names)
    (slots : ∀ topicId,
      (other.allTopics topicId).name =
          (registry.allTopics topicId).name ∧
        (other.allTopics topicId).clients =
          (registry.allTopics topicId).clients) :
    other.Holds lists where
  topics_le := by
    rw [topics]
    exact holds.topics_le
  names_nodup := by
    rw [names]
    exact holds.names_nodup
  slots := by
    intro topicId inside kind
    rw [topics] at inside
    rw [(slots topicId).1, (slots topicId).2]
    exact holds.slots topicId inside kind
  fits := holds.fits
  known := by
    intro name kind nonempty
    rw [names]
    exact holds.known name kind nonempty

theorem holds_initial : initial.Holds (fun _ _ => []) where
  topics_le := by decide
  names_nodup := by simp [table, initial]
  slots := by simp [initial]
  fits := by simp
  known := by simp

theorem Holds.addTopic
    {registry : Registry} {lists : Lists}
    (holds : registry.Holds lists)
    (room : registry.currentTopics < maxTopics)
    {name : TopicName} (new : name ∉ registry.table.names)
    (stack : Topic) :
    (registry.addTopic name stack).Holds lists where
  topics_le := room
  names_nodup := by
    rw [table_addTopic]
    exact
      List.nodup_append.mpr
        ⟨holds.names_nodup, List.nodup_singleton name, by
          intro known member other otherMember same
          rw [List.mem_singleton] at otherMember
          exact new (otherMember ▸ same ▸ member)⟩
  slots := by
    intro topicId inside kind
    by_cases last : topicId = registry.currentTopics
    · have empty : lists name kind = [] := by
        by_contra nonempty
        exact new (holds.known name kind nonempty)
      rw [last, addTopic_self, empty]
      rfl
    · have older : topicId < registry.currentTopics := by
        have bound : topicId < registry.currentTopics + 1 := inside
        omega
      rw [addTopic_of_lt older]
      exact holds.slots topicId older kind
  fits := holds.fits
  known := by
    intro other kind nonempty
    rw [table_addTopic]
    exact
      List.mem_append_left [name] (holds.known other kind nonempty)

/-- Storing a client in the slot its topic's list ends at appends it. -/
theorem Holds.store
    {registry : Registry} {lists : Lists}
    (holds : registry.Holds lists)
    {topicId : Nat} (inside : topicId < registry.currentTopics)
    {kind : Kind} (client : Client) {index : Int}
    (named : (registry.allTopics topicId).name = client.topic)
    (atEnd : index = (lists client.topic kind).length)
    (room : (lists client.topic kind).length < capacity kind) :
    (registry.updateTopic topicId
        (fun topic => topic.store kind index client)).Holds
      (lists.append client kind) := by
  have table :
      (registry.updateTopic topicId
        (fun topic => topic.store kind index client)).table =
        registry.table :=
    table_updateTopic _ (name_store _ _ _ _)
  refine
    { topics_le := holds.topics_le
      names_nodup := by rw [table]; exact holds.names_nodup
      slots := ?_
      fits := ?_
      known := ?_ }
  · intro other otherInside otherKind
    rw [currentTopics_updateTopic] at otherInside
    by_cases same : other = topicId
    · subst same
      rw [updateTopic_self, name_store, atEnd,
        Topic.clients_store _ _ room, named]
      have slots := holds.slots other inside otherKind
      rw [named] at slots
      by_cases sameKind : otherKind = kind
      · subst sameKind
        rw [if_pos rfl, Lists.append, if_pos ⟨rfl, rfl⟩,
          List.length_append, List.length_singleton,
          occupied_update_end, slots]
      · rw [if_neg sameKind, Lists.append,
          if_neg (fun both => sameKind both.2)]
        exact slots
    · have otherName :
          (registry.allTopics other).name ≠ client.topic := by
        intro equal
        exact
          same
            (name_injective holds.names_nodup otherInside inside
              (equal.trans named.symm))
      rw [updateTopic_of_ne _ _ same, Lists.append,
        if_neg (fun both => otherName both.1)]
      exact holds.slots other otherInside otherKind
  · intro name otherKind
    rw [Lists.append]
    split
    · rename_i here
      rw [here.1, here.2, List.length_append, List.length_singleton]
      exact room
    · exact holds.fits name otherKind
  · intro name otherKind nonempty
    rw [table]
    rw [Lists.append] at nonempty
    split at nonempty
    · rename_i here
      rw [here.1, ← named]
      exact mem_names_table.mpr ⟨topicId, inside, rfl⟩
    · exact holds.known name otherKind nonempty

/-- Moving the slots from a client's position on to the left erases it. -/
theorem Holds.shiftClients
    {registry : Registry} {lists : Lists}
    (holds : registry.Holds lists)
    {topicId : Nat} (inside : topicId < registry.currentTopics)
    {name : TopicName} {kind : Kind} {position : Nat}
    (named : (registry.allTopics topicId).name = name)
    (occupiedSlot : position < (lists name kind).length)
    (beyond : Client) :
    (registry.updateTopic topicId
        (fun topic => topic.shiftClients kind position beyond)).Holds
      (lists.erase name kind position) := by
  have table :=
    table_shiftClients registry topicId kind position beyond
  refine
    { topics_le := holds.topics_le
      names_nodup := by rw [table]; exact holds.names_nodup
      slots := ?_
      fits := ?_
      known := ?_ }
  · intro other otherInside otherKind
    rw [currentTopics_updateTopic] at otherInside
    by_cases same : other = topicId
    · subst same
      rw [updateTopic_self, name_shiftClients,
        Topic.clients_shiftClients, named]
      have slots := holds.slots other inside otherKind
      rw [named] at slots
      by_cases sameKind : otherKind = kind
      · subst sameKind
        have fits := holds.fits name otherKind
        have erasedLength :
            ((lists name otherKind).eraseIdx position).length =
              (lists name otherKind).length - 1 :=
          List.length_eraseIdx_of_lt occupiedSlot
        have beforeEnd :
            occupied
                (Function.update
                  ((registry.allTopics other).clients otherKind)
                  (capacity otherKind)
                  ((registry.allTopics other).pastEnd beyond otherKind))
                (lists name otherKind).length =
              lists name otherKind := by
          conv_rhs => rw [← slots]
          apply occupied_congr
          intro index small
          exact Function.update_of_ne (by omega) _ _
        rw [if_pos rfl, Lists.erase, if_pos ⟨rfl, rfl⟩, erasedLength,
          occupied_shiftLoop occupiedSlot fits, beforeEnd]
      · rw [if_neg sameKind, Lists.erase,
          if_neg (fun both => sameKind both.2)]
        exact slots
    · have otherName : (registry.allTopics other).name ≠ name := by
        intro equal
        exact
          same
            (name_injective holds.names_nodup otherInside inside
              (equal.trans named.symm))
      rw [updateTopic_of_ne _ _ same, Lists.erase,
        if_neg (fun both => otherName both.1)]
      exact holds.slots other otherInside otherKind
  · intro other otherKind
    have fits := holds.fits other otherKind
    rw [Lists.erase]
    split
    · exact
        Nat.le_trans (List.length_eraseIdx_le _ _) fits
    · exact fits
  · intro other otherKind nonempty
    rw [table]
    apply holds.known other otherKind
    intro empty
    rw [Lists.erase, empty] at nonempty
    simp at nonempty

/-! ## Counters -/

theorem counts_initial : initial.Counts (fun _ _ => 0) := by
  intro topicId inside
  exact absurd inside (Nat.not_lt_zero topicId)

theorem Counts.addTopic
    {registry : Registry} {expected : TopicName → Kind → Int}
    (counts : registry.Counts expected)
    {name : TopicName} (zero : ∀ kind, expected name kind = 0)
    (stack : Topic) :
    (registry.addTopic name stack).Counts expected := by
  intro topicId inside kind
  by_cases last : topicId = registry.currentTopics
  · rw [last, addTopic_self, zero]
    cases kind <;> rfl
  · have older : topicId < registry.currentTopics := by
      have bound : topicId < registry.currentTopics + 1 := inside
      omega
    rw [addTopic_of_lt older]
    exact counts topicId older kind

/-- A change of one topic that keeps its name and its counters. -/
theorem Counts.updateTopic
    {registry : Registry} {expected : TopicName → Kind → Int}
    (counts : registry.Counts expected)
    {topicId : Nat} {change : Topic → Topic}
    (sameName :
      (change (registry.allTopics topicId)).name =
        (registry.allTopics topicId).name)
    (sameCount :
      (change (registry.allTopics topicId)).count =
        (registry.allTopics topicId).count) :
    (registry.updateTopic topicId change).Counts expected := by
  intro other inside kind
  by_cases same : other = topicId
  · subst same
    rw [updateTopic_self, sameName, sameCount]
    exact counts other inside kind
  · rw [updateTopic_of_ne _ _ same]
    exact counts other inside kind

theorem Counts.countClient
    {registry : Registry} {expected : TopicName → Kind → Int}
    (counts : registry.Counts expected)
    (kind : Kind) (name : TopicName) :
    (registry.countClient kind name).Counts
      (fun other otherKind =>
        if other = name ∧ otherKind = kind then
          expected other otherKind + 1
        else
          expected other otherKind) := by
  intro topicId inside otherKind
  have inside : topicId < registry.currentTopics := inside
  have before := counts topicId inside otherKind
  by_cases named : (registry.allTopics topicId).name = name
  · simp only [Registry.countClient, inside, named, and_self, if_true,
      name_addCount, Topic.count_addCount, true_and]
    rw [before, named]
  · simp only [Registry.countClient, inside, named, and_false, if_false,
      false_and]
    exact before

/-- Counting a client touches no name and no array. -/
theorem Holds.countClient
    {registry : Registry} {lists : Lists}
    (holds : registry.Holds lists) (kind : Kind) (name : TopicName) :
    (registry.countClient kind name).Holds lists := by
  refine
    holds.of_same rfl
      (congrArg Table.names (table_countClient registry kind name)) ?_
  intro topicId
  simp only [Registry.countClient]
  split
  · exact ⟨name_addCount _ _ _, Topic.clients_addCount _ _ _⟩
  · exact ⟨rfl, rfl⟩

/-- Neither does lowering a counter. -/
theorem Holds.decrement
    {registry : Registry} {lists : Lists}
    (holds : registry.Holds lists) (topicId : Nat) (kind : Kind) :
    (registry.updateTopic topicId
        (fun topic => topic.addCount kind (-1))).Holds lists := by
  refine
    holds.of_same rfl
      (congrArg Table.names (table_addCount registry topicId kind (-1))) ?_
  intro other
  by_cases same : other = topicId
  · subst same
    rw [updateTopic_self]
    exact ⟨name_addCount _ _ _, Topic.clients_addCount _ _ _⟩
  · rw [updateTopic_of_ne _ _ same]
    exact ⟨rfl, rfl⟩

theorem Counts.decrement
    {registry : Registry} {expected : TopicName → Kind → Int}
    (distinct : registry.table.names.Nodup)
    (counts : registry.Counts expected)
    {topicId : Nat} (inside : topicId < registry.currentTopics)
    {name : TopicName}
    (named : (registry.allTopics topicId).name = name) (kind : Kind) :
    (registry.updateTopic topicId
        (fun topic => topic.addCount kind (-1))).Counts
      (fun other otherKind =>
        if other = name ∧ otherKind = kind then
          expected other otherKind - 1
        else
          expected other otherKind) := by
  intro other otherInside otherKind
  rw [currentTopics_updateTopic] at otherInside
  have before := counts other otherInside otherKind
  by_cases same : other = topicId
  · subst same
    simp only [updateTopic_self, name_addCount, Topic.count_addCount,
      named, true_and]
    rw [before, named]
    rfl
  · have otherName : (registry.allTopics other).name ≠ name := by
      intro equal
      exact
        same
          (name_injective distinct otherInside inside
            (equal.trans named.symm))
    simp only [updateTopic_of_ne _ _ same, otherName, false_and,
      if_false]
    exact before

/-! ## A registration -/

/-- An admitted client is stored in its topic, at the index that the topic's
counter gives; the topic is either known or has just been added. -/
theorem register_admitted
    {registry : Registry} (noneCounted : registry.currentSubscribers = 0)
    {kind : Kind} {name : TopicName} {fd : Fd} {stack : Topic}
    (granted : (registry.register kind name fd stack).2.id ≠ -1) :
    ∃ middle : Registry,
      (middle = registry ∨
          (middle = registry.addTopic name stack ∧
            name ∉ registry.table.names ∧
            registry.currentTopics < maxTopics)) ∧
        middle.getTopicId name < middle.currentTopics ∧
        (registry.register kind name fd stack).1.currentTopics =
          middle.currentTopics ∧
        (registry.register kind name fd stack).1.allTopics =
          (middle.updateTopic (middle.getTopicId name)
            (fun topic =>
              topic.store kind
                ((middle.allTopics (middle.getTopicId name)).count kind)
                ⟨name, registry.nextId kind, fd⟩)).allTopics := by
  cases kind with
  | publisher =>
      simp only [register, registerPublisher] at granted ⊢
      by_cases known : registry.getTopicId name < registry.currentTopics
      · rw [if_pos known] at granted ⊢
        by_cases room : registry.nextPublisherId < maxPublishers
        · rw [if_pos room] at granted ⊢
          exact ⟨registry, Or.inl rfl, known, rfl, rfl⟩
        · rw [if_neg room] at granted
          exact absurd rfl granted
      · rw [if_neg known] at granted
        exact absurd rfl granted
  | subscriber =>
      simp only [register, registerSubscriber] at granted ⊢
      have counted := currentSubscribers_createTopic registry name stack
      have below :
          (registry.createTopic name stack).1.currentSubscribers <
            maxSubscribers := by
        rw [counted, noneCounted]
        decide
      rcases createTopic_cases registry name stack with
        ⟨known, _, equation⟩ | ⟨new, room, equation⟩ | ⟨_, equation⟩
      · rw [equation] at below ⊢
        rw [if_pos (by simp), if_pos below]
        exact
          ⟨registry, Or.inl rfl, getTopicId_lt_iff.mpr known, rfl, rfl⟩
      · rw [equation] at below ⊢
        rw [if_pos (by simp), if_pos below]
        refine
          ⟨registry.addTopic name stack, Or.inr ⟨rfl, new, room⟩,
            ?_, rfl, rfl⟩
        rw [getTopicId_lt_iff, table_addTopic]
        simp
      · rw [equation, if_neg (by simp)] at granted
        exact absurd rfl granted

/-- A client that is admitted finds its topic there, or brings it into
being. -/
theorem opened_of_ok
    {registry : Registry} {kind : Kind} {name : TopicName} {fd : Fd}
    {stack : Topic}
    (ok : (registry.register kind name fd stack).2.responseStatus = .ok) :
    (name ∈ registry.table.names ∧
        registry.opened kind name stack = registry ∧
        (kind = .publisher → registry.nextPublisherId < maxPublishers)) ∨
      (kind = .subscriber ∧ name ∉ registry.table.names ∧
        registry.opened kind name stack =
          registry.addTopic name stack) := by
  cases kind with
  | publisher =>
      simp only [register, registerPublisher] at ok
      split at ok
      · rename_i inside
        split at ok
        · rename_i room
          exact Or.inl ⟨getTopicId_lt_iff.mp inside, rfl, fun _ => room⟩
        · cases ok
      · cases ok
  | subscriber =>
      rcases createTopic_cases registry name stack with
        ⟨known, _, equation⟩ | ⟨new, _, equation⟩ | ⟨_, equation⟩
      · exact Or.inl ⟨known, congrArg Prod.fst equation, Kind.noConfusion⟩
      · exact Or.inr ⟨rfl, new, congrArg Prod.fst equation⟩
      · simp only [register, registerSubscriber, equation, ne_eq,
          not_true_eq_false, if_false] at ok
        cases ok

/-- A refused registration changes nothing. -/
theorem register_refused
    {registry : Registry} (noneCounted : registry.currentSubscribers = 0)
    {kind : Kind} {name : TopicName} {fd : Fd} {stack : Topic}
    (generated : 0 ≤ registry.nextId kind)
    (refused : (registry.register kind name fd stack).2.id = -1) :
    (registry.register kind name fd stack).1 = registry := by
  cases kind with
  | publisher =>
      have generated : 0 ≤ registry.nextPublisherId := generated
      simp only [register, registerPublisher] at refused ⊢
      split at refused
      · rename_i known
        split at refused
        · simp only at refused
          omega
        · rename_i full
          rw [if_pos known, if_neg full]
      · rename_i unknown
        rw [if_neg unknown]
  | subscriber =>
      simp only [register, registerSubscriber] at refused ⊢
      have counted := currentSubscribers_createTopic registry name stack
      have below :
          (registry.createTopic name stack).1.currentSubscribers <
            maxSubscribers := by
        rw [counted, noneCounted]
        decide
      have generated :
          0 ≤ (registry.createTopic name stack).1.nextSubscriberId := by
        have before : 0 ≤ registry.nextSubscriberId := generated
        rcases createTopic_cases registry name stack with
          ⟨_, _, equation⟩ | ⟨_, _, equation⟩ | ⟨_, equation⟩ <;>
          rw [equation] <;> exact before
      rcases createTopic_cases registry name stack with
        ⟨_, _, equation⟩ | ⟨_, _, equation⟩ | ⟨_, equation⟩
      · rw [equation] at refused below generated
        rw [if_pos (by simp), if_pos below] at refused
        simp only at refused generated
        omega
      · rw [equation] at refused below generated
        rw [if_pos (by simp), if_pos below] at refused
        simp only at refused generated
        omega
      · rw [equation, if_neg (by simp)]

/-- A registration that finds the counter of its topic equal to the number of
clients in the array, and room in the array, appends the client. -/
theorem Holds.register
    {registry : Registry} {lists : Lists}
    {expected : TopicName → Kind → Int}
    (holds : registry.Holds lists) (counts : registry.Counts expected)
    (noneCounted : registry.currentSubscribers = 0)
    (fresh : ∀ name, name ∉ registry.table.names →
      ∀ kind, expected name kind = 0)
    {kind : Kind} {name : TopicName} {fd : Fd} {stack : Topic}
    (atEnd : expected name kind = (lists name kind).length)
    (room : (lists name kind).length < capacity kind)
    (granted : (registry.register kind name fd stack).2.id ≠ -1) :
    (registry.register kind name fd stack).1.Holds
        (lists.append ⟨name, registry.nextId kind, fd⟩ kind) ∧
      (registry.register kind name fd stack).1.Counts expected := by
  obtain ⟨middle, origin, inside, topics, equation⟩ :=
    register_admitted noneCounted granted
  have middleHolds : middle.Holds lists := by
    rcases origin with rfl | ⟨rfl, new, space⟩
    · exact holds
    · exact holds.addTopic space new stack
  have middleCounts : middle.Counts expected := by
    rcases origin with rfl | ⟨rfl, new, space⟩
    · exact counts
    · exact counts.addTopic (fresh name new) stack
  have named := name_getTopicId inside
  have stored :=
    middleHolds.store inside ⟨name, registry.nextId kind, fd⟩ named
      ((middleCounts _ inside kind).trans (by rw [named]; exact atEnd)) room
  have counted :
      (middle.updateTopic (middle.getTopicId name)
        (fun topic =>
          topic.store kind
            ((middle.allTopics (middle.getTopicId name)).count kind)
            ⟨name, registry.nextId kind, fd⟩)).Counts expected :=
    middleCounts.updateTopic (name_store _ _ _ _) (Topic.count_store _ _ _ _)
  constructor
  · refine stored.of_same topics ?_ (fun topicId => by
      rw [equation]
      exact ⟨rfl, rfl⟩)
    simp only [table, equation, topics, currentTopics_updateTopic]
  · intro topicId below other
    rw [topics] at below
    rw [equation]
    exact counted topicId below other

end Registry

end SistemasDistribuidos.Practica4
