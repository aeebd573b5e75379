import SistemasDistribuidos.Practica4.Capacity

/-!
# Which topics a subscriber can bring into being

`create_topic` looks for room in the table before it looks for the topic, so
with `MAX_TOPICS` topics a subscriber of any of them is refused like one of a
new topic.  The state is one that any interleaving of the handlers can reach.
-/

namespace SistemasDistribuidos.Practica4

open SistemasDistribuidos Machine

theorem Table.length_register
    {table : Table} (most : table.names.length ≤ maxTopics)
    (kind : Kind) (name : TopicName) :
    (table.register kind name).1.names.length ≤ maxTopics := by
  cases kind with
  | publisher =>
      simp only [register]
      split
      · split
        · exact most
        · exact most
      · exact most
  | subscriber =>
      simp only [register]
      split
      · rename_i room
        simp only
        split
        · exact most
        · rw [List.length_append]
          exact room
      · exact most

theorem Account.length_follow
    {account : Account} (most : account.table.names.length ≤ maxTopics)
    (action : HandlerAction) :
    (account.follow action).table.names.length ≤ maxTopics := by
  cases action with
  | store fd kind topic stack =>
      simp only [follow, register]
      split
      · exact Table.length_register most kind topic
      · exact Table.length_register most kind topic
  | _ => exact most

namespace Handlers

/-- What should become of the topics when a subscriber that asks for one is
handled: an `ERROR` exactly when the topic is not there and the table is full;
nothing when it is there; and otherwise one more topic, without clients. -/
def AdmitsTopic (handlers next : Handlers) (name : TopicName) (fd : Fd)
    (stack : Topic) : Prop :=
  let registry := handlers.registry
  let answer := (registry.register .subscriber name fd stack).2
  (answer.responseStatus = .error ↔
      name ∉ registry.table.names ∧
        registry.currentTopics = maxTopics) ∧
    (name ∈ registry.table.names →
      next.registry.table.names = registry.table.names ∧
        ∀ topicId kind,
          (next.registry.allTopics topicId).count kind =
            (registry.allTopics topicId).count kind) ∧
    (name ∉ registry.table.names →
      registry.currentTopics < maxTopics →
        next.registry.table.names = registry.table.names ++ [name] ∧
          (∀ kind,
            (next.registry.allTopics registry.currentTopics).count kind =
              0) ∧
          ∀ topicId, topicId < registry.currentTopics →
            next.registry.allTopics topicId = registry.allTopics topicId)

section Topics

variable {handlers : Handlers}

theorem topics_le_of_run
    {actions : List HandlerAction}
    (reached : run step initial actions = some handlers) :
    handlers.Generators ∧
      handlers.registry.currentTopics ≤ maxTopics := by
  have preserved : ∀ state action next,
      state.Generators ∧ state.account.table.names.length ≤ maxTopics →
        step state action = some next →
          next.Generators ∧
            next.account.table.names.length ≤ maxTopics := by
    intro state action next kept taken
    obtain ⟨generators, account⟩ := step_account kept.1 taken
    rw [account]
    exact ⟨generators, Account.length_follow kept.2 action⟩
  obtain ⟨generators, most⟩ :=
    invariant_of_any_run preserved
      ⟨generators_initial, Nat.zero_le _⟩ reached
  refine ⟨generators, ?_⟩
  rw [← Registry.length_names_table]
  exact most

theorem registry_store
    (handlers : Handlers) (fd : Fd) (kind : Kind) (name : TopicName)
    (stack : Topic) :
    (handlers.store fd kind name stack).registry =
      (handlers.registry.register kind name fd stack).1 := by
  simp only [store]
  split <;> rfl

/-- With room in the table the topic is as it should be. -/
theorem admitsTopic_of_room
    (generators : handlers.Generators)
    (room : handlers.registry.currentTopics < maxTopics)
    (name : TopicName) (fd : Fd) (stack : Topic) :
    handlers.AdmitsTopic (handlers.store fd .subscriber name stack) name fd
      stack := by
  rw [AdmitsTopic, registry_store]
  have ok :=
    (subscriber_admitted_iff generators name fd stack).mpr room
  have table :
      (handlers.registry.register .subscriber name fd
          stack).1.table.names =
        if name ∈ handlers.registry.table.names then
          handlers.registry.table.names
        else handlers.registry.table.names ++ [name] := by
    rw [(Registry.register_table generators.noneCounted .subscriber name fd
        stack).1, Table.register, Registry.length_names_table,
      if_pos room]
  obtain ⟨middle, origin, inside, _, topics⟩ :=
    Registry.register_admitted generators.noneCounted
      (granted_of_ok generators ok)
  have counts : ∀ topicId,
      ((handlers.registry.register .subscriber name fd
          stack).1.allTopics topicId).count =
        (middle.allTopics topicId).count := by
    intro topicId
    rw [topics]
    exact
      middle.count_updateTopic (Topic.count_store _ _ _ _) topicId
  refine ⟨?_, ?_, ?_⟩
  · rw [ok]
    refine iff_of_false Status.noConfusion ?_
    omega
  · intro known
    rcases origin with rfl | ⟨_, new, _⟩
    · exact
        ⟨table.trans (if_pos known), fun topicId kind =>
          congrFun (counts topicId) kind⟩
    · exact absurd known new
  · intro new _
    rcases origin with rfl | ⟨rfl, _, _⟩
    · exact absurd (Registry.getTopicId_lt_iff.mp inside) new
    · refine ⟨table.trans (if_neg new), fun kind => ?_, ?_⟩
      · rw [counts, Registry.addTopic_self]
        cases kind <;> rfl
      · intro topicId older
        rw [topics, Registry.getTopicId_addTopic new,
          Registry.updateTopic_of_ne _ _ (Nat.ne_of_lt older),
          Registry.addTopic_of_lt older]

/-- A full table refuses every subscriber and stays as it is. -/
theorem refused_of_full
    (generators : handlers.Generators)
    (full : handlers.registry.currentTopics = maxTopics)
    (name : TopicName) (fd : Fd) (stack : Topic) :
    handlers.registry.register .subscriber name fd stack =
      (handlers.registry, ⟨.error, -1⟩) := by
  have answer :
      (handlers.registry.register .subscriber name fd stack).2 =
        ⟨.error, -1⟩ := by
    rw [answer_eq generators, Table.register,
      Registry.length_names_table, if_neg (by omega)]
  have unchanged :=
    Registry.register_refused generators.noneCounted
      (generators.generated .subscriber) (congrArg Response.id answer)
  exact Prod.ext unchanged answer

end Topics

/-- In every reachable state the topics become what they should, when a
subscriber is handled and its store stays in its topic, exactly when the table
has room or does not have the topic. -/
theorem topic_admitted
    {actions : List HandlerAction} {handlers next : Handlers}
    (reached : run step initial actions = some handlers)
    {name : TopicName} {fd : Fd} {stack : Topic}
    (taken :
      handlers.step (.store fd .subscriber name stack) = some next) :
    handlers.AdmitsTopic next name fd stack ↔
      handlers.registry.currentTopics < maxTopics ∨
        name ∉ handlers.registry.table.names := by
  obtain ⟨generators, most⟩ := topics_le_of_run reached
  obtain ⟨_, _, rfl⟩ := step_store taken
  by_cases room : handlers.registry.currentTopics < maxTopics
  · exact
      iff_of_true (admitsTopic_of_room generators room name fd stack)
        (Or.inl room)
  · have full : handlers.registry.currentTopics = maxTopics := by
      omega
    rw [AdmitsTopic, registry_store, refused_of_full generators full]
    constructor
    · intro admits
      exact Or.inr (admits.1.mp rfl).1
    · intro given
      rcases given with impossible | new
      · exact absurd impossible room
      · exact
          ⟨iff_of_true rfl ⟨new, full⟩, fun known => absurd known new,
            fun _ space => absurd space room⟩

/-- Two subscribers register, and the first one is on its way out, between
the shift and the decrement. -/
def crossing : List HandlerAction :=
  [.store 4 .subscriber topicT (Registry.initial.allTopics 0), .respond 4,
    .count 4, .store 5 .subscriber topicT (Registry.initial.allTopics 0),
    .quit 4, .find 4 topicT 1 0, .respond 5, .count 5,
    .shift 4 ⟨topicT, 0, 0⟩]

/-- A third subscriber of their topic arrives. -/
theorem topic_admitted_third :
    ∃ handlers next,
      run step initial crossing = some handlers ∧
        handlers.step
            (.store 6 .subscriber topicT
              (Registry.initial.allTopics 0)) = some next ∧
        topicT ∈ handlers.registry.table.names ∧
        handlers.AdmitsTopic next topicT 6
          (Registry.initial.allTopics 0) := by
  have seen :
      (run step initial crossing).map
        (fun handlers =>
          (handlers.registry.table.names,
            (handlers.step
              (.store 6 .subscriber topicT
                (Registry.initial.allTopics 0))).isSome)) =
        some ([topicT], true) := by
    decide +kernel
  obtain ⟨handlers, reached, view⟩ := Option.map_eq_some_iff.mp seen
  obtain ⟨names, handled⟩ := Prod.mk.inj view
  obtain ⟨next, taken⟩ := Option.isSome_iff_exists.mp handled
  have known : topicT ∈ handlers.registry.table.names := by
    rw [names]
    exact List.mem_cons_self
  have room : handlers.registry.currentTopics < maxTopics := by
    rw [← Registry.length_names_table, names]
    decide
  exact
    ⟨handlers, next, reached, taken, known,
      (topic_admitted reached taken).mpr (Or.inl room)⟩

/-! ## A table that is full -/

/-- The topic whose name is so many letters `t`. -/
def topicOfLength (letters : Fin 100) : TopicName :=
  ⟨List.replicate letters 116, by simp [List.mem_replicate], by simp⟩

/-- Subscribers register, one for each topic. -/
def subscriptions : Fd → List TopicName → List Request
  | _, [] => []
  | first, topic :: rest =>
      .register first .subscriber topic (Registry.initial.allTopics 0) ::
        subscriptions (first + 1) rest

theorem exists_run_subscriptions
    (topics : List TopicName) {handlers : Handlers} {first : Fd}
    (settled : handlers.Settled)
    (room :
      registered handlers.roster .subscriber + topics.length ≤
        maxSubscribers)
    (accepted : ∀ fd, first ≤ fd → handlers.phase fd = .accepted) :
    ∃ final,
      run Request.step handlers (subscriptions first topics) =
          some final ∧
        final.Settled ∧
        ∀ fd, first + topics.length ≤ fd → final.phase fd = .accepted := by
  induction topics generalizing handlers first with
  | nil =>
      refine ⟨handlers, rfl, settled, fun fd later => accepted fd ?_⟩
      simpa using later
  | cons topic rest inductionHypothesis =>
      obtain ⟨next, taken⟩ :=
        register_enabled (accepted first (Int.le_refl first))
          (settled.quiet.unlocked settled.consistent.toThreads)
          (settled.storesInside .subscriber topic first
            (Registry.initial.allTopics 0))
      obtain ⟨_, _, _, _, _, outcome⟩ := run_register taken
      have more :
          registered next.roster .subscriber ≤
            registered handlers.roster .subscriber + 1 := by
        rcases outcome with ⟨_, _, roster⟩ | ⟨_, _, roster⟩
        · rw [roster, registered_append]
          exact Nat.le_refl _
        · rw [roster]
          exact Nat.le_succ _
      rw [List.length_cons] at room
      have within : next.Within := fun name =>
        (length_membersOf_le next.roster name .subscriber).trans (by omega)
      have wellBehaved :
          Request.WellBehaved handlers
            (.register first .subscriber topic
              (Registry.initial.allTopics 0)) :=
        trivial
      obtain ⟨final, onwards, finalSettled, later⟩ :=
        inductionHypothesis (settled.step wellBehaved taken within)
          (by omega) (accepted_of_register accepted taken)
      refine
        ⟨final, run_cons_eq_some.mpr ⟨next, taken, onwards⟩, finalSettled,
          fun fd after => later fd ?_⟩
      rw [List.length_cons, Nat.add_comm, Int.natCast_add,
        ← Int.add_assoc] at after
      exact after

/-- The subscribers that fill the table, the second of them with `T`. -/
def tenSubscriptions : List Request :=
  subscriptions 0
    ([0, 1, 2, 3, 4, 5, 6, 7, 8, 9].map topicOfLength)

/-- When the table is full a subscriber of a topic that exists is refused. -/
theorem known_topic_refused :
    ∃ handlers next,
      run step initial (tenSubscriptions.flatMap Request.expand) =
          some handlers ∧
        handlers.step
            (.store 10 .subscriber topicT
              (Registry.initial.allTopics 0)) = some next ∧
        topicT ∈ handlers.registry.table.names ∧
        (handlers.registry.register .subscriber topicT 10
            (Registry.initial.allTopics 0)).2 =
          ⟨.error, -1⟩ ∧
        ¬ handlers.AdmitsTopic next topicT 10
            (Registry.initial.allTopics 0) := by
  obtain ⟨final, handled, settled, open_⟩ :=
    exists_run_subscriptions
      ([0, 1, 2, 3, 4, 5, 6, 7, 8, 9].map topicOfLength) settled_initial
      (by decide) (fun fd (_ : 0 ≤ fd) => rfl)
  have account := account_of_requests handled
  have names :
      final.registry.table.names =
        [0, 1, 2, 3, 4, 5, 6, 7, 8, 9].map topicOfLength :=
    (congrArg (fun account => account.table.names) account).trans
      (by decide)
  have known : topicT ∈ final.registry.table.names := by
    rw [names]
    decide
  have full : final.registry.currentTopics = maxTopics := by
    rw [← Registry.length_names_table, names]
    rfl
  have reached := handled
  rw [Request.step, run_grouped] at reached
  obtain ⟨generators, _⟩ := topics_le_of_run reached
  have refused :=
    refused_of_full generators full topicT 10
      (Registry.initial.allTopics 0)
  have taken :
      final.step
          (.store 10 .subscriber topicT (Registry.initial.allTopics 0)) =
        some (final.store 10 .subscriber topicT
          (Registry.initial.allTopics 0)) :=
    if_pos
      ⟨open_ 10 (by decide),
        settled.quiet.unlocked settled.consistent.toThreads,
        settled.storesInside _ _ _ _⟩
  refine ⟨final, _, reached, taken, known, congrArg Prod.snd refused, ?_⟩
  intro admits
  have answer := congrArg (fun answered => answered.2.responseStatus) refused
  exact (admits.1.mp answer).1 known

end Handlers

end SistemasDistribuidos.Practica4
