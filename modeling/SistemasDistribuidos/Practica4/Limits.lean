import SistemasDistribuidos.Practica4.Capacity

/-!
# The limits on publishers and subscribers

`talk_to_client` tests `next_publisher_id`, which nothing lowers, before it
admits a publisher, and `current_subscribers`, which nothing raises, before it
admits a subscriber.  So a publisher that unregisters leaves no place for
another one, and subscribers are admitted past the end of the arrays.
-/

namespace SistemasDistribuidos.Practica4

open SistemasDistribuidos Machine

namespace Handlers

/-! ## Where publishers are stored -/

/-- What requests with unregistrations of any content keep: who is served is
registered, and the counter of publishers of a topic is lowered at most once
for each publisher that has left. -/
structure Tallied (handlers : Handlers) : Prop where
  generators : handlers.Generators
  numbered : handlers.account.Numbered
  serving : ∀ fd member, handlers.phase fd = .serving member →
    member ∈ handlers.roster ∧ member.fd = fd
  low : ∀ topicId,
    (registered handlers.roster .publisher : Int) ≤
      handlers.registry.nextPublisherId +
        (handlers.registry.allTopics topicId).count .publisher
  high : ∀ topicId,
    (handlers.registry.allTopics topicId).count .publisher ≤
      handlers.registry.nextPublisherId

theorem tallied_initial : initial.Tallied where
  generators := generators_initial
  numbered := Account.numbered_empty
  serving := nofun
  low := fun _ => Int.le_refl 0
  high := fun _ => Int.le_refl 0

section Tallied

variable {handlers next : Handlers}

/-- What a registration does to the counter of publishers of a topic. -/
theorem count_register
    {registry : Registry} (noneCounted : registry.currentSubscribers = 0)
    {kind : Kind} {name : TopicName} {fd : Fd} {stack : Topic}
    (granted : (registry.register kind name fd stack).2.id ≠ -1)
    (topicId : Nat) :
    ((registry.register kind name fd stack).1.allTopics topicId).count
          .publisher =
        (registry.allTopics topicId).count .publisher ∨
      ((registry.register kind name fd stack).1.allTopics topicId).count
          .publisher = 0 := by
  obtain ⟨middle, origin, _, _, topics⟩ :=
    Registry.register_admitted noneCounted granted
  rw [topics, middle.count_updateTopic (Topic.count_store _ _ _ _) topicId]
  rcases origin with rfl | ⟨rfl, _, _⟩
  · exact Or.inl rfl
  · by_cases added : topicId = registry.currentTopics
    · rw [added, Registry.addTopic_self]
      exact Or.inr rfl
    · refine Or.inl ?_
      simp only [Registry.addTopic, Function.update_of_ne added]

/-- The counter goes up only for a publisher. -/
theorem count_countClient
    (registry : Registry) (kind : Kind) (name : TopicName) (topicId : Nat) :
    ((registry.countClient kind name).allTopics topicId).count .publisher =
        (registry.allTopics topicId).count .publisher ∨
      kind = .publisher ∧
        ((registry.countClient kind name).allTopics topicId).count
            .publisher =
          (registry.allTopics topicId).count .publisher + 1 := by
  by_cases counts :
      topicId < registry.currentTopics ∧
        (registry.allTopics topicId).name = name
  · simp only [Registry.countClient, if_pos counts, Topic.count_addCount]
    cases kind with
    | publisher => exact Or.inr ⟨rfl, rfl⟩
    | subscriber => exact Or.inl rfl
  · simp only [Registry.countClient, if_neg counts, true_or]

/-- It goes down only for a publisher that leaves. -/
theorem count_leave
    (registry : Registry) (kind : Kind) (left clientPos topicId : Nat)
    (beyond : Client) :
    (((registry.updateTopic left (fun topic =>
          topic.shiftClients kind clientPos beyond)).updateTopic left
        (fun topic => topic.addCount kind (-1))).allTopics topicId).count
          .publisher =
        (registry.allTopics topicId).count .publisher ∨
      kind = .publisher ∧
        (((registry.updateTopic left (fun topic =>
              topic.shiftClients kind clientPos beyond)).updateTopic left
            (fun topic => topic.addCount kind (-1))).allTopics
              topicId).count .publisher =
          (registry.allTopics topicId).count .publisher - 1 := by
  by_cases here : topicId = left
  · subst here
    simp only [Registry.updateTopic_self, Topic.count_addCount,
      Topic.count_shiftClients]
    cases kind with
    | publisher => exact Or.inr ⟨rfl, rfl⟩
    | subscriber => exact Or.inl rfl
  · simp only [Registry.updateTopic_of_ne _ _ here, true_or]

theorem Tallied.register
    (tallied : handlers.Tallied) {fd : Fd} {kind : Kind}
    {topic : TopicName} {stack : Topic}
    (taken :
      Request.step handlers (.register fd kind topic stack) = some next) :
    next.Tallied := by
  obtain ⟨generators, account⟩ := account_request tallied.generators taken
  have numbered : next.account.Numbered := by
    rw [account]
    exact tallied.numbered.foldl _
  have few : (registered next.roster .publisher : Int) ≤
      next.registry.nextPublisherId := numbered.few
  have generated : 0 ≤ handlers.registry.nextPublisherId :=
    tallied.numbered.generated .publisher
  have registering :
      next.account = handlers.account.register fd kind topic := account
  have cases := Account.register_cases tallied.numbered.generated fd kind topic
  rw [← registering] at cases
  obtain ⟨_, _, outcome⟩ := run_register_state taken
  obtain ⟨_, _, _, _, others, _⟩ := run_register taken
  rcases outcome with ⟨granted, equation⟩ | ⟨refused, equation⟩
  · have ok :
        (handlers.account.table.register kind topic).2.responseStatus =
          .ok := by
      rw [answer_eq tallied.generators] at granted
      rw [show handlers.account.table = handlers.registry.table from rfl,
        (Table.register_granted granted).1]
    rcases cases with ⟨notOk, _⟩ | ⟨_, members, nextIds, _⟩
    · exact absurd ok notOk
    have roster :
        registered next.roster .publisher =
          registered handlers.roster .publisher +
            if kind = .publisher then 1 else 0 := by
      rw [show next.roster = handlers.account.members ++ _ from members,
        registered_append]
      rfl
    have nextId :
        next.registry.nextPublisherId =
          if Kind.publisher = kind then
            handlers.registry.nextPublisherId + 1
          else handlers.registry.nextPublisherId :=
      nextIds .publisher
    have counted : ∀ topicId,
        (next.registry.allTopics topicId).count .publisher =
            ((handlers.registry.register kind topic fd
              stack).1.allTopics topicId).count .publisher ∨
          kind = .publisher ∧
            (next.registry.allTopics topicId).count .publisher =
              ((handlers.registry.register kind topic fd
                stack).1.allTopics topicId).count .publisher + 1 := by
      intro topicId
      rw [equation]
      exact count_countClient _ kind topic topicId
    refine ⟨generators, numbered, ?_, ?_, ?_⟩
    · intro other member serving
      by_cases same : other = fd
      · subst same
        rw [equation] at serving ⊢
        simp only [Handlers.count, addClient, phase_setPhase_self,
          Phase.serving.injEq] at serving ⊢
        subst serving
        exact ⟨List.mem_append_right _ List.mem_cons_self, rfl⟩
      · rw [others other same] at serving
        obtain ⟨enrolled, own⟩ := tallied.serving other member serving
        refine ⟨?_, own⟩
        rw [show next.roster = handlers.account.members ++ _ from members]
        exact List.mem_append_left _ enrolled
    · intro topicId
      have low := tallied.low topicId
      rcases count_register tallied.generators.noneCounted granted topicId
        with kept | zero <;>
        rcases counted topicId with same | ⟨rfl, more⟩ <;> grind
    · intro topicId
      have high := tallied.high topicId
      rcases count_register tallied.generators.noneCounted granted topicId
        with kept | zero <;>
        rcases counted topicId with same | ⟨rfl, more⟩ <;> grind
  · have unchanged :=
      Registry.register_refused tallied.generators.noneCounted
        (tallied.generators.generated kind) refused
    rw [store, if_pos refused, unchanged] at equation
    subst equation
    refine
      ⟨generators, numbered, ?_, tallied.low, tallied.high⟩
    intro other member serving
    by_cases same : other = fd
    · subst same
      simp at serving
    · rw [others other same] at serving
      exact tallied.serving other member serving

theorem Tallied.unregister
    (tallied : handlers.Tallied) {fd : Fd} {topic : TopicName} {id : Int}
    {stackFd : Fd} {beyond : Client}
    (taken :
      Request.step handlers (.unregister fd topic id stackFd beyond) =
        some next) :
    next.Tallied := by
  obtain ⟨generators, account⟩ := account_request tallied.generators taken
  have numbered : next.account.Numbered := by
    rw [account]
    exact tallied.numbered.foldl _
  obtain ⟨_, _, _, finished, others, roster⟩ := run_unregister taken
  obtain ⟨member, fdToDel, here, equation⟩ := run_unregister_state taken
  obtain ⟨enrolled, own⟩ := tallied.serving fd member here
  have fewer : registered next.roster member.kind <
      registered handlers.roster member.kind := by
    rw [roster, ← own]
    exact registered_filter_lt enrolled
  have most : registered next.roster .publisher ≤
      registered handlers.roster .publisher := by
    rw [roster]
    exact registered_filter_le _ _ _
  have nextId :
      next.registry.nextPublisherId = handlers.registry.nextPublisherId := by
    rw [equation]
    rfl
  have counted : ∀ topicId,
      (next.registry.allTopics topicId).count .publisher =
          (handlers.registry.allTopics topicId).count .publisher ∨
        member.kind = .publisher ∧
          (next.registry.allTopics topicId).count .publisher =
            (handlers.registry.allTopics topicId).count .publisher - 1 := by
    intro topicId
    rw [equation]
    exact count_leave handlers.registry member.kind _ _ topicId beyond
  refine ⟨generators, numbered, ?_, ?_, ?_⟩
  · intro other client serving
    by_cases same : other = fd
    · rw [same, finished] at serving
      cases serving
    · rw [others other same] at serving
      obtain ⟨listed, its⟩ := tallied.serving other client serving
      refine ⟨?_, its⟩
      rw [roster]
      exact List.mem_filter.mpr ⟨listed, by simpa [its] using same⟩
  · intro topicId
    have low := tallied.low topicId
    rcases counted topicId with same | ⟨isPublisher, less⟩
    · omega
    · rw [isPublisher] at fewer
      omega
  · intro topicId
    have high := tallied.high topicId
    rcases counted topicId with same | ⟨_, less⟩ <;> omega

theorem Tallied.step
    {request : Request} (tallied : handlers.Tallied)
    (taken : Request.step handlers request = some next) : next.Tallied := by
  cases request with
  | register fd kind topic stack => exact tallied.register taken
  | unregister fd topic id stackFd beyond => exact tallied.unregister taken
  | publish fd topic =>
      cases taken
      exact tallied

theorem tallied_of_run
    {requests : List Request}
    (reached : run Request.step initial requests = some handlers) :
    handlers.Tallied :=
  invariant_of_any_run (fun _ _ _ tallied taken => tallied.step taken)
    tallied_initial reached

/-- A publisher is stored among the publishers of its topic, or at the end of
the subscribers: at most `MAX_PUBLISHERS` have been admitted, and each of them
leaves once. -/
theorem Tallied.storesInside
    (tallied : handlers.Tallied) (topic : TopicName) (fd : Fd)
    (stack : Topic) :
    handlers.registry.StoresInside .publisher topic fd stack := by
  intro ok
  have limited : handlers.registry.nextPublisherId ≤ maxPublishers :=
    tallied.numbered.limited
  rcases Registry.opened_of_ok ok with ⟨_, same, room⟩ | ⟨impossible, _⟩
  · have low := tallied.low (handlers.registry.getTopicId topic)
    have high := tallied.high (handlers.registry.getTopicId topic)
    have below := room rfl
    rw [same]
    simp only [Topic.HasSlot, maxSubscribers, maxPublishers] at limited below ⊢
    omega
  · cases impossible

end Tallied

/-! ## Publishers -/

/-- What the answer to a `REGISTER_PUBLISHER` should be: `LIMIT` exactly when
`MAX_PUBLISHERS` publishers are registered, and otherwise `OK` with an id that
no registered publisher has. -/
def LimitsPublishers (handlers : Handlers) (topic : TopicName) (fd : Fd) :
    Prop :=
  let answer := (handlers.registry.registerPublisher topic fd).2
  (answer.responseStatus = .limit ↔
      registered handlers.roster .publisher = maxPublishers) ∧
    (answer.responseStatus ≠ .limit →
      answer.responseStatus = .ok ∧
        ∀ member ∈ handlers.roster, member.kind = .publisher →
          member.id ≠ answer.id)

/-- With unregistrations of any content, a publisher of an existing topic is
stored in its topic, and is answered as it should be exactly while fewer than
`MAX_PUBLISHERS` publishers have been admitted since the start, or when all of
those admitted are still registered. -/
theorem publishers_limited
    {requests : List Request} {handlers : Handlers}
    (reached : run Request.step initial requests = some handlers)
    {topic : TopicName} (known : topic ∈ handlers.registry.table.names)
    (fd : Fd) (stack : Topic) :
    handlers.registry.StoresInside .publisher topic fd stack ∧
      (handlers.LimitsPublishers topic fd ↔
        handlers.registry.nextPublisherId < maxPublishers ∨
          registered handlers.roster .publisher = maxPublishers) := by
  have tallied := tallied_of_run reached
  refine ⟨tallied.storesInside topic fd stack, ?_⟩
  have numbered := tallied.numbered
  have inside := Registry.getTopicId_lt_iff.mpr known
  have few :
      (registered handlers.roster .publisher : Int) ≤
        handlers.registry.nextPublisherId :=
    numbered.few
  by_cases room : handlers.registry.nextPublisherId < maxPublishers
  · have answer :
        (handlers.registry.registerPublisher topic fd).2 =
          ⟨.ok, handlers.registry.nextPublisherId⟩ := by
      rw [Registry.registerPublisher, if_pos inside, if_pos room]
    rw [LimitsPublishers, answer]
    refine iff_of_true ⟨?_, fun _ => ⟨rfl, ?_⟩⟩ (Or.inl room)
    · refine iff_of_false Status.noConfusion ?_
      omega
    · intro member enrolled isPublisher
      have given := numbered.given member enrolled
      rw [isPublisher] at given
      exact Int.ne_of_lt given
  · have answer :
        (handlers.registry.registerPublisher topic fd).2 =
          ⟨.limit, -1⟩ := by
      rw [Registry.registerPublisher, if_pos inside, if_neg room]
    rw [LimitsPublishers, answer]
    constructor
    · intro limits
      exact Or.inr (limits.1.mp rfl)
    · intro given
      rcases given with impossible | all
      · exact absurd impossible room
      · exact ⟨iff_of_true rfl all, fun notLimit => absurd rfl notLimit⟩

/-- Two publishers have registered and one of them has left, when a third one
arrives. -/
theorem publishers_limited_third :
    ∃ handlers,
      run Request.step initial
          [.register 4 .subscriber topicT (Registry.initial.allTopics 0),
            .register 5 .publisher topicT (Registry.initial.allTopics 0),
            .register 6 .publisher topicT (Registry.initial.allTopics 0),
            .unregister 5 topicT 0 0 ⟨topicT, 0, 0⟩] =
          some handlers ∧
        registered handlers.roster .publisher = 1 ∧
        handlers.LimitsPublishers topicT 7 := by
  have seen :
      (run Request.step initial
          [.register 4 .subscriber topicT (Registry.initial.allTopics 0),
            .register 5 .publisher topicT (Registry.initial.allTopics 0),
            .register 6 .publisher topicT (Registry.initial.allTopics 0),
            .unregister 5 topicT 0 0 ⟨topicT, 0, 0⟩]).map
        (fun handlers =>
          (registered handlers.roster .publisher,
            handlers.registry.table.names,
            handlers.registry.nextPublisherId)) =
        some (1, [topicT], 2) := by
    decide +kernel
  obtain ⟨handlers, reached, view⟩ := Option.map_eq_some_iff.mp seen
  obtain ⟨one, view⟩ := Prod.mk.inj view
  obtain ⟨names, used⟩ := Prod.mk.inj view
  have known : topicT ∈ handlers.registry.table.names := by
    rw [names]
    exact List.mem_cons_self
  have room : handlers.registry.nextPublisherId < maxPublishers := by
    rw [used]
    decide
  exact
    ⟨handlers, reached, one,
      (publishers_limited reached known 7 (Registry.initial.allTopics
        0)).2.mpr (Or.inl room)⟩

/-- A subscriber brings the topic into being, `MAX_PUBLISHERS` publishers
register, and the first of them unregisters. -/
def oneOfHundredLeaves : List Request :=
  admissions .subscriber 0 1 ++
    (admissions .publisher 1 100 ++
      [.unregister 1 topicT 0 0 ⟨topicT, 0, 0⟩])

/-- The next publisher is answered `LIMIT` with a place free. -/
theorem limit_with_place_free :
    ∃ handlers,
      run Request.step initial oneOfHundredLeaves = some handlers ∧
        topicT ∈ handlers.registry.table.names ∧
        registered handlers.roster .publisher < maxPublishers ∧
        (handlers.registry.registerPublisher topicT 101).2 =
          ⟨.limit, -1⟩ ∧
        ¬ handlers.LimitsPublishers topicT 101 := by
  have room : initial.Admits 1 .subscriber := by
    simp only [Admits]
    decide
  obtain ⟨opened, subscribed, created⟩ :=
    open_initial.admissions 1 room
  have known := created.named (Or.inl Nat.one_pos)
  have unused : opened.registry.nextPublisherId = 0 :=
    created.generators .publisher
  have one : opened.Admits 1 .publisher := ⟨known, by rw [unused]; decide⟩
  have isOpen : opened.Open 1 := created.isOpen
  obtain ⟨next, admitted, first, serving, enrolled⟩ :=
    isOpen.register one
  have moved : next.registry.nextPublisherId = 1 := by
    have nextId := first.generators .publisher
    rw [show opened.registry.nextId .publisher = 0 from unused] at nextId
    exact nextId
  have others : next.Admits 99 .publisher :=
    ⟨first.named (Or.inl Nat.one_pos), by rw [moved]; decide⟩
  have nextOpen : next.Open 2 := first.isOpen
  obtain ⟨full, joined, rest⟩ := nextOpen.admissions 99 others
  have whole := first.trans rest
  have still : full.phase 1 = next.phase 1 := rest.earlier 1 (by decide)
  rw [serving] at still
  have fullOpen : full.Open _ := rest.isOpen
  obtain ⟨final, left⟩ :=
    unregister_enabled still
      (fullOpen.settled.getTopicId_lt still) 0 0 ⟨topicT, 0, 0⟩
  obtain ⟨_, account⟩ := account_request whole.isOpen.generators left
  have roster :
      final.roster = full.roster.filter (fun other => other.fd ≠ 1) :=
    congrArg Account.members account
  have table : final.registry.table = full.registry.table :=
    congrArg Account.table account
  have named : topicT ∈ final.registry.table.names := by
    rw [table]
    exact whole.named (Or.inl (by decide))
  have nobody : registered opened.roster .publisher = 0 :=
    created.registered .publisher
  have all : registered full.roster .publisher = 100 := by
    rw [whole.registered, nobody]
    rfl
  have fewer : registered final.roster .publisher < maxPublishers := by
    have gone :=
      registered_filter_lt (rest.enrolled.subset enrolled)
    rw [all] at gone
    rw [roster]
    exact gone
  have used : final.registry.nextPublisherId = 100 := by
    have nextId := whole.generators .publisher
    rw [show opened.registry.nextId .publisher = 0 from unused] at nextId
    exact (congrArg Table.nextPublisherId table).trans nextId
  have answer :
      (final.registry.registerPublisher topicT 101).2 =
        ⟨.limit, -1⟩ := by
    rw [Registry.registerPublisher,
      if_pos (Registry.getTopicId_lt_iff.mpr named),
      if_neg (by rw [used]; decide)]
  refine ⟨final, ?_, named, fewer, answer, ?_⟩
  · rw [oneOfHundredLeaves, run_append, subscribed, Option.bind_some,
      run_append,
      show admissions .publisher 1 100 = _ :: admissions .publisher 2 99
        from rfl,
      run_cons, admitted, Option.bind_some, joined, Option.bind_some,
      run_singleton, left]
  · rw [LimitsPublishers, answer]
    intro limits
    have hundred := limits.1.mp rfl
    omega

/-! ## Subscribers -/

/-- What a request should keep: at most `MAX_SUBSCRIBERS` subscribers are
registered after it, a subscriber is stored below that index, and when that
many are registered the next one is answered `LIMIT` and changes nothing. -/
def Capped (handlers : Handlers) (request : Request) : Prop :=
  (∀ next, Request.step handlers request = some next →
      registered next.roster .subscriber ≤ maxSubscribers) ∧
    match request with
    | .register fd .subscriber topic stack =>
        let created := (handlers.registry.createTopic topic stack).1
        let answered :=
          handlers.registry.register .subscriber topic fd stack
        (answered.2.responseStatus = .ok →
            created.numSubscribers topic < maxSubscribers) ∧
          (registered handlers.roster .subscriber = maxSubscribers →
            answered.2.responseStatus = .limit ∧
              answered.1 = handlers.registry)
    | _ => True

/-- Fewer than `MAX_SUBSCRIBERS` subscribers are registered when another one
arrives. -/
def Few (handlers : Handlers) : Request → Prop
  | .register _ .subscriber _ _ =>
      registered handlers.roster .subscriber < maxSubscribers
  | _ => True

instance (handlers : Handlers) :
    ∀ request, Decidable (handlers.Few request)
  | .register _ .publisher _ _ => inferInstanceAs (Decidable True)
  | .register _ .subscriber _ _ => inferInstanceAs (Decidable (_ < _))
  | .unregister _ _ _ _ _ => inferInstanceAs (Decidable True)
  | .publish _ _ => inferInstanceAs (Decidable True)

/-- And its topic, if it exists and can be subscribed to, counts fewer. -/
def Fits (handlers : Handlers) (request : Request) : Prop :=
  handlers.Few request ∧
    match request with
    | .register _ .subscriber topic _ =>
        topic ∈ handlers.registry.table.names →
          handlers.registry.currentTopics < maxTopics →
            handlers.registry.numSubscribers topic < maxSubscribers
    | _ => True

/-- What every run keeps as long as its steps are `Capped`. -/
structure Bounded (handlers : Handlers) : Prop where
  generators : handlers.Generators
  few : registered handlers.roster .subscriber ≤ maxSubscribers

theorem bounded_initial : initial.Bounded where
  generators := generators_initial
  few := by decide

section Subscribers

variable {handlers next : Handlers} {request : Request}

/-- The index at which a subscriber is stored is the counter of its topic
before the request, and 0 in a new topic. -/
theorem numSubscribers_createTopic
    {registry : Registry} {topic : TopicName}
    (room : registry.currentTopics < maxTopics) (stack : Topic) :
    (registry.createTopic topic stack).1.numSubscribers topic =
      if topic ∈ registry.table.names then registry.numSubscribers topic
      else 0 := by
  rcases Registry.createTopic_cases registry topic stack with
    ⟨known, _, equation⟩ | ⟨new, _, equation⟩ | ⟨full, _⟩
  · rw [equation, if_pos known]
  · rw [equation, if_neg new, Registry.numSubscribers,
      Registry.getTopicId_addTopic new, Registry.addTopic_self]
  · omega

/-- One request keeps the bound when no subscriber arrives too many. -/
theorem Bounded.step
    (bounded : handlers.Bounded) (few : handlers.Few request)
    (taken : Request.step handlers request = some next) :
    next.Bounded where
  generators := (account_request bounded.generators taken).1
  few := by
    have before := bounded.few
    cases request with
    | register fd kind topic stack =>
        obtain ⟨_, _, _, _, _, outcome⟩ := run_register taken
        rcases outcome with ⟨_, _, roster⟩ | ⟨_, _, roster⟩
        · rw [roster, registered_append]
          cases kind with
          | publisher => exact before
          | subscriber => exact few
        · rw [roster]
          exact before
    | unregister fd topic id stackFd beyond =>
        obtain ⟨_, _, _, _, _, roster⟩ := run_unregister taken
        rw [roster]
        exact (registered_filter_le _ _ _).trans before
    | publish fd topic =>
        cases taken
        exact before

/-- In a bounded state a request keeps the capacity exactly when it finds
room. -/
theorem Bounded.capped_iff
    (bounded : handlers.Bounded) (request : Request) :
    handlers.Capped request ↔ handlers.Fits request := by
  constructor
  · intro capped
    cases request with
    | register fd kind topic stack =>
        cases kind with
        | publisher => exact ⟨trivial, trivial⟩
        | subscriber =>
            obtain ⟨_, below, limit⟩ := capped
            refine ⟨?_, ?_⟩
            · have notLimited :=
                subscriber_not_limited bounded.generators topic fd stack
              have most := bounded.few
              have fewer :
                  registered handlers.roster .subscriber ≠
                    maxSubscribers :=
                fun all => notLimited (limit all).1
              exact Nat.lt_of_le_of_ne most fewer
            · intro known room
              have stored :=
                below
                  ((subscriber_admitted_iff bounded.generators topic fd
                    stack).mpr room)
              rw [numSubscribers_createTopic room stack,
                if_pos known] at stored
              exact stored
    | unregister fd topic id stackFd beyond => exact ⟨trivial, trivial⟩
    | publish fd topic => exact ⟨trivial, trivial⟩
  · intro fits
    refine ⟨fun next taken => (bounded.step fits.1 taken).few, ?_⟩
    cases request with
    | register fd kind topic stack =>
        cases kind with
        | publisher => trivial
        | subscriber =>
            obtain ⟨few, below⟩ := fits
            refine ⟨?_, fun all => absurd all (Nat.ne_of_lt few)⟩
            intro admitted
            have room :=
              (subscriber_admitted_iff bounded.generators topic fd
                stack).mp admitted
            rw [numSubscribers_createTopic room stack]
            split
            · rename_i known
              exact below known room
            · decide
    | unregister fd topic id stackFd beyond => trivial
    | publish fd topic => trivial

/-- When clients unregister as they registered, a topic counts no more
subscribers than are registered. -/
theorem Settled.fits_of_few
    (settled : handlers.Settled) (few : handlers.Few request) :
    handlers.Fits request := by
  refine ⟨few, ?_⟩
  cases request with
  | register fd kind topic stack =>
      cases kind with
      | publisher => trivial
      | subscriber =>
          intro known _
          have inside := Registry.getTopicId_lt_iff.mpr known
          have counted := settled.count_eq inside .subscriber
          rw [Registry.name_getTopicId inside] at counted
          have fewer :=
            length_membersOf_le handlers.roster topic .subscriber
          have few :
              registered handlers.roster .subscriber < maxSubscribers :=
            few
          rw [show handlers.registry.numSubscribers topic =
            (membersOf handlers.roster topic .subscriber).length
              from counted]
          omega
  | unregister fd topic id stackFd beyond => trivial
  | publish fd topic => trivial

theorem Bounded.within (bounded : handlers.Bounded) : handlers.Within :=
  fun name =>
    (length_membersOf_le handlers.roster name .subscriber).trans
      bounded.few

end Subscribers

/-- The capacity is kept in a run of any requests exactly when each subscriber
that arrives finds room; with clients that unregister as they registered, when
it finds fewer than `MAX_SUBSCRIBERS` registered. -/
theorem capacity_kept (requests : List Request) :
    (Obeys Request.step Capped initial requests ↔
        Obeys Request.step Fits initial requests) ∧
      (Obeys Request.step Request.WellBehaved initial requests →
        (Obeys Request.step Capped initial requests ↔
          Obeys Request.step Few initial requests)) := by
  have fits_of_capped :
      Obeys Request.step Capped initial requests →
        Obeys Request.step Fits initial requests :=
    obeys_of_invariant
      (fun _ request bounded capped =>
        (bounded.capped_iff request).mp capped)
      (fun _ _ _ bounded fits taken => bounded.step fits.1 taken)
      bounded_initial
  have capped_of_fits :
      Obeys Request.step Fits initial requests →
        Obeys Request.step Capped initial requests :=
    obeys_of_invariant
      (fun _ request bounded fits =>
        (bounded.capped_iff request).mpr fits)
      (fun _ request _ bounded capped taken =>
        bounded.step ((bounded.capped_iff request).mp capped).1 taken)
      bounded_initial
  refine ⟨⟨fits_of_capped, capped_of_fits⟩, fun wellBehaved => ⟨?_, ?_⟩⟩
  · intro capped
    exact (fits_of_capped capped).mono (fun _ _ fits => fits.1)
  · intro few
    have implied : ∀ handlers request,
        handlers.Settled ∧ handlers.Bounded →
          Request.WellBehaved handlers request ∧ handlers.Few request →
            Request.WellBehaved handlers request ∧
              handlers.Fits request :=
      fun _ _ kept guards => ⟨guards.1, kept.1.fits_of_few guards.2⟩
    have preserved : ∀ handlers request next,
        handlers.Settled ∧ handlers.Bounded →
          Request.WellBehaved handlers request ∧ handlers.Fits request →
            Request.step handlers request = some next →
              next.Settled ∧ next.Bounded := by
      intro handlers request next kept guards taken
      have bounded := kept.2.step guards.2.1 taken
      exact ⟨kept.1.step guards.1 taken bounded.within, bounded⟩
    have fits :=
      obeys_of_invariant implied preserved
        ⟨settled_initial, bounded_initial⟩ (wellBehaved.both few)
    exact capped_of_fits (fits.mono (fun _ _ guards => guards.2))

/-- Two subscribers register, the first one unregisters, and a third one
takes its place. -/
theorem capacity_kept_three :
    Obeys Request.step Capped initial
      [.register 4 .subscriber topicT (Registry.initial.allTopics 0),
        .register 5 .subscriber topicT (Registry.initial.allTopics 0),
        .unregister 4 topicT 1 0 ⟨topicT, 0, 0⟩,
        .register 6 .subscriber topicT
          (Registry.initial.allTopics 0)] := by
  refine ((capacity_kept _).2 ?_).mpr ?_
  · decide +kernel
  · decide +kernel

/-- With `MAX_SUBSCRIBERS` subscribers registered for one topic another one is
answered `OK`. -/
theorem subscriber_too_many :
    (∃ handlers,
        run Request.step initial (admissions .subscriber 0 900) =
            some handlers ∧
          registered handlers.roster .subscriber = maxSubscribers ∧
          (handlers.registry.register .subscriber topicT 900
            (Registry.initial.allTopics 0)).2.responseStatus = .ok) ∧
      ¬ Obeys Request.step Capped initial
          (admissions .subscriber 0 900 ++
            [.register 900 .subscriber topicT
              (Registry.initial.allTopics 0)]) := by
  have room : initial.Admits 900 .subscriber := by
    simp only [Admits]
    decide
  obtain ⟨full, subscribed, whole⟩ := open_initial.admissions 900 room
  have all : registered full.roster .subscriber = maxSubscribers :=
    whole.registered .subscriber
  have isOpen : full.Open 900 := whole.isOpen
  have fewTopics : full.registry.currentTopics < maxTopics := by
    rw [← Registry.length_names_table]
    rcases isOpen.names with none | one
    · rw [none]
      decide
    · rw [one]
      decide
  have admitted :=
    (subscriber_admitted_iff isOpen.generators topicT 900
      (Registry.initial.allTopics 0)).mpr fewTopics
  refine ⟨⟨full, subscribed, all, admitted⟩, ?_⟩
  intro capped
  have last := ((obeys_append.mp capped).2 full subscribed).1
  exact
    subscriber_not_limited isOpen.generators topicT 900
      (Registry.initial.allTopics 0) (last.2.2 all).1

end Handlers

end SistemasDistribuidos.Practica4
