import SistemasDistribuidos.Practica4.Unregistering

/-!
# The broker with one message handled at a time

A request is a whole client message: the registration block of
`talk_to_client`, an `UNREGISTER`, or a `PUBLISH_DATA`, which writes no
variable of the registry.  Handling requests one at a time is the handler
machine with the steps of each request taken without interruption, so the
consistency of the registry needs no condition on the interleaving.
-/

namespace SistemasDistribuidos.Practica4

open SistemasDistribuidos SlotArray Machine

/-- A client message together with what the broker finds in uninitialised
memory and past the arrays while it handles it. -/
inductive Request where
  | register (fd : Fd) (kind : Kind) (topic : TopicName) (stack : Topic)
  | unregister (fd : Fd) (topic : TopicName) (id : Int) (stackFd : Fd)
      (beyond : Client)
  | publish (fd : Fd) (topic : TopicName)

namespace Request

/-- The steps of the handler thread, in order. -/
def expand : Request → List HandlerAction
  | .register fd kind topic stack =>
      [.store fd kind topic stack, .respond fd, .count fd]
  | .unregister fd topic id stackFd beyond =>
      [.quit fd, .find fd topic id stackFd, .shift fd beyond, .reply fd,
        .decrement fd]
  | .publish _ _ => []

/-- What the client asks the registry for. -/
def messages : Request → List RegistryMessage
  | .register fd kind topic _ => [.register fd kind topic]
  | .unregister fd topic id _ _ => [.unregister fd topic id]
  | .publish _ _ => []

/-- Handle one request. -/
def step : Handlers → Request → Option Handlers :=
  grouped Handlers.step expand

/-- A client unregisters with the id and topic it was registered with. -/
def WellBehaved (handlers : Handlers) : Request → Prop
  | .unregister fd topic id _ _ =>
      ∀ member, handlers.phase fd = .serving member →
        topic = member.topic ∧ id = member.id
  | _ => True

theorem wellBehaved_unregister
    {handlers : Handlers} {fd : Fd} {topic : TopicName} {id : Int}
    {stackFd : Fd} {beyond : Client} :
    (∀ member ∈ (handlers.phase fd).served,
        topic = member.topic ∧ id = member.id) ↔
      WellBehaved handlers (.unregister fd topic id stackFd beyond) := by
  simp only [Phase.mem_served, WellBehaved]

instance (handlers : Handlers) :
    ∀ request, Decidable (WellBehaved handlers request)
  | .register _ _ _ _ => inferInstanceAs (Decidable True)
  | .unregister _ _ _ _ _ => decidable_of_iff _ wellBehaved_unregister
  | .publish _ _ => inferInstanceAs (Decidable True)

end Request

namespace Handlers

/-- No topic holds more subscribers than its array has slots. -/
def Within (handlers : Handlers) : Prop :=
  ∀ name,
    (membersOf handlers.roster name .subscriber).length ≤ maxSubscribers

/-- No handler is in the middle of a request. -/
def Quiet (handlers : Handlers) : Prop :=
  ∀ fd,
    handlers.phase fd = .accepted ∨
      (∃ member, handlers.phase fd = .serving member) ∨
      handlers.phase fd = .finished

theorem quiet_initial : initial.Quiet :=
  fun _ => Or.inl rfl

section Quiet

variable {handlers next : Handlers}

theorem Quiet.departing
    (quiet : handlers.Quiet) (fd : Fd) :
    (handlers.phase fd).departing = none := by
  rcases quiet fd with here | ⟨member, here⟩ | here <;> rw [here] <;> rfl

theorem Quiet.not_found
    (quiet : handlers.Quiet) {fd : Fd} {member : Member}
    {topicId clientPos : Nat} {fdToDel : Fd} :
    handlers.phase fd ≠ .found member topicId clientPos fdToDel := by
  intro impossible
  rcases quiet fd with here | ⟨member, here⟩ | here <;>
    rw [here] at impossible <;> cases impossible

theorem Quiet.unlocked
    (quiet : handlers.Quiet) (threads : handlers.Threads) :
    handlers.mutex3 = none := by
  by_contra locked
  obtain ⟨fd, lock⟩ := Option.ne_none_iff_exists'.mp locked
  have registering := (threads.locked fd).mpr lock
  rcases quiet fd with here | ⟨member, here⟩ | here <;>
    rw [here] at registering <;> cases registering

/-- In a quiet state nothing is half done: counters are array lengths. -/
theorem Quiet.expected
    (quiet : handlers.Quiet) (consistent : handlers.Consistent)
    (name : TopicName) (kind : Kind) :
    handlers.expected name kind =
      (membersOf handlers.roster name kind).length := by
  apply consistent.expected_separate
  · rw [entering, quiet.unlocked consistent.toThreads]
    rfl
  · intro fd member departing
    rw [quiet.departing fd] at departing
    cases departing

theorem Quiet.of_one
    (quiet : handlers.Quiet) (fd : Fd)
    (others : ∀ other, other ≠ fd →
      next.phase other = handlers.phase other)
    (here :
      next.phase fd = .accepted ∨
        (∃ member, next.phase fd = .serving member) ∨
        next.phase fd = .finished) :
    next.Quiet := by
  intro other
  by_cases same : other = fd
  · rw [same]
    exact here
  · rw [others other same]
    exact quiet other

end Quiet

/-! ## One request -/

section Requests

variable {handlers next : Handlers} {fd : Fd}

/-- The state that a registration leaves, step by step. -/
theorem run_register_state
    {kind : Kind} {topic : TopicName} {stack : Topic}
    (taken :
      run step handlers
        (Request.expand (.register fd kind topic stack)) = some next) :
    let registered := handlers.registry.register kind topic fd stack
    let member : Member := ⟨kind, topic, registered.2.id, fd⟩
    handlers.phase fd = .accepted ∧
      handlers.mutex3 = none ∧
      ((registered.2.id ≠ -1 ∧
          next =
            ((handlers.addClient member registered.1).setPhase fd
              (.answered member)).count fd member) ∨
        (registered.2.id = -1 ∧
          next =
            { ((handlers.store fd kind topic stack).setPhase fd
                .refused).setPhase fd .finished with
              mutex3 := none })) := by
  obtain ⟨stored, storeTaken, afterStore⟩ := run_cons_eq_some.mp taken
  obtain ⟨answered, respondTaken, afterRespond⟩ :=
    run_cons_eq_some.mp afterStore
  rw [run_singleton] at afterRespond
  obtain ⟨here, unlocked, rfl⟩ := step_store storeTaken
  refine ⟨here, unlocked, ?_⟩
  by_cases refused :
      (handlers.registry.register kind topic fd stack).2.id = -1
  · refine Or.inr ⟨refused, ?_⟩
    rcases step_respond respondTaken with
      ⟨member, impossible, _⟩ | ⟨status, _, rfl⟩
    · simp [Handlers.store, refused] at impossible
    · rcases step_count afterRespond with
        ⟨member, impossible, _⟩ | ⟨_, rfl⟩
      · simp at impossible
      · rfl
  · refine Or.inl ⟨refused, ?_⟩
    simp only [Handlers.store, if_neg refused] at respondTaken
    rcases step_respond respondTaken with
      ⟨member, storedMember, rfl⟩ | ⟨status, impossible, _⟩
    · rcases step_count afterRespond with
        ⟨counted, answered, rfl⟩ | ⟨impossible, _⟩
      · simp only [phase_setPhase_self, Phase.answered.injEq] at answered
        subst answered
        simp only [addClient, phase_setPhase_self,
          Phase.stored.injEq] at storedMember
        subst storedMember
        rfl
      · simp at impossible
    · simp [addClient] at impossible

theorem run_register
    {kind : Kind} {topic : TopicName} {stack : Topic}
    (taken :
      run step handlers
        (Request.expand (.register fd kind topic stack)) = some next) :
    handlers.phase fd = .accepted ∧
      handlers.mutex3 = none ∧
      next.mutex3 = none ∧
      next.leaving = handlers.leaving ∧
      (∀ other, other ≠ fd →
        next.phase other = handlers.phase other) ∧
      (((handlers.registry.register kind topic fd stack).2.id ≠ -1 ∧
          next.phase fd =
            .serving
              ⟨kind, topic,
                (handlers.registry.register kind topic fd stack).2.id,
                fd⟩ ∧
          next.roster =
            handlers.roster ++
              [⟨kind, topic,
                (handlers.registry.register kind topic fd stack).2.id,
                fd⟩]) ∨
        ((handlers.registry.register kind topic fd stack).2.id = -1 ∧
          next.phase fd = .finished ∧
          next.roster = handlers.roster)) := by
  obtain ⟨here, unlocked, outcome⟩ := run_register_state taken
  refine ⟨here, unlocked, ?_⟩
  rcases outcome with ⟨granted, rfl⟩ | ⟨refused, rfl⟩
  · refine ⟨rfl, rfl, ?_, Or.inl ⟨granted, by simp [count], rfl⟩⟩
    intro other different
    simp [count, addClient, setPhase, different]
  · rw [store, if_pos refused]
    refine ⟨rfl, rfl, ?_, Or.inr ⟨refused, by simp, rfl⟩⟩
    intro other different
    simp [setPhase, different]

/-- The state that an `UNREGISTER` leaves, step by step. -/
theorem run_unregister_state
    {topic : TopicName} {id : Int} {stackFd : Fd} {beyond : Client}
    (taken :
      run step handlers
        (Request.expand (.unregister fd topic id stackFd beyond)) =
          some next) :
    ∃ member fdToDel,
      handlers.phase fd = .serving member ∧
        next =
          (((({ handlers with
            quit := Function.update handlers.quit fd true } :
              Handlers).find fd member topic id stackFd).shift fd member
                (handlers.registry.getTopicId topic)
                ((handlers.registry.allTopics
                  (handlers.registry.getTopicId topic)).clientPos
                    member.kind id)
                fdToDel beyond).setPhase fd
                  (.replied member
                    (handlers.registry.getTopicId topic))).decrement fd
                      member (handlers.registry.getTopicId topic) := by
  obtain ⟨sent, quitTaken, afterQuit⟩ := run_cons_eq_some.mp taken
  obtain ⟨located, findTaken, afterFind⟩ := run_cons_eq_some.mp afterQuit
  obtain ⟨moved, shiftTaken, afterShift⟩ := run_cons_eq_some.mp afterFind
  obtain ⟨told, replyTaken, afterReply⟩ := run_cons_eq_some.mp afterShift
  rw [run_singleton] at afterReply
  cases quitTaken
  obtain ⟨member, here, _, rfl⟩ := step_find findTaken
  obtain ⟨_, _, _, fdToDel, found, rfl⟩ := step_shift shiftTaken
  obtain ⟨_, _, _, shifted, rfl⟩ := step_reply replyTaken
  obtain ⟨_, _, replied, rfl⟩ := step_decrement afterReply
  rw [find, phase_setPhase_self] at found
  cases found
  rw [shift, phase_setPhase_self] at shifted
  cases shifted
  rw [phase_setPhase_self] at replied
  cases replied
  exact ⟨member, _, here, rfl⟩

theorem run_unregister
    {topic : TopicName} {id : Int} {stackFd : Fd} {beyond : Client}
    (taken :
      run step handlers
        (Request.expand (.unregister fd topic id stackFd beyond)) =
          some next) :
    ∃ member,
      handlers.phase fd = .serving member ∧
        next.mutex3 = handlers.mutex3 ∧
        next.phase fd = .finished ∧
        (∀ other, other ≠ fd →
          next.phase other = handlers.phase other) ∧
        next.roster =
          handlers.roster.filter (fun other => other.fd ≠ fd) := by
  obtain ⟨member, fdToDel, here, rfl⟩ := run_unregister_state taken
  refine ⟨member, here, rfl, by simp [Handlers.decrement], ?_, rfl⟩
  intro other different
  simp [Handlers.decrement, Handlers.shift, Handlers.find, setPhase,
    different]

end Requests

/-! ## Requests from a quiet state -/

section Atomic

variable {handlers next : Handlers} {request : Request}

/-- A request starts and ends with no handler in the middle of another. -/
theorem Quiet.step
    (quiet : handlers.Quiet)
    (taken : Request.step handlers request = some next) :
    next.Quiet := by
  cases request with
  | register fd kind topic stack =>
      obtain ⟨_, _, _, _, others, outcome⟩ := run_register taken
      apply quiet.of_one fd others
      rcases outcome with ⟨_, served, _⟩ | ⟨_, finished, _⟩
      · exact Or.inr (Or.inl ⟨_, served⟩)
      · exact Or.inr (Or.inr finished)
  | unregister fd topic id stackFd beyond =>
      obtain ⟨_, _, _, finished, others, _⟩ := run_unregister taken
      exact quiet.of_one fd others (Or.inr (Or.inr finished))
  | publish fd topic =>
      cases taken
      exact quiet

/-- Taken without interruption, the steps of a request meet every condition
under which the registry stays consistent. -/
theorem Quiet.obeys
    (quiet : handlers.Quiet)
    (wellBehaved : Request.WellBehaved handlers request)
    (taken : Request.step handlers request = some next)
    (within : next.Within) :
    Obeys Handlers.step
      (fun state action =>
        state.WellBehaved action ∧ state.Room action ∧
          state.Separate action)
      handlers request.expand := by
  cases request with
  | register fd kind topic stack =>
      refine
        ⟨⟨trivial, ?_, ?_⟩, fun _ _ =>
          ⟨⟨trivial, trivial, trivial⟩, fun _ _ =>
            ⟨⟨trivial, trivial, trivial⟩, fun _ _ => trivial⟩⟩⟩
      · cases kind with
        | publisher => trivial
        | subscriber =>
            intro admitted
            obtain ⟨_, _, _, _, _, outcome⟩ := run_register taken
            rcases outcome with ⟨_, _, enrolled⟩ | ⟨refused, _⟩
            · have fits := within topic
              rw [enrolled, length_membersOf_append,
                length_membersOf_singleton, if_pos ⟨rfl, rfl⟩] at fits
              omega
            · exact absurd refused admitted
      · intro other member departing
        rw [quiet.departing other] at departing
        cases departing
  | unregister fd topic id stackFd beyond =>
      refine ⟨⟨trivial, trivial, trivial⟩, fun sent quitTaken => ?_⟩
      cases quitTaken
      refine ⟨⟨wellBehaved, trivial, trivial⟩, fun located findTaken => ?_⟩
      obtain ⟨member, _, _, rfl⟩ := step_find findTaken
      refine ⟨⟨trivial, trivial, ?_⟩, fun _ _ =>
        ⟨⟨trivial, trivial, trivial⟩, fun _ _ =>
          ⟨⟨trivial, trivial, trivial⟩, fun _ _ => trivial⟩⟩⟩
      intro _ _ _ _ _ other otherMember otherTopicId otherPos otherFdToDel
        otherFound different
      rw [Handlers.find, phase_setPhase_of_ne _ different] at otherFound
      exact absurd otherFound quiet.not_found
  | publish fd topic =>
      trivial

/-- Consistent, and no handler is in the middle of a request. -/
structure Settled (handlers : Handlers) : Prop where
  consistent : handlers.Consistent
  quiet : handlers.Quiet

theorem settled_initial : initial.Settled where
  consistent := consistent_initial
  quiet := quiet_initial

theorem Settled.step
    (settled : handlers.Settled)
    (wellBehaved : Request.WellBehaved handlers request)
    (taken : Request.step handlers request = some next)
    (within : next.Within) :
    next.Settled where
  consistent :=
    invariant_of_run
      (fun _ _ _ consistent guards stepTaken =>
        consistent.step guards.1 guards.2.1 guards.2.2 stepTaken)
      settled.consistent
      (settled.quiet.obeys wellBehaved taken within) taken
  quiet := settled.quiet.step taken

end Atomic

/-! ## The registry after a run of requests -/

/-- Well-behaved requests that leave every topic within its array. -/
def Admissible (handlers : Handlers) (request : Request) : Prop :=
  Request.WellBehaved handlers request ∧
    ∀ next, Request.step handlers request = some next → next.Within

/-- With few registrations every run of well-behaved requests is
admissible. -/
theorem admissible_of_few :
    ∀ {requests : List Request} {handlers : Handlers},
      Obeys Request.step Request.WellBehaved handlers requests →
        handlers.roster.length + (requests.flatMap Request.messages).length ≤
            maxSubscribers →
          Obeys Request.step Admissible handlers requests
  | [], _, _, _ => trivial
  | request :: rest, handlers, wellBehaved, few => by
      have grows :
          ∀ next, Request.step handlers request = some next →
            next.roster.length ≤
              handlers.roster.length + request.messages.length := by
        intro next taken
        cases request with
        | register fd kind topic stack =>
            obtain ⟨_, _, _, _, _, outcome⟩ := run_register taken
            rcases outcome with ⟨_, _, enrolled⟩ | ⟨_, _, kept⟩
            · simp [enrolled, Request.messages]
            · simp [kept]
        | unregister fd topic id stackFd beyond =>
            obtain ⟨_, _, _, _, _, enrolled⟩ := run_unregister taken
            rw [enrolled]
            exact (List.length_filter_le _ _).trans (Nat.le_add_right _ _)
        | publish fd topic =>
            cases taken
            exact Nat.le_add_right _ _
      rw [List.flatMap_cons, List.length_append] at few
      refine ⟨⟨wellBehaved.1, ?_⟩, ?_⟩
      · intro next taken name
        have short := grows next taken
        have fewer :
            (membersOf next.roster name .subscriber).length ≤
              next.roster.length := by
          rw [membersOf, List.length_map]
          exact List.length_filter_le _ _
        omega
      · intro next taken
        have short := grows next taken
        exact admissible_of_few (wellBehaved.2 next taken) (by omega)

theorem settled_of_run
    {requests : List Request} {final : Handlers}
    (admissible : Obeys Request.step Admissible initial requests)
    (reached : run Request.step initial requests = some final) :
    final.Settled :=
  invariant_of_run
    (fun _ _ next settled guard taken =>
      settled.step guard.1 taken (guard.2 next taken))
    settled_initial admissible reached

/-- The entries of an array that its counter makes live. -/
def live (handlers : Handlers) (topicId : Nat) (kind : Kind) :
    List Client :=
  occupied ((handlers.registry.allTopics topicId).clients kind)
    ((handlers.registry.allTopics topicId).count kind).toNat

section Settled

variable {handlers : Handlers}

theorem Settled.count_eq
    (settled : handlers.Settled) {topicId : Nat}
    (inside : topicId < handlers.registry.currentTopics) (kind : Kind) :
    (handlers.registry.allTopics topicId).count kind =
      (membersOf handlers.roster
        (handlers.registry.allTopics topicId).name kind).length :=
  (settled.consistent.counts topicId inside kind).trans
    (settled.quiet.expected settled.consistent _ kind)

theorem Settled.live_eq
    (settled : handlers.Settled) {topicId : Nat}
    (inside : topicId < handlers.registry.currentTopics) (kind : Kind) :
    handlers.live topicId kind =
      membersOf handlers.roster
        (handlers.registry.allTopics topicId).name kind := by
  rw [live, settled.count_eq inside kind, Int.toNat_natCast]
  exact settled.consistent.holds.slots topicId inside kind

theorem Settled.storesInside
    (settled : handlers.Settled) (kind : Kind) (name : TopicName) (fd : Fd)
    (stack : Topic) :
    handlers.registry.StoresInside kind name fd stack := by
  intro ok
  rcases Registry.opened_of_ok ok with
    ⟨known, same, room⟩ | ⟨rfl, new, added⟩
  · have inside := Registry.getTopicId_lt_iff.mpr known
    rw [same, settled.count_eq inside kind, Registry.name_getTopicId inside]
    have fits := settled.consistent.holds.fits name kind
    cases kind with
    | publisher =>
        have few := settled.consistent.publishers name
        have below := room rfl
        simp only [Topic.HasSlot]
        omega
    | subscriber =>
        simp only [Topic.HasSlot, capacity, maxPublishers] at fits ⊢
        omega
  · rw [added, Registry.getTopicId_addTopic new, Registry.addTopic_self]
    simp [Topic.HasSlot, Topic.count, maxSubscribers, maxPublishers]

theorem Settled.getTopicId_lt
    (settled : handlers.Settled) {fd : Fd} {member : Member}
    (serving : handlers.phase fd = .serving member) :
    handlers.registry.getTopicId member.topic < maxTopics := by
  have present : (handlers.phase fd).present = some member := by
    rw [serving]
    rfl
  have enrolled := ((settled.consistent.present fd member).mp present).1
  exact
    (settled.consistent.clientPos_eq enrolled).1.trans_le
      settled.consistent.holds.topics_le

theorem Settled.mem_roster
    (settled : handlers.Settled) (member : Member) :
    member ∈ handlers.roster ↔
      handlers.phase member.fd = .serving member := by
  have present := settled.consistent.present member.fd member
  constructor
  · intro enrolled
    have here := present.mpr ⟨enrolled, rfl⟩
    rcases settled.quiet member.fd with
      accepted | ⟨other, serving⟩ | finished
    · rw [accepted] at here
      cases here
    · rw [serving] at here
      cases here
      exact serving
    · rw [finished] at here
      cases here
  · intro serving
    exact (present.mp (by rw [serving]; rfl)).1

theorem Threads.ids_membersOf_nodup
    (threads : handlers.Threads) (name : TopicName) (kind : Kind) :
    ((membersOf handlers.roster name kind).map Client.id).Nodup := by
  rw [membersOf, List.map_map]
  apply List.Nodup.map_on
  · intro first firstListed second secondListed sameId
    simp only [List.mem_filter, decide_eq_true_eq] at firstListed
    simp only [List.mem_filter, decide_eq_true_eq] at secondListed
    exact
      threads.ids first firstListed.1 second secondListed.1
        (firstListed.2.2.trans secondListed.2.2.symm) sameId
  · exact threads.rosterFds.of_map.filter _

end Settled

end Handlers

/-! ## The broker as an account of its clients -/

/-- The account after a list of requests. -/
def Account.after (requests : List Request) : Account :=
  (requests.flatMap Request.messages).foldl Account.receive Account.empty

namespace Handlers

theorem foldl_follow_expand (request : Request) (account : Account) :
    request.expand.foldl Account.follow account =
      request.messages.foldl Account.receive account := by
  cases request <;> rfl

/-- The code refines the account. -/
theorem account_of_requests
    {requests : List Request} {final : Handlers}
    (reached : run Request.step initial requests = some final) :
    final.account = Account.after requests := by
  rw [Request.step, run_grouped] at reached
  rw [account_of_run generators_initial reached, Account.after,
    List.foldl_flatMap, List.foldl_flatMap]
  congr 1
  funext account request
  exact foldl_follow_expand request account

/-- After any run of requests handled one at a time there are at most ten
topics, with distinct names that stay; and the live entries of every array
are the clients answered `OK` and not yet unregistered, in the order of their
registrations and without duplicates. -/
theorem registry_invariant
    {requests : List Request} {final : Handlers}
    (admissible : Obeys Request.step Admissible initial requests)
    (reached : run Request.step initial requests = some final) :
    final.registry.currentTopics ≤ maxTopics ∧
      final.registry.table.names.Nodup ∧
      (∀ more later, run Request.step final more = some later →
        final.registry.table.names <+: later.registry.table.names) ∧
      (∀ member,
        member ∈ (Account.after requests).members ↔
          final.phase member.fd = .serving member) ∧
      ∀ topicId, topicId < final.registry.currentTopics → ∀ kind,
        (final.registry.allTopics topicId).count kind =
            (final.live topicId kind).length ∧
          final.live topicId kind =
            membersOf (Account.after requests).members
              (final.registry.allTopics topicId).name kind ∧
          ((final.live topicId kind).map Client.id).Nodup ∧
          ((final.live topicId kind).map Client.fd).Nodup := by
  have settled := settled_of_run admissible reached
  have consistent := settled.consistent
  have members : (Account.after requests).members = final.roster := by
    rw [← account_of_requests reached]
    rfl
  rw [members]
  refine
    ⟨consistent.holds.topics_le, consistent.holds.names_nodup, ?_,
      settled.mem_roster, ?_⟩
  · intro more later continued
    rw [Request.step, run_grouped] at continued
    exact names_of_run consistent.toGenerators continued
  · intro topicId inside kind
    have listed := settled.live_eq inside kind
    rw [listed]
    exact
      ⟨settled.count_eq inside kind, rfl,
        consistent.ids_membersOf_nodup _ kind,
        fds_membersOf_nodup consistent.rosterFds _ kind⟩

/-- Two subscribers and a publisher register, and the first subscriber
unregisters. -/
def threeClients : List Request :=
  [.register 4 .subscriber topicT (Registry.initial.allTopics 0),
    .register 6 .subscriber topicT (Registry.initial.allTopics 0),
    .register 5 .publisher topicT (Registry.initial.allTopics 0),
    .unregister 4 topicT 1 0 ⟨topicT, 0, 0⟩]

theorem registry_invariant_three :
    ∃ final,
      run Request.step initial threeClients = some final ∧
        final.registry.currentTopics ≤ maxTopics ∧
        final.live 0 .subscriber = [⟨topicT, 2, 6⟩] ∧
        final.live 0 .publisher = [⟨topicT, 0, 5⟩] := by
  have wellBehaved :
      Obeys Request.step Request.WellBehaved initial threeClients := by
    decide +kernel
  have seen :
      (run Request.step initial threeClients).map
          (fun final =>
            ((final.registry.allTopics 0).name,
              final.registry.currentTopics)) =
        some (topicT, 1) := by
    decide +kernel
  obtain ⟨final, reached, views⟩ := Option.map_eq_some_iff.mp seen
  obtain ⟨name, topics⟩ := Prod.mk.inj views
  obtain ⟨topicsLe, _, _, _, arrays⟩ :=
    registry_invariant (admissible_of_few wellBehaved (by decide)) reached
  have inside : 0 < final.registry.currentTopics := by
    rw [topics]
    exact Nat.one_pos
  refine ⟨final, reached, topicsLe, ?_, ?_⟩
  · rw [(arrays 0 inside .subscriber).2.1, name]
    decide +kernel
  · rw [(arrays 0 inside .publisher).2.1, name]
    decide +kernel

end Handlers

end SistemasDistribuidos.Practica4
