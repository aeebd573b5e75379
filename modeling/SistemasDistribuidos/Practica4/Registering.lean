import SistemasDistribuidos.Practica4.Consistency

/-!
# A registration keeps the registry consistent

The three steps of a registration: the client is stored, or refused; it is sent
its response; and it is counted, or only `mutex3` is released.
-/

namespace SistemasDistribuidos.Practica4

open SistemasDistribuidos SlotArray

namespace Handlers

section Registering

variable {handlers : Handlers} {fd : Fd}

private theorem not_listed_of_accepted
    (threads : handlers.Threads) (here : handlers.phase fd = .accepted)
    {member : Member} (enrolled : member ∈ handlers.roster) :
    member.fd ≠ fd := by
  intro same
  have present := (threads.present fd member).mpr ⟨enrolled, same⟩
  rw [here] at present
  cases present

theorem entering_addClient
    (handlers : Handlers) (member : Member) (registry : Registry) :
    (handlers.addClient member registry).entering = some member := by
  simp [entering, addClient, Phase.entering]

/-- The threads after a client has been stored. -/
theorem Threads.addClient
    (threads : handlers.Threads) {member : Member}
    (here : handlers.phase member.fd = .accepted)
    (unlocked : handlers.mutex3 = none)
    (newId : ∀ other ∈ handlers.roster,
      other.kind = member.kind → other.id ≠ member.id)
    (registry : Registry) :
    (handlers.addClient member registry).Threads := by
  have unlisted :
      ∀ other ∈ handlers.roster, other.fd ≠ member.fd :=
    fun other enrolled => not_listed_of_accepted threads here enrolled
  refine
    { present := ?_
      departing := ?_
      rosterFds := ?_
      leavingFds := threads.leavingFds
      locked := ?_
      ids := ?_
      enteringLast := ?_ }
  · intro other tested
    simp only [Handlers.addClient, List.mem_append, List.mem_singleton]
    by_cases same : other = member.fd
    · subst same
      rw [phase_setPhase_self]
      constructor
      · intro equal
        have identical : member = tested := Option.some.inj equal
        subst identical
        exact ⟨Or.inr rfl, rfl⟩
      · intro given
        rcases given with ⟨enrolled | rfl, itsFd⟩
        · exact absurd itsFd (unlisted tested enrolled)
        · rfl
    · rw [phase_setPhase_of_ne handlers same, threads.present other tested]
      constructor
      · intro given
        rcases given with ⟨enrolled, itsFd⟩
        exact ⟨Or.inl enrolled, itsFd⟩
      · intro given
        rcases given with ⟨enrolled | rfl, itsFd⟩
        · exact ⟨enrolled, itsFd⟩
        · exact absurd itsFd.symm same
  · intro other tested
    have same :
        (Phase.stored member).departing =
          (handlers.phase member.fd).departing := by
      rw [here]
      rfl
    exact
      (Eq.congr_left (view_setPhase handlers same other)).trans
        (threads.departing other tested)
  · simp only [Handlers.addClient, List.map_append, List.map_cons,
      List.map_nil]
    refine
      List.nodup_append.mpr
        ⟨threads.rosterFds, List.nodup_singleton _, ?_⟩
    intro first firstMember second secondMember same
    obtain ⟨other, enrolled, rfl⟩ := List.mem_map.mp firstMember
    rw [List.mem_singleton] at secondMember
    exact unlisted other enrolled (same.trans secondMember)
  · intro other
    simp only [Handlers.addClient]
    by_cases same : other = member.fd
    · subst same
      rw [phase_setPhase_self]
      simp [Phase.registering]
    · rw [phase_setPhase_of_ne handlers same, threads.locked other, unlocked]
      simp [Ne.symm same]
  · intro first firstMember second secondMember sameKind sameId
    simp only [Handlers.addClient, List.mem_append,
      List.mem_singleton] at firstMember secondMember
    rcases firstMember with firstOld | rfl
    · rcases secondMember with secondOld | rfl
      · exact threads.ids first firstOld second secondOld sameKind sameId
      · exact absurd sameId (newId first firstOld sameKind)
    · rcases secondMember with secondOld | rfl
      · exact
          absurd sameId.symm (newId second secondOld sameKind.symm)
      · rfl
  · intro last entered
    rw [entering_addClient] at entered
    have identical : member = last := Option.some.inj entered
    subst identical
    simp [Handlers.addClient, membersOf_append, Lists.append, Member.client]

/-- The topic of a client that is leaving is in the table. -/
theorem Consistent.topic_of_leaving
    (consistent : handlers.Consistent)
    {member : Member} (leaves : member ∈ handlers.leaving) :
    member.topic ∈ handlers.registry.table.names := by
  have departing :=
    (consistent.departing member.fd member).mpr ⟨leaves, rfl⟩
  have known :
      ∃ topicId : Nat,
        handlers.registry.table.names[topicId]? = some member.topic := by
    cases phase : handlers.phase member.fd <;>
      rw [phase] at departing <;>
      simp only [Phase.departing, Option.some.injEq,
        reduceCtorEq] at departing
    · rename_i topicId fdToDel
      subst departing
      exact
        ⟨topicId,
          consistent.unlisted _ _ topicId (Or.inl ⟨fdToDel, phase⟩)⟩
    · rename_i topicId
      subst departing
      exact ⟨topicId, consistent.unlisted _ _ topicId (Or.inr phase)⟩
  obtain ⟨topicId, here⟩ := known
  exact List.mem_of_getElem? here

/-- While `mutex3` is free, a topic that does not exist has no clients. -/
theorem Consistent.expected_unknown
    (consistent : handlers.Consistent)
    (notEntering : handlers.entering = none)
    {name : TopicName} (unknown : name ∉ handlers.registry.table.names)
    (kind : Kind) :
    handlers.expected name kind = 0 := by
  have noMember : membersOf handlers.roster name kind = [] := by
    by_contra nonempty
    exact unknown (consistent.holds.known name kind nonempty)
  have noLeaver : membersOf handlers.leaving name kind = [] := by
    rw [List.eq_nil_iff_forall_not_mem]
    intro client clientMember
    obtain ⟨member, leaves, sameTopic, _, _⟩ :=
      mem_membersOf.mp clientMember
    exact unknown (sameTopic ▸ consistent.topic_of_leaving leaves)
  simp [expected, notEntering, noMember, noLeaver]

/-- While `mutex3` is free and nobody leaves, a counter is the number of
clients in the array. -/
theorem Consistent.expected_separate
    (consistent : handlers.Consistent)
    (notEntering : handlers.entering = none)
    {topic : TopicName} {kind : Kind}
    (separate : ∀ fd member,
      (handlers.phase fd).departing = some member →
        ¬ (member.topic = topic ∧ member.kind = kind)) :
    handlers.expected topic kind =
      (membersOf handlers.roster topic kind).length := by
  have noLeaver : membersOf handlers.leaving topic kind = [] := by
    rw [List.eq_nil_iff_forall_not_mem]
    intro client clientMember
    obtain ⟨member, leaves, sameTopic, sameKind, _⟩ :=
      mem_membersOf.mp clientMember
    exact
      separate member.fd member
        ((consistent.departing member.fd member).mpr ⟨leaves, rfl⟩)
        ⟨sameTopic, sameKind⟩
  simp [expected, notEntering, noLeaver]

/-- A client that is stored is entering, so it changes no counter. -/
theorem expected_addClient
    (notEntering : handlers.entering = none)
    (member : Member) (registry : Registry) :
    (handlers.addClient member registry).expected = handlers.expected := by
  funext name kind
  have entered := entering_addClient handlers member registry
  unfold expected
  rw [entered, notEntering]
  simp only [addClient, setPhase, length_membersOf_append,
    Option.toList_some, Option.toList_none, membersOf_nil,
    List.length_nil]
  push_cast
  omega

/-- A refused registration only takes the lock. -/
theorem Consistent.refuse
    (consistent : handlers.Consistent)
    (here : handlers.phase fd = .accepted)
    (unlocked : handlers.mutex3 = none) (status : Status) :
    Consistent
      { handlers.setPhase fd (.refusing status) with
        mutex3 := some fd } := by
  apply consistent.move
  · rw [here]
    rfl
  · rw [here]
    rfl
  · intro other
    by_cases same : other = fd
    · subst same
      rw [phase_setPhase_self]
      simp [Phase.registering]
    · rw [phase_setPhase_of_ne handlers same, consistent.locked other, unlocked]
      simp [Ne.symm same]
  · simp [entering, unlocked, Phase.entering]
  · intro member topicId clientPos fdToDel impossible
    cases impossible
  · rintro member topicId (⟨_, impossible⟩ | impossible) <;>
      cases impossible

/-- A stored client keeps the registry consistent when the registry holds it
and its generators have moved past its id. -/
theorem Consistent.addClient
    (consistent : handlers.Consistent) {member : Member}
    (here : handlers.phase member.fd = .accepted)
    (unlocked : handlers.mutex3 = none)
    {registry : Registry}
    (holds :
      registry.Holds
        ((membersOf handlers.roster).append member.client member.kind))
    (counts : registry.Counts handlers.expected)
    (noneCounted : registry.currentSubscribers = 0)
    (grows :
      handlers.registry.table.names <+: registry.table.names)
    (newId : member.id = handlers.registry.nextId member.kind)
    (nextIds : ∀ other,
      registry.nextId other =
        if other = member.kind then handlers.registry.nextId other + 1
        else handlers.registry.nextId other)
    (below :
      member.kind = .publisher →
        handlers.registry.nextPublisherId < maxPublishers) :
    (handlers.addClient member registry).Consistent := by
  have notEntering : handlers.entering = none := by
    rw [entering, unlocked]
    rfl
  have older : ∀ other ∈ handlers.roster,
      other.kind = member.kind → other.id < member.id := by
    intro other enrolled sameKind
    have bound := (consistent.given other enrolled).2
    rw [sameKind] at bound
    omega
  have nextPublisher := nextIds .publisher
  change registry.nextPublisherId =
    if Kind.publisher = member.kind then
      handlers.registry.nextPublisherId + 1
    else handlers.registry.nextPublisherId at nextPublisher
  refine
    { toThreads :=
        consistent.toThreads.addClient here unlocked
          (fun other enrolled sameKind =>
            Int.ne_of_lt (older other enrolled sameKind))
          registry
      holds := by
        rw [Handlers.addClient, membersOf_append]
        exact holds
      counts := by
        rw [expected_addClient notEntering]
        exact counts
      noneCounted := noneCounted
      generated := ?_
      given := ?_
      publishers := ?_
      publishers_le := ?_
      found := ?_
      unlisted := ?_ }
  · intro other
    have before := consistent.generated other
    rw [show (handlers.addClient member registry).registry = registry from rfl,
      nextIds]
    split
    · omega
    · exact before
  · intro other enrolled
    simp only [Handlers.addClient, List.mem_append,
      List.mem_singleton] at enrolled
    rw [show (handlers.addClient member registry).registry = registry from rfl,
      nextIds]
    rcases enrolled with old | rfl
    · have before := consistent.given other old
      split
      · exact ⟨before.1, by omega⟩
      · exact before
    · have nonneg := consistent.generated other.kind
      rw [if_pos rfl, newId]
      exact ⟨nonneg, by omega⟩
  · intro name
    have before := consistent.publishers name
    simp only [Handlers.addClient, length_membersOf_append,
      length_membersOf_singleton]
    rw [nextPublisher]
    push_cast
    split
    · rename_i both
      rw [if_pos both.2]
      omega
    · split <;> omega
  · have bound := consistent.publishers_le
    simp only [Handlers.addClient]
    rw [nextPublisher]
    split
    · rename_i same
      have below := below same.symm
      omega
    · exact bound
  · intro other listed topicId clientPos fdToDel isFound
    have different : other ≠ member.fd := by
      intro equal
      subst equal
      simp [Handlers.addClient] at isFound
    have isFound :
        handlers.phase other =
          .found listed topicId clientPos fdToDel :=
      phase_setPhase_of_ne handlers different _ ▸ isFound
    obtain ⟨named, position, own⟩ :=
      consistent.found other listed topicId clientPos fdToDel isFound
    refine ⟨getElem?_of_isPrefix grows named, ?_, own⟩
    rw [Handlers.addClient, membersOf_append, Lists.append]
    split
    · exact
        getElem?_of_isPrefix (List.prefix_append _ _) position
    · exact position
  · intro other listed topicId leaves
    have different : other ≠ member.fd := by
      intro equal
      subst equal
      simp [Handlers.addClient] at leaves
    have leaves :
        (∃ fdToDel,
            handlers.phase other = .shifted listed topicId fdToDel) ∨
          handlers.phase other = .replied listed topicId :=
      phase_setPhase_of_ne handlers different _ ▸ leaves
    exact
      getElem?_of_isPrefix grows
        (consistent.unlisted other listed topicId leaves)

/-- Storing a client, or refusing it, keeps the registry consistent. -/
theorem Consistent.store
    (consistent : handlers.Consistent)
    (here : handlers.phase fd = .accepted)
    (unlocked : handlers.mutex3 = none)
    {kind : Kind} {topic : TopicName} {stack : Topic}
    (room : handlers.Room (.store fd kind topic stack))
    (separate : handlers.Separate (.store fd kind topic stack)) :
    (handlers.store fd kind topic stack).Consistent := by
  have notEntering : handlers.entering = none := by
    rw [entering, unlocked]
    rfl
  by_cases refused :
      (handlers.registry.register kind topic fd stack).2.id = -1
  · have unchanged :=
      Registry.register_refused consistent.noneCounted
        (consistent.generated kind) refused
    simp only [Handlers.store, if_pos refused, unchanged]
    exact consistent.refuse here unlocked _
  · obtain ⟨table, response, noneCounted⟩ :=
      Registry.register_table consistent.noneCounted kind topic fd stack
    have granted :
        (handlers.registry.table.register kind topic).2.id ≠ -1 := by
      rw [← response]
      exact refused
    obtain ⟨answer, generators, _⟩ := Table.register_granted granted
    have newId :
        (handlers.registry.register kind topic fd stack).2.id =
          handlers.registry.nextId kind := by
      rw [response, answer, Registry.nextId_table]
    have below :
        kind = .publisher →
          handlers.registry.nextPublisherId < maxPublishers := by
      intro equal
      subst equal
      exact Table.register_granted_publisher granted
    have inRange :
        (membersOf handlers.roster topic kind).length <
          capacity kind := by
      cases kind with
      | subscriber => exact room refused
      | publisher =>
          have bound := consistent.publishers topic
          have below := below rfl
          simp only [capacity]
          omega
    obtain ⟨holds, counts⟩ :=
      consistent.holds.register consistent.counts consistent.noneCounted
        (fun _ unknown => consistent.expected_unknown notEntering unknown)
        (consistent.expected_separate notEntering separate)
        inRange refused
    rw [← newId] at holds
    simp only [Handlers.store, if_neg refused]
    apply consistent.addClient here unlocked holds counts noneCounted
    · rw [table]
      exact Table.names_register _ _ _
    · exact newId
    · intro other
      rw [← Registry.nextId_table, table, generators other,
        Registry.nextId_table]
    · exact below

theorem Consistent.respond
    (consistent : handlers.Consistent) {next : Handlers}
    (taken : handlers.step (.respond fd) = some next) :
    next.Consistent := by
  rcases step_respond taken with
    ⟨member, here, rfl⟩ | ⟨status, here, rfl⟩
  all_goals
    apply consistent.setPhase
    · rw [here]
      rfl
    · rw [here]
      rfl
    · rw [here]
      rfl
    · rw [here]
      rfl
    · intro other topicId clientPos fdToDel impossible
      cases impossible
    · rintro other topicId (⟨_, impossible⟩ | impossible) <;>
        cases impossible

/-- A refused client's thread only gives the lock back. -/
theorem Consistent.unlock
    (consistent : handlers.Consistent)
    (here : handlers.phase fd = .refused) :
    Consistent
      { handlers.setPhase fd .finished with mutex3 := none } := by
  have lock : handlers.mutex3 = some fd := by
    apply (consistent.locked fd).mp
    rw [here]
    rfl
  apply consistent.move
  · rw [here]
    rfl
  · rw [here]
    rfl
  · intro other
    by_cases same : other = fd
    · subst same
      rw [phase_setPhase_self]
      simp [Phase.registering]
    · rw [phase_setPhase_of_ne handlers same, consistent.locked other,
        lock]
      simp [Ne.symm same]
  · simp [entering, lock, here, Phase.entering]
  · intro member topicId clientPos fdToDel impossible
    cases impossible
  · rintro member topicId (⟨_, impossible⟩ | impossible) <;>
      cases impossible

/-- Counting the entering client raises exactly its own counter. -/
theorem expected_count
    {member : Member} (entered : handlers.entering = some member) :
    (handlers.count fd member).expected =
      fun name kind =>
        if name = member.topic ∧ kind = member.kind then
          handlers.expected name kind + 1
        else
          handlers.expected name kind := by
  funext name kind
  have gone : (handlers.count fd member).entering = none := rfl
  unfold expected
  rw [gone, entered]
  simp only [count, setPhase, Option.toList_some, Option.toList_none,
    membersOf_nil, List.length_nil, length_membersOf_singleton]
  split <;> push_cast <;> omega

theorem Consistent.count
    (consistent : handlers.Consistent) {member : Member}
    (here : handlers.phase fd = .answered member) :
    (handlers.count fd member).Consistent := by
  obtain ⟨lock, entered⟩ :=
    consistent.toThreads.entering_eq (show
      (handlers.phase fd).entering = some member by
        rw [here]
        rfl)
  have threads :
      Threads
        { handlers.setPhase fd (.serving member) with mutex3 := none } := by
    apply consistent.toThreads.move
    · rw [here]
      rfl
    · rw [here]
      rfl
    · intro other
      by_cases same : other = fd
      · subst same
        rw [phase_setPhase_self]
        simp [Phase.registering]
      · rw [phase_setPhase_of_ne handlers same, consistent.locked other, lock]
        simp [Ne.symm same]
    · intro other impossible
      cases impossible
  refine
    { toThreads :=
        { present := threads.present
          departing := threads.departing
          rosterFds := threads.rosterFds
          leavingFds := threads.leavingFds
          locked := threads.locked
          ids := threads.ids
          enteringLast := threads.enteringLast }
      holds := consistent.holds.countClient member.kind member.topic
      counts := ?_
      noneCounted := consistent.noneCounted
      given := consistent.given
      generated := consistent.generated
      publishers := consistent.publishers
      publishers_le := consistent.publishers_le
      found := ?_
      unlisted := ?_ }
  · rw [expected_count entered]
    exact consistent.counts.countClient member.kind member.topic
  · intro other listed topicId clientPos fdToDel isFound
    have different : other ≠ fd := by
      intro equal
      subst equal
      simp [Handlers.count] at isFound
    rw [Handlers.count, Registry.table_countClient]
    exact
      consistent.found other listed topicId clientPos fdToDel
        (phase_setPhase_of_ne handlers different _ ▸ isFound)
  · intro other listed topicId leaves
    have different : other ≠ fd := by
      intro equal
      subst equal
      simp [Handlers.count] at leaves
    rw [Handlers.count, Registry.table_countClient]
    exact
      consistent.unlisted other listed topicId
        (phase_setPhase_of_ne handlers different _ ▸ leaves)

end Registering

end Handlers

end SistemasDistribuidos.Practica4
