import SistemasDistribuidos.Practica4.Serialisability

/-!
# How many clients the broker admits

How many clients of a kind are registered, in runs of requests that are
handled one at a time and in which an `UNREGISTER` may carry any topic and any
id.  `Numbered` is what every such run keeps: no client has an id that has not
been given yet, and no more publishers are registered than ids have been given.

`Open.admissions` leads to states with as many clients as there is room for.
-/

namespace SistemasDistribuidos.Practica4

open SistemasDistribuidos Machine

/-- Clients of a kind that were answered `OK` and have not unregistered. -/
def registered (members : List Member) (kind : Kind) : Nat :=
  members.countP (fun member => member.kind = kind)

theorem registered_append
    (members : List Member) (member : Member) (kind : Kind) :
    registered (members ++ [member]) kind =
      registered members kind + if member.kind = kind then 1 else 0 := by
  simp [registered, List.countP_append, List.countP_cons]

theorem registered_filter_le
    (members : List Member) (fd : Fd) (kind : Kind) :
    registered (members.filter (fun other => other.fd ≠ fd)) kind ≤
      registered members kind :=
  List.Sublist.countP_le List.filter_sublist

/-- A client that unregisters is not registered any more. -/
theorem registered_filter_lt
    {members : List Member} {member : Member}
    (enrolled : member ∈ members) :
    registered (members.filter (fun other => other.fd ≠ member.fd))
        member.kind <
      registered members member.kind := by
  have both :=
    List.countP_eq_countP_filter_add members
      (fun other => decide (other.kind = member.kind))
      (fun other => decide (other.fd ≠ member.fd))
  have gone :
      0 <
        (members.filter
          (fun other => !decide (other.fd ≠ member.fd))).countP
          (fun other => decide (other.kind = member.kind)) := by
    rw [List.countP_pos_iff]
    exact ⟨member, List.mem_filter.mpr ⟨enrolled, by simp⟩, by simp⟩
  rw [registered, registered, both]
  exact Nat.lt_add_of_pos_right gone

theorem length_membersOf_le
    (members : List Member) (topic : TopicName) (kind : Kind) :
    (membersOf members topic kind).length ≤ registered members kind := by
  rw [membersOf, List.length_map, ← List.countP_eq_length_filter]
  apply List.countP_mono_left
  intro member _ both
  simp only [decide_eq_true_eq] at both
  exact decide_eq_true both.2

namespace Account

structure Numbered (account : Account) : Prop where
  generated : ∀ kind, 0 ≤ account.table.nextId kind
  given : ∀ member ∈ account.members,
    member.id < account.table.nextId member.kind
  few :
    (registered account.members .publisher : Int) ≤
      account.table.nextId .publisher
  limited : account.table.nextId .publisher ≤ maxPublishers

theorem numbered_empty : empty.Numbered where
  generated := by
    intro kind
    cases kind <;> decide
  given := by simp [empty]
  few := by decide
  limited := by decide

section Receive

variable {account : Account}

/-- A registration changes nothing, or adds a client with the next id. -/
theorem register_cases
    (generated : ∀ kind, 0 ≤ account.table.nextId kind)
    (fd : Fd) (kind : Kind) (topic : TopicName) :
    ((account.table.register kind topic).2.responseStatus ≠ .ok ∧
        account.register fd kind topic = account) ∨
      ((account.table.register kind topic).2.responseStatus = .ok ∧
        (account.register fd kind topic).members =
          account.members ++
            [⟨kind, topic, account.table.nextId kind, fd⟩] ∧
        (∀ other,
          (account.register fd kind topic).table.nextId other =
            if other = kind then account.table.nextId other + 1
            else account.table.nextId other) ∧
        (kind = .publisher →
          account.table.nextId .publisher < maxPublishers)) := by
  by_cases refused : (account.table.register kind topic).2.id = -1
  · obtain ⟨unchanged, notOk⟩ :=
      Table.register_refused (generated kind) refused
    refine Or.inl ⟨notOk, ?_⟩
    rw [register, if_neg notOk, unchanged]
  · obtain ⟨answer, generators, _⟩ := Table.register_granted refused
    have ok :
        (account.table.register kind topic).2.responseStatus = .ok :=
      congrArg Response.responseStatus answer
    refine Or.inr ⟨ok, ?_, ?_, ?_⟩
    · rw [register, if_pos ok, answer]
    · rw [register, if_pos ok]
      exact generators
    · intro same
      subst same
      exact Table.register_granted_publisher refused

theorem Numbered.register
    (numbered : account.Numbered) (fd : Fd) (kind : Kind)
    (topic : TopicName) :
    (account.register fd kind topic).Numbered := by
  rcases register_cases numbered.generated fd kind topic with
    ⟨_, unchanged⟩ | ⟨_, members, generators, room⟩
  · rw [unchanged]
    exact numbered
  · have few := numbered.few
    constructor
    · intro other
      have generated := numbered.generated other
      rw [generators other]
      split <;> omega
    · intro member enrolled
      rw [members, List.mem_append, List.mem_singleton] at enrolled
      rw [generators member.kind]
      rcases enrolled with old | rfl
      · have given := numbered.given member old
        split <;> omega
      · rw [if_pos rfl]
        exact Int.lt_succ _
    · rw [members, registered_append, generators .publisher]
      by_cases same : kind = .publisher
      · rw [if_pos same, if_pos same.symm]
        omega
      · rw [if_neg same, if_neg (Ne.symm same)]
        omega
    · rw [generators .publisher]
      split
      · rename_i same
        have room := room same.symm
        omega
      · exact numbered.limited

theorem Numbered.receive
    (numbered : account.Numbered) (message : RegistryMessage) :
    (account.receive message).Numbered := by
  cases message with
  | register fd kind topic =>
      exact numbered.register fd kind topic
  | unregister fd topic id =>
      have fewer := registered_filter_le account.members fd .publisher
      exact
        { generated := numbered.generated
          given := fun member enrolled =>
            numbered.given member (List.mem_filter.mp enrolled).1
          few := Int.le_trans (by exact_mod_cast fewer) numbered.few
          limited := numbered.limited }

/-- Every account that can be reached is numbered. -/
theorem Numbered.foldl
    (numbered : account.Numbered) (messages : List RegistryMessage) :
    (messages.foldl Account.receive account).Numbered := by
  induction messages generalizing account with
  | nil =>
      exact numbered
  | cons message rest inductionHypothesis =>
      exact inductionHypothesis (numbered.receive message)

end Receive

end Account

namespace Handlers

section Requests

variable {handlers next : Handlers}

/-- A request does to the account what its message asks for. -/
theorem account_request
    {request : Request} (generators : handlers.Generators)
    (taken : Request.step handlers request = some next) :
    next.Generators ∧
      next.account =
        request.messages.foldl Account.receive handlers.account := by
  rw [← foldl_follow_expand]
  exact
    ⟨invariant_of_any_run
        (fun _ _ _ kept stepped => (step_account kept stepped).1)
        generators taken,
      account_of_run generators taken⟩

/-- Whoever connects after a client that registers is still unheard. -/
theorem accepted_of_register
    {first : Fd} {kind : Kind} {topic : TopicName} {stack : Topic}
    (accepted : ∀ fd, first ≤ fd → handlers.phase fd = .accepted)
    (taken :
      run step handlers
          (Request.expand (.register first kind topic stack)) =
        some next) :
    ∀ fd, first + 1 ≤ fd → next.phase fd = .accepted := by
  obtain ⟨_, _, _, _, others, _⟩ := run_register taken
  intro fd later
  have later : first < fd := later
  rw [others fd (Int.ne_of_gt later)]
  exact accepted fd (Int.le_of_lt later)

/-- What the broker answers to a registration. -/
theorem answer_eq
    (generators : handlers.Generators) (kind : Kind) (topic : TopicName)
    (fd : Fd) (stack : Topic) :
    (handlers.registry.register kind topic fd stack).2 =
      (handlers.registry.table.register kind topic).2 :=
  (Registry.register_table generators.noneCounted kind topic fd stack).2.1

theorem granted_of_ok
    (generators : handlers.Generators)
    {kind : Kind} {topic : TopicName} {fd : Fd} {stack : Topic}
    (ok :
      (handlers.registry.register kind topic fd stack).2.responseStatus =
        .ok) :
    (handlers.registry.register kind topic fd stack).2.id ≠ -1 := by
  rw [answer_eq generators] at ok ⊢
  intro refused
  have generated : 0 ≤ handlers.registry.table.nextId kind :=
    (Registry.nextId_table _ kind).symm ▸ generators.generated kind
  exact (Table.register_refused generated refused).2 ok

/-- No subscriber is ever answered `LIMIT`. -/
theorem subscriber_not_limited
    (generators : handlers.Generators)
    (topic : TopicName) (fd : Fd) (stack : Topic) :
    (handlers.registry.register .subscriber topic fd
        stack).2.responseStatus ≠ .limit := by
  rw [answer_eq generators, Table.register]
  split <;> exact Status.noConfusion

/-- A subscriber is admitted exactly when there is room for a topic. -/
theorem subscriber_admitted_iff
    (generators : handlers.Generators)
    (topic : TopicName) (fd : Fd) (stack : Topic) :
    (handlers.registry.register .subscriber topic fd
          stack).2.responseStatus = .ok ↔
      handlers.registry.currentTopics < maxTopics := by
  rw [answer_eq generators, Table.register,
    Registry.length_names_table]
  split
  · rename_i room
    exact iff_of_true rfl room
  · rename_i full
    exact iff_of_false Status.noConfusion full

end Requests

/-! ## Many clients of one topic -/

/-- There is no topic but `T`, and whoever connects next, from `first` on,
finds no other handler in the middle of a registration. -/
structure Open (handlers : Handlers) (first : Fd) : Prop where
  settled : handlers.Settled
  few : registered handlers.roster .subscriber ≤ maxSubscribers
  names :
    handlers.registry.table.names = [] ∨
      handlers.registry.table.names = [topicT]
  accepted : ∀ fd, first ≤ fd → handlers.phase fd = .accepted

theorem open_initial : initial.Open 0 where
  settled := settled_initial
  few := by decide
  names := Or.inl rfl
  accepted := fun _ _ => rfl

theorem Open.generators
    {handlers : Handlers} {first : Fd} (isOpen : handlers.Open first) :
    handlers.Generators :=
  isOpen.settled.consistent.toGenerators

theorem Open.unlocked
    {handlers : Handlers} {first : Fd} (isOpen : handlers.Open first) :
    handlers.mutex3 = none :=
  isOpen.settled.quiet.unlocked isOpen.settled.consistent.toThreads

/-- Clients of one kind register for `T`, one after another. -/
def admissions (kind : Kind) : Fd → Nat → List Request
  | _, 0 => []
  | first, number + 1 =>
      .register first kind topicT (Registry.initial.allTopics 0) ::
        admissions kind (first + 1) number

/-- A publisher is admitted while there are ids for publishers left, a
subscriber while there is room in the array. -/
def Admits (handlers : Handlers) (number : Nat) : Kind → Prop
  | .publisher =>
      topicT ∈ handlers.registry.table.names ∧
        handlers.registry.nextPublisherId + number ≤ maxPublishers
  | .subscriber =>
      registered handlers.roster .subscriber + number ≤ maxSubscribers

section Admissions

variable {handlers : Handlers} {first : Fd} {kind : Kind}

/-- The next client is admitted while there is room. -/
theorem Open.admit
    (isOpen : handlers.Open first) (admits : handlers.Admits 1 kind) :
    (handlers.registry.table.register kind topicT).2.responseStatus = .ok ∧
      (handlers.registry.table.register kind topicT).1.names =
        [topicT] := by
  cases kind with
  | subscriber =>
      rcases isOpen.names with none | one
      · simp [Table.register, none, maxTopics]
      · simp [Table.register, one, maxTopics]
  | publisher =>
      have room :
          handlers.registry.table.nextPublisherId < maxPublishers :=
        Int.lt_of_lt_of_le (Int.lt_succ _) admits.2
      rw [Table.register, if_pos admits.1, if_pos room]
      refine ⟨rfl, ?_⟩
      rcases isOpen.names with none | one
      · have known := admits.1
        rw [none] at known
        cases known
      · exact one

/-- What has changed when some clients of one kind have been admitted. -/
structure Admitted (handlers final : Handlers) (kind : Kind) (first : Fd)
    (number : Nat) : Prop where
  isOpen : final.Open (first + number)
  enrolled : handlers.roster <+: final.roster
  registered : ∀ other,
    registered final.roster other =
      registered handlers.roster other +
        if kind = other then number else 0
  generators : ∀ other,
    final.registry.nextId other =
      handlers.registry.nextId other + if kind = other then number else 0
  earlier : ∀ fd, fd < first → final.phase fd = handlers.phase fd
  named :
    0 < number ∨ topicT ∈ handlers.registry.table.names →
      topicT ∈ final.registry.table.names

theorem Admitted.trans
    {middle final : Handlers} {number : Nat}
    (one : handlers.Admitted middle kind first 1)
    (rest : middle.Admitted final kind (first + 1) number) :
    handlers.Admitted final kind first (number + 1) where
  isOpen := by
    have isOpen := rest.isOpen
    rw [Int.add_assoc, Int.add_comm 1] at isOpen
    exact_mod_cast isOpen
  enrolled := one.enrolled.trans rest.enrolled
  registered := by
    intro other
    rw [rest.registered, one.registered]
    split <;> omega
  generators := by
    intro other
    rw [rest.generators, one.generators]
    split <;> push_cast <;> omega
  earlier := by
    intro fd before
    have later : fd < first + 1 := Int.lt_add_one_of_le (Int.le_of_lt before)
    rw [rest.earlier fd later, one.earlier fd before]
  named := fun _ => rest.named (Or.inr (one.named (Or.inl Nat.one_pos)))

/-- One client is admitted when there is room. -/
theorem Open.register
    (isOpen : handlers.Open first) (admits : handlers.Admits 1 kind) :
    ∃ next,
      Request.step handlers
            (.register first kind topicT
              (Registry.initial.allTopics 0)) =
          some next ∧
        handlers.Admitted next kind first 1 ∧
        next.phase first =
          .serving
            ⟨kind, topicT, handlers.registry.nextId kind, first⟩ ∧
        ⟨kind, topicT, handlers.registry.nextId kind, first⟩ ∈
          next.roster := by
  obtain ⟨next, taken⟩ :=
    register_enabled (isOpen.accepted first (Int.le_refl first))
      isOpen.unlocked
      (isOpen.settled.storesInside kind topicT first
        (Registry.initial.allTopics 0))
  obtain ⟨_, account⟩ := account_request isOpen.generators taken
  obtain ⟨ok, names⟩ := isOpen.admit admits
  have registering :
      next.account = handlers.account.register first kind topicT :=
    account
  have granted :
      (handlers.registry.table.register kind topicT).2.id ≠ -1 := by
    rw [← answer_eq isOpen.generators kind topicT first
      (Registry.initial.allTopics 0)] at ok ⊢
    exact granted_of_ok isOpen.generators ok
  obtain ⟨answer, nextIds, known⟩ := Table.register_granted granted
  rw [Account.register, if_pos (show
    (handlers.account.table.register kind topicT).2.responseStatus = .ok
      from ok)] at registering
  have table :
      next.registry.table =
        (handlers.registry.table.register kind topicT).1 :=
    congrArg Account.table registering
  have roster :
      next.roster =
        handlers.roster ++
          [⟨kind, topicT, handlers.registry.nextId kind, first⟩] := by
    have members := congrArg Account.members registering
    simp only [Handlers.account, answer, Registry.nextId_table] at members
    exact members
  obtain ⟨_, _, _, _, others, outcome⟩ := run_register taken
  rw [answer_eq isOpen.generators, answer,
    Registry.nextId_table] at outcome
  have few : registered next.roster .subscriber ≤ maxSubscribers := by
    rw [roster, registered_append]
    cases kind with
    | publisher => exact isOpen.few
    | subscriber => exact admits
  have within : next.Within := fun name =>
    (length_membersOf_le next.roster name .subscriber).trans few
  have wellBehaved :
      Request.WellBehaved handlers
        (.register first kind topicT (Registry.initial.allTopics 0)) :=
    trivial
  refine ⟨next, taken, ?_, ?_, ?_⟩
  · exact
      { isOpen :=
          { settled := isOpen.settled.step wellBehaved taken within
            few := few
            names := by
              rw [table]
              exact Or.inr names
            accepted := accepted_of_register isOpen.accepted taken }
        enrolled := by
          rw [roster]
          exact List.prefix_append _ _
        registered := by
          intro other
          rw [roster, registered_append]
        generators := by
          intro other
          rw [← Registry.nextId_table, table, nextIds,
            Registry.nextId_table]
          by_cases same : kind = other
          · rw [if_pos same.symm, if_pos same]
            rfl
          · rw [if_neg (Ne.symm same), if_neg same]
            exact (Int.add_zero _).symm
        earlier := fun fd before => others fd (Int.ne_of_lt before)
        named := fun _ => table ▸ known }
  · rcases outcome with ⟨_, serving, _⟩ | ⟨refused, _⟩
    · exact serving
    · exact absurd refused (answer ▸ granted)
  · rw [roster]
    exact List.mem_append_right _ List.mem_cons_self

/-- So are as many as there is room for. -/
theorem Open.admissions
    (isOpen : handlers.Open first) (number : Nat)
    (admits : handlers.Admits number kind) :
    ∃ final,
      run Request.step handlers (admissions kind first number) =
          some final ∧
        handlers.Admitted final kind first number := by
  induction number generalizing handlers first with
  | zero =>
      refine ⟨handlers, rfl, ?_⟩
      exact
        { isOpen := by simpa using isOpen
          enrolled := List.prefix_rfl
          registered := by simp
          generators := by simp
          earlier := fun _ _ => rfl
          named := by simp }
  | succ number inductionHypothesis =>
      have one : handlers.Admits 1 kind := by
        cases kind with
        | subscriber =>
            simp only [Admits] at admits ⊢
            omega
        | publisher =>
            refine ⟨admits.1, Int.le_trans ?_ admits.2⟩
            push_cast
            omega
      obtain ⟨next, taken, admitted, _, _⟩ := isOpen.register one
      have remaining : next.Admits number kind := by
        cases kind with
        | subscriber =>
            have more :
                registered next.roster .subscriber =
                  registered handlers.roster .subscriber + 1 :=
              admitted.registered .subscriber
            simp only [Admits] at admits ⊢
            omega
        | publisher =>
            have moved :
                next.registry.nextPublisherId =
                  handlers.registry.nextPublisherId + 1 :=
              admitted.generators .publisher
            refine ⟨admitted.named (Or.inl Nat.one_pos), ?_⟩
            have enough := admits.2
            push_cast at enough
            omega
      obtain ⟨final, onwards, rest⟩ :=
        inductionHypothesis admitted.isOpen remaining
      refine ⟨final, run_cons_eq_some.mpr ⟨next, taken, onwards⟩, ?_⟩
      exact admitted.trans rest

end Admissions

end Handlers

end SistemasDistribuidos.Practica4
