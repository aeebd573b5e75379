import SistemasDistribuidos.Practica4.Account

/-!
# Members as array entries

The members of one topic and kind, in the order in which they were stored, and
what adding or dropping one of them does to each of these lists.
-/

namespace SistemasDistribuidos.Practica4

open SistemasDistribuidos SlotArray

/-- The members of one topic and kind, as array entries in order. -/
def membersOf (members : List Member) : Lists :=
  fun name kind =>
    (members.filter
      (fun member => member.topic = name ∧ member.kind = kind)).map
      Member.client

theorem mem_membersOf
    {members : List Member} {name : TopicName} {kind : Kind}
    {client : Client} :
    client ∈ membersOf members name kind ↔
      ∃ member ∈ members,
        member.topic = name ∧ member.kind = kind ∧
          member.client = client := by
  simp [membersOf, and_assoc]

@[simp]
theorem membersOf_nil : membersOf [] = fun _ _ => [] :=
  rfl

theorem membersOf_append
    (members : List Member) (member : Member) :
    membersOf (members ++ [member]) =
      (membersOf members).append member.client member.kind := by
  funext name kind
  rw [membersOf, List.filter_append, List.map_append, Lists.append]
  by_cases same : member.topic = name ∧ member.kind = kind
  · rw [if_pos ⟨same.1.symm, same.2.symm⟩,
      List.filter_cons_of_pos (by simpa using same)]
    rfl
  · rw [if_neg (fun both => same ⟨both.1.symm, both.2.symm⟩),
      List.filter_cons_of_neg (by simpa using same)]
    simp [membersOf]

theorem length_membersOf_singleton
    (member : Member) (name : TopicName) (kind : Kind) :
    (membersOf [member] name kind).length =
      if name = member.topic ∧ kind = member.kind then 1 else 0 := by
  have appended := membersOf_append [] member
  rw [List.nil_append] at appended
  rw [appended, Lists.length_append, membersOf_nil, List.length_nil,
    Nat.zero_add]
  rfl

theorem length_membersOf_append
    (members : List Member) (member : Member)
    (name : TopicName) (kind : Kind) :
    (membersOf (members ++ [member]) name kind).length =
      (membersOf members name kind).length +
        (membersOf [member] name kind).length := by
  simp [membersOf]

theorem fds_membersOf_nodup
    {members : List Member} (distinct : (members.map Member.fd).Nodup)
    (name : TopicName) (kind : Kind) :
    ((membersOf members name kind).map Client.fd).Nodup := by
  rw [membersOf, List.map_map]
  exact distinct.sublist (List.filter_sublist.map Member.fd)

theorem membersOf_filter_fd
    (members : List Member) (fd : Fd)
    (name : TopicName) (kind : Kind) :
    membersOf (members.filter (fun other => other.fd ≠ fd)) name kind =
      (membersOf members name kind).filter
        (fun client => client.fd ≠ fd) := by
  simp only [membersOf, List.filter_map, List.filter_filter]
  congr 1
  apply List.filter_congr
  intro other _
  simp only [Function.comp_apply, Member.client]
  exact Bool.and_comm _ _

/-- With distinct descriptors, dropping a member erases its position. -/
theorem membersOf_filter
    {members : List Member} (distinct : (members.map Member.fd).Nodup)
    {member : Member} (enrolled : member ∈ members) {position : Nat}
    (here :
      (membersOf members member.topic member.kind)[position]? =
        some member.client) :
    membersOf (members.filter (fun other => other.fd ≠ member.fd)) =
      (membersOf members).erase member.topic member.kind position := by
  funext name kind
  rw [membersOf_filter_fd, Lists.erase]
  change (membersOf members name kind).filter
      (fun client => client.fd ≠ member.client.fd) = _
  by_cases same : name = member.topic ∧ kind = member.kind
  · obtain ⟨rfl, rfl⟩ := same
    rw [if_pos ⟨rfl, rfl⟩]
    exact
      filter_key_ne_eq_eraseIdx Client.fd
        (fds_membersOf_nodup distinct _ _) here
  · rw [if_neg same]
    apply List.filter_eq_self.mpr
    intro client clientMember
    obtain ⟨other, otherMember, topic, otherKind, rfl⟩ :=
      mem_membersOf.mp clientMember
    have different : other.fd ≠ member.fd := by
      intro equal
      have identical : other = member :=
        List.inj_on_of_nodup_map distinct otherMember enrolled equal
      subst identical
      exact same ⟨topic.symm, otherKind.symm⟩
    exact decide_eq_true different

/-- A member's entry has a position in the list of its topic. -/
theorem exists_position
    {members : List Member} {member : Member}
    (enrolled : member ∈ members) :
    ∃ position : Nat,
      (membersOf members member.topic member.kind)[position]? =
        some member.client :=
  List.mem_iff_getElem?.mp
    (mem_membersOf.mpr ⟨member, enrolled, rfl, rfl, rfl⟩)

/-- Dropping one member makes its own list one shorter. -/
theorem length_membersOf_filter
    {members : List Member} (distinct : (members.map Member.fd).Nodup)
    {member : Member} (enrolled : member ∈ members)
    (name : TopicName) (kind : Kind) :
    ((membersOf (members.filter (fun other => other.fd ≠ member.fd))
        name kind).length : Int) =
      if name = member.topic ∧ kind = member.kind then
        ((membersOf members name kind).length : Int) - 1
      else
        ((membersOf members name kind).length : Int) := by
  obtain ⟨position, here⟩ := exists_position enrolled
  have inside :
      position <
        (membersOf members member.topic member.kind).length := by
    by_contra outside
    rw [List.getElem?_eq_none (by omega)] at here
    cases here
  rw [membersOf_filter distinct enrolled here, Lists.erase]
  by_cases same : name = member.topic ∧ kind = member.kind
  · obtain ⟨rfl, rfl⟩ := same
    rw [if_pos ⟨rfl, rfl⟩, if_pos ⟨rfl, rfl⟩,
      List.length_eraseIdx_of_lt inside]
    omega
  · rw [if_neg same, if_neg same]

/-- No entry before a position has the descriptor that stands there. -/
theorem fd_ne_of_mem_take
    {entries : List Client} {client other : Client} {position count : Nat}
    (distinct : (entries.map Client.fd).Nodup)
    (atPosition : entries[position]? = some client)
    (behind : count ≤ position) (listed : other ∈ entries.take count) :
    other.fd ≠ client.fd := by
  intro sameFd
  obtain ⟨earlier, there⟩ := List.mem_iff_getElem?.mp listed
  rw [List.getElem?_take] at there
  split at there
  · rename_i small
    have sameSlot :
        (entries.map Client.fd)[earlier]? =
          (entries.map Client.fd)[position]? := by
      rw [List.getElem?_map, List.getElem?_map, there, atPosition,
        Option.map_some, Option.map_some, sameFd]
    have inside : earlier < (entries.map Client.fd).length := by
      rw [List.length_map]
      exact (List.getElem?_eq_some_iff.mp there).1
    have positions := (List.getElem?_inj inside distinct).mp sameSlot
    omega
  · cases there

end SistemasDistribuidos.Practica4
