import SistemasDistribuidos.Practica4.Members

/-!
# When the handlers do not disturb one another

`Consistent` relates the arrays and the counters of the registry to the
threads: the arrays begin with the clients stored and not shifted out, in the
order of the stores, and a counter differs from that number by the clients
that are still counted and those not counted yet.

It is kept by every step that is well behaved (an `UNREGISTER` carries the id
and topic its connection was given), finds room in the array, and is
*separate*: no client is stored while an `UNREGISTER` of the same array is
between its shift and its decrement, and no array is shifted at a position
below one that another `UNREGISTER` has found and not used yet.
-/

namespace SistemasDistribuidos.Practica4

open SistemasDistribuidos SlotArray

namespace Handlers

def entering (handlers : Handlers) : Option Member :=
  handlers.mutex3.bind fun fd => (handlers.phase fd).entering

/-- What the counters of the topics are, in terms of the clients. -/
def expected (handlers : Handlers) : TopicName → Kind → Int :=
  fun name kind =>
    ((membersOf handlers.roster name kind).length : Int) +
        (membersOf handlers.leaving name kind).length -
      (membersOf handlers.entering.toList name kind).length

/-- The phases, the lock and the two lists of members tell one story. -/
structure Threads (handlers : Handlers) : Prop where
  present : ∀ fd member,
    (handlers.phase fd).present = some member ↔
      member ∈ handlers.roster ∧ member.fd = fd
  departing : ∀ fd member,
    (handlers.phase fd).departing = some member ↔
      member ∈ handlers.leaving ∧ member.fd = fd
  rosterFds : (handlers.roster.map Member.fd).Nodup
  leavingFds : (handlers.leaving.map Member.fd).Nodup
  locked : ∀ fd,
    (handlers.phase fd).registering = true ↔ handlers.mutex3 = some fd
  ids : ∀ first ∈ handlers.roster, ∀ second ∈ handlers.roster,
    first.kind = second.kind → first.id = second.id → first = second
  enteringLast : ∀ member, handlers.entering = some member →
    (membersOf handlers.roster member.topic member.kind).getLast? =
      some member.client

/-- The arrays and counters of the registry match the threads. -/
structure Consistent (handlers : Handlers) : Prop
    extends handlers.Threads, handlers.Generators where
  holds : handlers.registry.Holds (membersOf handlers.roster)
  counts : handlers.registry.Counts handlers.expected
  given : ∀ member ∈ handlers.roster,
    0 ≤ member.id ∧ member.id < handlers.registry.nextId member.kind
  publishers : ∀ name,
    ((membersOf handlers.roster name .publisher).length : Int) ≤
      handlers.registry.nextPublisherId
  publishers_le : handlers.registry.nextPublisherId ≤ maxPublishers
  found : ∀ fd member topicId clientPos fdToDel,
    handlers.phase fd = .found member topicId clientPos fdToDel →
      handlers.registry.table.names[topicId]? = some member.topic ∧
        (membersOf handlers.roster member.topic member.kind)[clientPos]? =
          some member.client ∧
        fdToDel = fd
  unlisted : ∀ fd member topicId,
    (∃ fdToDel, handlers.phase fd = .shifted member topicId fdToDel) ∨
        handlers.phase fd = .replied member topicId →
      handlers.registry.table.names[topicId]? = some member.topic

theorem consistent_initial : initial.Consistent where
  holds := Registry.holds_initial
  counts := Registry.counts_initial
  noneCounted := rfl
  present := by simp [initial, Phase.present]
  departing := by simp [initial, Phase.departing]
  rosterFds := List.nodup_nil
  leavingFds := List.nodup_nil
  locked := by simp [initial, Phase.registering]
  ids := by simp [initial]
  given := by simp [initial]
  generated := by
    intro kind
    cases kind <;> decide
  publishers := by simp [initial, Registry.initial]
  publishers_le := by decide
  found := by simp [initial]
  unlisted := by simp [initial]
  enteringLast := by simp [initial, entering]

/-! ## The conditions on a step -/

/-- An `UNREGISTER` carries the id and topic of its connection. -/
def WellBehaved (handlers : Handlers) : HandlerAction → Prop
  | .find fd topic id _ =>
      ∀ member, handlers.phase fd = .serving member →
        topic = member.topic ∧ id = member.id
  | _ => True

theorem wellBehaved_find
    {handlers : Handlers} {fd : Fd} {topic : TopicName} {id : Int}
    {stackFd : Fd} :
    (∀ member ∈ (handlers.phase fd).served,
        topic = member.topic ∧ id = member.id) ↔
      handlers.WellBehaved (.find fd topic id stackFd) := by
  simp only [Phase.mem_served, WellBehaved]

instance (handlers : Handlers) :
    ∀ action, Decidable (handlers.WellBehaved action)
  | .find _ _ _ _ => decidable_of_iff _ wellBehaved_find
  | .store _ _ _ _ => inferInstanceAs (Decidable True)
  | .respond _ => inferInstanceAs (Decidable True)
  | .count _ => inferInstanceAs (Decidable True)
  | .quit _ => inferInstanceAs (Decidable True)
  | .shift _ _ => inferInstanceAs (Decidable True)
  | .reply _ => inferInstanceAs (Decidable True)
  | .decrement _ => inferInstanceAs (Decidable True)

/-- A subscriber that is admitted is stored inside the array of its topic. -/
def Room (handlers : Handlers) : HandlerAction → Prop
  | .store fd .subscriber topic stack =>
      (handlers.registry.register .subscriber topic fd stack).2.id ≠ -1 →
        (membersOf handlers.roster topic .subscriber).length <
          maxSubscribers
  | _ => True

/-- No other handler is in the middle of something the step would disturb. -/
def Separate (handlers : Handlers) : HandlerAction → Prop
  | .store _ kind topic _ =>
      ∀ fd member, (handlers.phase fd).departing = some member →
        ¬ (member.topic = topic ∧ member.kind = kind)
  | .shift fd _ =>
      ∀ member topicId clientPos fdToDel,
        handlers.phase fd = .found member topicId clientPos fdToDel →
          ∀ other otherMember otherTopicId otherPos otherFdToDel,
            handlers.phase other =
                .found otherMember otherTopicId otherPos otherFdToDel →
              other ≠ fd →
                otherMember.topic = member.topic →
                  otherMember.kind = member.kind →
                    otherPos < clientPos
  | _ => True

/-! ## Threads after one step -/

section Threads

variable {handlers : Handlers} {fd : Fd} {phase : Phase}

theorem view_setPhase
    (handlers : Handlers) {View : Type} {view : Phase → View}
    (same : view phase = view (handlers.phase fd)) (other : Fd) :
    view ((handlers.setPhase fd phase).phase other) =
      view (handlers.phase other) := by
  by_cases here : other = fd
  · rw [here, phase_setPhase_self, same]
  · rw [phase_setPhase_of_ne handlers here]

theorem entering_setPhase
    (handlers : Handlers)
    (same : phase.entering = (handlers.phase fd).entering) :
    (handlers.setPhase fd phase).entering = handlers.entering := by
  unfold entering
  congr 1
  funext other
  exact view_setPhase handlers same other

theorem Threads.entering_eq
    (threads : handlers.Threads)
    {member : Member}
    (here : (handlers.phase fd).entering = some member) :
    handlers.mutex3 = some fd ∧ handlers.entering = some member := by
  have lock : handlers.mutex3 = some fd := by
    apply (threads.locked fd).mp
    revert here
    cases handlers.phase fd <;>
      simp [Phase.entering, Phase.registering]
  refine ⟨lock, ?_⟩
  rw [entering, lock]
  exact here

theorem Threads.phase_of_entering
    (threads : handlers.Threads) {member : Member}
    (enters : handlers.entering = some member) :
    (handlers.phase member.fd).entering = some member := by
  obtain ⟨holder, _, phase⟩ := Option.bind_eq_some_iff.mp enters
  have present : (handlers.phase holder).present = some member := by
    revert phase
    cases handlers.phase holder <;>
      simp [Phase.entering, Phase.present]
  rw [((threads.present holder member).mp present).2]
  exact phase

/-- A step that moves one thread and the lock, and no member. -/
theorem Threads.move
    (threads : handlers.Threads) (lock : Option Fd)
    (samePresent : phase.present = (handlers.phase fd).present)
    (sameDeparting : phase.departing = (handlers.phase fd).departing)
    (locked : ∀ other,
      ((handlers.setPhase fd phase).phase other).registering = true ↔
        lock = some other)
    (entered : ∀ member,
      lock.bind (fun other =>
          ((handlers.setPhase fd phase).phase other).entering) =
        some member →
        handlers.entering = some member) :
    Threads { handlers.setPhase fd phase with mutex3 := lock } where
  present := by
    intro other member
    exact
      (Eq.congr_left (view_setPhase handlers samePresent other)).trans
        (threads.present other member)
  departing := by
    intro other member
    exact
      (Eq.congr_left (view_setPhase handlers sameDeparting other)).trans
        (threads.departing other member)
  rosterFds := threads.rosterFds
  leavingFds := threads.leavingFds
  locked := locked
  ids := threads.ids
  enteringLast := by
    intro member last
    exact threads.enteringLast member (entered member last)

end Threads

/-! ## Consistency after one step -/

section Steps

variable {handlers : Handlers} {fd : Fd}

/-- A step of one thread that touches no member and no array. -/
theorem Consistent.move
    (consistent : handlers.Consistent)
    {phase : Phase} (lock : Option Fd)
    (samePresent : phase.present = (handlers.phase fd).present)
    (sameDeparting : phase.departing = (handlers.phase fd).departing)
    (locked : ∀ other,
      ((handlers.setPhase fd phase).phase other).registering = true ↔
        lock = some other)
    (entered :
      lock.bind (fun other =>
          ((handlers.setPhase fd phase).phase other).entering) =
        handlers.entering)
    (found : ∀ member topicId clientPos fdToDel,
      phase = .found member topicId clientPos fdToDel →
        handlers.registry.table.names[topicId]? = some member.topic ∧
          (membersOf handlers.roster member.topic
              member.kind)[clientPos]? =
            some member.client ∧
          fdToDel = fd)
    (unlisted : ∀ member topicId,
      (∃ fdToDel, phase = .shifted member topicId fdToDel) ∨
          phase = .replied member topicId →
        handlers.registry.table.names[topicId]? = some member.topic) :
    Consistent { handlers.setPhase fd phase with mutex3 := lock } where
  toThreads :=
    consistent.toThreads.move lock samePresent sameDeparting locked
      (fun _ last => entered ▸ last)
  holds := consistent.holds
  counts := by
    have sameExpected :
        Handlers.expected
            { handlers.setPhase fd phase with mutex3 := lock } =
          handlers.expected := by
      funext name kind
      unfold Handlers.expected
      rw [show Handlers.entering
        { handlers.setPhase fd phase with mutex3 := lock } =
          handlers.entering from entered]
      rfl
    rw [sameExpected]
    exact consistent.counts
  noneCounted := consistent.noneCounted
  given := consistent.given
  generated := consistent.generated
  publishers := consistent.publishers
  publishers_le := consistent.publishers_le
  found := by
    intro other member topicId clientPos fdToDel here
    by_cases same : other = fd
    · subst same
      exact
        found member topicId clientPos fdToDel
          (phase_setPhase_self handlers _ phase ▸ here)
    · exact
        consistent.found other member topicId clientPos fdToDel
          (phase_setPhase_of_ne handlers same phase ▸ here)
  unlisted := by
    intro other member topicId here
    by_cases same : other = fd
    · subst same
      exact
        unlisted member topicId
          (phase_setPhase_self handlers _ phase ▸ here)
    · exact
        consistent.unlisted other member topicId
          (phase_setPhase_of_ne handlers same phase ▸ here)

theorem Consistent.setPhase
    (consistent : handlers.Consistent) {phase : Phase}
    (samePresent : phase.present = (handlers.phase fd).present)
    (sameDeparting : phase.departing = (handlers.phase fd).departing)
    (sameRegistering :
      phase.registering = (handlers.phase fd).registering)
    (sameEntering : phase.entering = (handlers.phase fd).entering)
    (found : ∀ member topicId clientPos fdToDel,
      phase = .found member topicId clientPos fdToDel →
        handlers.registry.table.names[topicId]? = some member.topic ∧
          (membersOf handlers.roster member.topic
              member.kind)[clientPos]? =
            some member.client ∧
          fdToDel = fd)
    (unlisted : ∀ member topicId,
      (∃ fdToDel, phase = .shifted member topicId fdToDel) ∨
          phase = .replied member topicId →
        handlers.registry.table.names[topicId]? = some member.topic) :
    (handlers.setPhase fd phase).Consistent :=
  consistent.move handlers.mutex3 samePresent sameDeparting
    (fun other => by
      rw [view_setPhase handlers sameRegistering other]
      exact consistent.locked other)
    (entering_setPhase handlers sameEntering) found unlisted

/-- The first loop of `shift_client_list` finds a member by its own id, in
the slot that holds its entry. -/
theorem Consistent.clientPos_eq
    (consistent : handlers.Consistent)
    {member : Member} (enrolled : member ∈ handlers.roster) :
    handlers.registry.getTopicId member.topic <
        handlers.registry.currentTopics ∧
      ∃ position : Nat,
        (membersOf handlers.roster member.topic member.kind)[position]? =
            some member.client ∧
          position < capacity member.kind ∧
          (handlers.registry.allTopics
              (handlers.registry.getTopicId member.topic)).clientPos
              member.kind member.id = position ∧
          (handlers.registry.allTopics
              (handlers.registry.getTopicId member.topic)).clients
              member.kind position = member.client := by
  obtain ⟨position, here⟩ := exists_position enrolled
  have inside :
      handlers.registry.getTopicId member.topic <
        handlers.registry.currentTopics := by
    rw [Registry.getTopicId_lt_iff]
    apply consistent.holds.known member.topic member.kind
    intro empty
    rw [empty] at here
    cases here
  have named := Registry.name_getTopicId inside
  generalize handlers.registry.getTopicId member.topic = topicId at *
  have slots := consistent.holds.slots topicId inside member.kind
  rw [named] at slots
  have slot : ∀ index : Nat,
      index <
          (membersOf handlers.roster member.topic member.kind).length →
        (membersOf handlers.roster member.topic member.kind)[index]? =
          some ((handlers.registry.allTopics topicId).clients
            member.kind index) := by
    intro index small
    rw [← slots, getElem?_occupied, if_pos small]
  have small :
      position <
        (membersOf handlers.roster member.topic member.kind).length := by
    by_contra outside
    rw [List.getElem?_eq_none (by omega)] at here
    cases here
  have fits := consistent.holds.fits member.topic member.kind
  have occupant :
      (handlers.registry.allTopics topicId).clients member.kind position =
        member.client := by
    have both := (slot position small).symm.trans here
    exact Option.some.inj both
  refine ⟨inside, position, here, by omega, ?_, occupant⟩
  apply search_eq_of_first (by omega)
  · rw [occupant]
    simp [Member.client]
  · intro earlier less
    -- An earlier slot with the same id would hold the same member twice.
    by_contra hit
    have sameId :
        ((handlers.registry.allTopics topicId).clients member.kind
          earlier).id = member.id := by
      simpa using hit
    have earlierSlot := slot earlier (by omega)
    obtain ⟨other, otherMember, topic, kind, entry⟩ :=
      mem_membersOf.mp (List.mem_of_getElem? earlierSlot)
    have identical : other = member := by
      apply consistent.ids other otherMember member enrolled kind
      rw [← sameId, ← entry]
      rfl
    subst identical
    have distinct :=
      fds_membersOf_nodup consistent.rosterFds other.topic other.kind
    have sameSlot :
        (membersOf handlers.roster other.topic other.kind)[earlier]? =
          (membersOf handlers.roster other.topic other.kind)[position]? := by
      rw [earlierSlot, here, entry]
    have positions :=
      (List.getElem?_inj (by omega) (List.Nodup.of_map _ distinct)).mp
        sameSlot
    omega

end Steps

end Handlers

end SistemasDistribuidos.Practica4
