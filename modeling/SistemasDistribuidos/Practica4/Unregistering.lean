import SistemasDistribuidos.Practica4.Registering

/-!
# An `UNREGISTER` keeps the registry consistent

The four steps of `unregister`, and with them every step of a handler:
`Consistent.step`.
-/

namespace SistemasDistribuidos.Practica4

open SistemasDistribuidos SlotArray

namespace Handlers

section Unregistering

variable {handlers : Handlers} {fd : Fd}

theorem Consistent.find
    (consistent : handlers.Consistent) {member : Member}
    (here : handlers.phase fd = .serving member) (stackFd : Fd) :
    (handlers.find fd member member.topic member.id
      stackFd).Consistent := by
  obtain ⟨enrolled, own⟩ :=
    (consistent.present fd member).mp (by
      rw [here]
      rfl)
  obtain ⟨inside, position, listed, fits, foundAt, occupant⟩ :=
    consistent.clientPos_eq enrolled
  simp only [Handlers.find, foundAt, if_pos fits, occupant]
  apply consistent.setPhase
  · rw [here]
    rfl
  · rw [here]
    rfl
  · rw [here]
    rfl
  · rw [here]
    rfl
  · intro other topicId clientPos fdToDel isFound
    obtain ⟨rfl, rfl, rfl, rfl⟩ := Phase.found.inj isFound
    exact
      ⟨Registry.getElem?_names_eq_some.mpr
        ⟨inside, Registry.name_getTopicId inside⟩, listed, own⟩
  · rintro other topicId (⟨_, impossible⟩ | impossible) <;>
      cases impossible

theorem Consistent.reply
    (consistent : handlers.Consistent) {member : Member}
    {topicId : Nat} {fdToDel : Fd}
    (here : handlers.phase fd = .shifted member topicId fdToDel) :
    (handlers.setPhase fd (.replied member topicId)).Consistent := by
  apply consistent.setPhase
  · rw [here]
    rfl
  · rw [here]
    rfl
  · rw [here]
    rfl
  · rw [here]
    rfl
  · intro other topicId clientPos fdToDel impossible
    cases impossible
  · rintro other otherTopicId (⟨_, impossible⟩ | same)
    · cases impossible
    · obtain ⟨rfl, rfl⟩ := Phase.replied.inj same
      exact
        consistent.unlisted fd member topicId (Or.inl ⟨fdToDel, here⟩)

/-- The threads after a client has been shifted out. -/
theorem Threads.shift
    (threads : handlers.Threads) {member : Member}
    {topicId clientPos : Nat} {fdToDel : Fd}
    (here : handlers.phase fd = .found member topicId clientPos fdToDel)
    (beyond : Client) :
    (handlers.shift fd member topicId clientPos fdToDel
      beyond).Threads := by
  obtain ⟨enrolled, own⟩ :=
    (threads.present fd member).mp (by
      rw [here]
      rfl)
  have notLeaving : ∀ other ∈ handlers.leaving, other.fd ≠ fd := by
    intro other leaves same
    have departing := (threads.departing fd other).mpr ⟨leaves, same⟩
    rw [here] at departing
    cases departing
  refine
    { present := ?_
      departing := ?_
      rosterFds :=
        threads.rosterFds.sublist (List.filter_sublist.map Member.fd)
      leavingFds := ?_
      locked := ?_
      ids := ?_
      enteringLast := ?_ }
  · intro other tested
    simp only [Handlers.shift, List.mem_filter, decide_eq_true_eq]
    by_cases same : other = fd
    · subst same
      rw [phase_setPhase_self]
      constructor
      · intro impossible
        cases impossible
      · intro given
        rcases given with ⟨⟨_, different⟩, equal⟩
        exact absurd equal different
    · rw [phase_setPhase_of_ne handlers same, threads.present other tested]
      constructor
      · intro given
        rcases given with ⟨listed, itsFd⟩
        exact ⟨⟨listed, fun equal => same (itsFd.symm.trans equal)⟩, itsFd⟩
      · intro given
        rcases given with ⟨⟨listed, _⟩, itsFd⟩
        exact ⟨listed, itsFd⟩
  · intro other tested
    simp only [Handlers.shift, List.mem_append, List.mem_singleton]
    by_cases same : other = fd
    · subst same
      rw [phase_setPhase_self]
      constructor
      · intro equal
        have identical : member = tested := Option.some.inj equal
        subst identical
        exact ⟨Or.inr rfl, own⟩
      · intro given
        rcases given with ⟨leaves | rfl, itsFd⟩
        · exact absurd itsFd (notLeaving tested leaves)
        · rfl
    · rw [phase_setPhase_of_ne handlers same, threads.departing other tested]
      constructor
      · intro given
        rcases given with ⟨leaves, itsFd⟩
        exact ⟨Or.inl leaves, itsFd⟩
      · intro given
        rcases given with ⟨leaves | rfl, itsFd⟩
        · exact ⟨leaves, itsFd⟩
        · exact absurd (itsFd.symm.trans own) same
  · simp only [Handlers.shift, List.map_append, List.map_cons,
      List.map_nil]
    refine
      List.nodup_append.mpr
        ⟨threads.leavingFds, List.nodup_singleton _, ?_⟩
    intro first firstMember second secondMember same
    obtain ⟨other, leaves, rfl⟩ := List.mem_map.mp firstMember
    rw [List.mem_singleton] at secondMember
    exact
      notLeaving other leaves (same.trans (secondMember.trans own))
  · intro other
    have same :
        (Phase.shifted member topicId fdToDel).registering =
          (handlers.phase fd).registering := by
      rw [here]
      rfl
    have view := view_setPhase handlers same other
    exact (Eq.congr_left view).trans (threads.locked other)
  · intro first firstMember second secondMember
    simp only [Handlers.shift, List.mem_filter] at firstMember secondMember
    exact threads.ids first firstMember.1 second secondMember.1
  · intro last entered
    have same :
        (Phase.shifted member topicId fdToDel).entering =
          (handlers.phase fd).entering := by
      rw [here]
      rfl
    have before : handlers.entering = some last :=
      (entering_setPhase handlers same) ▸ entered
    have different : last.fd ≠ fd := by
      -- The entering client's thread is not the one that leaves.
      have phase := threads.phase_of_entering before
      intro equal
      rw [equal, here] at phase
      cases phase
    have atEnd := threads.enteringLast last before
    rw [List.getLast?_eq_some_iff] at atEnd
    obtain ⟨front, equation⟩ := atEnd
    simp only [Handlers.shift]
    rw [membersOf_filter_fd, equation, List.filter_append,
      List.filter_cons_of_pos
        (by exact decide_eq_true different)]
    simp

/-- The client that is shifted out is still counted. -/
theorem expected_shift
    (threads : handlers.Threads) {member : Member}
    {topicId clientPos : Nat} {fdToDel : Fd}
    (here : handlers.phase fd = .found member topicId clientPos fdToDel)
    (beyond : Client) :
    (handlers.shift fd member topicId clientPos fdToDel
        beyond).expected =
      handlers.expected := by
  obtain ⟨enrolled, own⟩ :=
    (threads.present fd member).mp (by
      rw [here]
      rfl)
  have same :
      (Phase.shifted member topicId fdToDel).entering =
        (handlers.phase fd).entering := by
    rw [here]
    rfl
  have entering :
      (handlers.shift fd member topicId clientPos fdToDel
          beyond).entering = handlers.entering :=
    entering_setPhase handlers same
  funext name kind
  have shorter :=
    length_membersOf_filter threads.rosterFds enrolled name kind
  rw [own] at shorter
  unfold expected
  rw [entering]
  simp only [Handlers.shift, setPhase, length_membersOf_append,
    length_membersOf_singleton]
  rw [shorter]
  split <;> push_cast <;> omega

theorem Consistent.shift
    (consistent : handlers.Consistent) {member : Member}
    {topicId clientPos : Nat} {fdToDel : Fd}
    (here : handlers.phase fd = .found member topicId clientPos fdToDel)
    {beyond : Client}
    (separate : handlers.Separate (.shift fd beyond)) :
    (handlers.shift fd member topicId clientPos fdToDel
      beyond).Consistent := by
  obtain ⟨enrolled, own⟩ :=
    (consistent.present fd member).mp (by
      rw [here]
      rfl)
  obtain ⟨named, listed, _⟩ :=
    consistent.found fd member topicId clientPos fdToDel here
  obtain ⟨inside, itsName⟩ := Registry.getElem?_names_eq_some.mp named
  have occupiedSlot :
      clientPos <
        (membersOf handlers.roster member.topic member.kind).length := by
    by_contra outside
    rw [List.getElem?_eq_none (by omega)] at listed
    cases listed
  have erased :
      membersOf
          (handlers.roster.filter (fun other => other.fd ≠ fd)) =
        (membersOf handlers.roster).erase member.topic member.kind
          clientPos := by
    have filtered :=
      membersOf_filter consistent.rosterFds enrolled listed
    rw [own] at filtered
    exact filtered
  have table :
      (handlers.shift fd member topicId clientPos fdToDel
          beyond).registry.table =
        handlers.registry.table :=
    handlers.registry.table_shiftClients topicId member.kind clientPos
      beyond
  refine
    { toThreads := consistent.toThreads.shift here beyond
      holds := ?_
      counts := ?_
      noneCounted := consistent.noneCounted
      given := ?_
      generated := consistent.generated
      publishers := ?_
      publishers_le := consistent.publishers_le
      found := ?_
      unlisted := ?_ }
  · simp only [Handlers.shift]
    rw [erased]
    exact
      consistent.holds.shiftClients inside itsName occupiedSlot beyond
  · rw [expected_shift consistent.toThreads here]
    exact
      consistent.counts.updateTopic (Registry.name_shiftClients _ _ _ _)
        (Topic.count_shiftClients _ _ _ _)
  · intro other listed
    simp only [Handlers.shift, List.mem_filter] at listed
    exact consistent.given other listed.1
  · intro name
    have before := consistent.publishers name
    have shorter :
        (membersOf
            (handlers.roster.filter (fun other => other.fd ≠ fd))
            name .publisher).length ≤
          (membersOf handlers.roster name .publisher).length := by
      rw [membersOf_filter_fd]
      exact List.length_filter_le _ _
    simp only [Handlers.shift]
    exact Int.le_trans (by exact_mod_cast shorter) before
  · intro other otherMember otherTopicId otherPos otherFd isFound
    have different : other ≠ fd := by
      intro equal
      subst equal
      simp [Handlers.shift] at isFound
    have isFound :
        handlers.phase other =
          .found otherMember otherTopicId otherPos otherFd :=
      phase_setPhase_of_ne handlers different _ ▸ isFound
    obtain ⟨otherNamed, otherListed, otherOwn⟩ :=
      consistent.found other otherMember otherTopicId otherPos otherFd
        isFound
    rw [table]
    refine ⟨otherNamed, ?_, otherOwn⟩
    simp only [Handlers.shift]
    rw [erased, Lists.erase]
    split
    · -- In the same array the position found lies before the shift.
      rename_i same
      have before :=
        separate member topicId clientPos fdToDel here other otherMember
          otherTopicId otherPos otherFd isFound different same.1 same.2
      rw [List.getElem?_eraseIdx_of_lt before]
      exact otherListed
    · exact otherListed
  · intro other otherMember otherTopicId leaves
    rw [table]
    by_cases same : other = fd
    · subst same
      simp only [Handlers.shift, phase_setPhase_self,
        Phase.shifted.injEq, reduceCtorEq, or_false] at leaves
      obtain ⟨_, rfl, rfl, _⟩ := leaves
      exact named
    · exact
        consistent.unlisted other otherMember otherTopicId
          (phase_setPhase_of_ne handlers same _ ▸ leaves)

/-- The threads after a client is no longer counted. -/
theorem Threads.decrement
    (threads : handlers.Threads) {member : Member} {topicId : Nat}
    (here : handlers.phase fd = .replied member topicId) :
    (handlers.decrement fd member topicId).Threads := by
  have samePresent :
      Phase.finished.present = (handlers.phase fd).present := by
    rw [here]
    rfl
  have sameRegistering :
      Phase.finished.registering = (handlers.phase fd).registering := by
    rw [here]
    rfl
  have sameEntering :
      Phase.finished.entering = (handlers.phase fd).entering := by
    rw [here]
    rfl
  refine
    { present := ?_
      departing := ?_
      rosterFds := threads.rosterFds
      leavingFds :=
        threads.leavingFds.sublist (List.filter_sublist.map Member.fd)
      locked := ?_
      ids := threads.ids
      enteringLast := ?_ }
  · intro other tested
    exact
      (Eq.congr_left (view_setPhase handlers samePresent other)).trans
        (threads.present other tested)
  · intro other tested
    simp only [Handlers.decrement, List.mem_filter, decide_eq_true_eq]
    by_cases same : other = fd
    · subst same
      rw [phase_setPhase_self]
      constructor
      · intro impossible
        cases impossible
      · intro given
        rcases given with ⟨⟨_, different⟩, equal⟩
        exact absurd equal different
    · rw [phase_setPhase_of_ne handlers same, threads.departing other tested]
      constructor
      · intro given
        rcases given with ⟨leaves, itsFd⟩
        exact
          ⟨⟨leaves, fun equal => same (itsFd.symm.trans equal)⟩, itsFd⟩
      · intro given
        rcases given with ⟨⟨leaves, _⟩, itsFd⟩
        exact ⟨leaves, itsFd⟩
  · intro other
    exact
      (Eq.congr_left
        (view_setPhase handlers sameRegistering other)).trans
        (threads.locked other)
  · intro last entered
    exact
      threads.enteringLast last
        ((entering_setPhase handlers sameEntering) ▸ entered)

theorem Consistent.decrement
    (consistent : handlers.Consistent) {member : Member} {topicId : Nat}
    (here : handlers.phase fd = .replied member topicId) :
    (handlers.decrement fd member topicId).Consistent := by
  obtain ⟨leaves, own⟩ :=
    (consistent.departing fd member).mp (by
      rw [here]
      rfl)
  have named := consistent.unlisted fd member topicId (Or.inr here)
  obtain ⟨inside, itsName⟩ := Registry.getElem?_names_eq_some.mp named
  have sameEntering :
      Phase.finished.entering = (handlers.phase fd).entering := by
    rw [here]
    rfl
  have expected :
      (handlers.decrement fd member topicId).expected =
        fun name kind =>
          if name = member.topic ∧ kind = member.kind then
            handlers.expected name kind - 1
          else
            handlers.expected name kind := by
    have entering :
        (handlers.decrement fd member topicId).entering =
          handlers.entering :=
      entering_setPhase handlers sameEntering
    funext name kind
    have shorter :=
      length_membersOf_filter consistent.leavingFds leaves name kind
    rw [own] at shorter
    unfold Handlers.expected
    rw [entering]
    simp only [Handlers.decrement]
    rw [shorter]
    simp only [Handlers.setPhase]
    split <;> omega
  have table :
      (handlers.decrement fd member topicId).registry.table =
        handlers.registry.table :=
    handlers.registry.table_addCount topicId member.kind (-1)
  refine
    { toThreads := consistent.toThreads.decrement here
      holds := consistent.holds.decrement topicId member.kind
      counts := ?_
      noneCounted := consistent.noneCounted
      given := consistent.given
      generated := consistent.generated
      publishers := consistent.publishers
      publishers_le := consistent.publishers_le
      found := ?_
      unlisted := ?_ }
  · rw [expected]
    exact
      consistent.counts.decrement consistent.holds.names_nodup inside
        itsName member.kind
  · intro other listed otherTopicId clientPos fdToDel isFound
    have different : other ≠ fd := by
      intro equal
      subst equal
      simp [Handlers.decrement] at isFound
    rw [table]
    exact
      consistent.found other listed otherTopicId clientPos fdToDel
        (phase_setPhase_of_ne handlers different _ ▸ isFound)
  · intro other listed otherTopicId departs
    have different : other ≠ fd := by
      intro equal
      subst equal
      simp [Handlers.decrement] at departs
    rw [table]
    exact
      consistent.unlisted other listed otherTopicId
        (phase_setPhase_of_ne handlers different _ ▸ departs)

/-- Every step that is well behaved, finds room and is separate keeps the
registry consistent. -/
theorem Consistent.step
    (consistent : handlers.Consistent)
    {action : HandlerAction} {next : Handlers}
    (wellBehaved : handlers.WellBehaved action)
    (room : handlers.Room action)
    (separate : handlers.Separate action)
    (taken : handlers.step action = some next) :
    next.Consistent := by
  cases action with
  | store fd kind topic stack =>
      obtain ⟨here, unlocked, rfl⟩ := step_store taken
      exact consistent.store here unlocked room separate
  | respond fd =>
      exact consistent.respond taken
  | count fd =>
      rcases step_count taken with ⟨member, here, rfl⟩ | ⟨here, rfl⟩
      · exact consistent.count here
      · exact consistent.unlock here
  | quit fd =>
      cases taken
      exact
        { toThreads :=
            { present := consistent.present
              departing := consistent.departing
              rosterFds := consistent.rosterFds
              leavingFds := consistent.leavingFds
              locked := consistent.locked
              ids := consistent.ids
              enteringLast := consistent.enteringLast }
          holds := consistent.holds
          counts := consistent.counts
          noneCounted := consistent.noneCounted
          given := consistent.given
          generated := consistent.generated
          publishers := consistent.publishers
          publishers_le := consistent.publishers_le
          found := consistent.found
          unlisted := consistent.unlisted }
  | find fd topic id stackFd =>
      obtain ⟨member, here, _, rfl⟩ := step_find taken
      obtain ⟨rfl, rfl⟩ := wellBehaved member here
      exact consistent.find here stackFd
  | shift fd beyond =>
      obtain ⟨member, topicId, clientPos, fdToDel, here, rfl⟩ :=
        step_shift taken
      exact consistent.shift here separate
  | reply fd =>
      obtain ⟨member, topicId, fdToDel, here, rfl⟩ := step_reply taken
      exact consistent.reply here
  | decrement fd =>
      obtain ⟨member, topicId, here, rfl⟩ := step_decrement taken
      exact consistent.decrement here

/-- Conditions that can be checked: a client registers when nobody leaves its
array and there are not too many clients, and is shifted out when nobody else
has looked up a position. -/
def Apart (handlers : Handlers) : HandlerAction → Prop
  | .store _ kind topic _ =>
      (∀ member ∈ handlers.leaving,
          ¬ (member.topic = topic ∧ member.kind = kind)) ∧
        handlers.roster.length < maxSubscribers
  | .shift fd _ =>
      ∀ member ∈ handlers.roster, member.fd ≠ fd →
        (handlers.phase member.fd).isFound = false
  | _ => True

instance (handlers : Handlers) :
    ∀ action, Decidable (handlers.Apart action)
  | .store _ _ _ _ => inferInstanceAs (Decidable (_ ∧ _))
  | .shift _ _ =>
      inferInstanceAs (Decidable (∀ member ∈ handlers.roster, _))
  | .respond _ => inferInstanceAs (Decidable True)
  | .count _ => inferInstanceAs (Decidable True)
  | .quit _ => inferInstanceAs (Decidable True)
  | .find _ _ _ _ => inferInstanceAs (Decidable True)
  | .reply _ => inferInstanceAs (Decidable True)
  | .decrement _ => inferInstanceAs (Decidable True)

/-- Clients that are kept apart are stored and shifted where they should be. -/
theorem Consistent.room_and_separate
    (consistent : handlers.Consistent)
    {action : HandlerAction} (apart : handlers.Apart action) :
    handlers.Room action ∧ handlers.Separate action := by
  cases action with
  | store fd kind topic stack =>
      obtain ⟨nobody, few⟩ := apart
      constructor
      · cases kind with
        | publisher => trivial
        | subscriber =>
            intro _
            have fewer :
                (membersOf handlers.roster topic .subscriber).length ≤
                  handlers.roster.length := by
              rw [membersOf, List.length_map]
              exact List.length_filter_le _ _
            omega
      · intro other member leaves
        exact nobody member ((consistent.departing other member).mp leaves).1
  | shift fd beyond =>
      refine ⟨trivial, ?_⟩
      intro member topicId clientPos fdToDel _ other otherMember _ _ _ found
        different _ _
      obtain ⟨listed, own⟩ :=
        (consistent.present other otherMember).mp (by rw [found]; rfl)
      have unfound := apart otherMember listed (by rw [own]; exact different)
      rw [own, found] at unfound
      cases unfound
  | _ => exact ⟨trivial, trivial⟩

end Unregistering

end Handlers

end SistemasDistribuidos.Practica4
