import SistemasDistribuidos.Practica4.Broker

/-!
# Subscribers that stay where they are

A step of a handler other than a shift takes no client out: the arrays grow at
their ends and nobody who was answered is forgotten.  While no subscriber of a
topic is leaving, its counter counts the first subscribers of the array, and
those are the ones being served.
-/

namespace SistemasDistribuidos.Practica4

open SistemasDistribuidos SlotArray Machine

namespace Handlers

/-- No position has been found and not used. -/
def Unfound (handlers : Handlers) : Prop :=
  ∀ fd member topicId clientPos fdToDel,
    handlers.phase fd ≠ .found member topicId clientPos fdToDel

/-- No client has been taken out, and none that was answered has been
forgotten. -/
structure Calm (handlers next : Handlers) : Prop where
  told : ∀ fd member, (handlers.phase fd).told = some member →
    (next.phase fd).told = some member
  roster : handlers.roster <+: next.roster
  quit : ∀ fd, next.quit fd = false → handlers.quit fd = false
  unfound : handlers.Unfound → next.Unfound

section Steps

variable {handlers next : Handlers} {fd : Fd}

/-- A thread moves and stays told if it was. -/
theorem calm_of_move
    {phase : Phase}
    (moved : next.phase = Function.update handlers.phase fd phase)
    (told :
      (handlers.phase fd).told = none ∨
        phase.told = (handlers.phase fd).told)
    (notFound : ∀ member topicId clientPos fdToDel,
      phase ≠ .found member topicId clientPos fdToDel)
    (roster : handlers.roster <+: next.roster)
    (sameQuit : next.quit = handlers.quit) :
    handlers.Calm next where
  told := by
    intro other member before
    rw [moved]
    by_cases same : other = fd
    · subst same
      rw [Function.update_self]
      rcases told with untold | same
      · rw [untold] at before
        cases before
      · rw [same]
        exact before
    · rw [Function.update_of_ne same]
      exact before
  roster := roster
  quit := by
    intro other unquit
    rw [sameQuit] at unquit
    exact unquit
  unfound := by
    intro unfound other
    rw [moved]
    by_cases same : other = fd
    · subst same
      rw [Function.update_self]
      exact notFound
    · rw [Function.update_of_ne same]
      exact unfound other

theorem calm_store
    (here : handlers.phase fd = .accepted)
    (kind : Kind) (topic : TopicName) (stack : Topic) :
    handlers.Calm (handlers.store fd kind topic stack) := by
  simp only [store]
  split
  · exact
      calm_of_move rfl (Or.inl (by rw [here]; rfl))
        (fun _ _ _ _ => Phase.noConfusion) List.prefix_rfl rfl
  · exact
      calm_of_move rfl (Or.inl (by rw [here]; rfl))
        (fun _ _ _ _ => Phase.noConfusion) (List.prefix_append _ _) rfl

theorem calm_respond
    (taken : handlers.step (.respond fd) = some next) :
    handlers.Calm next := by
  rcases step_respond taken with ⟨_, here, rfl⟩ | ⟨_, here, rfl⟩ <;>
    exact
      calm_of_move rfl (Or.inl (by rw [here]; rfl))
        (fun _ _ _ _ => Phase.noConfusion) List.prefix_rfl rfl

theorem calm_count
    (taken : handlers.step (.count fd) = some next) :
    handlers.Calm next := by
  rcases step_count taken with ⟨member, here, rfl⟩ | ⟨here, rfl⟩
  · exact
      calm_of_move rfl (Or.inr (by rw [here]; rfl))
        (fun _ _ _ _ => Phase.noConfusion) List.prefix_rfl rfl
  · exact
      calm_of_move rfl (Or.inl (by rw [here]; rfl))
        (fun _ _ _ _ => Phase.noConfusion) List.prefix_rfl rfl

theorem calm_quit
    (taken : handlers.step (.quit fd) = some next) :
    handlers.Calm next := by
  cases taken
  refine ⟨fun _ _ told => told, List.prefix_rfl, ?_, fun unfound => unfound⟩
  intro other unquit
  by_cases same : other = fd
  · subst same
    simp at unquit
  · simpa [same] using unquit

theorem calm_decrement
    (taken : handlers.step (.decrement fd) = some next) :
    handlers.Calm next := by
  obtain ⟨_, _, here, rfl⟩ := step_decrement taken
  exact
    calm_of_move rfl (Or.inl (by rw [here]; rfl))
      (fun _ _ _ _ => Phase.noConfusion) List.prefix_rfl rfl

/-- `shift_client_list` as a whole. -/
theorem run_shiftClientList
    {member : Member} {stackFd : Fd} {beyond : Client}
    (here : handlers.phase fd = .serving member)
    (taken :
      run step handlers
        [.find fd member.topic member.id stackFd, .shift fd beyond,
          .reply fd] = some next) :
    handlers.quit fd = true ∧
      next.quit = handlers.quit ∧
      (∃ topicId, next.phase fd = .replied member topicId) ∧
      (∀ other, other ≠ fd →
        next.phase other = handlers.phase other) ∧
      next.roster =
        handlers.roster.filter (fun other => other.fd ≠ fd) ∧
      (handlers.Consistent → handlers.Unfound → next.Consistent) := by
  obtain ⟨located, findTaken, afterFind⟩ := run_cons_eq_some.mp taken
  obtain ⟨moved, shiftTaken, afterShift⟩ := run_cons_eq_some.mp afterFind
  rw [run_singleton] at afterShift
  have consistent :
      handlers.Consistent → handlers.Unfound → next.Consistent := by
    intro consistent unfound
    have foundConsistent : located.Consistent := by
      refine consistent.step ?_ ?_ ?_ findTaken
      · intro other serving
        rw [here] at serving
        cases serving
        exact ⟨rfl, rfl⟩
      · trivial
      · trivial
    have shiftedConsistent : moved.Consistent := by
      refine foundConsistent.step ?_ ?_ ?_ shiftTaken
      · trivial
      · trivial
      · intro _ _ _ _ _ other _ _ _ _ found different
        rw [phase_step_of_ne different findTaken] at found
        exact absurd found (unfound other _ _ _ _)
    refine shiftedConsistent.step ?_ ?_ ?_ afterShift <;> trivial
  obtain ⟨other, serving, quit, rfl⟩ := step_find findTaken
  rw [here] at serving
  cases serving
  obtain ⟨shifting, topicId, clientPos, fdToDel, found, rfl⟩ :=
    step_shift shiftTaken
  simp only [find, phase_setPhase_self, Phase.found.injEq] at found
  obtain ⟨rfl, _⟩ := found
  obtain ⟨replying, repliedId, _, shifted, rfl⟩ := step_reply afterShift
  simp only [shift, phase_setPhase_self, Phase.shifted.injEq] at shifted
  obtain ⟨rfl, rfl, _⟩ := shifted
  refine
    ⟨quit, rfl, ⟨topicId, by simp⟩, ?_, rfl, consistent⟩
  intro other different
  simp [find, shift, setPhase, different]

/-- Who was answered is on the roster under its own descriptor. -/
theorem Consistent.enrolled_of_told
    (consistent : handlers.Consistent) {member : Member}
    (told : (handlers.phase fd).told = some member) :
    member ∈ handlers.roster ∧ member.fd = fd := by
  apply (consistent.present fd member).mp
  revert told
  cases handlers.phase fd <;> simp [Phase.told, Phase.present]

/-- A member is being served, or holds `mutex3`. -/
theorem Consistent.serving_or_entering
    (consistent : handlers.Consistent) (unfound : handlers.Unfound)
    {member : Member} (enrolled : member ∈ handlers.roster) :
    handlers.phase member.fd = .serving member ∨
      handlers.entering = some member := by
  have present :=
    (consistent.present member.fd member).mpr ⟨enrolled, rfl⟩
  cases phase : handlers.phase member.fd with
  | stored other =>
      rw [phase] at present
      cases present
      exact
        Or.inr
          (consistent.toThreads.entering_eq (by rw [phase]; rfl)).2
  | answered other =>
      rw [phase] at present
      cases present
      exact
        Or.inr
          (consistent.toThreads.entering_eq (by rw [phase]; rfl)).2
  | serving other =>
      rw [phase] at present
      cases present
      exact Or.inl rfl
  | found other topicId clientPos fdToDel =>
      exact absurd phase (unfound _ _ _ _ _)
  | _ =>
      rw [phase] at present
      cases present

end Steps

/-- The subscribers of a topic, as array entries in order. -/
def subscribers (handlers : Handlers) (topic : TopicName) : List Client :=
  membersOf handlers.roster topic .subscriber

theorem Calm.subscribers
    {handlers next : Handlers} (calm : handlers.Calm next)
    (topic : TopicName) :
    handlers.subscribers topic <+: next.subscribers topic :=
  (calm.roster.filter _).map Member.client

section Counted

variable {handlers : Handlers} {topic : TopicName}

/-- While no subscriber of the topic is leaving, the counter counts all but
the one that is entering. -/
theorem Consistent.numSubscribers_eq
    (consistent : handlers.Consistent)
    (known : topic ∈ handlers.registry.table.names)
    (separate : ∀ fd member,
      (handlers.phase fd).departing = some member →
        ¬ (member.topic = topic ∧ member.kind = .subscriber)) :
    handlers.registry.numSubscribers topic =
      ((handlers.subscribers topic).length : Int) -
        (membersOf handlers.entering.toList topic .subscriber).length := by
  have inside := Registry.getTopicId_lt_iff.mpr known
  have noLeaver : membersOf handlers.leaving topic .subscriber = [] := by
    rw [List.eq_nil_iff_forall_not_mem]
    intro client listed
    obtain ⟨member, leaves, sameTopic, sameKind, _⟩ :=
      mem_membersOf.mp listed
    exact
      separate member.fd member
        ((consistent.departing member.fd member).mpr ⟨leaves, rfl⟩)
        ⟨sameTopic, sameKind⟩
  have here := consistent.counts _ inside .subscriber
  rw [Registry.name_getTopicId inside, expected, noLeaver] at here
  rw [List.length_nil] at here
  refine here.trans ?_
  rw [subscribers]
  omega

/-- A subscriber in the array is being served, or is the one that is
entering. -/
theorem Consistent.subscriber_served
    (consistent : handlers.Consistent) (unfound : handlers.Unfound)
    {client : Client} (listed : client ∈ handlers.subscribers topic) :
    (handlers.phase client.fd =
        .serving ⟨.subscriber, topic, client.id, client.fd⟩) ∨
      handlers.entering =
        some ⟨.subscriber, topic, client.id, client.fd⟩ := by
  obtain ⟨member, enrolled, rfl, kind, rfl⟩ := mem_membersOf.mp listed
  have same :
      member =
        ⟨.subscriber, member.topic, member.client.id,
          member.client.fd⟩ := by
    rw [← kind]
    rfl
  rw [← same]
  exact consistent.serving_or_entering unfound enrolled

/-- A subscriber that is being served is in the array. -/
theorem Consistent.serving_listed
    (consistent : handlers.Consistent) {subscriberId : Int} {fd : Fd}
    (serving :
      handlers.phase fd = .serving ⟨.subscriber, topic, subscriberId, fd⟩) :
    (⟨topic, subscriberId, fd⟩ : Client) ∈ handlers.subscribers topic := by
  obtain ⟨enrolled, _⟩ :=
    consistent.enrolled_of_told (show
      (handlers.phase fd).told = some _ by rw [serving]; rfl)
  exact mem_membersOf.mpr ⟨_, enrolled, rfl, rfl, rfl⟩

/-- The subscriber that is entering is the last one of the array, and its
descriptor is no other one's. -/
theorem Consistent.entering_split
    (consistent : handlers.Consistent) {entering : Member}
    (isEntering : handlers.entering = some entering)
    (kind : entering.kind = .subscriber) :
    ∃ front,
      handlers.subscribers entering.topic = front ++ [entering.client] ∧
        ∀ client ∈ front, client.fd ≠ entering.fd := by
  have last := consistent.enteringLast entering isEntering
  rw [kind] at last
  obtain ⟨front, split⟩ := List.getLast?_eq_some_iff.mp last
  refine ⟨front, split, ?_⟩
  intro client inFront same
  have distinct :=
    fds_membersOf_nodup consistent.rosterFds entering.topic .subscriber
  rw [split, List.map_append] at distinct
  have disjoint := (List.nodup_append.mp distinct).2.2
  exact
    disjoint client.fd (List.mem_map_of_mem inFront) entering.fd
      (by simp [Member.client]) same

/-- Who is entering is not being served yet. -/
theorem Consistent.not_serving_of_entering
    (consistent : handlers.Consistent) {entering member : Member}
    (isEntering : handlers.entering = some entering) :
    handlers.phase entering.fd ≠ .serving member := by
  intro serving
  have phase := consistent.toThreads.phase_of_entering isEntering
  rw [serving] at phase
  cases phase

/-- While no subscriber of the topic is leaving, the counter counts the
subscribers that are being served: the first ones of the array. -/
theorem Consistent.counted
    (consistent : handlers.Consistent)
    (unfound : handlers.Unfound)
    (known : topic ∈ handlers.registry.table.names)
    (separate : ∀ fd member,
      (handlers.phase fd).departing = some member →
        ¬ (member.topic = topic ∧ member.kind = .subscriber)) :
    (handlers.registry.numSubscribers topic).toNat ≤
        (handlers.subscribers topic).length ∧
      (∀ client ∈ (handlers.subscribers topic).take
          (handlers.registry.numSubscribers topic).toNat,
        (handlers.phase client.fd).told =
          some ⟨.subscriber, topic, client.id, client.fd⟩) ∧
      ∀ subscriberId fd,
        handlers.phase fd =
            .serving ⟨.subscriber, topic, subscriberId, fd⟩ →
          fd ∈ ((handlers.subscribers topic).take
            (handlers.registry.numSubscribers topic).toNat).map
              Client.fd := by
  have counted := consistent.numSubscribers_eq known separate
  by_cases own :
      ∃ entering, handlers.entering = some entering ∧
        entering.topic = topic ∧ entering.kind = .subscriber
  · -- the client that is entering is the last one and is not counted
    obtain ⟨entering, isEntering, rfl, kind⟩ := own
    obtain ⟨front, split, apart⟩ :=
      consistent.entering_split isEntering kind
    have number :
        (handlers.registry.numSubscribers entering.topic).toNat =
          front.length := by
      rw [counted, isEntering, split, Option.toList_some,
        length_membersOf_singleton, if_pos ⟨rfl, kind.symm⟩]
      simp
    rw [number, split]
    refine ⟨by simp, ?_, ?_⟩
    · intro client inTake
      rw [List.take_left] at inTake
      have listed : client ∈ handlers.subscribers entering.topic := by
        rw [split]
        exact List.mem_append_left _ inTake
      rcases consistent.subscriber_served unfound listed with
        serving | alsoEntering
      · rw [serving]
        rfl
      · rw [isEntering] at alsoEntering
        have same := congrArg Member.fd (Option.some.inj alsoEntering)
        exact absurd same.symm (apart client inTake)
    · intro subscriberId fd serving
      rw [List.take_left]
      have here := consistent.serving_listed serving
      rw [split] at here
      rcases List.mem_append.mp here with inFront | isLast
      · exact List.mem_map_of_mem inFront
      · have same := List.mem_singleton.mp isLast
        have sameFd : fd = entering.fd := congrArg Client.fd same
        rw [sameFd] at serving
        exact
          absurd serving (consistent.not_serving_of_entering isEntering)
  · have none :
        membersOf handlers.entering.toList topic .subscriber = [] := by
      rw [List.eq_nil_iff_forall_not_mem]
      intro client inList
      obtain ⟨member, enters, sameTopic, sameKind, _⟩ :=
        mem_membersOf.mp inList
      exact own ⟨member, by simpa using enters, sameTopic, sameKind⟩
    have number :
        (handlers.registry.numSubscribers topic).toNat =
          (handlers.subscribers topic).length := by
      rw [counted, none]
      simp
    rw [number, List.take_length]
    refine ⟨Nat.le_refl _, ?_, ?_⟩
    · intro client inList
      rcases consistent.subscriber_served unfound inList with
        serving | entering
      · rw [serving]
        rfl
      · exact absurd ⟨_, entering, rfl, rfl⟩ own
    · intro subscriberId fd serving
      exact List.mem_map_of_mem (consistent.serving_listed serving)

end Counted

end Handlers

end SistemasDistribuidos.Practica4
