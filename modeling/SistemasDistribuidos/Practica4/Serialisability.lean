import SistemasDistribuidos.Practica4.Atomic

/-!
# Interleaved handlers and handlers one at a time

A registration takes effect when its client is stored, and an `UNREGISTER`
when the array is shifted.  `Follows handlers serial` relates a state of the
interleaved handlers to the state of a broker that has handled, one at a time
and in that order, the requests that have taken effect.

The relation is kept by every step that does not disturb another handler.
Only registrations take `mutex3`, so the code does not ensure this:
`lost_registration` is a run of two well-behaved clients after which a
registered client is in no live prefix.
-/

namespace SistemasDistribuidos.Practica4

open SistemasDistribuidos SlotArray Machine

/-- What a handler has read from its client when it takes the step. -/
def HandlerAction.messages : HandlerAction → List RegistryMessage
  | .store fd kind topic _ => [.register fd kind topic]
  | .find fd topic id _ => [.unregister fd topic id]
  | _ => []

namespace Phase

/-- Where the thread would stand if its request had been handled at once. -/
def settled : Phase → Phase
  | .accepted => .accepted
  | .stored member => .serving member
  | .answered member => .serving member
  | .refusing _ => .finished
  | .refused => .finished
  | .serving member => .serving member
  | .found member _ _ _ => .serving member
  | .shifted _ _ _ => .finished
  | .replied _ _ => .finished
  | .finished => .finished

/-- The request that has been read and has not taken effect. -/
def pending (fd : Fd) : Phase → List RegistryMessage
  | .found member _ _ _ => [.unregister fd member.topic member.id]
  | _ => []

end Phase

namespace Handlers

/-- How often the message has been read and has not taken effect. -/
def pending (handlers : Handlers) : RegistryMessage → Nat
  | .register _ _ _ => 0
  | .unregister fd topic id =>
      ((handlers.phase fd).pending fd).count (.unregister fd topic id)

/-- The serial broker has the account of the interleaved one, and its threads
stand where the others' requests leave them. -/
structure Follows (handlers serial : Handlers) : Prop where
  account : serial.account = handlers.account
  phases : ∀ fd, serial.phase fd = (handlers.phase fd).settled

/-! ## Requests that can be handled -/

section Enabled

variable {handlers : Handlers} {fd : Fd}

theorem register_enabled
    (here : handlers.phase fd = .accepted)
    (unlocked : handlers.mutex3 = none)
    {kind : Kind} {topic : TopicName} {stack : Topic}
    (inside : handlers.registry.StoresInside kind topic fd stack) :
    ∃ next,
      Request.step handlers (.register fd kind topic stack) =
        some next := by
  simp only [Request.step, grouped, Request.expand, run_cons, step,
    if_pos (And.intro here (And.intro unlocked inside)), Option.bind_some]
  by_cases refused :
      (handlers.registry.register kind topic fd stack).2.id = -1
  · simp [store, refused, setPhase]
  · simp [store, refused, addClient, setPhase]

theorem unregister_enabled
    {member : Member} (here : handlers.phase fd = .serving member)
    {topic : TopicName}
    (known : handlers.registry.getTopicId topic < maxTopics)
    (id : Int) (stackFd : Fd) (beyond : Client) :
    ∃ next,
      Request.step handlers (.unregister fd topic id stackFd beyond) =
        some next := by
  simp [Request.step, grouped, Request.expand, run_cons, step, here, known,
    find, shift, setPhase]

end Enabled

/-! ## One step of an interleaved handler -/

section Steps

variable {handlers serial next : Handlers} {fd : Fd} {phase : Phase}

theorem pending_of_move
    (moved : next.phase = Function.update handlers.phase fd phase)
    (message : RegistryMessage) :
    next.pending message +
        ((handlers.phase fd).pending fd).count message =
      handlers.pending message + (phase.pending fd).count message := by
  have foreign :
      ∀ (view : Phase), (∀ topic id, message ≠ .unregister fd topic id) →
        (view.pending fd).count message = 0 := by
    intro view notOwn
    rw [List.count_eq_zero]
    intro listed
    cases view <;> simp only [Phase.pending, List.not_mem_nil,
      List.mem_singleton] at listed
    exact notOwn _ _ listed
  cases message with
  | register other kind topic =>
      rw [foreign phase (fun _ _ => RegistryMessage.noConfusion),
        foreign (handlers.phase fd)
          (fun _ _ => RegistryMessage.noConfusion)]
      rfl
  | unregister other topic id =>
      simp only [pending, moved]
      by_cases same : other = fd
      · subst same
        rw [Function.update_self]
        exact Nat.add_comm _ _
      · have notOwn :
            ∀ ownTopic ownId,
              RegistryMessage.unregister other topic id ≠
                .unregister fd ownTopic ownId := by
          intro ownTopic ownId equal
          cases equal
          exact same rfl
        rw [Function.update_of_ne same, foreign phase notOwn,
          foreign (handlers.phase fd) notOwn]

/-- A step between the points where requests take effect. -/
theorem Follows.move
    (follows : handlers.Follows serial)
    (account : next.account = handlers.account)
    (moved : next.phase = Function.update handlers.phase fd phase)
    (same : phase.settled = (handlers.phase fd).settled) :
    next.Follows serial where
  account := follows.account.trans account.symm
  phases := by
    intro other
    rw [follows.phases other, moved]
    by_cases here : other = fd
    · rw [here, Function.update_self, same]
    · rw [Function.update_of_ne here]

theorem Follows.register
    (follows : handlers.Follows serial) (settled : serial.Settled)
    (generators : handlers.Generators)
    (here : handlers.phase fd = .accepted)
    (kind : Kind) (topic : TopicName) (stack : Topic) :
    ∃ after,
      Request.step serial (.register fd kind topic stack) = some after ∧
        (handlers.store fd kind topic stack).Follows after := by
  have accepted : serial.phase fd = .accepted := by
    rw [follows.phases, here]
    rfl
  obtain ⟨after, taken⟩ :=
    register_enabled accepted
      (settled.quiet.unlocked settled.consistent.toThreads)
      (settled.storesInside kind topic fd stack)
  refine ⟨after, taken, ?_⟩
  have sameAnswer :
      (serial.registry.register kind topic fd stack).2 =
        (handlers.registry.register kind topic fd stack).2 := by
    rw [(Registry.register_table settled.consistent.noneCounted kind topic
        fd stack).2.1,
      (Registry.register_table generators.noneCounted kind topic fd
        stack).2.1,
      show serial.registry.table = handlers.registry.table from
        congrArg Account.table follows.account]
  have sameAccount :
      after.account = (handlers.store fd kind topic stack).account := by
    rw [(account_store generators fd kind topic stack).2,
      account_of_run settled.consistent.toGenerators taken,
      foldl_follow_expand, follows.account]
    rfl
  obtain ⟨_, _, _, _, others, outcome⟩ := run_register taken
  refine ⟨sameAccount, ?_⟩
  intro other
  by_cases same : other = fd
  · subst same
    rw [sameAnswer] at outcome
    rcases outcome with ⟨granted, served, _⟩ | ⟨refused, finished, _⟩
    · rw [served, store, if_neg granted]
      simp [addClient, Phase.settled]
    · rw [finished, store, if_pos refused]
      simp [Phase.settled]
  · rw [others other same, follows.phases other,
      phase_store_of_ne handlers same]

theorem Follows.unregister
    (follows : handlers.Follows serial) (settled : serial.Settled)
    (generators : handlers.Generators)
    {member : Member} {topicId clientPos : Nat} {fdToDel : Fd}
    (here :
      handlers.phase fd = .found member topicId clientPos fdToDel)
    (beyond : Client) :
    ∃ after,
      Request.step serial
            (.unregister fd member.topic member.id 0 beyond) =
          some after ∧
        (handlers.shift fd member topicId clientPos fdToDel
          beyond).Follows after := by
  have serving : serial.phase fd = .serving member := by
    rw [follows.phases, here]
    rfl
  obtain ⟨after, taken⟩ :=
    unregister_enabled serving (settled.getTopicId_lt serving) member.id 0
      beyond
  refine ⟨after, taken, ?_⟩
  have shifted :
      handlers.step (.shift fd beyond) =
        some (handlers.shift fd member topicId clientPos fdToDel
          beyond) := by
    simp only [step, here]
  obtain ⟨_, _, _, finished, others, _⟩ := run_unregister taken
  constructor
  · rw [(step_account generators shifted).2,
      account_of_run settled.consistent.toGenerators taken,
      foldl_follow_expand, follows.account]
    rfl
  · intro other
    by_cases same : other = fd
    · rw [same, finished]
      simp [shift, Phase.settled]
    · rw [others other same, follows.phases other]
      simp [shift, setPhase, same]

end Steps

/-! ## Whole runs -/

/-- The conditions under which handlers do not disturb one another. -/
def Undisturbed (handlers : Handlers) (action : HandlerAction) : Prop :=
  handlers.WellBehaved action ∧ handlers.Room action ∧
    handlers.Separate action

/-- The state reached is consistent, and there is a serial run of the requests
that have taken effect. -/
structure Serialised
    (past : List HandlerAction) (handlers : Handlers) : Prop where
  consistent : handlers.Consistent
  serial : ∃ requests serial,
    Obeys Request.step Admissible initial requests ∧
      run Request.step initial requests = some serial ∧
      handlers.Follows serial ∧
      ∀ message,
        (past.flatMap HandlerAction.messages).count message =
          (requests.flatMap Request.messages).count message +
            handlers.pending message

theorem serialised_initial : Serialised [] initial where
  consistent := consistent_initial
  serial := by
    refine ⟨[], initial, trivial, rfl, ⟨rfl, fun _ => rfl⟩, ?_⟩
    intro message
    cases message <;> rfl

section Serialised

variable {past : List HandlerAction} {handlers next : Handlers}
  {action : HandlerAction} {fd : Fd} {phase : Phase}

theorem Serialised.move
    (serialised : Serialised past handlers)
    (consistent : next.Consistent)
    (account : next.account = handlers.account)
    (moved : next.phase = Function.update handlers.phase fd phase)
    (same : phase.settled = (handlers.phase fd).settled)
    (read : ∀ message,
      action.messages.count message +
          ((handlers.phase fd).pending fd).count message =
        (phase.pending fd).count message) :
    Serialised (past ++ [action]) next where
  consistent := consistent
  serial := by
    obtain ⟨requests, serial, admissible, reached, follows, counted⟩ :=
      serialised.serial
    refine
      ⟨requests, serial, admissible, reached,
        follows.move account moved same, ?_⟩
    intro message
    have before := counted message
    have here := read message
    have pendings := pending_of_move moved message
    rw [List.flatMap_append, List.count_append, List.flatMap_singleton]
    omega

theorem Serialised.effect
    (serialised : Serialised past handlers)
    (consistent : next.Consistent)
    (request : Request)
    (wellBehaved : ∀ serial, handlers.Follows serial →
      Request.WellBehaved serial request)
    (effect : ∀ serial, handlers.Follows serial → serial.Settled →
      ∃ after,
        Request.step serial request = some after ∧ next.Follows after)
    (moved : next.phase = Function.update handlers.phase fd phase)
    (read : ∀ message,
      action.messages.count message +
          ((handlers.phase fd).pending fd).count message =
        (phase.pending fd).count message +
          request.messages.count message) :
    Serialised (past ++ [action]) next where
  consistent := consistent
  serial := by
    obtain ⟨requests, serial, admissible, reached, follows, counted⟩ :=
      serialised.serial
    obtain ⟨after, taken, nextFollows⟩ :=
      effect serial follows (settled_of_run admissible reached)
    refine
      ⟨requests ++ [request], after, ?_, ?_, nextFollows, ?_⟩
    · refine admissible.append reached ?_
      refine Obeys.cons taken ⟨wellBehaved serial follows, ?_⟩ trivial
      intro other otherTaken
      cases taken.symm.trans otherTaken
      intro name
      have sameRoster : after.roster = next.roster :=
        congrArg Account.members nextFollows.account
      rw [sameRoster]
      exact consistent.holds.fits name .subscriber
    · rw [run_append, reached]
      exact (run_singleton serial request).trans taken
    · intro message
      have before := counted message
      have here := read message
      have pendings := pending_of_move moved message
      rw [List.flatMap_append, List.count_append, List.flatMap_singleton,
        List.flatMap_append, List.count_append, List.flatMap_singleton]
      omega

/-- Every step that disturbs no other handler keeps a serial run at hand. -/
theorem Serialised.step
    (serialised : Serialised past handlers)
    (undisturbed : handlers.Undisturbed action)
    (taken : handlers.step action = some next) :
    Serialised (past ++ [action]) next := by
  have consistent :=
    serialised.consistent.step undisturbed.1 undisturbed.2.1
      undisturbed.2.2 taken
  have generators := serialised.consistent.toGenerators
  have account := (step_account generators taken).2
  cases action with
  | store fd kind topic stack =>
      obtain ⟨here, _, rfl⟩ := step_store taken
      have moved :
          ∃ phase, (handlers.store fd kind topic stack).phase =
              Function.update handlers.phase fd phase ∧
            phase.pending fd = [] := by
        simp only [store]
        split
        · exact ⟨_, rfl, rfl⟩
        · exact ⟨_, rfl, rfl⟩
      obtain ⟨phase, moved, nothing⟩ := moved
      apply serialised.effect consistent
        (.register fd kind topic stack) _ _ moved
      · intro message
        rw [here, nothing]
        exact Nat.add_comm _ _
      · exact fun _ _ => trivial
      · intro serial follows settled
        exact follows.register settled generators here kind topic stack
  | respond fd =>
      rcases step_respond taken with ⟨_, here, rfl⟩ | ⟨_, here, rfl⟩
      · exact
          serialised.move consistent account rfl (by rw [here]; rfl)
            (fun _ => by rw [here]; rfl)
      · exact
          serialised.move consistent account rfl (by rw [here]; rfl)
            (fun _ => by rw [here]; rfl)
  | count fd =>
      rcases step_count taken with ⟨_, here, rfl⟩ | ⟨here, rfl⟩
      · exact
          serialised.move consistent account rfl (by rw [here]; rfl)
            (fun _ => by rw [here]; rfl)
      · exact
          serialised.move consistent account rfl (by rw [here]; rfl)
            (fun _ => by rw [here]; rfl)
  | quit fd =>
      cases taken
      exact
        serialised.move consistent account
          (Function.update_eq_self fd handlers.phase).symm rfl
          (fun _ => Nat.zero_add _)
  | find fd topic id stackFd =>
      obtain ⟨member, here, _, rfl⟩ := step_find taken
      obtain ⟨rfl, rfl⟩ := undisturbed.1 member here
      exact
        serialised.move consistent account rfl (by rw [here]; rfl)
          (fun _ => by rw [here]; rfl)
  | shift fd beyond =>
      obtain ⟨member, topicId, clientPos, fdToDel, here, rfl⟩ :=
        step_shift taken
      apply serialised.effect consistent
        (.unregister fd member.topic member.id 0 beyond) _ _ rfl
      · intro message
        rw [here]
        simp [Phase.pending, HandlerAction.messages, Request.messages]
      · intro serial follows other serving
        rw [follows.phases, here] at serving
        cases serving
        exact ⟨rfl, rfl⟩
      · intro serial follows settled
        exact follows.unregister settled generators here beyond
  | reply fd =>
      obtain ⟨_, _, _, here, rfl⟩ := step_reply taken
      exact
        serialised.move consistent account rfl (by rw [here]; rfl)
          (fun _ => by rw [here]; rfl)
  | decrement fd =>
      obtain ⟨_, _, here, rfl⟩ := step_decrement taken
      exact
        serialised.move consistent account rfl (by rw [here]; rfl)
          (fun _ => by rw [here]; rfl)

theorem serialised_of_run
    {actions : List HandlerAction} {final : Handlers}
    (undisturbed : Obeys Handlers.step Undisturbed initial actions)
    (reached : run Handlers.step initial actions = some final) :
    Serialised actions final :=
  history_of_run
    (fun _ _ _ _ serialised guard taken => serialised.step guard taken)
    serialised_initial undisturbed reached

end Serialised

/-! ## Serialisability -/

/-- The live entries of an array, read as pairs of an id and a descriptor. -/
def livePairs (handlers : Handlers) (topicId : Nat) (kind : Kind) :
    List (Int × Fd) :=
  (handlers.live topicId kind).map (fun client => (client.id, client.fd))

/-- Handled one at a time in some order, the same requests leave the same
topics with the same live clients. -/
def Serialisable (actions : List HandlerAction) (final : Handlers) : Prop :=
  ∃ requests serial,
    (requests.flatMap Request.messages).Perm
        (actions.flatMap HandlerAction.messages) ∧
      Obeys Request.step Request.WellBehaved initial requests ∧
      run Request.step initial requests = some serial ∧
      serial.registry.table.names = final.registry.table.names ∧
      ∀ topicId, topicId < final.registry.currentTopics → ∀ kind pair,
        pair ∈ serial.livePairs topicId kind ↔
          pair ∈ final.livePairs topicId kind

/-- Settled brokers with one account have the same live entries. -/
theorem Settled.live_eq_of_account
    {handlers serial : Handlers}
    (settled : handlers.Settled) (serialSettled : serial.Settled)
    (same : serial.account = handlers.account)
    {topicId : Nat} (inside : topicId < handlers.registry.currentTopics)
    (kind : Kind) :
    serial.live topicId kind = handlers.live topicId kind := by
  have names :
      serial.registry.table.names = handlers.registry.table.names :=
    congrArg (fun account : Account => account.table.names) same
  have members : serial.roster = handlers.roster :=
    congrArg Account.members same
  obtain ⟨serialInside, sameName⟩ :=
    Registry.getElem?_names_eq_some.mp
      ((congrArg (fun list => list[topicId]?) names).trans
        (Registry.getElem?_names inside))
  rw [settled.live_eq inside kind, serialSettled.live_eq serialInside kind,
    sameName, members]

/-- Handlers that do not disturb one another can be serialised: once all of
them have finished, the live entries are those of some serial order of the
same requests.  So no registered client is lost, none is listed twice, and
none that was removed remains. -/
theorem serialisable_of_undisturbed
    {actions : List HandlerAction} {final : Handlers}
    (undisturbed : Obeys step Undisturbed initial actions)
    (reached : run step initial actions = some final)
    (quiet : final.Quiet) :
    Serialisable actions final ∧
      ∀ topicId, topicId < final.registry.currentTopics → ∀ kind,
        (final.livePairs topicId kind).Nodup ∧
          ∀ id fd,
            (id, fd) ∈ final.livePairs topicId kind ↔
              final.phase fd =
                .serving
                  ⟨kind, (final.registry.allTopics topicId).name, id,
                    fd⟩ := by
  have serialised := serialised_of_run undisturbed reached
  have settled : final.Settled := ⟨serialised.consistent, quiet⟩
  constructor
  · obtain ⟨requests, serial, admissible, serialReached, follows,
      counted⟩ := serialised.serial
    have serialSettled := settled_of_run admissible serialReached
    refine
      ⟨requests, serial, ?_, admissible.mono (fun _ _ guard => guard.1),
        serialReached,
        congrArg (fun account : Account => account.table.names)
          follows.account, ?_⟩
    · rw [List.perm_iff_count]
      intro message
      have nonePending : final.pending message = 0 := by
        cases message with
        | register fd kind topic => rfl
        | unregister fd topic id =>
            rcases quiet fd with here | ⟨member, here⟩ | here <;>
              simp [pending, here, Phase.pending]
      have count := counted message
      omega
    · intro topicId inside kind pair
      simp only [livePairs]
      rw [settled.live_eq_of_account serialSettled follows.account inside
        kind]
  · intro topicId inside kind
    simp only [livePairs, settled.live_eq inside kind]
    constructor
    · have distinct :=
        fds_membersOf_nodup settled.consistent.rosterFds
          (final.registry.allTopics topicId).name kind
      apply List.Nodup.of_map Prod.snd
      rw [List.map_map]
      exact distinct
    · intro id fd
      rw [← settled.mem_roster
        ⟨kind, (final.registry.allTopics topicId).name, id, fd⟩]
      simp only [List.mem_map, mem_membersOf]
      constructor
      · intro given
        rcases given with
          ⟨client, ⟨member, enrolled, sameTopic, rfl, rfl⟩, same⟩
        cases same
        rw [← sameTopic]
        exact enrolled
      · intro enrolled
        exact ⟨_, ⟨_, enrolled, rfl, rfl, rfl⟩, rfl⟩

theorem undisturbed_of_apart
    {actions : List HandlerAction}
    (wellBehaved : Obeys step WellBehaved initial actions)
    (apart : Obeys step Apart initial actions) :
    Obeys step Undisturbed initial actions :=
  obeys_of_invariant
    (fun _ _ consistent guard =>
      ⟨guard.1, consistent.room_and_separate guard.2⟩)
    (fun _ _ _ consistent guard taken =>
      consistent.step guard.1 guard.2.1 guard.2.2 taken)
    consistent_initial (wellBehaved.both apart)

theorem accepted_of_run
    {actions : List HandlerAction} {final : Handlers}
    (reached : run step initial actions = some final)
    {other : Fd} (different : ∀ action ∈ actions, action.fd ≠ other) :
    final.phase other = .accepted :=
  phase_run_of_ne
    (fun action listed => (different action listed).symm) reached

/-- The first subscriber leaves while the second registers: it has looked its
position up when the second is stored, and the second is answered and counted
between its shift and its decrement. -/
def visits : List HandlerAction :=
  [.store 4 .subscriber topicT (Registry.initial.allTopics 0), .respond 4,
    .count 4, .quit 4, .find 4 topicT 1 0,
    .store 6 .subscriber topicT (Registry.initial.allTopics 0),
    .shift 4 ⟨topicT, 0, 0⟩, .respond 6, .reply 4, .count 6, .decrement 4]

theorem serialisable_visits :
    ∃ final,
      run step initial visits = some final ∧
        final.phase 6 = .serving ⟨.subscriber, topicT, 2, 6⟩ ∧
        Serialisable visits final := by
  have undisturbed : Obeys step Undisturbed initial visits :=
    undisturbed_of_apart (by decide +kernel) (by decide +kernel)
  have seen :
      (run step initial visits).map
          (fun final => (final.phase 4, final.phase 6)) =
        some (.finished, .serving ⟨.subscriber, topicT, 2, 6⟩) := by
    decide +kernel
  obtain ⟨final, reached, phases⟩ := Option.map_eq_some_iff.mp seen
  obtain ⟨left, serving⟩ := Prod.mk.inj phases
  refine
    ⟨final, reached, serving,
      (serialisable_of_undisturbed undisturbed reached ?_).1⟩
  intro fd
  by_cases four : fd = 4
  · rw [four]
    exact Or.inr (Or.inr left)
  · by_cases six : fd = 6
    · rw [six]
      exact Or.inr (Or.inl ⟨_, serving⟩)
    · refine Or.inl (accepted_of_run reached ?_)
      have only : ∀ action ∈ visits, action.fd = 4 ∨ action.fd = 6 := by
        decide +kernel
      intro action listed same
      rcases only action listed with isFour | isSix
      · exact four (same.symm.trans isFour)
      · exact six (same.symm.trans isSix)

/-- One client registers between the shift and the decrement of another's
`UNREGISTER`. -/
def lostRegistration : List HandlerAction :=
  [.store 4 .subscriber topicT (Registry.initial.allTopics 0), .respond 4,
    .count 4, .quit 4, .find 4 topicT 1 0, .shift 4 ⟨topicT, 0, 0⟩,
    .store 5 .subscriber topicT (Registry.initial.allTopics 0), .respond 5,
    .count 5, .reply 4, .decrement 4]

/-- The new client is served and is in no live entry: its entry lies one slot
further, behind a slot that no client of the run has written. -/
theorem lost_registration :
    ∃ final,
      run step initial lostRegistration = some final ∧
        Obeys step WellBehaved initial lostRegistration ∧
        final.Quiet ∧
        final.phase 5 = .serving ⟨.subscriber, topicT, 2, 5⟩ ∧
        final.livePairs 0 .subscriber = [(0, 0)] ∧
        ¬ Serialisable lostRegistration final := by
  have wellBehaved : Obeys step WellBehaved initial lostRegistration := by
    refine Obeys.cons rfl trivial (Obeys.cons rfl trivial
      (Obeys.cons rfl trivial (Obeys.cons rfl trivial
        (Obeys.cons rfl ?_ (Obeys.cons rfl trivial
          (Obeys.cons rfl trivial (Obeys.cons rfl trivial
            (Obeys.cons rfl trivial (Obeys.cons rfl trivial
              (Obeys.cons rfl trivial trivial))))))))))
    intro member here
    cases here
    exact ⟨rfl, rfl⟩
  obtain ⟨final, reached⟩ :
      ∃ final, run step initial lostRegistration = some final :=
    ⟨_, rfl⟩
  have seen :
      (run step initial lostRegistration).map
          (fun state =>
            (state.phase 4, state.phase 5,
              state.livePairs 0 .subscriber,
              state.registry.currentTopics)) =
        some
          (.finished, .serving ⟨.subscriber, topicT, 2, 5⟩, [(0, 0)],
            1) := by
    decide +kernel
  simp only [reached, Option.map_some, Option.some.injEq,
    Prod.mk.injEq] at seen
  obtain ⟨left, serving, live, topics⟩ := seen
  refine ⟨final, reached, wellBehaved, ?_, serving, live, ?_⟩
  · intro fd
    by_cases four : fd = 4
    · rw [four]
      exact Or.inr (Or.inr left)
    · by_cases five : fd = 5
      · rw [five]
        exact Or.inr (Or.inl ⟨_, serving⟩)
      · refine Or.inl (accepted_of_run reached ?_)
        intro action listed same
        simp only [lostRegistration, List.mem_cons, List.not_mem_nil,
          or_false] at listed
        rcases listed with rfl | rfl | rfl | rfl | rfl | rfl | rfl | rfl |
          rfl | rfl | rfl <;>
          first
          | exact four same.symm
          | exact five same.symm
  · rintro ⟨requests, serial, permuted, serialWellBehaved, serialReached,
      names, same⟩
    have settled : serial.Settled := by
      refine
        settled_of_run (admissible_of_few serialWellBehaved ?_)
          serialReached
      rw [permuted.length_eq]
      decide
    have listed : ((0 : Int), (0 : Fd)) ∈ serial.livePairs 0 .subscriber := by
      rw [same 0 (by omega) .subscriber, live]
      exact List.mem_cons_self
    have inside : 0 < serial.registry.currentTopics := by
      rw [← Registry.length_names_table, names,
        Registry.length_names_table, topics]
      exact Nat.one_pos
    rw [livePairs, settled.live_eq inside] at listed
    obtain ⟨client, clientListed, pair⟩ := List.mem_map.mp listed
    obtain ⟨member, enrolled, _, _, rfl⟩ := mem_membersOf.mp clientListed
    have noFd : member.fd = 0 := congrArg Prod.snd pair
    have account := account_of_requests serialReached
    have members : serial.roster = (Account.after requests).members :=
      congrArg Account.members account
    rw [members] at enrolled
    rcases Account.registered_of_mem _ _ enrolled with
      impossible | registered
    · cases impossible
    · have sent := permuted.mem_iff.mp registered
      rw [noFd] at sent
      simp [lostRegistration, HandlerAction.messages] at sent

end Handlers

end SistemasDistribuidos.Practica4
