import SistemasDistribuidos.Practica4.Connection
import SistemasDistribuidos.Practica4.Unregistering

/-!
# De-registration of the right client

In a run whose steps are `Proper` every `UNREGISTER` takes out the entry of its
own connection, and a client that reports has no entry any more.  The code does
not make its runs proper: `other_entry_removed` is one in which a client that is
interrupted too early has another one removed.
-/

namespace SistemasDistribuidos.Practica4

open SistemasDistribuidos SlotArray Machine

namespace Network

/-- The handlers are consistent, and every connection agrees. -/
structure Agree (options : Fd → Options) (network : Network) : Prop where
  consistent : network.handlers.Consistent
  links : ∀ fd,
    Agrees (options fd) fd (network.handlers.phase fd)
      (network.handlers.quit fd) (network.process fd) (network.inbox fd)

section Steps

variable {options : Fd → Options} {network next : Network} {fd : Fd}

theorem agree_initial : initial.Agree options where
  consistent := Handlers.consistent_initial
  links := fun fd => Agrees.initial (options fd) fd

theorem handle_eq_some
    {action : HandlerAction}
    (taken : network.handle action = some next) :
    ∃ handlers,
      network.handlers.step action = some handlers ∧
        next = { network with handlers := handlers } := by
  obtain ⟨handlers, stepped, rfl⟩ := Option.map_eq_some_iff.mp taken
  exact ⟨handlers, stepped, rfl⟩

/-- The client on one connection moves. -/
theorem Agree.of_client
    (agree : network.Agree options)
    (handlers : next.handlers = network.handlers)
    (processes : ∀ other, other ≠ fd →
      next.process other = network.process other)
    (inboxes : ∀ other, other ≠ fd →
      next.inbox other = network.inbox other)
    (own :
      Agrees (options fd) fd (network.handlers.phase fd)
        (network.handlers.quit fd) (next.process fd) (next.inbox fd)) :
    next.Agree options where
  consistent := handlers ▸ agree.consistent
  links := by
    intro other
    rw [handlers]
    by_cases same : other = fd
    · rw [same]
      exact own
    · rw [processes other same, inboxes other same]
      exact agree.links other

/-- The handler of one connection moves, and may send something there. -/
theorem Agree.of_handler
    (agree : network.Agree options)
    {action : HandlerAction} {handlers : Handlers}
    (taken : network.handlers.step action = some handlers)
    (consistent : handlers.Consistent)
    {process : Fd → Process} {inbox : Fd → List Word}
    (processes : ∀ other, other ≠ action.fd →
      process other = network.process other)
    (inboxes : ∀ other, other ≠ action.fd →
      inbox other = network.inbox other)
    (own :
      Agrees (options action.fd) action.fd (handlers.phase action.fd)
        (handlers.quit action.fd) (process action.fd)
        (inbox action.fd)) :
    Agree options ⟨handlers, process, inbox⟩ where
  consistent := consistent
  links := by
    intro other
    by_cases same : other = action.fd
    · rw [same]
      exact own
    · simp only [processes other same, inboxes other same,
        Handlers.phase_step_of_ne same taken,
        Handlers.quit_step_of_ne same taken]
      exact agree.links other

/-- A client that is waiting was stored under its own id, if at all. -/
theorem Agree.wellBehaved
    (agree : network.Agree options)
    {handlers : Handlers} {stackFd : Fd}
    (taken :
      network.handlers.step
          (.find fd (options fd).clientTopic
            (network.process fd).clientId stackFd) = some handlers) :
    network.handlers.WellBehaved
      (.find fd (options fd).clientTopic (network.process fd).clientId
        stackFd) := by
  obtain ⟨_, _, quit, _⟩ := Handlers.step_find taken
  have agrees := agree.links fd
  intro member serving
  have present :
      (network.handlers.phase fd).present = some member := by
    rw [serving]
    rfl
  have place := agrees.quitting quit
  have answers :
      (network.handlers.phase fd).Answers
        (network.process fd).clientId := by
    rcases place with waiting | reported
    · exact
        agrees.identified (by rw [waiting]; exact Place.noConfusion)
          (fun _ _ => by rw [waiting]; exact Place.noConfusion)
    · exact
        agrees.identified (by rw [reported]; exact Place.noConfusion)
          (fun _ _ => by rw [reported]; exact Place.noConfusion)
  exact
    ⟨(agrees.owner member present).2.symm, (answers member present).symm⟩

/-- A step of a handler that sends nothing and is not the first one. -/
theorem Agree.of_move
    (agree : network.Agree options)
    {action : HandlerAction} {handlers : Handlers} {phase : Phase}
    (taken : network.handlers.step action = some handlers)
    (consistent : handlers.Consistent)
    (quit : handlers.quit = network.handlers.quit)
    (moved : handlers.phase action.fd = phase)
    (before :
      (network.handlers.phase action.fd).unanswered = false)
    (after : phase.unanswered = false)
    (present : ∀ member, phase.present = some member →
      (network.handlers.phase action.fd).present = some member)
    (removed :
      (network.handlers.phase action.fd).removed = true →
        phase.removed = true)
    (target : ∀ member topicId fdToDel,
      phase = .shifted member topicId fdToDel → fdToDel = action.fd) :
    Agree options { network with handlers := handlers } := by
  refine
    agree.of_handler taken consistent (fun _ _ => rfl) (fun _ _ => rfl) ?_
  rw [moved, quit]
  exact
    (agree.links action.fd).move before after present removed target

theorem Agree.store
    (agree : network.Agree options)
    {stack : Topic} (proper : network.Proper options (.store fd stack))
    (taken : network.step options (.store fd stack) = some next) :
    next.Agree options := by
  obtain ⟨handlers, stored, rfl⟩ := handle_eq_some taken
  have consistent :=
    agree.consistent.step (by trivial) proper.1 proper.2 stored
  obtain ⟨here, _, same⟩ := Handlers.step_store stored
  have before : (network.handlers.phase fd).unanswered = true := by
    rw [here]
    rfl
  have quit : handlers.quit fd = network.handlers.quit fd := by
    rw [same, Handlers.store]
    split <;> rfl
  have outcome :
      (∃ status, handlers.phase fd = .refusing status) ∨
        ∃ id, handlers.phase fd =
          .stored
            ⟨(options fd).clientType, (options fd).clientTopic, id,
              fd⟩ := by
    rw [same, Handlers.store]
    split
    · exact Or.inl ⟨_, Handlers.phase_setPhase_self _ _ _⟩
    · exact Or.inr ⟨_, Handlers.phase_setPhase_self _ _ _⟩
  refine
    agree.of_handler stored consistent (fun _ _ => rfl) (fun _ _ => rfl) ?_
  change
    Agrees (options fd) fd (handlers.phase fd) (handlers.quit fd)
      (network.process fd) (network.inbox fd)
  rw [quit]
  rcases outcome with ⟨status, refusing⟩ | ⟨id, isStored⟩
  · rw [refusing]
    refine
      (agree.links fd).unanswered before rfl ?_
        (fun _ _ _ => Phase.noConfusion)
    intro _ impossible
    cases impossible
  · rw [isStored]
    refine
      (agree.links fd).unanswered before rfl ?_
        (fun _ _ _ => Phase.noConfusion)
    intro member present
    cases present
    exact ⟨rfl, rfl⟩

theorem Agree.respond
    (agree : network.Agree options)
    (taken : network.step options (.respond fd) = some next) :
    next.Agree options := by
  obtain ⟨middle, handled, rfl⟩ := Option.map_eq_some_iff.mp taken
  obtain ⟨handlers, responded, rfl⟩ := handle_eq_some handled
  have consistent :=
    agree.consistent.step (by trivial) (by trivial) (by trivial) responded
  refine
    agree.of_handler responded consistent (fun _ _ => rfl)
      (fun other different => Function.update_of_ne different _ _) ?_
  change
    Agrees (options fd) fd (handlers.phase fd) (handlers.quit fd)
      (network.process fd)
      (Function.update network.inbox fd
        (network.inbox fd ++ (network.handlers.phase fd).responses) fd)
  rw [Function.update_self]
  have agrees := agree.links fd
  rcases Handlers.step_respond responded with
    ⟨member, here, rfl⟩ | ⟨status, here, rfl⟩
  · rw [Handlers.phase_setPhase_self, here]
    rw [here] at agrees
    refine
      agrees.respond rfl (by rfl) (by rfl)
        ⟨Status.ok.code, member.id, .registration⟩ rfl ?_
        (fun _ _ _ => Phase.noConfusion)
    intro other present
    cases present
    rfl
  · rw [Handlers.phase_setPhase_self, here]
    rw [here] at agrees
    exact
      agrees.respond rfl (by rfl) (by rfl) ⟨status.code, -1, .registration⟩ rfl
        (fun _ impossible => nomatch impossible)
        (fun _ _ _ => Phase.noConfusion)

theorem Agree.count
    (agree : network.Agree options)
    (taken : network.step options (.count fd) = some next) :
    next.Agree options := by
  obtain ⟨handlers, counted, rfl⟩ := handle_eq_some taken
  have consistent :=
    agree.consistent.step (by trivial) (by trivial) (by trivial) counted
  rcases Handlers.step_count counted with ⟨member, here, rfl⟩ | ⟨here, rfl⟩
  · exact
      agree.of_move counted consistent rfl (Function.update_self _ _ _)
        (by rw [HandlerAction.fd, here]; rfl) rfl
        (fun _ present => by rw [HandlerAction.fd, here]; exact present)
        (by rw [HandlerAction.fd, here]; exact fun impossible => impossible)
        (fun _ _ _ => Phase.noConfusion)
  · exact
      agree.of_move counted consistent rfl (Function.update_self _ _ _)
        (by rw [HandlerAction.fd, here]; rfl) rfl
        (fun _ impossible => nomatch impossible) (fun _ => rfl)
        (fun _ _ _ => Phase.noConfusion)

theorem Agree.find
    (agree : network.Agree options) {stackFd : Fd}
    (taken : network.step options (.find fd stackFd) = some next) :
    next.Agree options := by
  obtain ⟨handlers, located, rfl⟩ := handle_eq_some taken
  have consistent :=
    agree.consistent.step (agree.wellBehaved located) (by trivial)
      (by trivial) located
  obtain ⟨member, here, _, rfl⟩ := Handlers.step_find located
  exact
    agree.of_move located consistent rfl (Function.update_self _ _ _)
      (by rw [HandlerAction.fd, here]; rfl) rfl
      (fun _ present => by rw [HandlerAction.fd, here]; exact present)
      (by rw [HandlerAction.fd, here]; exact fun impossible => impossible)
      (fun _ _ _ => Phase.noConfusion)

theorem Agree.shift
    (agree : network.Agree options) {beyond : Client}
    (proper : network.Proper options (.shift fd beyond))
    (taken : network.step options (.shift fd beyond) = some next) :
    next.Agree options := by
  obtain ⟨handlers, shifted, rfl⟩ := handle_eq_some taken
  have separate : network.handlers.Separate (.shift fd beyond) := proper
  have consistent :=
    agree.consistent.step (by trivial) (by trivial) separate shifted
  obtain ⟨member, topicId, clientPos, fdToDel, here, rfl⟩ :=
    Handlers.step_shift shifted
  obtain ⟨_, _, own⟩ :=
    agree.consistent.found fd member topicId clientPos fdToDel here
  refine
    agree.of_move shifted consistent rfl (Function.update_self _ _ _)
      (by rw [HandlerAction.fd, here]; rfl) rfl
      (fun _ impossible => nomatch impossible)
      (by
        rw [HandlerAction.fd, here]
        exact fun impossible => nomatch impossible)
      ?_
  intro _ _ _ same
  cases same
  exact own

theorem Agree.reply
    (agree : network.Agree options)
    (taken : network.step options (.reply fd) = some next) :
    next.Agree options := by
  simp only [step] at taken
  split at taken
  · rename_i member topicId fdToDel here
    obtain ⟨middle, handled, rfl⟩ := Option.map_eq_some_iff.mp taken
    obtain ⟨handlers, replied, rfl⟩ := handle_eq_some handled
    have consistent :=
      agree.consistent.step (by trivial) (by trivial) (by trivial) replied
    have agrees := agree.links fd
    obtain rfl := agrees.target member topicId fdToDel here
    obtain ⟨replying, repliedId, _, _, rfl⟩ :=
      Handlers.step_reply replied
    refine
      agree.of_handler replied consistent (fun _ _ => rfl)
        (fun other different => Function.update_of_ne different _ _) ?_
    simp only [HandlerAction.fd, Function.update_self,
      Handlers.phase_setPhase_self]
    have moved :
        Agrees (options fdToDel) fdToDel (.replied replying repliedId)
          (network.handlers.quit fdToDel) (network.process fdToDel)
          (network.inbox fdToDel) :=
      agrees.move (by rw [here]; rfl) rfl
        (fun _ impossible => nomatch impossible) (fun _ => rfl)
        (fun _ _ _ => Phase.noConfusion)
    refine moved.deliver rfl ?_ (fun _ _ _ => rfl)
    intro word listed
    rw [List.mem_singleton.mp listed]
    exact Origin.noConfusion
  · cases taken

theorem Agree.decrement
    (agree : network.Agree options)
    (taken : network.step options (.decrement fd) = some next) :
    next.Agree options := by
  obtain ⟨handlers, decremented, rfl⟩ := handle_eq_some taken
  have consistent :=
    agree.consistent.step (by trivial) (by trivial) (by trivial) decremented
  obtain ⟨member, topicId, here, rfl⟩ :=
    Handlers.step_decrement decremented
  exact
    agree.of_move decremented consistent rfl (Function.update_self _ _ _)
      (by rw [HandlerAction.fd, here]; rfl) rfl
      (fun _ impossible => nomatch impossible) (fun _ => rfl)
      (fun _ _ _ => Phase.noConfusion)

theorem Agree.publish
    (agree : network.Agree options) {words : List (Int × Int)}
    (proper : network.Proper options (.publish fd words))
    (taken : network.step options (.publish fd words) = some next) :
    next.Agree options := by
  simp only [step, Option.ite_none_right_eq_some,
    Option.some.injEq] at taken
  obtain ⟨_, rfl⟩ := taken
  refine
    agree.of_client rfl (fun _ _ => rfl)
      (fun other different => Function.update_of_ne different _ _) ?_
  simp only [deliver, Function.update_self]
  refine (agree.links fd).deliver proper ?_ ?_
  · intro word listed
    obtain ⟨pair, _, rfl⟩ := List.mem_map.mp listed
    exact Origin.noConfusion
  · intro word listed unregistration
    obtain ⟨pair, _, rfl⟩ := List.mem_map.mp listed
    cases unregistration

theorem Agree.receive
    (agree : network.Agree options)
    (taken : network.step options (.receive fd) = some next) :
    next.Agree options := by
  simp only [step] at taken
  split at taken
  · rename_i word rest place here
    cases taken
    refine
      agree.of_client rfl
        (fun other different => Function.update_of_ne different _ _)
        (fun other different => Function.update_of_ne different _ _) ?_
    simp only [read, setProcess, Function.update_self]
    exact (agree.links fd).receive place here
  · cases taken

theorem Agree.identify
    (agree : network.Agree options)
    (taken : network.step options (.identify fd) = some next) :
    next.Agree options := by
  simp only [step] at taken
  split at taken
  · rename_i responseStatus id place
    cases taken
    have agrees := agree.links fd
    refine
      agree.of_client rfl
        (fun other different => Function.update_of_ne different _ _)
        (fun _ _ => rfl) ?_
    simp only [setProcess, Function.update_self]
    refine
      agrees.advance (by rw [place]; exact Place.noConfusion)
        (agrees.responded responseStatus id place) Place.noConfusion
        (fun _ _ => Place.noConfusion) (fun _ listed => listed) ?_
        Place.noConfusion
    intro quit
    rcases agrees.quitting quit with impossible | impossible <;>
      · rw [place] at impossible
        cases impossible
  · cases taken

/-- A client whose `client_id` has been stored goes on. -/
theorem Agree.advance
    (agree : network.Agree options)
    (notRegistering : (network.process fd).place ≠ .registering)
    (notResponded : ∀ responseStatus id,
      (network.process fd).place ≠ .responded responseStatus id)
    {place : Place} {rest : List Word}
    (stillNotRegistering : place ≠ .registering)
    (stillNotResponded : ∀ responseStatus id,
      place ≠ .responded responseStatus id)
    (fewer : ∀ word ∈ rest, word ∈ network.inbox fd)
    (quitting : network.handlers.quit fd = true →
      place = .waiting ∨ place = .reported)
    (reported : place = .reported →
      (network.handlers.phase fd).removed = true) :
    (network.read fd rest place).Agree options := by
  have agrees := agree.links fd
  refine
    agree.of_client rfl
      (fun other different => Function.update_of_ne different _ _)
      (fun other different => Function.update_of_ne different _ _) ?_
  simp only [read, setProcess, Function.update_self]
  exact
    agrees.advance notRegistering
      (agrees.identified notRegistering notResponded)
      stillNotRegistering stillNotResponded fewer quitting reported

/-- A client that runs has not sent its `UNREGISTER`. -/
theorem Agree.notQuit
    (agree : network.Agree options)
    (running : (network.process fd).place.running = true) :
    network.handlers.quit fd ≠ true := by
  intro quit
  rcases (agree.links fd).quitting quit with place | place <;>
    · rw [place] at running
      cases running

theorem Agree.start
    (agree : network.Agree options)
    (taken : network.step options (.start fd) = some next) :
    next.Agree options := by
  simp only [step] at taken
  split at taken
  · rename_i responseStatus place
    cases taken
    have running : (network.process fd).place.running = true := by
      rw [place]
      rfl
    have agrees := agree.links fd
    refine
      agree.of_client rfl
        (fun other different => Function.update_of_ne different _ _)
        (fun _ _ => rfl) ?_
    simp only [setProcess, Function.update_self]
    have notRegistering :
        (network.process fd).place ≠ .registering := by
      rw [place]
      exact Place.noConfusion
    have answers :=
      agrees.identified notRegistering
        (fun _ _ => by rw [place]; exact Place.noConfusion)
    refine
      agrees.advance notRegistering answers ?_ ?_ (fun _ listed => listed)
        (fun quit => absurd quit (agree.notQuit running)) ?_ <;>
      split <;> simp
  · cases taken

theorem Agree.transfer
    (agree : network.Agree options)
    (taken : network.step options (.transfer fd) = some next) :
    next.Agree options := by
  simp only [step, Option.ite_none_right_eq_some,
    Option.some.injEq] at taken
  obtain ⟨⟨place, _⟩, rfl⟩ := taken
  have running : (network.process fd).place.running = true := by
    rw [place]
    rfl
  exact
    agree.advance (by rw [place]; exact Place.noConfusion)
      (fun _ _ => by rw [place]; exact Place.noConfusion)
      Place.noConfusion (fun _ _ => Place.noConfusion)
      (fun _ listed => List.mem_of_mem_drop listed)
      (fun quit => absurd quit (agree.notQuit running))
      Place.noConfusion

theorem Agree.sigint
    (agree : network.Agree options)
    (proper : network.Proper options (.sigint fd))
    (taken : network.step options (.sigint fd) = some next) :
    next.Agree options := by
  simp only [step, Option.ite_none_right_eq_some] at taken
  obtain ⟨_, signalled⟩ := taken
  obtain ⟨middle, handled, rfl⟩ := Option.map_eq_some_iff.mp signalled
  obtain ⟨handlers, quits, rfl⟩ := handle_eq_some handled
  have consistent :=
    agree.consistent.step (by trivial) (by trivial) (by trivial) quits
  have stored : (network.process fd).place.stored = true := proper
  have notRegistering : (network.process fd).place ≠ .registering := by
    intro place
    rw [place] at stored
    cases stored
  have notResponded :
      ∀ responseStatus id,
        (network.process fd).place ≠ .responded responseStatus id := by
    intro _ _ place
    rw [place] at stored
    cases stored
  refine
    agree.of_handler quits consistent
      (fun other different => Function.update_of_ne different _ _)
      (fun _ _ => rfl) ?_
  cases quits
  have agrees := agree.links fd
  simp only [HandlerAction.fd, Function.update_self]
  exact
    agrees.advance notRegistering
      (agrees.identified notRegistering notResponded)
      Place.noConfusion (fun _ _ => Place.noConfusion)
      (fun _ listed => listed) (fun _ => Or.inl rfl) Place.noConfusion

theorem Agree.poll
    (agree : network.Agree options)
    (proper : network.Proper options (.poll fd))
    (taken : network.step options (.poll fd) = some next) :
    next.Agree options := by
  simp only [step] at taken
  split at taken
  · rename_i word rest place here
    cases taken
    have agrees := agree.links fd
    have notRegistering :
        (network.process fd).place ≠ .registering := by
      rw [place]
      exact Place.noConfusion
    have listed : word ∈ network.inbox fd := by
      rw [here]
      exact List.mem_cons_self
    refine
      agree.advance notRegistering
        (fun _ _ => by rw [place]; exact Place.noConfusion) ?_ ?_
        (fun other inRest => by rw [here]; exact List.mem_cons_of_mem _ inRest)
        ?_ ?_
    · split <;> exact Place.noConfusion
    · intro _ _
      split <;> exact Place.noConfusion
    · intro _
      split
      · exact Or.inr rfl
      · exact Or.inl rfl
    · intro isReported
      split at isReported
      · -- the `OK` can only be the response to the `UNREGISTER`
        rename_i isOk
        cases origin : word.origin with
        | registration =>
            exact absurd origin (agrees.read notRegistering word listed)
        | unregistration => exact agrees.replied word listed origin
        | publication =>
            exact absurd isOk (proper word (by rw [here]; rfl) origin)
      · cases isReported
  · cases taken

/-- Every proper step keeps all connections in agreement. -/
theorem Agree.step
    (agree : network.Agree options)
    {action : NetworkAction} (proper : network.Proper options action)
    (taken : network.step options action = some next) :
    next.Agree options := by
  cases action with
  | store fd stack => exact agree.store proper taken
  | respond fd => exact agree.respond taken
  | count fd => exact agree.count taken
  | find fd stackFd => exact agree.find taken
  | shift fd beyond => exact agree.shift proper taken
  | reply fd => exact agree.reply taken
  | decrement fd => exact agree.decrement taken
  | publish fd words => exact agree.publish proper taken
  | receive fd => exact agree.receive taken
  | identify fd => exact agree.identify taken
  | start fd => exact agree.start taken
  | transfer fd => exact agree.transfer taken
  | sigint fd => exact agree.sigint proper taken
  | poll fd => exact agree.poll proper taken

/-- The arrays hold the clients that have been stored and not removed. -/
theorem Agree.entries_eq
    (agree : network.Agree options) {topicId : Nat}
    (inside : topicId < network.handlers.registry.currentTopics)
    (kind : Kind) :
    network.entries topicId kind =
      membersOf network.handlers.roster
        (network.handlers.registry.allTopics topicId).name kind :=
  agree.consistent.holds.slots topicId inside kind

/-- A shift takes exactly the client of its own connection out. -/
theorem Agree.entries_shift
    (agree : network.Agree options) {beyond : Client}
    (proper : network.Proper options (.shift fd beyond))
    (taken : network.step options (.shift fd beyond) = some next)
    {topicId : Nat}
    (inside : topicId < network.handlers.registry.currentTopics)
    (kind : Kind) :
    next.entries topicId kind =
      (network.entries topicId kind).filter
        (fun client => client.fd ≠ fd) := by
  have after := agree.shift proper taken
  obtain ⟨handlers, shifted, rfl⟩ := handle_eq_some taken
  obtain ⟨member, shiftId, clientPos, fdToDel, here, rfl⟩ :=
    Handlers.step_shift shifted
  have name :
      ((network.handlers.shift fd member shiftId clientPos fdToDel
          beyond).registry.allTopics topicId).name =
        (network.handlers.registry.allTopics topicId).name := by
    simp only [Handlers.shift]
    by_cases same : topicId = shiftId
    · rw [same, Registry.updateTopic_self, Registry.name_shiftClients]
    · rw [Registry.updateTopic_of_ne _ _ same]
  have insideAfter :
      topicId <
        (network.handlers.shift fd member shiftId clientPos fdToDel
          beyond).registry.currentTopics :=
    inside
  rw [after.entries_eq insideAfter, name, agree.entries_eq inside]
  exact membersOf_filter_fd network.handlers.roster fd _ kind

/-- What an `UNREGISTER` has found is the entry of its own connection. -/
theorem Agree.entries_found
    (agree : network.Agree options)
    {member : Member} {topicId clientPos : Nat} {fdToDel : Fd}
    (here :
      network.handlers.phase fd =
        .found member topicId clientPos fdToDel) :
    fdToDel = fd ∧
      (network.entries topicId member.kind)[clientPos]? =
        some ⟨member.topic, member.id, fd⟩ := by
  obtain ⟨named, listed, own⟩ :=
    agree.consistent.found fd member topicId clientPos fdToDel here
  obtain ⟨inside, name⟩ := Registry.getElem?_names_eq_some.mp named
  have ownFd :=
    ((agree.consistent.present fd member).mp (by rw [here]; rfl)).2
  refine ⟨own, ?_⟩
  rw [agree.entries_eq inside, name, listed, Member.client, ownFd]

/-- Whoever has been answered has no entry left. -/
theorem Agree.entries_removed
    (agree : network.Agree options)
    (removed : (network.handlers.phase fd).removed = true)
    {topicId : Nat}
    (inside : topicId < network.handlers.registry.currentTopics)
    (kind : Kind) :
    ∀ client ∈ network.entries topicId kind, client.fd ≠ fd := by
  intro client listed same
  rw [agree.entries_eq inside] at listed
  obtain ⟨member, enrolled, _, _, rfl⟩ := mem_membersOf.mp listed
  have present :=
    (agree.consistent.present fd member).mpr ⟨enrolled, same⟩
  revert removed present
  cases network.handlers.phase fd <;> simp [Phase.removed, Phase.present]

/-- An `UNREGISTER` takes the entry of its own connection out and no other,
and a client that reports has no entry any more. -/
theorem own_entry_removed
    {actions : List NetworkAction} {final : Network}
    (proper : Obeys (step options) (Proper options) initial actions)
    (reached : run (step options) initial actions = some final) :
    (∀ fd beyond next,
        final.Proper options (.shift fd beyond) →
          final.step options (.shift fd beyond) = some next →
            ∃ member topicId clientPos,
              final.handlers.phase fd =
                  .found member topicId clientPos fd ∧
                (final.entries topicId member.kind)[clientPos]? =
                  some ⟨member.topic, member.id, fd⟩ ∧
                ∀ other,
                  other < final.handlers.registry.currentTopics →
                    ∀ kind,
                      next.entries other kind =
                        (final.entries other kind).filter
                          (fun client => client.fd ≠ fd)) ∧
      ∀ fd, (final.process fd).place = .reported →
        (final.handlers.phase fd).removed = true ∧
          ∀ topicId,
            topicId < final.handlers.registry.currentTopics →
              ∀ kind, ∀ client ∈ final.entries topicId kind,
                client.fd ≠ fd := by
  have agree : final.Agree options :=
    invariant_of_run
      (fun _ _ _ agree guard taken => agree.step guard taken)
      agree_initial proper reached
  constructor
  · intro fd beyond next shiftProper taken
    obtain ⟨handlers, shifted, _⟩ := handle_eq_some taken
    obtain ⟨member, topicId, clientPos, fdToDel, here, _⟩ :=
      Handlers.step_shift shifted
    obtain ⟨rfl, own⟩ := agree.entries_found here
    exact
      ⟨member, topicId, clientPos, here, own,
        fun other inside kind =>
          agree.entries_shift shiftProper taken inside kind⟩
  · intro fd isReported
    have removed := (agree.links fd).reported isReported
    exact
      ⟨removed, fun topicId inside kind =>
        agree.entries_removed removed inside kind⟩

end Steps

/-- Conditions that can be checked and make a run proper. -/
def Apart (options : Fd → Options) (network : Network) :
    NetworkAction → Prop
  | .store fd stack =>
      network.handlers.Apart
        (.store fd (options fd).clientType (options fd).clientTopic stack)
  | .shift fd beyond => network.handlers.Apart (.shift fd beyond)
  | action => network.Proper options action

instance (options : Fd → Options) (network : Network) :
    ∀ action, Decidable (network.Apart options action)
  | .store fd stack =>
      inferInstanceAs
        (Decidable
          (network.handlers.Apart
            (.store fd (options fd).clientType (options fd).clientTopic
              stack)))
  | .shift fd beyond =>
      inferInstanceAs
        (Decidable (network.handlers.Apart (.shift fd beyond)))
  | .publish _ _ => inferInstanceAs (Decidable (_ = _))
  | .sigint _ => inferInstanceAs (Decidable (_ = _))
  | .poll fd =>
      inferInstanceAs
        (Decidable
          (∀ word ∈ (network.inbox fd).head?,
            word.origin = .publication →
              word.responseStatus ≠ Status.ok.code))
  | .respond _ => inferInstanceAs (Decidable True)
  | .count _ => inferInstanceAs (Decidable True)
  | .find _ _ => inferInstanceAs (Decidable True)
  | .reply _ => inferInstanceAs (Decidable True)
  | .decrement _ => inferInstanceAs (Decidable True)
  | .receive _ => inferInstanceAs (Decidable True)
  | .identify _ => inferInstanceAs (Decidable True)
  | .start _ => inferInstanceAs (Decidable True)
  | .transfer _ => inferInstanceAs (Decidable True)

theorem Apart.proper
    {options : Fd → Options} {network : Network}
    (agree : network.Agree options) {action : NetworkAction}
    (apart : network.Apart options action) :
    network.Proper options action := by
  have consistent := agree.consistent
  cases action with
  | store fd stack => exact consistent.room_and_separate apart
  | shift fd beyond =>
      have apart : network.handlers.Apart (.shift fd beyond) := apart
      exact (consistent.room_and_separate apart).2
  | respond fd => exact apart
  | count fd => exact apart
  | find fd stackFd => exact apart
  | reply fd => exact apart
  | decrement fd => exact apart
  | publish fd words => exact apart
  | receive fd => exact apart
  | identify fd => exact apart
  | start fd => exact apart
  | transfer fd => exact apart
  | sigint fd => exact apart
  | poll fd => exact apart

/-- The client on descriptor 4 is a subscriber and the others are
publishers. -/
def clientsOfT (fd : Fd) : Options :=
  ⟨if fd = 4 then .subscriber else .publisher, topicT⟩

/-- The steps of a client up to the transfer. -/
def registration (fd : Fd) : List NetworkAction :=
  [.store fd (Registry.initial.allTopics 0), .respond fd, .count fd,
    .receive fd, .identify fd, .start fd]

/-- A subscriber, which is sent a message, and a publisher de-register at the
same time, while another publisher registers. -/
def visits : List NetworkAction :=
  registration 4 ++ registration 5 ++
    [.publish 4 (List.replicate publishWords (7, 0)), .sigint 4,
      .store 6 (Registry.initial.allTopics 0), .sigint 5, .poll 4,
      .find 5 0, .respond 6, .shift 5 ⟨topicT, 0, 0⟩, .count 6, .find 4 0,
      .reply 5, .receive 6, .shift 4 ⟨topicT, 0, 0⟩, .poll 5, .reply 4,
      .identify 6, .decrement 4, .start 6, .decrement 5] ++
    List.replicate publishWords (.poll 4)

theorem own_entry_removed_three :
    ∃ final,
      run (step clientsOfT) initial visits = some final ∧
        (final.process 4).place = .reported ∧
        (final.process 5).place = .reported ∧
        (∀ client ∈ final.entries 0 .subscriber, client.fd ≠ 4) ∧
        ∀ client ∈ final.entries 0 .publisher, client.fd ≠ 5 := by
  have apart :
      Obeys (step clientsOfT) (Apart clientsOfT) initial visits := by
    decide +kernel
  have proper :
      Obeys (step clientsOfT) (Proper clientsOfT) initial visits :=
    obeys_of_invariant
      (fun _ _ agree apart => apart.proper agree)
      (fun _ _ _ agree guard taken => agree.step guard taken)
      agree_initial apart
  have seen :
      (run (step clientsOfT) initial visits).map
        (fun final =>
          ((final.process 4).place, (final.process 5).place,
            final.handlers.registry.currentTopics)) =
        some (.reported, .reported, 1) := by
    decide +kernel
  obtain ⟨final, reached, views⟩ := Option.map_eq_some_iff.mp seen
  simp only [Prod.mk.injEq] at views
  obtain ⟨firstReported, secondReported, topics⟩ := views
  have inside : 0 < final.handlers.registry.currentTopics := by
    rw [topics]
    exact Nat.one_pos
  have removed := (own_entry_removed proper reached).2
  exact
    ⟨final, reached, firstReported, secondReported,
      (removed 4 firstReported).2 0 inside .subscriber,
      (removed 5 secondReported).2 0 inside .publisher⟩

/-- The second publisher is interrupted before it reads the response to its
`REGISTER`.  It sends the id 0, takes that response for the one to its
`UNREGISTER`, and the broker removes the first publisher. -/
theorem other_entry_removed :
    ∃ before after,
      run (step clientsOfT) initial
            (registration 4 ++ registration 5 ++
              [.store 6 (Registry.initial.allTopics 0), .respond 6,
                .sigint 6, .poll 6, .count 6, .find 6 0]) = some before ∧
        before.step clientsOfT (.shift 6 ⟨topicT, 0, 0⟩) = some after ∧
        (before.process 6).place = .reported ∧
        before.entries 0 .publisher = [⟨topicT, 0, 5⟩, ⟨topicT, 1, 6⟩] ∧
        (after.handlers.registry.allTopics 0).publishers 0 =
          ⟨topicT, 1, 6⟩ := by
  have seen :
      (run (step clientsOfT) initial
        (registration 4 ++ registration 5 ++
          [.store 6 (Registry.initial.allTopics 0), .respond 6, .sigint 6,
            .poll 6, .count 6, .find 6 0])).map
        (fun before =>
          ((before.process 6).place, before.entries 0 .publisher,
            (before.step clientsOfT (.shift 6 ⟨topicT, 0, 0⟩)).map
              (fun after =>
                (after.handlers.registry.allTopics 0).publishers 0))) =
        some
          (.reported, [⟨topicT, 0, 5⟩, ⟨topicT, 1, 6⟩],
            some ⟨topicT, 1, 6⟩) := by
    decide +kernel
  obtain ⟨before, reached, views⟩ := Option.map_eq_some_iff.mp seen
  simp only [Prod.mk.injEq, Option.map_eq_some_iff] at views
  obtain ⟨isReported, listed, after, shifted, remains⟩ := views
  exact
    ⟨before, after, reached, shifted, isReported, listed, remains⟩

end Network

end SistemasDistribuidos.Practica4
