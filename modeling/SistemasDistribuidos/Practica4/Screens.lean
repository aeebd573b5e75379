import SistemasDistribuidos.Practica4.Deregistration
import SistemasDistribuidos.Practica4.Linked

/-!
# What the subscribers print

Since all clients behave, the broker serves them as a publish/subscribe service
does, and a subscriber prints what the publishers of its topic have sent since
its registration, in the order in which the broker has handled it.
-/

namespace SistemasDistribuidos.Practica4

open SistemasDistribuidos Machine

namespace Exchange

section Published

variable {exchange next : Exchange}

/-- The service publishes what is in the `PUBLISH_DATA`. -/
theorem published_events
    {turn : Turn} (settled : exchange.handlers.Settled)
    (conducted : exchange.Conducted turn)
    (taken : exchange.step turn = some next) (topic : TopicName) :
    (exchange.handlers.account.events turn).filterMap
        (PubSub.published topic) =
      (turn.payload topic).toList := by
  cases turn with
  | register fd kind other stack =>
      rw [Account.events, List.filterMap_append, Turn.payload]
      split <;> rfl
  | message fd content memory =>
      obtain ⟨member, serving, _, _, _⟩ :=
        refines_message settled conducted.1 taken
      have isClient := settled.client_iff.mpr serving
      simp only [Account.events, Account.answer, isClient, Turn.payload]
      by_cases publishes : content.action = .publishData
      · have isPublisher :=
          conducted.2 fd content memory member rfl publishes serving
        rw [publishes, isPublisher, if_neg (by decide), if_pos ⟨rfl, rfl⟩]
        by_cases same : content.topic = topic
        · simp [PubSub.published, same]
        · simp [PubSub.published, same]
      · have other :
            ¬(content.action = .publishData ∧ content.topic = topic) :=
          fun both => publishes both.1
        have silent :
            ¬(member.kind = .publisher ∧ content.action = .publishData) :=
          fun both => publishes both.2
        rw [if_neg other, if_neg silent]
        split <;> rfl

theorem published_of_run (topic : TopicName) :
    ∀ {turns : List Turn} {exchange final : Exchange},
      exchange.handlers.Settled →
        Obeys step Conducted exchange turns →
          run step exchange turns = some final →
            (exchange.handlers.account.eventsOf turns).filterMap
                (PubSub.published topic) =
              turns.filterMap (Turn.payload topic)
  | [], _, _, _, _, _ => rfl
  | turn :: rest, exchange, final, settled, conducted, reached => by
      obtain ⟨next, taken, onwards⟩ := run_cons_eq_some.mp reached
      obtain ⟨nextSettled, account, _⟩ :=
        refines_step settled conducted.1.1 taken
      rw [Account.eventsOf, List.filterMap_append, ← account,
        published_events settled conducted.1 taken,
        published_of_run topic nextSettled (conducted.2 next taken) onwards]
      simp only [List.filterMap_eq_flatMap_toList, List.flatMap_cons]

end Published

/-- A message of another client leaves a handler where it is. -/
theorem phase_of_message
    {exchange next : Exchange} {fd other : Fd} {content : ClientMessage}
    {memory : Memory} (settled : exchange.handlers.Settled)
    (admissible : exchange.Admissible (.message fd content memory))
    (taken : exchange.step (.message fd content memory) = some next)
    (different : other ≠ fd) :
    next.handlers.phase other = exchange.handlers.phase other := by
  obtain ⟨member, _, moved, _, _⟩ :=
    refines_message settled admissible taken
  rw [ClientMessage.request] at moved
  split at moved
  · obtain ⟨_, _, _, _, others, _⟩ := Handlers.run_unregister moved
    exact others other different
  · have unmoved : exchange.handlers = next.handlers :=
      Option.some.inj moved
    rw [unmoved]

/-- A run in which a member registers, between what comes before and what
comes after. -/
def Registers (exchange : Exchange) (turns : List Turn) (final : Exchange)
    (fd : Fd) (member : Member) : Prop :=
  ∃ before stack during middle registered,
    turns =
        before ++ .register fd member.kind member.topic stack :: during ∧
      run step exchange before = some middle ∧
      middle.step (.register fd member.kind member.topic stack) =
        some registered ∧
      registered.handlers.phase fd = .serving member ∧
      run step registered during = some final

theorem Registers.cons
    {exchange next final : Exchange} {turn : Turn} {rest : List Turn}
    {fd : Fd} {member : Member}
    (registers : next.Registers rest final fd member)
    (taken : exchange.step turn = some next) :
    exchange.Registers (turn :: rest) final fd member := by
  obtain ⟨before, stack, during, middle, registered, rfl, earlier, others⟩ :=
    registers
  exact
    ⟨turn :: before, stack, during, middle, registered, rfl,
      run_cons_eq_some.mpr ⟨next, taken, earlier⟩, others⟩

/-- Who is served has registered, and his handler has stayed with him. -/
theorem registers_of_serving
    {fd : Fd} {member : Member} :
    ∀ {turns : List Turn} {exchange final : Exchange},
      exchange.handlers.Settled →
        Obeys step Admissible exchange turns →
          run step exchange turns = some final →
            exchange.handlers.phase fd = .accepted →
              final.handlers.phase fd = .serving member →
                exchange.Registers turns final fd member
  | [], exchange, final, _, _, reached, accepted, serving => by
      cases reached
      rw [accepted] at serving
      cases serving
  | turn :: rest, exchange, final, settled, admissible, reached, accepted,
      serving => by
      obtain ⟨next, taken, onwards⟩ := run_cons_eq_some.mp reached
      obtain ⟨nextSettled, _, _⟩ :=
        refines_step settled admissible.1 taken
      have later (stays : next.handlers.phase fd = .accepted) :
          exchange.Registers (turn :: rest) final fd member :=
        (registers_of_serving nextSettled (admissible.2 next taken) onwards
          stays serving).cons taken
      cases turn with
      | message other content memory =>
          by_cases same : fd = other
          · obtain ⟨member', serving', _⟩ :=
              refines_message settled admissible.1 taken
            rw [← same, accepted] at serving'
            cases serving'
          · apply later
            rw [phase_of_message settled admissible.1 taken same, accepted]
      | register other kind topic stack =>
          obtain ⟨_, _, others, _, answers⟩ :=
            register_effect settled taken
          by_cases same : fd = other
          · subst same
            obtain ⟨onlyOn, sameIf⟩ :=
              stage_of_run fd nextSettled (admissible.2 next taken) onwards
            rcases answers with ⟨_, isServing⟩ | ⟨_, hasFinished⟩
            · have stays : final.stage fd = next.stage fd := by
                rw [stage, stage, serving, isServing]
                rfl
              have samePhase := (sameIf stays).1
              rw [serving, isServing] at samePhase
              cases samePhase
              exact
                ⟨[], stack, rest, exchange, next, rfl, rfl, taken,
                  isServing, onwards⟩
            · rw [stage, stage, serving, hasFinished] at onlyOn
              exact absurd onlyOn (Nat.not_succ_le_self 1)
          · apply later
            rw [(others fd same).1, accepted]

/-- A subscriber that is served has been sent the answer to its registration
and what has been published on its topic since then. -/
theorem inbox_of_serving
    {turns : List Turn} {final : Exchange} {fd : Fd} {member : Member}
    (conducted : Obeys step Conducted initial turns)
    (reached : run step initial turns = some final)
    (serving : final.handlers.phase fd = .serving member)
    (isSubscriber : member.kind = .subscriber) :
    ∃ before stack during response,
      turns =
          before ++ .register fd .subscriber member.topic stack :: during ∧
        final.inbox fd =
          .response response ::
            during.filterMap (Turn.payload member.topic) := by
  have admissible := conducted.mono (fun _ _ => And.left)
  obtain
    ⟨before, stack, during, middle, registered, rfl, earlier, registers,
      isServing, onwards⟩ :=
    registers_of_serving Handlers.settled_initial admissible reached rfl
      serving
  rw [isSubscriber] at admissible conducted registers
  obtain ⟨admissibleBefore, admissibleOn⟩ := obeys_append.mp admissible
  obtain ⟨admissibleNow, admissibleDuring⟩ := admissibleOn middle earlier
  have conductedDuring :=
    ((obeys_append.mp conducted).2 middle earlier).2 registered registers
  obtain ⟨settled, _, _⟩ :=
    refines_of_run Handlers.settled_initial admissibleBefore earlier
  obtain ⟨registeredSettled, _, _⟩ :=
    refines_step settled admissibleNow registers
  have answers := (register_effect settled registers).2.2.2.2
  rw [isServing] at answers
  obtain ⟨fresh, _, topicsRegistered, inboxRegistered⟩ :=
    visit_begins settled registers answers.admitted.1
  obtain ⟨topicsBefore, inboxBefore⟩ :=
    inbox_of_stays_outside Handlers.settled_initial admissibleBefore earlier
      fresh rfl
  rw [topicsBefore, List.nil_append] at topicsRegistered
  have stays : final.stage fd = registered.stage fd := by
    rw [stage, stage, serving, isServing]
  refine
    ⟨before, stack, during,
      (middle.handlers.registry.register .subscriber member.topic fd stack).2,
      by rw [isSubscriber], ?_⟩
  rw [inbox_of_stays_subscribed registeredSettled
      (admissibleDuring registered registers) onwards stays topicsRegistered,
    inboxRegistered, inboxBefore,
    published_of_run _ registeredSettled conductedDuring onwards]
  rfl

end Exchange

/-! ## Clients and broker together -/

namespace Traffic

section Clients

variable {options : Fd → Options} {actions : List TrafficAction}
  {traffic final : Traffic} {fd : Fd}

theorem linked_of_run
    (proper : Obeys (step options) (Proper options) initial actions)
    (reached : run (step options) initial actions = some final) :
    final.Linked options :=
  invariant_of_run
    (fun _ _ _ linked allowed taken => linked.step allowed taken)
    (linked_initial options) proper reached

/-- Who has come to its end is registered no more. -/
theorem Linked.not_registered
    (linked : traffic.Linked options)
    (ended :
      (traffic.process fd).place = .exited ∨
        (traffic.process fd).place = .reported) :
    traffic.exchange.handlers.account.client fd = none := by
  rw [Option.eq_none_iff_forall_ne_some]
  intro member isClient
  have serving := linked.settled.client_iff.mp isClient
  rw [(linked.stands fd).gone ended] at serving
  cases serving

/-- What the broker takes for granted of its clients they do: it receives what
each of them has sent, in that order, and never a message of another topic or
id.  So its account and they agree about who is registered. -/
theorem service_of_clients
    (proper : Obeys (step options) (Proper options) initial actions)
    (reached : run (step options) initial actions = some final) :
    Obeys Exchange.step Exchange.Admissible Exchange.initial final.turns ∧
      run Exchange.step Exchange.initial final.turns =
        some final.exchange ∧
      ∀ fd,
        final.turns.filterMap (Turn.messageOf fd) ++ final.outgoing fd =
            final.sent fd ∧
          ((final.process fd).place = .transferring →
            final.exchange.handlers.account.client fd =
              some
                ⟨(options fd).clientType, (options fd).clientTopic,
                  (final.process fd).clientId, fd⟩) ∧
          ((final.process fd).place = .exited ∨
              (final.process fd).place = .reported →
            final.exchange.handlers.account.client fd = none) := by
  have linked := linked_of_run proper reached
  refine ⟨linked.admissible, linked.replays, ?_⟩
  intro fd
  refine ⟨linked.queued fd, ?_, linked.not_registered⟩
  intro place
  have standing := linked.stands_at place
  exact linked.settled.client_iff.mpr standing.transferring_served.1

/-- A subscriber and a publisher register, and a message is published and
printed. -/
def oneLine : List TrafficAction :=
  [.register 4 (Registry.initial.allTopics 0), .receive 4 (0, 0),
    .identify 4, .start 4, .register 5 (Registry.initial.allTopics 0),
    .receive 5 (0, 0), .identify 5, .start 5,
    .publish 5 0 blankMessage.data, .handle 5 ⟨0, ⟨topicT, 0, 0⟩⟩,
    .transfer 4]

theorem oneLine_proper :
    Obeys (step Network.clientsOfT) (Proper Network.clientsOfT) initial
      oneLine := by
  apply Obeys.cons rfl
  · refine ⟨trivial, ?_⟩
    intro next taken
    cases taken
    exact Exchange.within_of_short (by decide)
  apply Obeys.cons rfl trivial
  apply Obeys.cons rfl trivial
  apply Obeys.cons rfl trivial
  apply Obeys.cons rfl
  · refine ⟨trivial, ?_⟩
    intro next taken
    cases taken
    exact Exchange.within_of_short (by decide)
  apply Obeys.cons rfl trivial
  apply Obeys.cons rfl trivial
  apply Obeys.cons rfl trivial
  apply Obeys.cons rfl trivial
  apply Obeys.cons rfl trivial
  exact Obeys.cons rfl trivial trivial

theorem service_of_clients_oneLine :
    ∃ final,
      run (step Network.clientsOfT) initial oneLine = some final ∧
        final.exchange.handlers.account.client 4 =
          some ⟨.subscriber, topicT, 1, 4⟩ := by
  refine ⟨_, rfl, ?_⟩
  exact ((service_of_clients oneLine_proper rfl).2.2 4).2.1 rfl

/-- In SECUENCIAL a subscriber has printed, or will print next, exactly what has
been published on its topic since its registration, in the order in which the
broker has handled it; and each line on a screen a publisher of the topic has
sent. -/
theorem screen_of_subscriber
    (proper : Obeys (step options) (Proper options) initial actions)
    (reached : run (step options) initial actions = some final) (fd : Fd) :
    ((options fd).clientType = .subscriber →
        (final.process fd).place = .transferring →
          ∃ before stack during,
            final.turns =
                before ++
                  .register fd .subscriber (options fd).clientTopic stack ::
                    during ∧
              final.screen fd ++ final.unread fd =
                during.filterMap
                  (Turn.payload (options fd).clientTopic)) ∧
      ∀ time text, .publish time text ∈ final.screen fd →
        ∃ publisher message,
          Published options final.sent (options fd).clientTopic time text
            publisher message := by
  have linked := linked_of_run proper reached
  constructor
  · intro isSubscriber place
    have standing := linked.stands_at place
    obtain ⟨serving, arrived⟩ := standing.transferring_served
    obtain ⟨before, stack, during, response, turns, received⟩ :=
      Exchange.inbox_of_serving linked.conducted linked.replays serving
        isSubscriber
    rw [arrived] at received
    exact
      ⟨before, stack, during, turns, (List.cons.inj received).2⟩
  · intro time text printed
    exact linked.origins fd time text ((linked.stands fd).mem_inbox printed)

theorem screen_of_subscriber_oneLine :
    ∃ final before stack during,
      run (step Network.clientsOfT) initial oneLine = some final ∧
        final.turns =
            before ++ .register 4 .subscriber topicT stack :: during ∧
          final.screen 4 ++ final.unread 4 =
            during.filterMap (Turn.payload topicT) := by
  obtain ⟨before, stack, during, turns, printed⟩ :=
    (screen_of_subscriber oneLine_proper rfl 4).1 rfl rfl
  exact ⟨_, before, stack, during, rfl, turns, printed⟩

end Clients

end Traffic

end SistemasDistribuidos.Practica4
