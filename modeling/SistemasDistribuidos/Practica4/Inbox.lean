import SistemasDistribuidos.Practica4.Exchange

/-!
# What a subscriber is sent

A connection is first accepted, then served, then finished, and never goes
back.  So between its registration and its `UNREGISTER` nothing is said about
it, and what the broker sends to it can be read off the messages in between:
the payloads published on its topic, in the order in which they were handled.
-/

namespace SistemasDistribuidos.Practica4

open SistemasDistribuidos SlotArray Machine

/-- How far a connection has come. -/
def Phase.stage : Phase → Nat
  | .accepted => 0
  | .finished => 2
  | _ => 1

namespace Exchange

def stage (exchange : Exchange) (fd : Fd) : Nat :=
  (exchange.handlers.phase fd).stage

section Stages

variable {exchange next : Exchange} {fd : Fd}

/-- A message that says something about a connection brings it further. -/
theorem stage_step
    {turn : Turn} (settled : exchange.handlers.Settled)
    (admissible : exchange.Admissible turn)
    (taken : exchange.step turn = some next) (fd : Fd) :
    (next.handlers.phase fd = exchange.handlers.phase fd ∧
        ∀ event ∈ exchange.handlers.account.events turn,
          PubSub.involves fd event = false) ∨
      exchange.stage fd < next.stage fd := by
  cases turn with
  | register other kind topic stack =>
      obtain ⟨moved, _, _⟩ := refines_register settled taken
      obtain ⟨accepted, _, _, _, others, outcome⟩ :=
        Handlers.run_register moved
      by_cases same : other = fd
      · subst same
        right
        rw [stage, stage, accepted]
        rcases outcome with ⟨_, serving, _⟩ | ⟨_, finished, _⟩
        · rw [serving]
          exact Nat.zero_lt_one
        · rw [finished]
          exact Nat.zero_lt_two
      · left
        refine ⟨others fd (Ne.symm same), ?_⟩
        intro event listed
        simp only [Account.events] at listed
        rcases List.mem_append.mp listed with subscribed | told
        · split at subscribed
          · cases List.mem_singleton.mp subscribed
            exact decide_eq_false same
          · cases subscribed
        · cases List.mem_singleton.mp told
          exact decide_eq_false same
  | message other message memory =>
      obtain ⟨member, serving, moved, _, _⟩ :=
        refines_message settled admissible taken
      have isClient := settled.client_iff.mpr serving
      simp only [Account.events, Account.answer, isClient]
      by_cases leaves : message.action = member.kind.unregisters
      · rw [ClientMessage.request, if_pos leaves] at moved
        obtain ⟨_, _, _, finished, others, _⟩ :=
          Handlers.run_unregister moved
        by_cases same : other = fd
        · subst same
          right
          rw [stage, stage, serving, finished]
          exact Nat.one_lt_two
        · left
          refine ⟨others fd (Ne.symm same), ?_⟩
          intro event listed
          rw [if_pos leaves] at listed
          rcases List.mem_cons.mp listed with rfl | told
          · exact decide_eq_false same
          · cases List.mem_singleton.mp told
            exact decide_eq_false same
      · rw [ClientMessage.request, if_neg leaves] at moved
        left
        have unmoved : exchange.handlers = next.handlers :=
          Option.some.inj moved
        refine ⟨by rw [unmoved], ?_⟩
        intro event listed
        rw [if_neg leaves] at listed
        split at listed
        · cases List.mem_singleton.mp listed
          rfl
        · cases listed

/-- A connection never goes back, and as long as it stays where it is nothing
is said about it. -/
theorem stage_of_run (fd : Fd) :
    ∀ {turns : List Turn} {exchange final : Exchange},
      exchange.handlers.Settled →
        Obeys step Admissible exchange turns →
          run step exchange turns = some final →
            exchange.stage fd ≤ final.stage fd ∧
              (final.stage fd = exchange.stage fd →
                final.handlers.phase fd = exchange.handlers.phase fd ∧
                  ∀ event ∈ exchange.handlers.account.eventsOf turns,
                    PubSub.involves fd event = false)
  | [], exchange, final, _, _, reached => by
      cases reached
      exact ⟨le_rfl, fun _ => ⟨rfl, nofun⟩⟩
  | turn :: rest, exchange, final, settled, admissible, reached => by
      obtain ⟨next, taken, onwards⟩ := run_cons_eq_some.mp reached
      obtain ⟨nextSettled, account, _⟩ :=
        refines_step settled admissible.1 taken
      obtain ⟨later, silent⟩ :=
        stage_of_run fd nextSettled (admissible.2 next taken) onwards
      rcases stage_step settled admissible.1 taken fd with
        ⟨same, nothing⟩ | further
      · have sameStage : next.stage fd = exchange.stage fd := by
          rw [stage, stage, same]
        rw [sameStage] at later silent
        refine ⟨later, ?_⟩
        intro stays
        obtain ⟨sameLater, nothingLater⟩ := silent stays
        refine ⟨sameLater.trans same, ?_⟩
        intro event listed
        rw [Account.eventsOf] at listed
        rcases List.mem_append.mp listed with now | afterwards
        · exact nothing event now
        · rw [← account] at afterwards
          exact nothingLater event afterwards
      · refine ⟨(further.trans_le later).le, ?_⟩
        intro stays
        omega

end Stages

/-! ## One segment of a run -/

/-- The topics that a connection is subscribed to. -/
def topics (exchange : Exchange) (fd : Fd) : List TopicName :=
  PubSub.topicsOf fd exchange.handlers.account.subscriptions

def inbox (exchange : Exchange) (fd : Fd) : List Packet :=
  PubSub.inbox fd exchange.sends

section Segments

variable {exchange final : Exchange} {fd : Fd} {turns : List Turn}

/-- While a connection stays where it is, it is sent what is published on its
topics. -/
theorem inbox_of_stays
    (settled : exchange.handlers.Settled)
    (admissible : Obeys step Admissible exchange turns)
    (reached : run step exchange turns = some final)
    (stays : final.stage fd = exchange.stage fd) :
    final.topics fd = exchange.topics fd ∧
      final.inbox fd =
        exchange.inbox fd ++
          (exchange.handlers.account.eventsOf turns).flatMap
            (PubSub.heard fd (exchange.topics fd)) := by
  obtain ⟨_, account, sends⟩ := refines_of_run settled admissible reached
  have silent :
      ∀ event ∈ exchange.handlers.account.eventsOf turns,
        PubSub.concerns fd event = false :=
    fun event listed =>
      PubSub.concerns_of_involves
        (((stage_of_run fd settled admissible reached).2 stays).2 event
          listed)
  constructor
  · rw [topics, topics, account, Account.subscriptions_turns]
    exact PubSub.topicsOf_foldl silent
  · rw [inbox, inbox, sends, PubSub.inbox_append,
      PubSub.inbox_deliveries silent]
    rfl

theorem inbox_of_stays_outside
    (settled : exchange.handlers.Settled)
    (admissible : Obeys step Admissible exchange turns)
    (reached : run step exchange turns = some final)
    (stays : final.stage fd = exchange.stage fd)
    (outside : exchange.topics fd = []) :
    final.topics fd = [] ∧ final.inbox fd = exchange.inbox fd := by
  obtain ⟨sameTopics, sent⟩ :=
    inbox_of_stays settled admissible reached stays
  have silent := ((stage_of_run fd settled admissible reached).2 stays).2
  rw [outside] at sameTopics sent
  rw [PubSub.flatMap_heard_nil silent, List.append_nil] at sent
  exact ⟨sameTopics, sent⟩

theorem inbox_of_stays_subscribed
    (settled : exchange.handlers.Settled)
    (admissible : Obeys step Admissible exchange turns)
    (reached : run step exchange turns = some final)
    (stays : final.stage fd = exchange.stage fd) {topic : TopicName}
    (subscribed : exchange.topics fd = [topic]) :
    final.inbox fd =
      exchange.inbox fd ++
        (exchange.handlers.account.eventsOf turns).filterMap
          (PubSub.published topic) := by
  obtain ⟨_, sent⟩ := inbox_of_stays settled admissible reached stays
  have silent := ((stage_of_run fd settled admissible reached).2 stays).2
  rw [subscribed, PubSub.flatMap_heard_singleton silent] at sent
  exact sent

end Segments

/-! ## One visit -/

section Visit

variable {exchange next : Exchange} {fd : Fd}

/-- A subscriber that is admitted. -/
theorem visit_begins
    {topic : TopicName} {stack : Topic}
    (settled : exchange.handlers.Settled)
    (taken :
      exchange.step (.register fd .subscriber topic stack) = some next)
    (admitted :
      (exchange.handlers.registry.register .subscriber topic fd
        stack).2.responseStatus = .ok) :
    exchange.stage fd = 0 ∧
      (∃ id,
        next.handlers.phase fd =
          .serving ⟨.subscriber, topic, id, fd⟩) ∧
      next.topics fd = exchange.topics fd ++ [topic] ∧
      next.inbox fd =
        exchange.inbox fd ++
          [.response
            (exchange.handlers.registry.register .subscriber topic fd
              stack).2] := by
  obtain ⟨moved, account, sends⟩ := refines_register settled taken
  obtain ⟨accepted, _, _, _, _, outcome⟩ := Handlers.run_register moved
  obtain ⟨_, answer, _⟩ :=
    Registry.register_table settled.consistent.noneCounted .subscriber topic
      fd stack
  have admittedToo := admitted
  rw [answer] at admittedToo
  have events :
      exchange.handlers.account.events (.register fd .subscriber topic stack) =
        [.subscribe fd topic,
          .tell fd
            (.response
              (exchange.handlers.registry.register .subscriber topic fd
                stack).2)] := by
    rw [answer, Account.events]
    exact congrArg (· ++ _) (if_pos ⟨admittedToo, rfl⟩)
  refine ⟨by rw [stage, accepted]; rfl, ?_, ?_, ?_⟩
  · rcases outcome with ⟨_, serving, _⟩ | ⟨refused, _, _⟩
    · exact ⟨_, serving⟩
    · rw [answer] at refused
      have generated :
          0 ≤ exchange.handlers.registry.table.nextId .subscriber := by
        rw [Registry.nextId_table]
        exact settled.consistent.generated .subscriber
      exact
        absurd admittedToo (Table.register_refused generated refused).2
  · rw [topics, topics, account, Account.subscriptions_turn, events]
    simp [PubSub.change, PubSub.topicsOf]
  · rw [inbox, inbox, sends, events, PubSub.inbox_append]
    simp [PubSub.deliveries, PubSub.copies, PubSub.inbox]

/-- A client that leaves. -/
theorem visit_ends
    {message : ClientMessage} {memory : Memory}
    (settled : exchange.handlers.Settled)
    (admissible : exchange.Admissible (.message fd message memory))
    (taken : exchange.step (.message fd message memory) = some next)
    {member : Member} (serving : exchange.handlers.phase fd = .serving member)
    (leaves : message.action = member.kind.unregisters) :
    next.stage fd = 2 ∧ next.topics fd = [] ∧
      next.inbox fd =
        exchange.inbox fd ++ [.response ⟨.ok, message.id⟩] := by
  obtain ⟨other, alsoServing, moved, account, sends⟩ :=
    refines_message settled admissible taken
  cases serving.symm.trans alsoServing
  rw [ClientMessage.request, if_pos leaves] at moved
  obtain ⟨_, _, _, finished, _, _⟩ := Handlers.run_unregister moved
  have events :
      exchange.handlers.account.events (.message fd message memory) =
        [.leave fd, .tell fd (.response ⟨.ok, message.id⟩)] := by
    rw [Account.events, Account.answer, settled.client_iff.mpr serving]
    exact if_pos leaves
  refine ⟨by rw [stage, finished]; rfl, ?_, ?_⟩
  · rw [topics, account, Account.subscriptions_turn, events]
    exact @PubSub.topicsOf_leave _ _ Packet _ fd _
  · rw [inbox, inbox, sends, events, PubSub.inbox_append]
    simp [PubSub.deliveries, PubSub.copies, PubSub.inbox]

theorem stage_le (exchange : Exchange) (fd : Fd) : exchange.stage fd ≤ 2 := by
  rw [stage]
  cases exchange.handlers.phase fd
  case accepted => exact Nat.zero_le 2
  case finished => exact le_rfl
  all_goals exact Nat.le_succ 1

end Visit

/-- In SECUENCIAL a subscriber is sent the answer to its registration, then what
is published on its topic while it is registered, in that order, then the
answer to its `UNREGISTER`, and nothing else. -/
theorem subscriber_inbox
    {before during after : List Turn} {fd : Fd} {topic : TopicName}
    {stack : Topic} {message : ClientMessage} {memory : Memory}
    {middle registered final : Exchange}
    (admissible :
      Obeys step Admissible initial
        (before ++ (.register fd .subscriber topic stack :: during ++
          .message fd message memory :: after)))
    (earlier : run step initial before = some middle)
    (registers :
      middle.step (.register fd .subscriber topic stack) = some registered)
    (admitted :
      (middle.handlers.registry.register .subscriber topic fd
        stack).2.responseStatus = .ok)
    (leaves : message.action = .unregisterSubscriber)
    (reached :
      run step registered (during ++ .message fd message memory :: after) =
        some final) :
    PubSub.inbox fd final.sends =
      .response
          (middle.handlers.registry.register .subscriber topic fd
            stack).2 ::
        (registered.handlers.account.eventsOf during).filterMap
            (PubSub.published topic) ++
          [.response ⟨.ok, message.id⟩] := by
  obtain ⟨admissibleBefore, admissibleOn⟩ := obeys_append.mp admissible
  have admissibleRegister := admissibleOn middle earlier
  obtain ⟨admissibleDuring, admissibleRest⟩ :=
    obeys_append.mp (admissibleRegister.2 registered registers)
  obtain ⟨late, meanwhile, afterwards⟩ := run_append_eq_some.mp reached
  have admissibleLeave := admissibleRest late meanwhile
  obtain ⟨left, quits, rest⟩ := run_cons_eq_some.mp afterwards
  -- before the registration
  obtain ⟨settled, _, _⟩ :=
    refines_of_run Handlers.settled_initial admissibleBefore earlier
  obtain ⟨fresh, ⟨id, serving⟩, topicsRegistered, inboxRegistered⟩ :=
    visit_begins settled registers admitted
  obtain ⟨topicsBefore, inboxBefore⟩ :=
    inbox_of_stays_outside Handlers.settled_initial admissibleBefore earlier
      fresh rfl
  rw [topicsBefore, List.nil_append] at topicsRegistered
  -- between the registration and the end
  obtain ⟨registeredSettled, _, _⟩ :=
    refines_step settled admissibleRegister.1 registers
  obtain ⟨lateSettled, _, _⟩ :=
    refines_of_run registeredSettled admissibleDuring meanwhile
  obtain ⟨member, lateServing, _⟩ :=
    refines_message lateSettled admissibleLeave.1 quits
  have stays : late.stage fd = registered.stage fd := by
    rw [stage, stage, lateServing, serving]
    rfl
  have samePhase :=
    ((stage_of_run fd registeredSettled admissibleDuring meanwhile).2
      stays).1
  rw [lateServing, serving] at samePhase
  cases samePhase
  have inboxLate :=
    inbox_of_stays_subscribed registeredSettled admissibleDuring meanwhile
      stays topicsRegistered
  -- after the end
  obtain ⟨gone, topicsLeft, inboxLeft⟩ :=
    visit_ends lateSettled admissibleLeave.1 quits lateServing leaves
  obtain ⟨leftSettled, _, _⟩ :=
    refines_step lateSettled admissibleLeave.1 quits
  have notBack :=
    (stage_of_run fd leftSettled (admissibleLeave.2 left quits) rest).1
  obtain ⟨_, inboxFinal⟩ :=
    inbox_of_stays_outside leftSettled (admissibleLeave.2 left quits) rest
      (le_antisymm (gone ▸ stage_le final fd) notBack) topicsLeft
  have whole : final.inbox fd = PubSub.inbox fd final.sends := rfl
  rw [← whole, inboxFinal, inboxLeft, inboxLate, inboxRegistered, inboxBefore]
  rfl

/-- What is published after the subscriber has left does not reach it. -/
theorem subscriber_inbox_oneVisit :
    ∃ final,
      run step initial oneVisit = some final ∧
        PubSub.inbox 4 final.sends =
          [.response ⟨.ok, 1⟩,
            .publish blankMessage.data.timeGeneratedData [],
            .response ⟨.ok, 1⟩] := by
  have admissible :
      Obeys step Admissible initial
        ([] ++ (.register 4 .subscriber topicT (Registry.initial.allTopics 0) ::
          [.register 5 .publisher topicT (Registry.initial.allTopics 0),
            .message 5 ⟨.publishData, topicT, 0, blankMessage.data⟩
              ⟨0, ⟨topicT, 0, 0⟩⟩] ++
          .message 4 ⟨.unregisterSubscriber, topicT, 1, blankMessage.data⟩
              ⟨0, ⟨topicT, 0, 0⟩⟩ ::
            [.message 5 ⟨.publishData, topicT, 0, blankMessage.data⟩
              ⟨0, ⟨topicT, 0, 0⟩⟩])) :=
    oneVisit_admissible
  refine ⟨_, rfl, ?_⟩
  exact subscriber_inbox admissible rfl rfl rfl rfl rfl

end Exchange

end SistemasDistribuidos.Practica4
