import SistemasDistribuidos.Practica4.Traffic

/-!
# How clients behave

What the broker takes for granted of its clients their code does: a client
names the topic that it was started with and the id that it was given, and
publishes only when it has been admitted as a publisher.  For each place at
which a client can stand it is said what its handler has seen of it and what it
can read.
-/

namespace SistemasDistribuidos.Practica4

open SistemasDistribuidos Machine

/-- A handler has answered a registration, and goes on with the client or has
ended. -/
def Answers (options : Options) (fd : Fd) (response : Response)
    (phase : Phase) : Prop :=
  response.responseStatus = .ok ∧
      phase =
        .serving ⟨options.clientType, options.clientTopic, response.id, fd⟩ ∨
    response.responseStatus ≠ .ok ∧ phase = .finished

/-- What the broker can rely on: besides what it needs for its arrays, that
only publishers send `PUBLISH_DATA`. -/
def Exchange.Conducted (exchange : Exchange) (turn : Turn) : Prop :=
  exchange.Admissible turn ∧
    ∀ fd content memory member, turn = .message fd content memory →
      content.action = .publishData →
        exchange.handlers.phase fd = .serving member →
          member.kind = .publisher

/-! ## What a message changes for a connection -/

namespace Exchange

section Effects

variable {exchange next : Exchange} {fd : Fd}

theorem inbox_send_self (fd : Fd) (packet : Packet) :
    PubSub.inbox fd [(fd, packet)] = [packet] := by
  simp [PubSub.inbox]

theorem inbox_send_of_ne
    {other : Fd} (different : other ≠ fd) (packet : Packet) :
    PubSub.inbox other [(fd, packet)] = [] := by
  simp [PubSub.inbox, different.symm]

/-- What has been sent stays sent. -/
theorem inbox_prefix
    {turn : Turn} (taken : exchange.step turn = some next) (fd : Fd) :
    exchange.inbox fd <+: next.inbox fd := by
  obtain ⟨more, sends⟩ : ∃ more, next.sends = exchange.sends ++ more := by
    cases turn with
    | register other kind topic stack =>
        obtain ⟨later, _, rfl⟩ := Option.map_eq_some_iff.mp taken
        exact ⟨_, rfl⟩
    | message other message memory =>
        simp only [step] at taken
        split at taken
        · obtain ⟨later, _, rfl⟩ := Option.map_eq_some_iff.mp taken
          exact ⟨_, rfl⟩
        · cases taken
  rw [inbox, inbox, sends, PubSub.inbox_append]
  exact List.prefix_append _ _

theorem register_effect
    {kind : Kind} {topic : TopicName} {stack : Topic}
    (settled : exchange.handlers.Settled)
    (taken : exchange.step (.register fd kind topic stack) = some next) :
    exchange.handlers.phase fd = .accepted ∧ next.ended = exchange.ended ∧
      (∀ other, other ≠ fd →
        next.handlers.phase other = exchange.handlers.phase other ∧
          next.inbox other = exchange.inbox other) ∧
      next.inbox fd =
        exchange.inbox fd ++
          [.response
            (exchange.handlers.registry.register kind topic fd stack).2] ∧
      Answers ⟨kind, topic⟩ fd
        (exchange.handlers.registry.register kind topic fd stack).2
        (next.handlers.phase fd) := by
  obtain ⟨later, moved, rfl⟩ := Option.map_eq_some_iff.mp taken
  obtain ⟨accepted, _, _, _, others, outcome⟩ := Handlers.run_register moved
  obtain ⟨_, answer, _⟩ :=
    Registry.register_table settled.consistent.noneCounted kind topic fd stack
  refine ⟨accepted, rfl, ?_, ?_, ?_⟩
  · intro other different
    refine ⟨others other different, ?_⟩
    rw [inbox, inbox, PubSub.inbox_append, inbox_send_of_ne different,
      List.append_nil]
  · rw [inbox, inbox, PubSub.inbox_append, inbox_send_self]
  · rcases outcome with ⟨granted, serving, _⟩ | ⟨refused, finished, _⟩
    · refine Or.inl ⟨?_, serving⟩
      rw [answer] at granted ⊢
      rw [(Table.register_granted granted).1]
    · refine Or.inr ⟨?_, finished⟩
      have generated :
          0 ≤ exchange.handlers.registry.table.nextId kind := by
        rw [Registry.nextId_table]
        exact settled.consistent.generated kind
      rw [answer] at refused ⊢
      exact (Table.register_refused generated refused).2

section Messages

variable {member : Member} {message : ClientMessage} {memory : Memory}

/-- Only a handler that serves its client receives a message. -/
theorem serving_of_message
    (taken : exchange.step (.message fd message memory) = some next) :
    ∃ member, exchange.handlers.phase fd = .serving member := by
  simp only [step] at taken
  split at taken
  · rename_i member serving _
    exact ⟨member, serving⟩
  · cases taken

theorem unregister_effect
    (settled : exchange.handlers.Settled)
    (serving : exchange.handlers.phase fd = .serving member)
    (leaves : message.action = member.kind.unregisters)
    (topic : message.topic = member.topic) (id : message.id = member.id)
    (taken : exchange.step (.message fd message memory) = some next) :
    next.handlers.phase fd = .finished ∧
      next.inbox fd =
        exchange.inbox fd ++ [.response ⟨.ok, member.id⟩] ∧
      next.handlers.roster =
        exchange.handlers.roster.filter (fun other => other.fd ≠ fd) ∧
      ∀ other, other ≠ fd →
        next.handlers.phase other = exchange.handlers.phase other ∧
          next.inbox other = exchange.inbox other ∧
          next.ended other = exchange.ended other := by
  simp only [step, serving] at taken
  split at taken
  · rename_i isServing _
    cases isServing
    obtain ⟨later, moved, rfl⟩ := Option.map_eq_some_iff.mp taken
    rw [ClientMessage.request, if_pos leaves] at moved
    obtain ⟨_, _, _, finished, others, enrolled⟩ :=
      Handlers.run_unregister moved
    have sends :
        (exchange.handlers.registry.talkTo member.kind message
          memory).sends = [(fd, .response ⟨.ok, member.id⟩)] := by
      rw [← settled.sends_unregister serving memory, ← topic, ← id]
      cases kind : member.kind with
      | publisher =>
          rw [kind] at leaves
          rw [Registry.talkTo, Registry.talkToPublisher, leaves]
          rfl
      | subscriber =>
          rw [kind] at leaves
          rw [Registry.talkTo, Registry.talkToSubscriber, leaves]
          rfl
    refine ⟨finished, ?_, enrolled, ?_⟩
    · rw [inbox, inbox, sends, PubSub.inbox_append, inbox_send_self]
    · intro other different
      refine ⟨others other different, ?_, Function.update_of_ne different _ _⟩
      rw [inbox, inbox, sends, PubSub.inbox_append,
        inbox_send_of_ne different, List.append_nil]
  · cases taken

/-- Who has subscribed to a topic is a subscriber of that topic. -/
theorem serving_of_mem_topics
    (settled : exchange.handlers.Settled) {topic : TopicName}
    (subscribed : topic ∈ exchange.topics fd) :
    ∃ subscriber,
      exchange.handlers.phase fd = .serving subscriber ∧
        subscriber.kind = .subscriber ∧ subscriber.topic = topic := by
  simp only [topics, PubSub.topicsOf, Account.subscriptions, List.mem_map,
    List.mem_filter] at subscribed
  obtain ⟨_, ⟨⟨subscriber, ⟨enrolled, isSubscriber⟩, rfl⟩, isIts⟩, rfl⟩ :=
    subscribed
  have its : subscriber.fd = fd := of_decide_eq_true isIts
  refine ⟨subscriber, ?_, of_decide_eq_true isSubscriber, rfl⟩
  rw [← its]
  exact (settled.mem_roster subscriber).mp enrolled

theorem publish_effect
    (settled : exchange.handlers.Settled)
    (serving : exchange.handlers.phase fd = .serving member)
    (isPublisher : member.kind = .publisher)
    (publishes : message.action = .publishData)
    (topic : message.topic = member.topic)
    (taken : exchange.step (.message fd message memory) = some next) :
    next.handlers = exchange.handlers ∧
      (∀ other, next.ended other = true → exchange.ended other = true) ∧
      ∀ other,
        next.inbox other = exchange.inbox other ∨
          ∃ subscriber count,
            exchange.handlers.phase other = .serving subscriber ∧
              subscriber.kind = .subscriber ∧
              subscriber.topic = message.topic ∧
              next.inbox other =
                exchange.inbox other ++
                  List.replicate count
                    (.publish message.data.timeGeneratedData
                      message.data.text) := by
  simp only [step, serving] at taken
  split at taken
  · rename_i isServing _
    cases isServing
    obtain ⟨later, moved, rfl⟩ := Option.map_eq_some_iff.mp taken
    have stays : message.action ≠ member.kind.unregisters := by
      rw [publishes, isPublisher]
      decide
    rw [ClientMessage.request, if_neg stays] at moved
    have unmoved : exchange.handlers = later := Option.some.inj moved
    have known : message.topic ∈ exchange.handlers.registry.table.names := by
      rw [topic]
      apply settled.consistent.holds.known _ member.kind
      exact
        List.ne_nil_of_mem
          (mem_membersOf.mpr
            ⟨member,
              ((settled.consistent.present fd member).mp
                (by rw [serving]; rfl)).1,
              rfl, rfl, rfl⟩)
    have sends :
        (exchange.handlers.registry.talkTo member.kind message
            memory).sends =
          PubSub.copies exchange.handlers.account.subscriptions
            (.publish message.topic
              (.publish message.data.timeGeneratedData
                message.data.text)) := by
      rw [isPublisher, Registry.talkTo, Registry.talkToPublisher, publishes]
      exact settled.sends_publish known
    refine ⟨unmoved.symm, ?_, ?_⟩
    · intro other hasEnded
      by_cases same : other = fd
      · simp [same, isPublisher] at hasEnded
      · simpa [same] using hasEnded
    intro other
    by_cases subscribed : message.topic ∈ exchange.topics other
    · obtain ⟨subscriber, isServing, isSubscriber, itsTopic⟩ :=
        serving_of_mem_topics settled subscribed
      refine
        Or.inr
          ⟨subscriber, (exchange.topics other).count message.topic, isServing,
            isSubscriber, itsTopic, ?_⟩
      rw [inbox, inbox, sends, PubSub.inbox_append, PubSub.inbox_publish]
      rfl
    · left
      rw [inbox, inbox, sends, PubSub.inbox_append, PubSub.inbox_publish]
      have none :
          (PubSub.topicsOf other
            exchange.handlers.account.subscriptions).count message.topic =
              0 :=
        List.count_eq_zero.mpr subscribed
      rw [none, List.replicate_zero, List.append_nil]
  · cases taken

end Messages

end Effects

end Exchange

namespace Handlers

section Within

variable {handlers next : Handlers}

theorem within_initial : initial.Within :=
  fun _ => Nat.zero_le _

/-- Fewer clients need no more room. -/
theorem Within.of_filter
    (within : handlers.Within) {keeps : Member → Bool}
    (fewer : next.roster = handlers.roster.filter keeps) : next.Within := by
  intro name
  have kept := within name
  rw [membersOf, List.length_map] at kept ⊢
  rw [fewer]
  exact
    (List.Sublist.length_le (List.filter_sublist.filter _)).trans kept

end Within

end Handlers

/-! ## A client and its handler -/

/-- Copies of messages, no responses. -/
def Copies (packets : List Packet) : Prop :=
  ∀ packet ∈ packets, ∃ time text, packet = .publish time text

/-- A client may send this: a `PUBLISH_DATA` on its topic, or its
`UNREGISTER`. -/
def Options.Sends (options : Options) (message : ClientMessage) : Prop :=
  message.topic = options.clientTopic ∧
    (options.clientType = .publisher ∧ message.action = .publishData ∨
      message.action = options.clientType.unregisters)

/-- Only a publisher publishes. -/
theorem Options.Sends.isPublisher
    {options : Options} {message : ClientMessage}
    (sends : options.Sends message)
    (publishes : message.action = .publishData) :
    options.clientType = .publisher := by
  rcases sends.2 with ⟨isPublisher, _⟩ | leaves
  · exact isPublisher
  · rw [publishes] at leaves
    cases kind : options.clientType with
    | publisher => rfl
    | subscriber =>
        rw [kind] at leaves
        cases leaves

/-- How a client and its handler stand to each other, and where they are: the
phase of the handler, the `client_id` and the place of the client, and what the
client has sent and the handler has not received.  Of the packets that have
been sent to the client it has read some and printed some. -/
inductive Standing (options : Options) (fd : Fd) (inbox : List Packet)
    (received : Nat) (screen : List Packet) :
    Phase → Int → Place → List ClientMessage → Prop where
  | applying {clientId : Int} (empty : inbox = []) (unread : received = 0)
      (blank : screen = []) :
      Standing options fd inbox received screen .accepted clientId
        .registering []
  | answered {phase : Phase} {clientId : Int} (response : Response)
      (copies : List Packet) (answers : Answers options fd response phase)
      (arrived : inbox = .response response :: copies)
      (onlyCopies : Copies copies) (unread : received = 0)
      (blank : screen = []) :
      Standing options fd inbox received screen phase clientId
        .registering []
  | responded {phase : Phase} {clientId : Int} (response : Response)
      (copies : List Packet) (answers : Answers options fd response phase)
      (arrived : inbox = .response response :: copies)
      (onlyCopies : Copies copies) (read : received = 1)
      (blank : screen = []) :
      Standing options fd inbox received screen phase clientId
        (.responded response.responseStatus.code response.id) []
  | identified {phase : Phase} (response : Response) (copies : List Packet)
      (answers : Answers options fd response phase)
      (arrived : inbox = .response response :: copies)
      (onlyCopies : Copies copies) (read : received = 1)
      (blank : screen = []) :
      Standing options fd inbox received screen phase response.id
        (.identified response.responseStatus.code) []
  | exited {clientId : Int} (blank : screen = []) :
      Standing options fd inbox received screen .finished clientId
        .exited []
  | transferring {clientId : Int} {outgoing : List ClientMessage}
      (copies : List Packet)
      (publishes : ∀ message ∈ outgoing,
        options.clientType = .publisher ∧
          message.topic = options.clientTopic ∧
          message.action = .publishData)
      (arrived : inbox = .response ⟨.ok, clientId⟩ :: (screen ++ copies))
      (onlyCopies : Copies (screen ++ copies))
      (read : received = screen.length + 1) :
      Standing options fd inbox received screen
        (.serving ⟨options.clientType, options.clientTopic, clientId, fd⟩)
        clientId .transferring outgoing
  | waiting {clientId : Int} {outgoing : List ClientMessage}
      (sends : ∀ message ∈ outgoing,
        options.Sends message ∧
          (message.action = options.clientType.unregisters →
            message.id = clientId))
      (asked : ∃ message ∈ outgoing,
        message.action = options.clientType.unregisters)
      (shown : .response ⟨.ok, clientId⟩ :: screen <+: inbox)
      (within : received ≤ inbox.length)
      (onlyCopies : Copies (inbox.drop received)) :
      Standing options fd inbox received screen
        (.serving ⟨options.clientType, options.clientTopic, clientId, fd⟩)
        clientId .waiting outgoing
  | leaving {clientId : Int} {outgoing : List ClientMessage}
      (response : Response) (shown : .response response :: screen <+: inbox)
      (ends :
        response.responseStatus = .ok →
          ∃ copies id,
            inbox.drop received = copies ++ [.response ⟨.ok, id⟩] ∧
              Copies copies) :
      Standing options fd inbox received screen .finished clientId .waiting
        outgoing
  | left {clientId : Int} {outgoing : List ClientMessage}
      (response : Response)
      (shown : .response response :: screen <+: inbox) :
      Standing options fd inbox received screen .finished clientId .reported
        outgoing

namespace Copies

theorem append
    {first second : List Packet} (firstCopies : Copies first)
    (secondCopies : Copies second) : Copies (first ++ second) := by
  intro packet listed
  rcases List.mem_append.mp listed with here | there
  · exact firstCopies packet here
  · exact secondCopies packet there

theorem replicate (count : Nat) (time : Timespec) (text : List UInt8) :
    Copies (List.replicate count (.publish time text)) :=
  fun _ listed => ⟨time, text, List.eq_of_mem_replicate listed⟩

theorem drop
    {packets : List Packet} (copies : Copies packets) (count : Nat) :
    Copies (packets.drop count) :=
  fun packet listed => copies packet (List.mem_of_mem_drop listed)

theorem not_response
    {packets rest : List Packet} {response : Response}
    (copies : Copies packets) : packets ≠ .response response :: rest := by
  intro isFirst
  subst isFirst
  obtain ⟨time, text, impossible⟩ := copies _ List.mem_cons_self
  cases impossible

end Copies

theorem Status.code_ok {status : Status} :
    status.code = Status.ok.code ↔ status = .ok := by
  cases status <;> decide

namespace Answers

variable {options : Options} {fd : Fd} {response : Response} {phase : Phase}

theorem not_accepted
    (answers : Answers options fd response phase) : phase ≠ .accepted := by
  rcases answers with ⟨_, rfl⟩ | ⟨_, rfl⟩
  · exact nofun
  · exact nofun

theorem serving
    (answers : Answers options fd response phase)
    (admitted : response.responseStatus = .ok) :
    phase =
      .serving ⟨options.clientType, options.clientTopic, response.id, fd⟩ := by
  rcases answers with ⟨_, isServing⟩ | ⟨refused, _⟩
  · exact isServing
  · exact absurd admitted refused

/-- A client that is served has been admitted. -/
theorem admitted
    {member : Member}
    (answers : Answers options fd response (.serving member)) :
    response.responseStatus = .ok ∧
      member =
        ⟨options.clientType, options.clientTopic, response.id, fd⟩ := by
  rcases answers with ⟨isOk, isServing⟩ | ⟨_, impossible⟩
  · cases isServing
    exact ⟨isOk, rfl⟩
  · cases impossible

theorem finished
    (answers : Answers options fd response phase)
    (refused : response.responseStatus ≠ .ok) : phase = .finished := by
  rcases answers with ⟨admitted, _⟩ | ⟨_, isFinished⟩
  · exact absurd admitted refused
  · exact isFinished

end Answers

namespace Standing

section Moves

variable {options : Options} {fd : Fd} {phase : Phase} {clientId : Int}
  {place : Place} {outgoing : List ClientMessage} {inbox : List Packet}
  {received : Nat} {screen : List Packet}

/-! ### The broker's side -/

/-- The registration is answered. -/
theorem enroll
    (standing :
      Standing options fd inbox received screen .accepted clientId place
        outgoing)
    {response : Response} {next : Phase}
    (answers : Answers options fd response next) :
    Standing options fd (inbox ++ [.response response]) received screen next
      clientId place outgoing := by
  cases standing with
  | applying empty unread blank =>
      exact
        .answered response [] answers (by rw [empty]; rfl) nofun unread blank
  | answered _ _ earlier => exact absurd rfl earlier.not_accepted
  | responded _ _ earlier => exact absurd rfl earlier.not_accepted
  | identified _ _ earlier => exact absurd rfl earlier.not_accepted

/-- Copies of a message are sent to a client. -/
theorem hear
    {member : Member}
    (standing :
      Standing options fd inbox received screen (.serving member) clientId
        place outgoing)
    (count : Nat) (time : Timespec) (text : List UInt8) :
    Standing options fd
      (inbox ++ List.replicate count (.publish time text)) received screen
      (.serving member) clientId place outgoing := by
  have more := Copies.replicate count time text
  cases standing with
  | answered response copies answers arrived onlyCopies unread blank =>
      exact
        .answered response _ answers (by rw [arrived, List.cons_append])
          (onlyCopies.append more) unread blank
  | responded response copies answers arrived onlyCopies read blank =>
      exact
        .responded response _ answers (by rw [arrived, List.cons_append])
          (onlyCopies.append more) read blank
  | identified response copies answers arrived onlyCopies read blank =>
      exact
        .identified response _ answers (by rw [arrived, List.cons_append])
          (onlyCopies.append more) read blank
  | transferring copies publishes arrived onlyCopies read =>
      refine
        .transferring (copies ++ List.replicate count (.publish time text))
          publishes ?_ ?_ read
      · rw [arrived, List.cons_append, List.append_assoc]
      · rw [← List.append_assoc]
        exact onlyCopies.append more
  | waiting sends asked shown within onlyCopies =>
      refine
        .waiting sends asked (shown.trans (List.prefix_append _ _)) ?_ ?_
      · rw [List.length_append]
        exact Nat.le_add_right_of_le within
      · rw [List.drop_append_of_le_length within]
        exact onlyCopies.append more

/-- A client that is served is known as what it was started as. -/
theorem serves
    {member : Member}
    (standing :
      Standing options fd inbox received screen (.serving member) clientId
        place outgoing) :
    member.kind = options.clientType ∧ member.topic = options.clientTopic ∧
      member.fd = fd := by
  have known {response : Response}
      (answers : Answers options fd response (.serving member)) :
      member.kind = options.clientType ∧
        member.topic = options.clientTopic ∧ member.fd = fd := by
    rw [answers.admitted.2]
    exact ⟨rfl, rfl, rfl⟩
  cases standing with
  | answered _ _ answers => exact known answers
  | responded _ _ answers => exact known answers
  | identified _ _ answers => exact known answers
  | transferring => exact ⟨rfl, rfl, rfl⟩
  | waiting => exact ⟨rfl, rfl, rfl⟩

section Handled

variable {member : Member} {message : ClientMessage}
  {rest : List ClientMessage}

/-- What a client has sent while its handler serves it. -/
theorem conduct
    (standing :
      Standing options fd inbox received screen (.serving member) clientId
        place (message :: rest)) :
    member = ⟨options.clientType, options.clientTopic, clientId, fd⟩ ∧
      options.Sends message ∧
        (message.action = options.clientType.unregisters →
          message.id = clientId) := by
  cases standing with
  | transferring _ publishes =>
      obtain ⟨isPublisher, topic, action⟩ :=
        publishes message List.mem_cons_self
      refine ⟨rfl, ⟨topic, Or.inl ⟨isPublisher, action⟩⟩, ?_⟩
      intro leaves
      rw [action, isPublisher] at leaves
      cases leaves
  | waiting sends =>
      exact ⟨rfl, sends message List.mem_cons_self⟩

/-- The handler has received a message, and serves the client on. -/
theorem handled
    (standing :
      Standing options fd inbox received screen (.serving member) clientId
        place (message :: rest))
    (stays : message.action ≠ options.clientType.unregisters) :
    Standing options fd inbox received screen (.serving member) clientId
      place rest := by
  cases standing with
  | transferring copies publishes arrived onlyCopies read =>
      exact
        .transferring copies
          (fun other listed =>
            publishes other (List.mem_cons_of_mem _ listed))
          arrived onlyCopies read
  | waiting sends asked shown within onlyCopies =>
      refine
        .waiting
          (fun other listed => sends other (List.mem_cons_of_mem _ listed))
          ?_ shown within onlyCopies
      obtain ⟨other, listed, leaves⟩ := asked
      rcases List.mem_cons.mp listed with rfl | later
      · exact absurd leaves stays
      · exact ⟨other, later, leaves⟩

/-- The handler has received the `UNREGISTER`. -/
theorem unregistered
    (standing :
      Standing options fd inbox received screen (.serving member) clientId
        place (message :: rest))
    (leaves : message.action = options.clientType.unregisters) (id : Int) :
    Standing options fd (inbox ++ [.response ⟨.ok, id⟩]) received screen
      .finished clientId place rest := by
  cases standing with
  | transferring _ publishes =>
      obtain ⟨isPublisher, _, action⟩ :=
        publishes message List.mem_cons_self
      rw [action, isPublisher] at leaves
      cases leaves
  | waiting _ _ shown within onlyCopies =>
      refine
        .leaving ⟨.ok, clientId⟩ (shown.trans (List.prefix_append _ _)) ?_
      intro _
      exact ⟨_, id, List.drop_append_of_le_length within, onlyCopies⟩

end Handled

/-! ### The client's side -/

/-- The first packet that a client reads is the answer to its
registration. -/
theorem receive
    (standing :
      Standing options fd inbox received screen phase clientId .registering
        outgoing)
    {packet : Packet} {rest : List Packet}
    (unread : inbox.drop received = packet :: rest) :
    ∃ response,
      packet = .response response ∧
        Standing options fd inbox (received + 1) screen phase clientId
          (.responded response.responseStatus.code response.id)
          outgoing := by
  cases standing with
  | applying empty =>
      rw [empty, List.drop_nil] at unread
      cases unread
  | answered response copies answers arrived onlyCopies none blank =>
      rw [none, List.drop_zero, arrived] at unread
      exact
        ⟨response, (List.cons.inj unread).1.symm,
          .responded response copies answers arrived onlyCopies
            (by rw [none]) blank⟩

/-- It stores the id. -/
theorem identify
    {responseStatus id : Int}
    (standing :
      Standing options fd inbox received screen phase clientId
        (.responded responseStatus id) outgoing) :
    Standing options fd inbox received screen phase id
      (.identified responseStatus) outgoing := by
  cases standing with
  | responded response copies answers arrived onlyCopies read blank =>
      exact
        .identified response copies answers arrived onlyCopies read blank

/-- It begins the transfer if it has been admitted. -/
theorem start
    {responseStatus : Int}
    (standing :
      Standing options fd inbox received screen phase clientId
        (.identified responseStatus) outgoing) :
    Standing options fd inbox received screen phase clientId
      (if responseStatus = Status.ok.code then .transferring else .exited)
      outgoing := by
  cases standing with
  | identified response copies answers arrived onlyCopies read blank =>
      split
      · rename_i admitted
        rw [Status.code_ok] at admitted
        rw [answers.serving admitted]
        subst blank
        refine .transferring copies nofun ?_ onlyCopies read
        obtain ⟨status, id⟩ := response
        cases admitted
        exact arrived
      · rename_i refused
        rw [Status.code_ok] at refused
        rw [answers.finished refused]
        exact .exited blank

/-- A publisher sends a message on its topic. -/
theorem publish
    (standing :
      Standing options fd inbox received screen phase clientId .transferring
        outgoing)
    (isPublisher : options.clientType = .publisher) (id : Int)
    (data : Publish) :
    Standing options fd inbox received screen phase clientId .transferring
      (outgoing ++ [⟨.publishData, options.clientTopic, id, data⟩]) := by
  cases standing with
  | transferring copies publishes arrived onlyCopies read =>
      refine .transferring copies ?_ arrived onlyCopies read
      intro message listed
      rcases List.mem_append.mp listed with earlier | last
      · exact publishes message earlier
      · cases List.mem_singleton.mp last
        exact ⟨isPublisher, rfl, rfl⟩

/-- A subscriber prints the next copy. -/
theorem transfer
    (standing :
      Standing options fd inbox received screen phase clientId .transferring
        outgoing)
    {packet : Packet} {rest : List Packet}
    (unread : inbox.drop received = packet :: rest) :
    Standing options fd inbox (received + 1) (screen ++ [packet]) phase
      clientId .transferring outgoing := by
  cases standing with
  | transferring copies publishes arrived onlyCopies read =>
      rw [arrived, read, List.drop_succ_cons, List.drop_left] at unread
      subst unread
      refine .transferring rest publishes ?_ ?_ ?_
      · rw [arrived, List.append_assoc, List.singleton_append]
      · rw [List.append_assoc, List.singleton_append]
        exact onlyCopies
      · rw [read, List.length_append, List.length_singleton]

/-- `SIGINT`, when `client_id` has been stored. -/
theorem sigint
    (standing :
      Standing options fd inbox received screen phase clientId place
        outgoing)
    (stored : place.stored = true) {message : ClientMessage}
    (leaves : message.action = options.clientType.unregisters)
    (topic : message.topic = options.clientTopic)
    (id : message.id = clientId) :
    Standing options fd inbox received screen phase clientId .waiting
      (outgoing ++ [message]) := by
  have sends : options.Sends message := ⟨topic, Or.inr leaves⟩
  cases standing with
  | applying => cases stored
  | answered => cases stored
  | responded => cases stored
  | exited => cases stored
  | waiting => cases stored
  | leaving => cases stored
  | left => cases stored
  | identified response copies answers arrived onlyCopies read blank =>
      have shown : .response response :: screen <+: inbox := by
        rw [arrived, blank]
        exact ⟨copies, rfl⟩
      by_cases admitted : response.responseStatus = .ok
      · rw [answers.serving admitted]
        obtain ⟨status, responseId⟩ := response
        cases admitted
        refine .waiting ?_ ⟨message, List.mem_singleton_self _, leaves⟩
          shown ?_ ?_
        · intro other listed
          cases List.mem_singleton.mp listed
          exact ⟨sends, fun _ => id⟩
        · rw [read, arrived]
          exact Nat.le_add_left 1 _
        · rw [read, arrived]
          exact onlyCopies
      · rw [answers.finished admitted]
        exact .leaving response shown (fun ok => absurd ok admitted)
  | transferring copies publishes arrived onlyCopies read =>
      refine
        .waiting ?_
          ⟨message, List.mem_append_right _ (List.mem_singleton_self _),
            leaves⟩
          ?_ ?_ ?_
      · intro other listed
        rcases List.mem_append.mp listed with earlier | last
        · obtain ⟨isPublisher, topic, action⟩ := publishes other earlier
          refine ⟨⟨topic, Or.inl ⟨isPublisher, action⟩⟩, ?_⟩
          intro leaves
          rw [action, isPublisher] at leaves
          cases leaves
        · cases List.mem_singleton.mp last
          exact ⟨sends, fun _ => id⟩
      · rw [arrived]
        exact ⟨copies, rfl⟩
      · rw [read, arrived, List.length_cons, List.length_append]
        omega
      · rw [read, arrived, List.drop_succ_cons]
        exact onlyCopies.drop _

/-- `sighandler` goes on: it has read a part of a copy, or all of it, and has
sent its `UNREGISTER` again. -/
theorem poll
    (standing :
      Standing options fd inbox received screen phase clientId .waiting
        outgoing)
    {packet : Packet} {rest : List Packet}
    (unread : inbox.drop received = packet :: rest) {last : Nat}
    (reads : last = received ∨ last = received + 1)
    (notOk : ∀ id, packet ≠ .response ⟨.ok, id⟩) {message : ClientMessage}
    (sends : options.Sends message) (id : message.id = clientId) :
    Standing options fd inbox last screen phase clientId .waiting
      (outgoing ++ [message]) := by
  have more : inbox.drop (received + 1) = rest := by
    rw [← List.drop_drop, unread, List.drop_succ_cons, List.drop_zero]
  have inside : received < inbox.length := by
    by_contra beyond
    rw [List.drop_eq_nil_of_le (Nat.le_of_not_lt beyond)] at unread
    cases unread
  cases standing with
  | waiting earlier asked shown within onlyCopies =>
      obtain ⟨request, isListed, leaves⟩ := asked
      refine
        .waiting ?_ ⟨request, List.mem_append_left _ isListed, leaves⟩ shown
          ?_ ?_
      · intro other listed
        rcases List.mem_append.mp listed with before | isLast
        · exact earlier other before
        · cases List.mem_singleton.mp isLast
          exact ⟨sends, fun _ => id⟩
      · omega
      · rcases reads with rfl | rfl
        · exact onlyCopies
        · rw [← List.drop_drop]
          exact onlyCopies.drop 1
  | leaving response shown ends =>
      refine .leaving response shown ?_
      intro admitted
      obtain ⟨copies, responseId, left, onlyCopies⟩ := ends admitted
      rcases reads with rfl | rfl
      · exact ⟨copies, responseId, left, onlyCopies⟩
      · rw [unread] at left
        cases copies with
        | nil => exact absurd (List.cons.inj left).1 (notOk responseId)
        | cons first later =>
            refine
              ⟨later, responseId, ?_,
                fun other listed =>
                  onlyCopies other (List.mem_cons_of_mem _ listed)⟩
            rw [more]
            exact (List.cons.inj left).2

/-- `sighandler` has read `OK`: the handler has ended. -/
theorem report
    (standing :
      Standing options fd inbox received screen phase clientId .waiting
        outgoing)
    {response : Response} {rest : List Packet}
    (unread : inbox.drop received = .response response :: rest) :
    Standing options fd inbox (received + 1) screen phase clientId .reported
      outgoing := by
  cases standing with
  | waiting _ _ _ _ onlyCopies =>
      exact absurd unread onlyCopies.not_response
  | leaving first shown => exact .left first shown

/-! ### What follows for each place -/

/-- A client that transfers data is served, and has read what it has
printed. -/
theorem transferring_served
    (standing :
      Standing options fd inbox received screen phase clientId .transferring
        outgoing) :
    phase =
        .serving ⟨options.clientType, options.clientTopic, clientId, fd⟩ ∧
      inbox =
        .response ⟨.ok, clientId⟩ :: (screen ++ inbox.drop received) := by
  cases standing with
  | transferring copies _ arrived _ read =>
      refine ⟨rfl, ?_⟩
      rw [read, arrived, List.drop_succ_cons, List.drop_left]

/-- A client that has come to its end is served no more. -/
theorem gone
    (standing :
      Standing options fd inbox received screen phase clientId place
        outgoing)
    (ended : place = .exited ∨ place = .reported) : phase = .finished := by
  rcases ended with rfl | rfl
  · cases standing with
    | exited => rfl
  · cases standing with
    | left => rfl

/-- An interrupted client that had been admitted has sent something to its
handler, or something is on its way to it. -/
theorem pending
    (standing :
      Standing options fd inbox received screen phase clientId .waiting
        outgoing)
    {id : Int} (admitted : inbox.head? = some (.response ⟨.ok, id⟩)) :
    (∃ member message rest,
        phase = .serving member ∧ outgoing = message :: rest) ∨
      ∃ packet rest, inbox.drop received = packet :: rest := by
  cases standing with
  | waiting _ asked =>
      obtain ⟨message, listed, _⟩ := asked
      obtain ⟨first, rest, isCons⟩ :=
        List.exists_cons_of_ne_nil (List.ne_nil_of_mem listed)
      exact Or.inl ⟨_, first, rest, rfl, isCons⟩
  | leaving response shown ends =>
      obtain ⟨more, rfl⟩ := shown
      cases admitted
      obtain ⟨copies, answer, left, _⟩ := ends rfl
      right
      apply List.exists_cons_of_ne_nil
      rw [left]
      exact List.append_ne_nil_of_right_ne_nil _ (List.cons_ne_nil _ _)

/-- Whatever a client prints has been sent to it. -/
theorem mem_inbox
    (standing :
      Standing options fd inbox received screen phase clientId place
        outgoing)
    {packet : Packet} (printed : packet ∈ screen) : packet ∈ inbox := by
  have blank (none : screen = []) : packet ∈ inbox := by
    rw [none] at printed
    cases printed
  cases standing with
  | applying _ _ none => exact blank none
  | answered _ _ _ _ _ _ none => exact blank none
  | responded _ _ _ _ _ _ none => exact blank none
  | identified _ _ _ _ _ _ none => exact blank none
  | exited none => exact blank none
  | transferring _ _ arrived =>
      rw [arrived]
      exact List.mem_cons_of_mem _ (List.mem_append_left _ printed)
  | waiting _ _ shown => exact shown.subset (List.mem_cons_of_mem _ printed)
  | leaving _ shown => exact shown.subset (List.mem_cons_of_mem _ printed)
  | left _ shown => exact shown.subset (List.mem_cons_of_mem _ printed)

end Moves

end Standing

end SistemasDistribuidos.Practica4
