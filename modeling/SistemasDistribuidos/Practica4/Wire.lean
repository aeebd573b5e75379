import SistemasDistribuidos.Practica4.Exchange

/-!
# The broker on bytes

The handlers receive 232 bytes and send 8 or 120 of them; in between they read
and write fields, on a stack that holds anything.  What they send can be read
as the packets of the message level, so the bytes carry the publish/subscribe
service of the account.

An id is a C `int`.  Below 2^31 messages no id is too large for it.
-/

namespace SistemasDistribuidos.Practica4

open SistemasDistribuidos SlotArray Machine Layout

/-- What one `recv` of a whole struct brings, and what the locals of its
handler hold before they are written: `new_topic`, `fd_to_del`, `response`, and
the `publish` of each sender. -/
structure Receipt where
  fd : Fd
  message : StructMessage
  newTopic : Topic
  memory : Memory
  response : StructResponse
  publish : Nat → StructPublish

/-- What is given to one `send`. -/
inductive Struct where
  | response (bytes : StructResponse)
  | publish (bytes : StructPublish)

/-- What a client reads of it. -/
def Struct.packet : Struct → Option Packet
  | .response bytes => (StructResponse.response bytes).map .response
  | .publish bytes =>
      some
        (.publish (StructPublish.time bytes)
          (StructPublish.publish bytes).text)

namespace Receipt

/-- As which kind of client a first message registers. -/
def kind (receipt : Receipt) : Option Kind :=
  if StructMessage.action receipt.message =
      Operation.registerSubscriber.code then
    some .subscriber
  else if StructMessage.action receipt.message =
      Operation.registerPublisher.code then
    some .publisher
  else none

/-- The copies of the message, one in the local of each sender. -/
def copies (receipt : Receipt) (text : CString 100) (receivers : List Fd) :
    List (Fd × Struct) :=
  receivers.zipIdx.map
    (fun receiver =>
      (receiver.1,
        .publish
          (StructPublish.fill (receipt.publish receiver.2) text
            (StructMessage.data receipt.message))))

end Receipt

/-- The broker, what it has sent so far, and whose handler has ended although
its client is still registered. -/
structure Wire where
  handlers : Handlers
  sends : List (Fd × Struct)
  ended : Fd → Bool

namespace Wire

/-- `talk_to_client`.  A message that is no registration, or whose topic does
not end, is answered from uninitialised memory. -/
def talkToClient (wire : Wire) (receipt : Receipt) : Option Wire :=
  match receipt.kind, StructMessage.topic receipt.message with
  | some kind, some topic =>
      (Request.step wire.handlers
        (.register receipt.fd kind topic receipt.newTopic)).map
          (fun next =>
            { wire with
              handlers := next
              sends :=
                wire.sends ++
                  [(receipt.fd,
                    .response
                      (StructResponse.store receipt.response
                        (wire.handlers.registry.register kind topic
                          receipt.fd receipt.newTopic).2))] })
  | _, _ => none

/-- What `unregister` or `publish_msg` sends.  `strcpy` does not stop when the
data does not end. -/
def answers (wire : Wire) (receipt : Receipt) (kind : Kind)
    (message : ClientMessage) : Option (List (Fd × Struct)) :=
  if message.action = kind.unregisters then
    let topicId := wire.handlers.registry.getTopicId message.topic
    let shifted :=
      (wire.handlers.registry.allTopics topicId).shiftClientList kind
        message.id receipt.memory
    some
      [(shifted.2,
        .response
          (StructResponse.store receipt.response ⟨.ok, message.id⟩))]
  else if kind = .publisher ∧ message.action = .publishData then
    (string
      (StructPublish.dataField.read
        (StructMessage.data receipt.message))).map
          (fun text =>
            receipt.copies text
              (wire.handlers.registry.receivers message.topic))
  else
    some []

/-- `talk_to_publisher` and `talk_to_subscriber`. -/
def talkTo (wire : Wire) (receipt : Receipt) (kind : Kind) : Option Wire :=
  match StructMessage.message receipt.message with
  | some message =>
      match
        Request.step wire.handlers
          (message.request kind receipt.fd receipt.memory),
        wire.answers receipt kind message with
      | some next, some sends =>
          some
            { handlers := next
              sends := wire.sends ++ sends
              ended :=
                Function.update wire.ended receipt.fd (kind = .subscriber) }
      | _, _ => none
  | none => none

def step (wire : Wire) (receipt : Receipt) : Option Wire :=
  match wire.handlers.phase receipt.fd, wire.ended receipt.fd with
  | .accepted, _ => wire.talkToClient receipt
  | .serving member, false => wire.talkTo receipt member.kind
  | _, _ => none

def initial : Wire where
  handlers := Handlers.initial
  sends := []
  ended := fun _ => false

end Wire

/-! ## The messages in the bytes -/

namespace Receipt

def registration (receipt : Receipt) : Option Turn :=
  match receipt.kind, StructMessage.topic receipt.message with
  | some kind, some topic =>
      some (.register receipt.fd kind topic receipt.newTopic)
  | _, _ => none

def request (receipt : Receipt) : Option Turn :=
  (StructMessage.message receipt.message).map
    (fun message => .message receipt.fd message receipt.memory)

end Receipt

namespace Account

/-- What a receipt is about: the first message of a connection registers a
client. -/
def turnOf (account : Account) (receipt : Receipt) : Option Turn :=
  match account.client receipt.fd with
  | none => receipt.registration
  | some _ => receipt.request

def turns : Account → List Receipt → List Turn
  | _, [] => []
  | account, receipt :: rest =>
      match account.turnOf receipt with
      | some turn => turn :: turns (account.turn turn) rest
      | none => turns account rest

theorem nextId_turn
    {account : Account}
    (generated : ∀ kind, 0 ≤ account.table.nextId kind) (turn : Turn)
    (kind : Kind) :
    (account.turn turn).table.nextId kind ≤
      account.table.nextId kind + 1 := by
  cases turn with
  | register fd asked topic stack =>
      have sameTable :
          (account.turn (.register fd asked topic stack)).table =
            (account.table.register asked topic).1 := by
        rw [Account.turn, Account.register]
        split
        · rfl
        · rfl
      rw [sameTable]
      by_cases refused : (account.table.register asked topic).2.id = -1
      · rw [(Table.register_refused (generated asked) refused).1]
        omega
      · rw [(Table.register_granted refused).2.1 kind]
        split
        · exact le_rfl
        · omega
  | message fd message memory =>
      rw [Account.turn]
      split
      · split
        · exact Int.le_add_one le_rfl
        · exact Int.le_add_one le_rfl
      · exact Int.le_add_one le_rfl

end Account

/-! ## The bytes carry the messages -/

namespace Wire

/-- The packets of the sends. -/
def packets (sends : List (Fd × Struct)) : List (Fd × Option Packet) :=
  sends.map (fun sent => (sent.1, sent.2.packet))

/-- The bytes that have been sent carry what the message level has sent. -/
structure Carries (wire : Wire) (exchange : Exchange) : Prop where
  handlers : wire.handlers = exchange.handlers
  ended : wire.ended = exchange.ended
  sends :
    packets wire.sends =
      exchange.sends.map (fun sent => (sent.1, some sent.2))

/-- No message is too much: clients use their own topics and ids, and no topic
has more subscribers than slots. -/
def Admissible (wire : Wire) (receipt : Receipt) : Prop :=
  ∀ turn, wire.handlers.account.turnOf receipt = some turn →
    Exchange.Admissible ⟨wire.handlers, [], wire.ended⟩ turn

theorem packets_append (first second : List (Fd × Struct)) :
    packets (first ++ second) = packets first ++ packets second :=
  List.map_append

theorem packets_copies
    (receipt : Receipt) (text : CString 100) (receivers : List Fd) :
    packets (receipt.copies text receivers) =
      receivers.map
        (fun fd =>
          (fd,
            some
              (.publish
                (StructPublish.time (StructMessage.data receipt.message))
                text.bytes))) := by
  rw [packets, Receipt.copies, List.map_map]
  have each :
      ∀ receiver : Fd × Nat,
        (receiver.1,
          (Struct.publish
            (StructPublish.fill (receipt.publish receiver.2) text
              (StructMessage.data receipt.message))).packet) =
          (receiver.1,
            some
              (Packet.publish
                (StructPublish.time (StructMessage.data receipt.message))
                text.bytes)) := by
    intro receiver
    obtain ⟨sameTime, sameText⟩ :=
      StructPublish.publish_fill (receipt.publish receiver.2)
        (StructMessage.data receipt.message) text
    rw [Struct.packet, sameTime, sameText]
  have firsts : receivers.zipIdx.map Prod.fst = receivers :=
    List.zipIdx_map_fst 0 receivers
  conv_rhs => rw [← firsts, List.map_map]
  exact List.map_congr_left (fun receiver _ => each receiver)

section Steps

variable {wire next : Wire} {exchange : Exchange} {receipt : Receipt}

theorem fits_register
    {table : Table} {kind : Kind} {topic : TopicName}
    (generated : ∀ other, 0 ≤ table.nextId other)
    (few : table.nextId .subscriber < 2 ^ 31) :
    signed (ofSigned 4 (table.register kind topic).2.id) =
      (table.register kind topic).2.id := by
  by_cases refused : (table.register kind topic).2.id = -1
  · rw [refused]
    decide
  · have lower := generated kind
    have upper : table.nextId kind < 2 ^ 31 := by
      cases kind with
      | publisher =>
          have few := Table.register_granted_publisher refused
          rw [Table.nextId]
          rw [maxPublishers] at few
          omega
      | subscriber => exact few
    rw [(Table.register_granted refused).1]
    apply signed_ofSigned (by decide)
    · simp only
      omega
    · exact upper

theorem carries_talkToClient
    (settled : exchange.handlers.Settled)
    (few : exchange.handlers.account.table.nextId .subscriber < 2 ^ 31)
    (carries : wire.Carries exchange)
    (taken : wire.talkToClient receipt = some next) :
    ∃ turn after,
      receipt.registration = some turn ∧
        exchange.step turn = some after ∧ next.Carries after := by
  rw [talkToClient] at taken
  split at taken
  · rename_i kind topic isKind isTopic
    obtain ⟨later, moved, rfl⟩ := Option.map_eq_some_iff.mp taken
    rw [carries.handlers] at moved
    have stepped :
        exchange.step (.register receipt.fd kind topic receipt.newTopic) =
          some
            { exchange with
              handlers := later
              sends :=
                exchange.sends ++
                  [(receipt.fd,
                    .response
                      (exchange.handlers.registry.register kind topic
                        receipt.fd receipt.newTopic).2)] } := by
      rw [Exchange.step, moved]
      rfl
    refine
      ⟨_, _, by rw [Receipt.registration, isKind, isTopic], stepped, rfl,
        carries.ended, ?_⟩
    obtain ⟨_, answer, _⟩ :=
      Registry.register_table settled.consistent.noneCounted kind topic
        receipt.fd receipt.newTopic
    have fits :
        signed
            (ofSigned 4
              (exchange.handlers.registry.register kind topic receipt.fd
                receipt.newTopic).2.id) =
          (exchange.handlers.registry.register kind topic receipt.fd
            receipt.newTopic).2.id := by
      rw [answer]
      apply fits_register
      · intro other
        rw [Registry.nextId_table]
        exact settled.consistent.generated other
      · exact few
    simp only [packets_append, List.map_append, carries.sends,
      carries.handlers]
    rw [packets, List.map_singleton, List.map_singleton, Struct.packet,
      StructResponse.response_store _ fits]
    rfl
  · cases taken

/-- The packets that a registered client causes. -/
theorem packets_answers
    (carries : wire.Carries exchange) {member : Member}
    {message : ClientMessage} {sends : List (Fd × Struct)}
    (isMessage :
      StructMessage.message receipt.message = some message)
    (answered : wire.answers receipt member.kind message = some sends) :
    packets sends =
      (exchange.handlers.registry.talkTo member.kind message
        receipt.memory).sends.map (fun sent => (sent.1, some sent.2)) := by
  obtain ⟨_, _, isId, isData⟩ := StructMessage.message_eq_some isMessage
  rw [answers, carries.handlers] at answered
  split at answered
  · rename_i leaves
    cases answered
    have fits : signed (ofSigned 4 message.id) = message.id := by
      rw [← isId]
      exact signed_ofSigned_signed _
    have read :
        StructResponse.response
            (StructResponse.store receipt.response ⟨.ok, message.id⟩) =
          some ⟨.ok, message.id⟩ := by
      apply StructResponse.response_store
      exact fits
    rw [packets, List.map_singleton, Struct.packet, read]
    cases kind : member.kind with
    | publisher =>
        rw [kind] at leaves
        rw [Registry.talkTo, Registry.talkToPublisher, leaves]
        rfl
    | subscriber =>
        rw [kind] at leaves
        rw [Registry.talkTo, Registry.talkToSubscriber, leaves]
        rfl
  · rename_i stays
    split at answered
    · rename_i publishes
      obtain ⟨text, isText, rfl⟩ := Option.map_eq_some_iff.mp answered
      rw [packets_copies, publishes.1, Registry.talkTo,
        Registry.talkToPublisher, publishes.2]
      simp only [Registry.publishMsg, List.map_map, ← isData]
      have sameText :
          (StructPublish.publish
            (StructMessage.data receipt.message)).text = text.bytes := by
        rw [string] at isText
        split at isText
        · cases isText
          rfl
        · cases isText
      rw [sameText]
      rfl
    · rename_i silent
      cases answered
      obtain ⟨kind, memberTopic, memberId, memberFd⟩ := member
      obtain ⟨action, topic, id, data⟩ := message
      cases kind with
      | publisher =>
          cases action with
          | unregisterPublisher => exact absurd rfl stays
          | publishData => exact absurd ⟨rfl, rfl⟩ silent
          | _ => rfl
      | subscriber =>
          cases action with
          | unregisterSubscriber => exact absurd rfl stays
          | _ => rfl

theorem carries_talkTo
    (carries : wire.Carries exchange) {member : Member}
    (serving : exchange.handlers.phase receipt.fd = .serving member)
    (here : exchange.ended receipt.fd = false)
    (taken : wire.talkTo receipt member.kind = some next) :
    ∃ turn after,
      receipt.request = some turn ∧
        exchange.step turn = some after ∧ next.Carries after := by
  rw [talkTo] at taken
  split at taken
  · rename_i message isMessage
    split at taken
    · rename_i later sends moved answered
      cases taken
      rw [carries.handlers] at moved
      have stepped :
          exchange.step (.message receipt.fd message receipt.memory) =
            some
              { handlers := later
                sends :=
                  exchange.sends ++
                    (exchange.handlers.registry.talkTo member.kind message
                      receipt.memory).sends
                ended :=
                  Function.update exchange.ended receipt.fd
                    (member.kind = .subscriber) } := by
        rw [Exchange.step, serving, here]
        simp only [moved]
        rfl
      refine
        ⟨_, _, by rw [Receipt.request, isMessage]; rfl, stepped, rfl,
          by simp only [carries.ended], ?_⟩
      simp only [packets_append, List.map_append, carries.sends]
      rw [packets_answers carries isMessage answered]
    · cases taken
  · cases taken

/-- Every step on bytes is the step on messages that its account tells. -/
theorem carries_step
    (settled : exchange.handlers.Settled)
    (few : exchange.handlers.account.table.nextId .subscriber < 2 ^ 31)
    (carries : wire.Carries exchange)
    (taken : wire.step receipt = some next) :
    ∃ turn after,
      exchange.handlers.account.turnOf receipt = some turn ∧
        exchange.step turn = some after ∧ next.Carries after := by
  rw [step, carries.handlers, carries.ended] at taken
  split at taken
  · rename_i accepted
    have unknown :
        exchange.handlers.account.client receipt.fd = none := by
      by_contra known
      obtain ⟨member, isClient⟩ := Option.ne_none_iff_exists'.mp known
      have serving := settled.client_iff.mp isClient
      rw [accepted] at serving
      cases serving
    rw [Account.turnOf, unknown]
    exact carries_talkToClient settled few carries taken
  · rename_i member serving here
    rw [Account.turnOf, settled.client_iff.mpr serving]
    exact carries_talkTo carries serving here taken
  · cases taken

theorem carries_of_run :
    ∀ {receipts : List Receipt} {wire final : Wire} {exchange : Exchange},
      exchange.handlers.Settled →
        exchange.handlers.account.table.nextId .subscriber +
            receipts.length ≤ 2 ^ 31 →
          wire.Carries exchange →
            Obeys step Admissible wire receipts →
              run step wire receipts = some final →
                ∃ after,
                  Obeys Exchange.step Exchange.Admissible exchange
                      (exchange.handlers.account.turns receipts) ∧
                    run Exchange.step exchange
                        (exchange.handlers.account.turns receipts) =
                      some after ∧
                    final.Carries after
  | [], wire, final, exchange, _, _, carries, _, reached => by
      cases reached
      exact ⟨exchange, trivial, rfl, carries⟩
  | receipt :: rest, wire, final, exchange, settled, few, carries,
      admissible, reached => by
      rw [List.length_cons] at few
      push_cast at few
      obtain ⟨next, taken, onwards⟩ := run_cons_eq_some.mp reached
      obtain ⟨turn, after, isTurn, moved, nextCarries⟩ :=
        carries_step settled (by omega) carries taken
      have allowed : exchange.Admissible turn := by
        have told := admissible.1 turn (by rw [carries.handlers, isTurn])
        rw [carries.handlers] at told
        cases turn with
        | register fd kind topic stack => exact told
        | message fd message memory => exact told
      obtain ⟨afterSettled, account, _⟩ :=
        Exchange.refines_step settled allowed moved
      have generated :
          ∀ kind, 0 ≤ exchange.handlers.account.table.nextId kind := by
        intro kind
        have same :
            exchange.handlers.account.table =
              exchange.handlers.registry.table :=
          rfl
        rw [same, Registry.nextId_table]
        exact settled.consistent.generated kind
      have taken := Account.nextId_turn generated turn .subscriber
      rw [← account] at taken
      obtain ⟨last, obeyed, arrived, lastCarries⟩ :=
        carries_of_run afterSettled (by omega) nextCarries
          (admissible.2 next ‹_›) onwards
      have turns :
          exchange.handlers.account.turns (receipt :: rest) =
            turn :: after.handlers.account.turns rest := by
        rw [Account.turns, isTurn, account]
      rw [turns]
      exact
        ⟨last, Obeys.cons moved allowed obeyed,
          run_cons_eq_some.mpr ⟨after, moved, arrived⟩, lastCarries⟩

end Steps

/-- The structs that the broker sends in SECUENCIAL in answer to fewer than 2^31
structs are those of a publish/subscribe service, whatever is on the stacks of
its handlers. -/
theorem packets_of_service
    {receipts : List Receipt} {final : Wire}
    (admissible : Obeys step Admissible initial receipts)
    (few : receipts.length < 2 ^ 31)
    (reached : run step initial receipts = some final) :
    packets final.sends =
      (PubSub.deliveries []
        (Account.empty.eventsOf (Account.empty.turns receipts))).map
          (fun sent => (sent.1, some sent.2)) := by
  obtain ⟨after, obeyed, arrived, carries⟩ :=
    carries_of_run Handlers.settled_initial
      (by
        have start :
            Exchange.initial.handlers.account.table.nextId .subscriber = 1 :=
          rfl
        rw [start]
        omega)
      (⟨rfl, rfl, rfl⟩ : initial.Carries Exchange.initial) admissible reached
  obtain ⟨_, _, sends⟩ :=
    Exchange.refines_of_run Handlers.settled_initial obeyed arrived
  rw [carries.sends, sends]
  rfl

/-- A struct that arrives at a handler with bytes on its stack. -/
def sampleReceipt (fd : Fd) (message : StructMessage) : Receipt where
  fd := fd
  message := message
  newTopic := Registry.initial.allTopics 0
  memory := ⟨0, ⟨topicT, 0, 0⟩⟩
  response := ⟨List.replicate 8 255, by decide⟩
  publish := fun _ => ⟨List.replicate 120 255, by decide⟩

/-- A subscriber and a publisher register, the publisher publishes, and the
subscriber leaves. -/
def shortVisit : List Receipt :=
  [sampleReceipt 4
      (StructMessage.registration (sampleMessage true) .subscriber topicT),
    sampleReceipt 5
      (StructMessage.registration (sampleMessage true) .publisher topicT),
    sampleReceipt 5
      (StructMessage.setTopic
        (StructMessage.setData (sampleMessage true) samplePublish) topicT),
    sampleReceipt 4
      (StructMessage.unregistration (sampleMessage true) .subscriber topicT
        1)]

theorem shortVisit_admissible :
    Obeys step Admissible initial shortVisit := by
  refine
    Obeys.cons rfl ?_
      (Obeys.cons rfl ?_ (Obeys.cons rfl ?_ (Obeys.cons rfl ?_ trivial)))
  · intro turn isTurn
    cases isTurn
    refine ⟨trivial, ?_⟩
    intro next taken
    cases taken
    exact Exchange.within_of_short (by decide +kernel)
  · intro turn isTurn
    cases isTurn
    refine ⟨trivial, ?_⟩
    intro next taken
    cases taken
    exact Exchange.within_of_short (by decide +kernel)
  · intro turn isTurn
    cases isTurn
    intro member serving
    cases serving
    refine ⟨fun _ _ => by decide +kernel, trivial, ?_⟩
    intro next taken
    cases taken
    exact Exchange.within_of_short (by decide +kernel)
  · intro turn isTurn
    cases isTurn
    intro member serving
    cases serving
    refine ⟨nofun, ?_, ?_⟩
    · intro member serving
      cases serving
      exact ⟨rfl, rfl⟩
    · intro next taken
      cases taken
      exact Exchange.within_of_short (by decide +kernel)

theorem packets_of_service_shortVisit :
    ∃ final,
      run step initial shortVisit = some final ∧
        packets final.sends =
          [(4, some (.response ⟨.ok, 1⟩)), (5, some (.response ⟨.ok, 0⟩)),
            (4, some (.publish ⟨0, 0⟩ [])),
            (4, some (.response ⟨.ok, 1⟩))] := by
  refine ⟨_, rfl, ?_⟩
  rw [packets_of_service shortVisit_admissible (by decide) rfl]
  decide +kernel

end Wire

end SistemasDistribuidos.Practica4
