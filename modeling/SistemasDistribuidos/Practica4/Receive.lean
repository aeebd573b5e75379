import SistemasDistribuidos.Library.Framing

/-!
# Messages on a connection

A `struct message` takes 232 bytes and a `struct publish` 120, and both are
sent as they lie in memory.  `talk_to_publisher` and `transfer_subscriber` call
`recv` once for each struct, into a buffer that keeps what is not overwritten,
and look at its result only when it is negative.

Two things follow.  When a publisher closes its connection without an
`UNREGISTER`, `recv` returns 0 for ever and the last message is handled again
and again.  And when `recv` returns less than a struct, the receiver acts on a
struct that nobody sent.
-/

namespace SistemasDistribuidos.Practica4

open SistemasDistribuidos Framing

/-- `enum operations`. -/
inductive Operation where
  | registerPublisher
  | unregisterPublisher
  | registerSubscriber
  | unregisterSubscriber
  | publishData
  deriving DecidableEq

def Operation.code : Operation → Nat
  | .registerPublisher => 0
  | .unregisterPublisher => 1
  | .registerSubscriber => 2
  | .unregisterSubscriber => 3
  | .publishData => 4

/-- A `struct message` as it lies in memory. -/
abbrev StructMessage := Frame UInt8 232

/-- A `struct publish` as it lies in memory. -/
abbrev StructPublish := Frame UInt8 120

/-- An unsigned integer, least significant byte first. -/
def littleEndian (bytes : List UInt8) : Nat :=
  bytes.foldr (fun byte value => byte.toNat + 256 * value) 0

/-- The field `action`. -/
def StructMessage.action (message : StructMessage) : Nat :=
  littleEndian (message.bytes.take 4)

/-- The loop of `talk_to_publisher`: the messages on which it calls
`unregister` or `publish_msg`.  After `unregister` its thread exits. -/
def talkToPublisher (message : StructMessage) :
    List (Chunk UInt8 232) → List StructMessage
  | [] => []
  | chunk :: rest =>
      let received : StructMessage := message.overlay chunk
      if StructMessage.action received =
          Operation.unregisterPublisher.code then
        [received]
      else if StructMessage.action received =
          Operation.publishData.code then
        received :: talkToPublisher received rest
      else
        talkToPublisher received rest

/-- The loop of `transfer_subscriber`: the structs that it prints. -/
def transferSubscriber (publish : StructPublish) :
    List (Chunk UInt8 120) → List StructPublish :=
  seen publish

/-- The messages on which `publish_msg` is called. -/
def published (message : StructMessage) (chunks : List (Chunk UInt8 232)) :
    List StructMessage :=
  (talkToPublisher message chunks).filter
    (fun received =>
      StructMessage.action received = Operation.publishData.code)

/-- What a publisher sends once it is registered: data, and possibly an
`UNREGISTER`. -/
structure Sends (data : List StructMessage)
    (ending : Option StructMessage) : Prop where
  data : ∀ message ∈ data,
    StructMessage.action message = Operation.publishData.code
  ending : ∀ message, ending = some message →
    StructMessage.action message = Operation.unregisterPublisher.code

/-- The first results of `recv` when whole messages arrive and the connection
is then closed. -/
def results (data : List StructMessage) (ending : Option StructMessage)
    (iterations : Nat) : List (Chunk UInt8 232) :=
  ((data ++ ending.toList).take iterations).map Frame.chunk ++
    List.replicate (iterations - (data ++ ending.toList).length) .nothing

section Loop

variable {data : List StructMessage} {ending : Option StructMessage}

theorem talkToPublisher_cons
    {message received : StructMessage} {chunk : Chunk UInt8 232}
    (overlaid : message.overlay chunk = received)
    (rest : List (Chunk UInt8 232)) :
    talkToPublisher message (chunk :: rest) =
      if StructMessage.action received =
          Operation.unregisterPublisher.code then
        [received]
      else if StructMessage.action received =
          Operation.publishData.code then
        received :: talkToPublisher received rest
      else
        talkToPublisher received rest := by
  subst overlaid
  rfl

theorem talkToPublisher_data
    (message : StructMessage)
    (onlyData : ∀ sent ∈ data,
      StructMessage.action sent = Operation.publishData.code)
    (rest : List (Chunk UInt8 232)) :
    talkToPublisher message (data.map Frame.chunk ++ rest) =
      data ++ talkToPublisher (data.getLast?.getD message) rest := by
  induction data generalizing message with
  | nil => rfl
  | cons first others inductionHypothesis =>
      have isData := onlyData first List.mem_cons_self
      rw [List.map_cons, List.cons_append,
        talkToPublisher_cons (message.overlay_chunk first), isData,
        if_neg (by decide), if_pos rfl,
        inductionHypothesis first
          (fun sent listed => onlyData sent (List.mem_cons_of_mem _ listed)),
        List.getLast?_cons]
      rfl

theorem talkToPublisher_unregister
    (message : StructMessage) {unregister : StructMessage}
    (isUnregister :
      StructMessage.action unregister =
        Operation.unregisterPublisher.code)
    (rest : List (Chunk UInt8 232)) :
    talkToPublisher message (unregister.chunk :: rest) = [unregister] := by
  rw [talkToPublisher_cons (message.overlay_chunk unregister),
    if_pos isUnregister]

/-- At the end of the stream, data in the buffer is published each time. -/
theorem published_nothing
    (message : StructMessage) (times : Nat) :
    published message (List.replicate times .nothing) =
      if StructMessage.action message = Operation.publishData.code then
        List.replicate times message
      else [] := by
  induction times with
  | zero => simp [published, talkToPublisher]
  | succ times inductionHypothesis =>
      rw [published] at inductionHypothesis
      rw [List.replicate_succ, published,
        talkToPublisher_cons message.overlay_nothing]
      by_cases isData :
          StructMessage.action message = Operation.publishData.code
      · have notUnregister :
            StructMessage.action message ≠
              Operation.unregisterPublisher.code := by
          rw [isData]
          decide
        rw [if_pos isData] at inductionHypothesis
        rw [if_neg notUnregister, if_pos isData, if_pos isData,
          List.filter_cons, if_pos (decide_eq_true isData),
          inductionHypothesis, List.replicate_succ]
      · rw [if_neg isData] at inductionHypothesis
        rw [if_neg isData, if_neg isData]
        split
        · exact List.filter_cons_of_neg (by simpa using isData)
        · exact inductionHypothesis

theorem filter_data
    (onlyData : ∀ sent ∈ data,
      StructMessage.action sent = Operation.publishData.code) :
    data.filter
        (fun received =>
          StructMessage.action received = Operation.publishData.code) =
      data :=
  List.filter_eq_self.mpr
    (fun sent listed => decide_eq_true (onlyData sent listed))

theorem published_data
    (message : StructMessage)
    (onlyData : ∀ sent ∈ data,
      StructMessage.action sent = Operation.publishData.code)
    (rest : List (Chunk UInt8 232)) :
    published message (data.map Frame.chunk ++ rest) =
      data ++ published (data.getLast?.getD message) rest := by
  rw [published, talkToPublisher_data message onlyData,
    List.filter_append, filter_data onlyData]
  rfl

/-- What is published is what was sent, for any number of iterations, exactly
when the publisher unregisters before it closes its connection, the end of the
stream has not been read, or there is nothing to repeat. -/
theorem published_eq_iff
    (sends : Sends data ending) (message : StructMessage)
    (iterations : Nat) :
    published message (results data ending iterations) =
        data.take iterations ↔
      ending.isSome ∨ iterations ≤ data.length ∨
        (data = [] ∧
          StructMessage.action message ≠ Operation.publishData.code) := by
  by_cases early : iterations ≤ data.length
  · have onlyData : ∀ sent ∈ data.take iterations,
        StructMessage.action sent = Operation.publishData.code :=
      fun sent listed => sends.data sent (List.mem_of_mem_take listed)
    have noEnd : iterations - (data ++ ending.toList).length = 0 := by
      rw [List.length_append]
      omega
    rw [results, List.take_append_of_le_length early, noEnd,
      published_data message onlyData]
    simp [early, published, talkToPublisher]
  · have allData : data.take iterations = data :=
      List.take_of_length_le (by omega)
    rw [allData, results]
    cases ending with
    | some unregister =>
        have isUnregister := sends.ending unregister rfl
        rw [List.take_of_length_le
            (by simp only [Option.toList_some, List.length_append,
              List.length_singleton]; omega),
          List.map_append, List.append_assoc, published_data message
            sends.data]
        simp only [Option.toList_some, List.map_cons, List.map_nil,
          List.cons_append, List.nil_append]
        rw [published, talkToPublisher_unregister _ isUnregister]
        simp [isUnregister, Operation.code]
    | none =>
        obtain ⟨more, positive⟩ :
            ∃ more, iterations - data.length = more + 1 :=
          ⟨iterations - data.length - 1, by omega⟩
        simp only [Option.toList_none, List.append_nil]
        rw [allData, positive, published_data message sends.data,
          published_nothing]
        rcases List.eq_nil_or_concat data with rfl | ⟨front, last, rfl⟩
        · have later : iterations ≠ 0 := by
            intro equal
            subst equal
            exact early (Nat.zero_le _)
          by_cases isData :
              StructMessage.action message = Operation.publishData.code
          · simp [isData, later, List.replicate_succ]
          · simp [isData]
        · have isData := sends.data last (by simp)
          have later : ¬ iterations ≤ front.length + 1 := by
            simpa using early
          simp [isData, later, List.replicate_succ]

end Loop

/-- A `PUBLISH_DATA` message without its last byte. -/
def sampleFront : List UInt8 :=
  [4, 0, 0, 0] ++ List.replicate 227 0

theorem length_sampleFront : sampleFront.length = 231 := by
  rw [sampleFront, List.length_append, List.length_replicate]
  rfl

/-- Two `PUBLISH_DATA` messages that differ in their last byte. -/
def sampleMessage (odd : Bool) : StructMessage :=
  ⟨sampleFront ++ [if odd then 1 else 0], by
    rw [List.length_append, length_sampleFront]
    rfl⟩

/-- An `UNREGISTER` message. -/
def sampleUnregister : StructMessage :=
  ⟨[1, 0, 0, 0] ++ List.replicate 228 0, by
    rw [List.length_append, List.length_replicate]
    rfl⟩

theorem published_eq_iff_one :
    published sampleUnregister
        (results [sampleMessage false] (some sampleUnregister) 5) =
      [sampleMessage false] :=
  have sends : Sends [sampleMessage false] (some sampleUnregister) :=
    ⟨by decide +kernel, by decide +kernel⟩
  (published_eq_iff sends sampleUnregister 5).mpr (Or.inl rfl)

/-- A publisher sends one message and closes its connection. -/
theorem published_twice :
    Sends [sampleMessage false] none ∧
      published sampleUnregister (results [sampleMessage false] none 2) =
        [sampleMessage false, sampleMessage false] :=
  ⟨⟨by decide +kernel, by decide +kernel⟩, by decide +kernel⟩

/-! ## Results of `recv` that are not whole structs -/

theorem talkToPublisher_whole
    {data : List StructMessage} {ending : Option StructMessage}
    (sends : Sends data ending) (message : StructMessage) :
    talkToPublisher message
        ((data ++ ending.toList).map Frame.chunk) =
      data ++ ending.toList := by
  rw [List.map_append, talkToPublisher_data message sends.data]
  cases ending with
  | none => rfl
  | some unregister =>
      simp only [Option.toList_some, List.map_cons, List.map_nil]
      rw [talkToPublisher_unregister _ (sends.ending unregister rfl)]

/-- Data messages that differ in turn. -/
def sampleMessages (odd : Bool) : Nat → List StructMessage
  | 0 => []
  | number + 1 => sampleMessage odd :: sampleMessages (!odd) number

@[simp]
theorem length_sampleMessages (odd : Bool) (number : Nat) :
    (sampleMessages odd number).length = number := by
  induction number generalizing odd with
  | zero => rfl
  | succ number inductionHypothesis =>
      rw [sampleMessages, List.length_cons, inductionHypothesis]

theorem action_sampleMessage (odd : Bool) :
    StructMessage.action (sampleMessage odd) =
      Operation.publishData.code :=
  rfl

theorem action_sampleMessages (odd : Bool) (number : Nat) :
    ∀ message ∈ sampleMessages odd number,
      StructMessage.action message = Operation.publishData.code := by
  induction number generalizing odd with
  | zero => simp [sampleMessages]
  | succ number inductionHypothesis =>
      intro message listed
      rcases List.mem_cons.mp listed with rfl | later
      · exact action_sampleMessage odd
      · exact inductionHypothesis (!odd) message later

theorem sampleMessage_ne (odd : Bool) :
    sampleMessage (!odd) ≠ sampleMessage odd := by
  intro same
  have lastBytes :=
    List.append_cancel_left (congrArg Frame.bytes same)
  cases odd <;> simp at lastBytes

/-- A part of one sample leaves the other one in the buffer as it was. -/
theorem overlay_sampleMessage
    (odd : Bool) {available : Nat} (short : available < 232)
    (rest : List UInt8) :
    (sampleMessage (!odd)).overlay
        (.front available ((sampleMessage odd).bytes ++ rest)) =
      sampleMessage (!odd) := by
  have least : min available 232 = available := by omega
  have inside : available ≤ sampleFront.length := by
    rw [length_sampleFront]
    omega
  have same :
      ((sampleMessage odd).bytes ++ rest).take available =
        (sampleMessage (!odd)).bytes.take available := by
    simp only [sampleMessage, List.append_assoc]
    rw [List.take_append_of_le_length inside,
      List.take_append_of_le_length inside]
  ext1
  simp only [Frame.overlay, Chunk.front, least, same]
  rw [List.length_take, (sampleMessage (!odd)).length_bytes, least]
  exact List.take_append_drop _ _

/-- On these samples the loop goes wrong at the first result that is not a
whole message. -/
theorem whole_of_sampleMessages
    {lengths : List Nat} {number : Nat} (odd : Bool)
    (isCut : IsCut 232 lengths (232 * number))
    (same :
      talkToPublisher (sampleMessage (!odd))
          (cut lengths (stream (sampleMessages odd number))) =
        sampleMessages odd number) :
    ∀ length ∈ lengths, length = 232 := by
  induction lengths generalizing number odd with
  | nil => simp
  | cons length rest inductionHypothesis =>
      have positive := isCut.positive length List.mem_cons_self
      have bounded := isCut.bounded length List.mem_cons_self
      have complete := isCut.complete
      rw [List.sum_cons] at complete
      obtain ⟨fewer, rfl⟩ : ∃ fewer, number = fewer + 1 :=
        ⟨number - 1, by omega⟩
      rw [sampleMessages, stream_cons] at same
      by_cases whole : length = 232
      · subst whole
        rw [cut_cons_whole,
          talkToPublisher_cons
            ((sampleMessage (!odd)).overlay_chunk _),
          action_sampleMessage, if_neg (by decide), if_pos rfl] at same
        have later := (List.cons.inj same).2
        intro other listed
        rcases List.mem_cons.mp listed with rfl | inRest
        · rfl
        · have shifted :
              IsCut 232 (232 :: rest) (232 + 232 * fewer) := by
            rw [Nat.add_comm]
            exact isCut
          refine inductionHypothesis (!odd) shifted.tail ?_ other inRest
          rw [Bool.not_not]
          exact later
      · rw [cut,
          talkToPublisher_cons
            (overlay_sampleMessage odd (by omega) _),
          action_sampleMessage, if_neg (by decide), if_pos rfl] at same
        exact absurd (List.cons.inj same).1 (sampleMessage_ne odd)

/-- The receivers act on the structs that were sent exactly when every `recv`
returns a whole one: `transfer_subscriber` for any given structs, and
`talk_to_publisher` for all that its publisher may send. -/
theorem framed_iff
    {sent : List StructPublish} {publishLengths : List Nat}
    (publishCut : IsCut 120 publishLengths (120 * sent.length))
    (publish : StructPublish)
    {number : Nat} {lengths : List Nat}
    (isCut : IsCut 232 lengths (232 * number)) :
    (transferSubscriber publish (cut publishLengths (stream sent)) = sent ↔
        ∀ length ∈ publishLengths, length = 120) ∧
      ((∀ (message : StructMessage) (data : List StructMessage)
          (ending : Option StructMessage),
        Sends data ending →
          (data ++ ending.toList).length = number →
            talkToPublisher message
                (cut lengths (stream (data ++ ending.toList))) =
              data ++ ending.toList) ↔
        ∀ length ∈ lengths, length = 232) := by
  refine ⟨seen_cut_eq_iff (by decide) publish sent publishCut, ?_⟩
  constructor
  · intro always
    have sends : Sends (sampleMessages false number) none :=
      ⟨action_sampleMessages false number, by simp⟩
    have same := always (sampleMessage true) _ none sends (by simp)
    simp only [Option.toList_none, List.append_nil] at same
    exact whole_of_sampleMessages false isCut same
  · intro whole message data ending sends amount
    rw [cut_stream _ whole, talkToPublisher_whole sends]
    rw [amount]
    exact isCut.length_eq (by decide) whole

/-- A `struct publish` of zeros. -/
def samplePublish : StructPublish :=
  ⟨List.replicate 120 0, List.length_replicate⟩

/-- Whole structs in both directions. -/
theorem framed_iff_two :
    transferSubscriber samplePublish
          (cut [120] (stream [samplePublish])) = [samplePublish] ∧
      talkToPublisher sampleUnregister
          (cut [232, 232]
            (stream [sampleMessage true, sampleUnregister])) =
        [sampleMessage true, sampleUnregister] := by
  have sends : Sends [sampleMessage true] (some sampleUnregister) :=
    ⟨by decide +kernel, by decide +kernel⟩
  have publishCut : IsCut 120 [120] (120 * [samplePublish].length) :=
    ⟨by decide, by decide, by decide⟩
  have isCut : IsCut 232 [232, 232] (232 * 2) :=
    ⟨by decide, by decide, by decide⟩
  obtain ⟨subscriber, publisher⟩ :=
    framed_iff publishCut samplePublish isCut
  exact
    ⟨subscriber.mpr (by decide),
      publisher.mpr (by decide) sampleUnregister _ _ sends rfl⟩

/-- The first `recv` returns four bytes of a message, and the rest of the
buffer is taken for the rest of the message. -/
theorem framing_lost :
    Sends [sampleMessage true] none ∧
      IsCut 232 [4, 228] (232 * 1) ∧
      talkToPublisher sampleUnregister
          (cut [4, 228] (stream [sampleMessage true])) =
        [sampleMessage false] ∧
      sampleMessage false ≠ sampleMessage true :=
  ⟨⟨by decide +kernel, by decide +kernel⟩,
    ⟨by decide, by decide, by decide⟩, by decide +kernel,
    sampleMessage_ne true⟩

end SistemasDistribuidos.Practica4
