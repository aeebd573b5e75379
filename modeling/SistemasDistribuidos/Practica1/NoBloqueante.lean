import SistemasDistribuidos.Practica1.Simple

/-!
# The chat that does not block

The client and the server of the version with `select`.  They send as the
simple ones do; `receive_message` looks for half a second whether something has
arrived, and reads one message if it has.  So a side reads at most one message
for each line of its own, and nobody waits for the other side.

A message that has been sent may still be on its way, so `select` may time out
at any moment.  The model ends when a side has no more lines, as with the
simple chat.
-/

namespace SistemasDistribuidos.Practica1.NoBloqueante

open SistemasDistribuidos Machine Framing Stdio Simple

inductive Action where
  /-- `send_message`. -/
  | send (side : Side)
  /-- `receive_message`; `ready` is `FD_ISSET` of the socket. -/
  | receive (side : Side) (ready : Bool)
  deriving DecidableEq

def Action.side : Action → Side
  | .send side => side
  | .receive side _ => side

/-- What can be seen of a step. -/
inductive Event where
  | sends (side : Side)
  | prints (side : Side) (text : List UInt8)
  deriving DecidableEq

/-- `send_message` and `receive_message` take turns on both sides. -/
def step (chat : Chat) : Action → Option Chat
  | .send side =>
      match (chat.parties side).phase, (chat.parties side).sendMessage with
      | .sending, some (party, bytes) =>
          some
            (chat.move side party side.other
              (chat.arriving side.other ++ bytes))
      | _, _ => none
  | .receive side true =>
      match (chat.parties side).phase,
        (chat.parties side).receiveMessage (chat.arriving side) with
      | .receiving, some (party, later) =>
          some (chat.move side party side later)
      | _, _ => none
  | .receive side false =>
      match (chat.parties side).phase with
      | .receiving =>
          some
            (chat.move side { chat.parties side with phase := .sending } side
              (chat.arriving side))
      | .sending => none

def observe (_ : Chat) (action : Action) (next : Chat) : List Event :=
  match action with
  | .send side => [.sends side]
  | .receive side true =>
      [.prints side (CString.ofBuffer (next.parties side).inBuffer.bytes)]
  | .receive _ false => []

/-- The client begins with `send_message`, the server with
`receive_message`. -/
def initial (outBuffers inBuffers : Side → Buffer)
    (lines : Side → List (Line bufferSize)) : Chat where
  parties := fun side =>
    { phase :=
        match side with
        | .client => .sending
        | .server => .receiving
      stdin := (lines side).flatMap Line.bytes
      outBuffer := outBuffers side
      inBuffer := inBuffers side }
  arriving := fun _ => []

/-- How many messages a side has sent. -/
def sends (side : Side) (events : List Event) : Nat :=
  events.count (.sends side)

/-- What a side has printed. -/
def screen (side : Side) (events : List Event) : List (List UInt8) :=
  events.filterMap fun event =>
    match event with
    | .prints other text => if other = side then some text else none
    | .sends _ => none

/-- How many messages a side may read before it sends its first one. -/
def lead : Side → Nat
  | .client => 0
  | .server => 1

section Counts

variable {side other : Side} (events : List Event) (text : List UInt8)

@[simp]
theorem sends_send_self :
    sends side (events ++ [.sends side]) = sends side events + 1 := by
  simp [sends]

@[simp]
theorem sends_send_of_ne (different : other ≠ side) :
    sends side (events ++ [.sends other]) = sends side events := by
  simp [sends, different]

@[simp]
theorem sends_prints :
    sends side (events ++ [.prints other text]) = sends side events := by
  simp [sends]

@[simp]
theorem screen_send :
    screen side (events ++ [.sends other]) = screen side events := by
  simp [screen]

@[simp]
theorem screen_prints_self :
    screen side (events ++ [.prints side text]) =
      screen side events ++ [text] := by
  simp [screen]

@[simp]
theorem screen_prints_of_ne (different : other ≠ side) :
    screen side (events ++ [.prints other text]) = screen side events := by
  simp [screen, different]

end Counts

/-- Bytes that are on their way are the messages of these lines. -/
def Carries : List (Line bufferSize) → List UInt8 → Prop
  | [], bytes => bytes = []
  | line :: rest, bytes =>
      ∃ outBuffer more,
        bytes = sent outBuffer line ++ more ∧ Carries rest more

theorem Carries.snoc
    {lines : List (Line bufferSize)} {bytes : List UInt8}
    (carries : Carries lines bytes) (outBuffer : Buffer)
    (line : Line bufferSize) :
    Carries (lines ++ [line]) (bytes ++ sent outBuffer line) := by
  induction lines generalizing bytes with
  | nil =>
      cases carries
      exact ⟨outBuffer, [], (List.append_nil _).symm, rfl⟩
  | cons first rest inductionHypothesis =>
      obtain ⟨firstBuffer, more, rfl, later⟩ := carries
      exact
        ⟨firstBuffer, more ++ sent outBuffer line, List.append_assoc _ _ _,
          inductionHypothesis later⟩

/-- How far the chat has come. -/
structure Follows (lines : Side → List (Line bufferSize))
    (inBuffers : Side → Buffer) (events : List Event) (chat : Chat) :
    Prop where
  stdin : ∀ side,
    (chat.parties side).stdin =
      ((lines side).drop (sends side events)).flatMap Line.bytes
  typed : ∀ side, sends side events ≤ (lines side).length
  shows : ∀ side,
    screen side events =
      ((lines side.other).take (screen side events).length).map
        (fun line => shown line (inBuffers side))
  carries : ∀ side,
    Carries
      (((lines side.other).take (sends side.other events)).drop
        (screen side events).length)
      (chat.arriving side)
  order : ∀ side,
    (screen side events).length ≤ sends side.other events
  pace : ∀ side,
    (screen side events).length +
        (if (chat.parties side).phase = .receiving then 1 else 0) ≤
      sends side events + lead side
  buffers : ∀ side,
    (chat.parties side).inBuffer.bytes.drop pointerSize =
      (inBuffers side).bytes.drop pointerSize

section Steps

variable {lines : Side → List (Line bufferSize)} {inBuffers : Side → Buffer}
  {events : List Event} {chat next : Chat} {side : Side}

theorem follows_initial (outBuffers : Side → Buffer) :
    Follows lines inBuffers [] (initial outBuffers inBuffers lines) where
  stdin := fun _ => rfl
  typed := fun _ => Nat.zero_le _
  shows := fun _ => rfl
  carries := fun _ => rfl
  order := fun _ => Nat.zero_le _
  pace := by
    intro side
    cases side with
    | client => exact Nat.le_refl 0
    | server => exact Nat.le_refl 1
  buffers := fun _ => rfl

/-- A side that types nothing leaves what is before it. -/
theorem Follows.stdin_move
    (follows : Follows lines inBuffers events chat) {party : Party}
    {reader : Side} {bytes : List UInt8}
    (same : party.stdin = (chat.parties side).stdin) (other : Side) :
    ((chat.move side party reader bytes).parties other).stdin =
      ((lines other).drop (sends other events)).flatMap Line.bytes := by
  rcases other.eq_or_eq_other side with rfl | rfl
  · rw [Chat.parties_move_self, same]
    exact follows.stdin _
  · rw [Chat.parties_move_of_ne _ _ _ side.other_ne]
    exact follows.stdin _

/-- Nobody writes behind the size of a pointer. -/
theorem Follows.buffers_move
    (follows : Follows lines inBuffers events chat) {party : Party}
    {reader : Side} {bytes : List UInt8}
    (same :
      party.inBuffer.bytes.drop pointerSize =
        (chat.parties side).inBuffer.bytes.drop pointerSize)
    (other : Side) :
    ((chat.move side party reader bytes).parties
        other).inBuffer.bytes.drop pointerSize =
      (inBuffers other).bytes.drop pointerSize := by
  rcases other.eq_or_eq_other side with rfl | rfl
  · rw [Chat.parties_move_self, same]
    exact follows.buffers _
  · rw [Chat.parties_move_of_ne _ _ _ side.other_ne]
    exact follows.buffers _

/-- What is typed next. -/
theorem Follows.next_line
    (follows : Follows lines inBuffers events chat)
    (typed : (chat.parties side).stdin ≠ []) :
    ∃ line rest,
      (lines side).drop (sends side events) = line :: rest ∧
        (chat.parties side).stdin =
          line.bytes ++ rest.flatMap Line.bytes := by
  have stdin := follows.stdin side
  cases left : (lines side).drop (sends side events) with
  | nil =>
      rw [left] at stdin
      exact absurd stdin typed
  | cons line rest =>
      rw [left] at stdin
      exact ⟨line, rest, rfl, stdin⟩

/-- One line further. -/
theorem take_succ_of_drop
    {all rest : List (Line bufferSize)} {line : Line bufferSize}
    {count : Nat} (left : all.drop count = line :: rest) :
    count < all.length ∧ all.drop (count + 1) = rest ∧
      all.take (count + 1) = all.take count ++ [line] := by
  have inside : count < all.length := by
    by_contra beyond
    rw [List.drop_eq_nil_of_le (Nat.le_of_not_lt beyond)] at left
    cases left
  rw [List.drop_eq_getElem_cons inside] at left
  obtain ⟨rfl, later⟩ := List.cons.inj left
  exact
    ⟨inside, later, (List.take_append_getElem inside).symm⟩

/-- `send_message` sends the next line. -/
theorem Follows.send_eq
    (follows : Follows lines inBuffers events chat)
    (taken : step chat (.send side) = some next) :
    (chat.parties side).phase = .sending ∧
      ∃ line rest,
        (lines side).drop (sends side events) = line :: rest ∧
          next =
            chat.move side
              { chat.parties side with
                phase := .receiving
                stdin := rest.flatMap Line.bytes
                outBuffer :=
                  (chat.parties side).outBuffer.overlay line.chunk }
              side.other
              (chat.arriving side.other ++
                sent (chat.parties side).outBuffer line) := by
  simp only [step] at taken
  split at taken
  · rename_i party bytes sending sent
    refine ⟨sending, ?_⟩
    have typed : (chat.parties side).stdin ≠ [] := by
      intro nothing
      simp only [Party.sendMessage, fgets, if_pos nothing] at sent
      cases sent
    obtain ⟨line, rest, left, stdin⟩ := follows.next_line typed
    refine ⟨line, rest, left, ?_⟩
    simp only [Party.sendMessage, stdin, fgets_line] at sent
    cases sent
    cases taken
    rfl
  · cases taken

/-- `send_message`. -/
theorem Follows.send
    (follows : Follows lines inBuffers events chat)
    (taken : step chat (.send side) = some next) :
    Follows lines inBuffers (events ++ [.sends side]) next := by
  obtain ⟨sending, line, rest, left, rfl⟩ := follows.send_eq taken
  obtain ⟨inside, later, oneMore⟩ := take_succ_of_drop left
  have different := side.other_ne
  refine ⟨?_, ?_, ?_, ?_, ?_, ?_, ?_⟩
  · intro other
    rcases other.eq_or_eq_other side with rfl | rfl
    · rw [Chat.parties_move_self, sends_send_self, later]
    · rw [Chat.parties_move_of_ne _ _ _ different,
        sends_send_of_ne _ different.symm]
      exact follows.stdin _
  · intro other
    rcases other.eq_or_eq_other side with rfl | rfl
    · rw [sends_send_self]
      exact inside
    · rw [sends_send_of_ne _ different.symm]
      exact follows.typed _
  · intro other
    rw [screen_send]
    exact follows.shows other
  · intro other
    rcases other.eq_or_eq_other side with rfl | rfl
    · rw [Chat.arriving_move_of_ne _ _ _ different.symm, screen_send,
        sends_send_of_ne _ different.symm]
      exact follows.carries _
    · have carries := follows.carries side.other
      have order := follows.order side.other
      rw [side.other_other] at carries order
      rw [Chat.arriving_move_self, screen_send, side.other_other,
        sends_send_self, oneMore, List.drop_append_of_le_length
          (by rw [List.length_take]; omega)]
      exact carries.snoc _ line
  · intro other
    have order := follows.order other
    rw [screen_send]
    rcases other.eq_or_eq_other side with rfl | rfl
    · rw [sends_send_of_ne _ different.symm]
      exact order
    · rw [side.other_other] at order ⊢
      rw [sends_send_self]
      exact Nat.le_succ_of_le order
  · intro other
    have pace := follows.pace other
    rw [screen_send]
    rcases other.eq_or_eq_other side with rfl | rfl
    · rw [sending, if_neg (by decide)] at pace
      rw [Chat.parties_move_self, sends_send_self, if_pos rfl]
      omega
    · rw [Chat.parties_move_of_ne _ _ _ different,
        sends_send_of_ne _ different.symm]
      exact pace
  · exact follows.buffers_move rfl

/-- `receive_message` reads the first line that is on its way. -/
theorem Follows.receive_eq
    (follows : Follows lines inBuffers events chat)
    (taken : step chat (.receive side true) = some next) :
    (chat.parties side).phase = .receiving ∧
      ∃ line rest outBuffer more,
        ((lines side.other).take (sends side.other events)).drop
            (screen side events).length = line :: rest ∧
          chat.arriving side = sent outBuffer line ++ more ∧
          Carries rest more ∧
          next =
            chat.move side
              { chat.parties side with
                phase := .sending
                inBuffer :=
                  afterReceive (chat.parties side).inBuffer
                    (sent outBuffer line) }
              side more := by
  simp only [step] at taken
  split at taken
  · rename_i party later receiving received
    refine ⟨receiving, ?_⟩
    have carries := follows.carries side
    have something : chat.arriving side ≠ [] := by
      intro nothing
      simp only [Party.receiveMessage, if_pos nothing] at received
      cases received
    cases onTheWay :
        ((lines side.other).take (sends side.other events)).drop
          (screen side events).length with
    | nil =>
        rw [onTheWay] at carries
        exact absurd carries something
    | cons line rest =>
        rw [onTheWay] at carries
        obtain ⟨outBuffer, more, arriving, carriesLater⟩ := carries
        refine ⟨line, rest, outBuffer, more, rfl, arriving, carriesLater, ?_⟩
        have length := length_sent outBuffer line
        have taken8 :
            Simple.received (sent outBuffer line ++ more) =
              Simple.received (sent outBuffer line) := by
          ext1
          simp only [Simple.received]
          rw [← length, List.take_left, List.take_length]
        have dropped8 :
            (sent outBuffer line ++ more).drop pointerSize = more := by
          rw [← length, List.drop_left]
        rw [Party.receiveMessage, if_neg something, arriving, taken8,
          dropped8] at received
        cases received
        cases taken
        rfl
  · cases taken

/-- `receive_message`, when something has arrived. -/
theorem Follows.receive
    (follows : Follows lines inBuffers events chat)
    (taken : step chat (.receive side true) = some next) :
    Follows lines inBuffers
      (events ++ observe chat (.receive side true) next) next := by
  obtain ⟨receiving, line, rest, outBuffer, more, onTheWay, _, later, rfl⟩ :=
    follows.receive_eq taken
  obtain ⟨inside, afterwards, oneMore⟩ := take_succ_of_drop onTheWay
  have different := side.other_ne
  have order := follows.order side
  have sentLength :
      ((lines side.other).take (sends side.other events)).length =
        sends side.other events :=
    List.length_take_of_le (follows.typed side.other)
  rw [sentLength] at inside
  rw [List.take_take, List.take_take, Nat.min_eq_left inside,
    Nat.min_eq_left order] at oneMore
  have text :
      CString.ofBuffer
          (afterReceive (chat.parties side).inBuffer
            (sent outBuffer line)).bytes =
        shown line (inBuffers side) := by
    rw [ofBuffer_afterReceive]
    exact shown_congr (follows.buffers side)
  simp only [observe, Chat.parties_move_self, text]
  refine ⟨?_, ?_, ?_, ?_, ?_, ?_, ?_⟩
  · simp only [sends_prints]
    exact follows.stdin_move rfl
  · intro other
    rw [sends_prints]
    exact follows.typed other
  · intro other
    rcases other.eq_or_eq_other side with rfl | rfl
    · rw [screen_prints_self, List.length_append, List.length_singleton,
        oneMore, List.map_append, ← follows.shows other]
      rfl
    · rw [screen_prints_of_ne _ _ different.symm]
      exact follows.shows _
  · intro other
    rw [sends_prints]
    rcases other.eq_or_eq_other side with rfl | rfl
    · rw [Chat.arriving_move_self, screen_prints_self, List.length_append,
        List.length_singleton, afterwards]
      exact later
    · rw [Chat.arriving_move_of_ne _ _ _ different,
        screen_prints_of_ne _ _ different.symm]
      exact follows.carries _
  · intro other
    rw [sends_prints]
    rcases other.eq_or_eq_other side with rfl | rfl
    · rw [screen_prints_self, List.length_append, List.length_singleton]
      exact inside
    · rw [screen_prints_of_ne _ _ different.symm]
      exact follows.order _
  · intro other
    have pace := follows.pace other
    rw [sends_prints]
    rcases other.eq_or_eq_other side with rfl | rfl
    · rw [receiving, if_pos rfl] at pace
      rw [Chat.parties_move_self, screen_prints_self, List.length_append,
        List.length_singleton, if_neg nofun]
      omega
    · rw [Chat.parties_move_of_ne _ _ _ different,
        screen_prints_of_ne _ _ different.symm]
      exact pace
  · exact follows.buffers_move (drop_afterReceive _ _)

/-- `receive_message`, when `select` times out. -/
theorem Follows.timeout
    (follows : Follows lines inBuffers events chat)
    (taken : step chat (.receive side false) = some next) :
    Follows lines inBuffers events next := by
  have different := side.other_ne
  simp only [step] at taken
  split at taken
  · rename_i receiving
    cases taken
    refine
      ⟨follows.stdin_move rfl, follows.typed, follows.shows, ?_,
        follows.order, ?_, follows.buffers_move rfl⟩
    · intro other
      rcases other.eq_or_eq_other side with rfl | rfl
      · rw [Chat.arriving_move_self]
        exact follows.carries _
      · rw [Chat.arriving_move_of_ne _ _ _ different]
        exact follows.carries _
    · intro other
      have pace := follows.pace other
      rcases other.eq_or_eq_other side with rfl | rfl
      · rw [Chat.parties_move_self, if_neg nofun]
        omega
      · rw [Chat.parties_move_of_ne _ _ _ different]
        exact pace
  · cases taken

theorem Follows.step
    (follows : Follows lines inBuffers events chat) {action : Action}
    (taken : NoBloqueante.step chat action = some next) :
    Follows lines inBuffers (events ++ observe chat action next) next := by
  cases action with
  | send side => exact follows.send taken
  | receive side ready =>
      cases ready with
      | true => exact follows.receive taken
      | false =>
          rw [observe, List.append_nil]
          exact follows.timeout taken

/-! ## Nobody waits for the other side -/

/-- A side with a line before it can go on by itself. -/
theorem Follows.goes_on
    (follows : Follows lines inBuffers events chat)
    (more : sends side events < (lines side).length) :
    ∃ action next,
      action.side = side ∧ NoBloqueante.step chat action = some next := by
  cases phase : (chat.parties side).phase with
  | receiving =>
      have timesOut :
          NoBloqueante.step chat (.receive side false) =
            some
              (chat.move side
                { chat.parties side with phase := .sending } side
                (chat.arriving side)) := by
        rw [NoBloqueante.step, phase]
      exact ⟨_, _, rfl, timesOut⟩
  | sending =>
      have stdin := follows.stdin side
      rw [List.drop_eq_getElem_cons more, List.flatMap_cons] at stdin
      have sends :
          ∃ next, NoBloqueante.step chat (.send side) = some next := by
        simp only [NoBloqueante.step, phase, Party.sendMessage, stdin,
          fgets_line]
        exact ⟨_, rfl⟩
      obtain ⟨next, taken⟩ := sends
      exact ⟨_, next, rfl, taken⟩

/-- What has been sent can be read. -/
theorem Follows.reads
    (follows : Follows lines inBuffers events chat)
    (receiving : (chat.parties side).phase = .receiving)
    (unread : (screen side events).length < sends side.other events) :
    ∃ next, NoBloqueante.step chat (.receive side true) = some next := by
  have carries := follows.carries side
  cases onTheWay :
      ((lines side.other).take (sends side.other events)).drop
        (screen side events).length with
  | nil =>
      have none := congrArg List.length onTheWay
      rw [List.length_drop,
        List.length_take_of_le (follows.typed side.other)] at none
      simp only [List.length_nil] at none
      omega
  | cons line rest =>
      rw [onTheWay] at carries
      obtain ⟨outBuffer, more, arriving, _⟩ := carries
      have something : chat.arriving side ≠ [] := by
        intro nothing
        have length := length_sent outBuffer line
        rw [nothing] at arriving
        rw [(List.append_eq_nil_iff.mp arriving.symm).1] at length
        cases length
      rw [NoBloqueante.step, receiving]
      simp only [Party.receiveMessage, if_neg something]
      exact ⟨_, rfl⟩

end Steps

/-- Whatever is typed and however the two sides are interleaved: each side
prints what the other one has sent, in order, nothing lost before it and
nothing twice; it prints at most one message for each that it sends, one more
on the server; what is on its way can be read; and a side with a line before
it never waits for the other one. -/
theorem screen_of_run
    (outBuffers inBuffers : Side → Buffer)
    (lines : Side → List (Line bufferSize)) {actions : List Action}
    {final : Chat}
    (reached :
      run step (initial outBuffers inBuffers lines) actions = some final)
    (side : Side) :
    let events :=
      trace step observe (initial outBuffers inBuffers lines) actions
    screen side events =
        ((lines side.other).take (screen side events).length).map
          (fun line => shown line (inBuffers side)) ∧
      (screen side events).length ≤ sends side.other events ∧
      (screen side events).length ≤ sends side events + lead side ∧
      ((screen side events).length < sends side.other events →
        (final.parties side).phase = .receiving →
          ∃ next, step final (.receive side true) = some next) ∧
      (sends side events < (lines side).length →
        ∃ action next,
          action.side = side ∧ step final action = some next) := by
  intro events
  have preserved :
      ∀ past state action next, Follows lines inBuffers past state →
        True → step state action = some next →
          Follows lines inBuffers (past ++ observe state action next) next :=
    fun _ _ _ _ follows _ taken => follows.step taken
  have follows : Follows lines inBuffers ([] ++ events) final :=
    trace_of_run preserved (follows_initial outBuffers)
      (obeys_true _ actions) reached
  rw [List.nil_append] at follows
  have pace := follows.pace side
  exact
    ⟨follows.shows side, follows.order side, by omega,
      fun unread receiving => follows.reads receiving unread,
      follows.goes_on⟩

/-- The line `hi`. -/
def hi : Line bufferSize where
  text := [104, 105]
  noNewline := by decide
  noNul := by decide
  fits := by decide

/-- The client sends twice before the server looks. -/
def twoLinesFirst : List Action :=
  [.send .client, .receive .client false, .send .client,
    .receive .server true, .send .server]

/-- The server has printed one line, the other one is on its way, and the
server can go on. -/
theorem screen_of_run_twoLinesFirst :
    ∃ final,
      run step
            (initial (fun _ => Chat.blank) (fun _ => Chat.blank)
              (fun _ => [hi, hi]))
            twoLinesFirst =
          some final ∧
        screen .server
            (trace step observe
              (initial (fun _ => Chat.blank) (fun _ => Chat.blank)
                (fun _ => [hi, hi]))
              twoLinesFirst) =
          [[104, 105, 10]] ∧
        ∃ action next,
          action.side = .server ∧ step final action = some next := by
  have reached :
      ∃ final,
        run step
            (initial (fun _ => Chat.blank) (fun _ => Chat.blank)
              (fun _ => [hi, hi]))
            twoLinesFirst =
          some final :=
    ⟨_, rfl⟩
  obtain ⟨final, reached⟩ := reached
  obtain ⟨shows, _, _, _, goesOn⟩ :=
    screen_of_run _ _ _ reached .server
  exact
    ⟨final, reached, shows.trans (by decide +kernel),
      goesOn (by decide +kernel)⟩

end SistemasDistribuidos.Practica1.NoBloqueante
