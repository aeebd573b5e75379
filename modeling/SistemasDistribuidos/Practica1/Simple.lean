import SistemasDistribuidos.Library.CString
import SistemasDistribuidos.Library.Machine
import SistemasDistribuidos.Library.Stdio

/-!
# The chat of the simple client and server

The two main loops: the client sends and receives, the server receives and
sends.  `send` and `recv` get `sizeof` of a pointer, so a message has eight
bytes, however long the line is.  A `recv` takes what one `send` has sent.

The model ends when one side has no more lines: `fgets` fails there and the
program exits.
-/

namespace SistemasDistribuidos.Practica1.Simple

open SistemasDistribuidos Machine Framing Stdio

/-- `BUFFER_SIZE`. -/
def bufferSize : Nat := 1024

/-- `sizeof(out_buffer)` and `sizeof(in_buffer)`. -/
def pointerSize : Nat := 8

/-- A `char[BUFFER_SIZE]`. -/
abbrev Buffer := Frame UInt8 bufferSize

inductive Side where
  | client
  | server
  deriving DecidableEq

def Side.other : Side → Side
  | .client => .server
  | .server => .client

theorem Side.other_ne (side : Side) : side.other ≠ side := by
  cases side <;> exact nofun

theorem Side.other_other (side : Side) : side.other.other = side := by
  cases side <;> rfl

theorem Side.eq_or_eq_other (side turn : Side) :
    side = turn ∨ side = turn.other := by
  cases side <;> cases turn <;> decide

inductive Phase where
  /-- Before `send_message`. -/
  | sending
  /-- Before `receive_message`. -/
  | receiving
  deriving DecidableEq

structure Party where
  phase : Phase
  stdin : List UInt8
  outBuffer : Buffer
  inBuffer : Buffer
  deriving DecidableEq

/-- The two processes, with the bytes on their way to each of them. -/
structure Chat where
  parties : Side → Party
  arriving : Side → List UInt8

theorem bufferSize_pos : 0 < bufferSize := by
  decide

/-- `send_message`: the process after it, and what it has sent. -/
def Party.sendMessage (party : Party) : Option (Party × List UInt8) :=
  match fgets bufferSize_pos party.stdin with
  | some (read, stdin) =>
      some
        ({ party with
            phase := .receiving
            stdin := stdin
            outBuffer := party.outBuffer.overlay read },
          (party.outBuffer.overlay read).bytes.take pointerSize)
  | none => none

/-- `in_buffer[0] = '\0'`. -/
def terminator : Chunk UInt8 bufferSize :=
  ⟨[0], by decide⟩

/-- What `recv` takes of the bytes that have arrived. -/
def received (arrived : List UInt8) : Chunk UInt8 bufferSize :=
  ⟨arrived.take pointerSize,
    (List.length_take_le _ _).trans (by decide)⟩

/-- `receive_message`, which waits until something has arrived. -/
def Party.receiveMessage (party : Party) (arrived : List UInt8) :
    Option (Party × List UInt8) :=
  if arrived = [] then none
  else
    some
      ({ party with
          phase := .sending
          inBuffer :=
            (party.inBuffer.overlay terminator).overlay
              (received arrived) },
        arrived.drop pointerSize)

/-! ## One line -/

/-- What is printed for a line, when the receiver's buffer was this. -/
def shown (line : Line bufferSize) (inBuffer : Buffer) : List UInt8 :=
  if line.bytes.length < pointerSize then line.bytes
  else
    line.bytes.take pointerSize ++
      CString.ofBuffer (inBuffer.bytes.drop pointerSize)

/-- The line and its NUL are sent whole, or the receiver's buffer happens to
hold the rest of the line. -/
def Arrives (line : Line bufferSize) (inBuffer : Buffer) : Prop :=
  line.bytes.length < pointerSize ∨
    line.bytes.drop pointerSize ++ [0] <+:
      inBuffer.bytes.drop pointerSize

instance (line : Line bufferSize) (inBuffer : Buffer) :
    Decidable (Arrives line inBuffer) :=
  inferInstanceAs (Decidable (_ ∨ _))

/-- The line is printed exactly when it arrives. -/
theorem shown_eq_iff (line : Line bufferSize) (inBuffer : Buffer) :
    shown line inBuffer = line.bytes ↔ Arrives line inBuffer := by
  rw [shown, Arrives]
  by_cases short : line.bytes.length < pointerSize
  · simp only [if_pos short, true_iff]
    exact Or.inl short
  · have noNul : 0 ∉ line.bytes.drop pointerSize :=
      mt List.mem_of_mem_drop line.zero_notMem_bytes
    have shorter :
        (line.bytes.drop pointerSize).length <
          (inBuffer.bytes.drop pointerSize).length := by
      have fits := line.length_bytes_lt
      rw [List.length_drop, List.length_drop, inBuffer.length_bytes]
      omega
    rw [if_neg short, ← CString.ofBuffer_eq_iff noNul shorter]
    constructor
    · intro same
      conv_rhs at same => rw [← List.take_append_drop pointerSize line.bytes]
      exact Or.inr (List.append_cancel_left same)
    · intro arrives
      rw [arrives.resolve_left short, List.take_append_drop]

/-- Only what is behind the message matters. -/
theorem shown_congr
    {line : Line bufferSize} {inBuffer other : Buffer}
    (same :
      inBuffer.bytes.drop pointerSize = other.bytes.drop pointerSize) :
    shown line inBuffer = shown line other := by
  rw [shown, shown, same]

/-- What `send_message` has sent of a line. -/
def sent (outBuffer : Buffer) (line : Line bufferSize) : List UInt8 :=
  (outBuffer.overlay line.chunk).bytes.take pointerSize

theorem length_sent (outBuffer : Buffer) (line : Line bufferSize) :
    (sent outBuffer line).length = pointerSize := by
  rw [sent, List.length_take, Frame.length_bytes]
  decide

theorem sent_eq (outBuffer : Buffer) (line : Line bufferSize) :
    sent outBuffer line =
      (line.bytes ++
        ([0] ++ outBuffer.bytes.drop line.chunk.bytes.length)).take
          pointerSize := by
  rw [sent, Frame.bytes_overlay, ← List.append_assoc]
  rfl

/-- The buffer after `receive_message`. -/
def afterReceive (inBuffer : Buffer) (arrived : List UInt8) : Buffer :=
  (inBuffer.overlay terminator).overlay (received arrived)

theorem drop_terminated (inBuffer : Buffer) :
    (inBuffer.overlay terminator).bytes.drop pointerSize =
      inBuffer.bytes.drop pointerSize := by
  apply Frame.drop_overlay
  decide

/-- Behind the message the buffer stays as it is. -/
theorem drop_afterReceive (inBuffer : Buffer) (arrived : List UInt8) :
    (afterReceive inBuffer arrived).bytes.drop pointerSize =
      inBuffer.bytes.drop pointerSize := by
  rw [← drop_terminated inBuffer]
  exact Frame.drop_overlay _ (List.length_take_le pointerSize arrived)

theorem bytes_afterReceive
    (inBuffer outBuffer : Buffer) (line : Line bufferSize) :
    (afterReceive inBuffer (sent outBuffer line)).bytes =
      sent outBuffer line ++ inBuffer.bytes.drop pointerSize := by
  have whole : (received (sent outBuffer line)).bytes =
      sent outBuffer line :=
    List.take_of_length_le (length_sent outBuffer line).le
  rw [afterReceive, Frame.bytes_overlay, whole, length_sent,
    drop_terminated]

theorem ofBuffer_afterReceive
    (inBuffer outBuffer : Buffer) (line : Line bufferSize) :
    CString.ofBuffer (afterReceive inBuffer (sent outBuffer line)).bytes =
      shown line inBuffer := by
  rw [bytes_afterReceive, shown, sent_eq]
  by_cases short : line.bytes.length < pointerSize
  · -- The NUL of `fgets` is among the bytes that are sent.
    obtain ⟨more, isMore⟩ := Nat.exists_eq_add_of_lt short
    have behind : pointerSize - line.bytes.length = more + 1 := by
      omega
    rw [if_pos short, List.take_append,
      List.take_of_length_le (Nat.le_of_lt short), behind, List.append_assoc,
      CString.ofBuffer_append line.zero_notMem_bytes]
    exact List.append_nil _
  · have long : pointerSize ≤ line.bytes.length := not_lt.mp short
    have noNul : 0 ∉ line.bytes.take pointerSize :=
      mt List.mem_of_mem_take line.zero_notMem_bytes
    rw [if_neg short, List.take_append_of_le_length long,
      CString.ofBuffer_append noNul]

namespace Chat

/-- The process on one side goes on, and `reader` has these bytes to read. -/
def move (chat : Chat) (side : Side) (party : Party) (reader : Side)
    (bytes : List UInt8) : Chat where
  parties := Function.update chat.parties side party
  arriving := Function.update chat.arriving reader bytes

/-- The process on one side takes its next step. -/
def step (chat : Chat) (side : Side) : Option Chat :=
  match (chat.parties side).phase with
  | .sending =>
      match (chat.parties side).sendMessage with
      | some (party, sent) =>
          some
            (chat.move side party side.other
              (chat.arriving side.other ++ sent))
      | none => none
  | .receiving =>
      match (chat.parties side).receiveMessage (chat.arriving side) with
      | some (party, later) => some (chat.move side party side later)
      | none => none

/-- What `receive_message` prints after `+++`. -/
def prints (chat : Chat) (side : Side) (next : Chat) : List (List UInt8) :=
  match (chat.parties side).phase with
  | .sending => []
  | .receiving =>
      [CString.ofBuffer (next.parties side).inBuffer.bytes]

/-- What is typed on one side, when the lines are typed alternately. -/
def typed (side : Side) : Side → List (Line bufferSize) → List UInt8
  | _, [] => []
  | turn, line :: rest =>
      (if turn = side then line.bytes else []) ++
        typed side turn.other rest

/-- The client begins. -/
def initial (outBuffers inBuffers : Side → Buffer)
    (lines : List (Line bufferSize)) : Chat where
  parties := fun side =>
    { phase :=
        match side with
        | .client => .sending
        | .server => .receiving
      stdin := typed side .client lines
      outBuffer := outBuffers side
      inBuffer := inBuffers side }
  arriving := fun _ => []

/-! ## The runs of the chat -/

/-- What is printed in the end, one line after another. -/
def heard (inBuffers : Side → Buffer) :
    Side → List (Line bufferSize) → List (List UInt8)
  | _, [] => []
  | turn, line :: rest =>
      shown line (inBuffers turn.other) :: heard inBuffers turn.other rest

/-- One side is about to send the first of the lines. -/
structure Speaks (inBuffers : Side → Buffer) (turn : Side)
    (lines : List (Line bufferSize)) (chat : Chat) : Prop where
  speaker : (chat.parties turn).phase = .sending
  listener : (chat.parties turn.other).phase = .receiving
  silent : ∀ side, chat.arriving side = []
  stdin : ∀ side, (chat.parties side).stdin = typed side turn lines
  buffers : ∀ side,
    (chat.parties side).inBuffer.bytes.drop pointerSize =
      (inBuffers side).bytes.drop pointerSize

/-- One side has sent a line. -/
structure Sent (inBuffers : Side → Buffer) (turn : Side)
    (line : Line bufferSize) (rest : List (Line bufferSize))
    (chat : Chat) : Prop where
  phases : ∀ side, (chat.parties side).phase = .receiving
  arriving : ∃ outBuffer,
    chat.arriving turn.other = sent outBuffer line
  silent : chat.arriving turn = []
  stdin : ∀ side, (chat.parties side).stdin = typed side turn.other rest
  buffers : ∀ side,
    (chat.parties side).inBuffer.bytes.drop pointerSize =
      (inBuffers side).bytes.drop pointerSize

section Move

variable (chat : Chat) {side other reader : Side} (party : Party)
  (bytes : List UInt8)

theorem parties_move_self :
    (chat.move side party reader bytes).parties side = party :=
  Function.update_self _ _ _

theorem parties_move_of_ne (different : other ≠ side) :
    (chat.move side party reader bytes).parties other =
      chat.parties other :=
  Function.update_of_ne different _ _

theorem arriving_move_self :
    (chat.move side party reader bytes).arriving reader = bytes :=
  Function.update_self _ _ _

theorem arriving_move_of_ne (different : other ≠ reader) :
    (chat.move side party reader bytes).arriving other =
      chat.arriving other :=
  Function.update_of_ne different _ _

end Move

section Runs

variable {inBuffers : Side → Buffer} {turn : Side} {chat : Chat}
  {line : Line bufferSize} {lines rest : List (Line bufferSize)}

theorem speaks_initial (outBuffers : Side → Buffer) :
    (initial outBuffers inBuffers lines).Speaks inBuffers .client lines where
  speaker := rfl
  listener := rfl
  silent := fun _ => rfl
  stdin := fun _ => rfl
  buffers := fun _ => rfl

/-- Who listens waits. -/
theorem step_waiting
    {side : Side} (waits : (chat.parties side).phase = .receiving)
    (silent : chat.arriving side = []) : chat.step side = none := by
  rw [step, waits]
  simp only [Party.receiveMessage, if_pos silent]

/-- The chat is over when nothing more is typed. -/
theorem Speaks.over
    (speaks : chat.Speaks inBuffers turn []) (side : Side) :
    chat.step side = none := by
  rcases side.eq_or_eq_other turn with rfl | rfl
  · have stdin := speaks.stdin side
    rw [typed] at stdin
    rw [step, speaks.speaker]
    simp only [Party.sendMessage, fgets, if_pos stdin]
  · exact step_waiting speaks.listener (speaks.silent _)

theorem Speaks.send
    (speaks : chat.Speaks inBuffers turn (line :: rest)) :
    ∃ next,
      chat.step turn = some next ∧
        next.Sent inBuffers turn line rest ∧
        chat.prints turn next = [] := by
  have stdin := speaks.stdin turn
  rw [typed, if_pos rfl] at stdin
  have taken :
      chat.step turn =
        some
          (chat.move turn
            { chat.parties turn with
              phase := .receiving
              stdin := typed turn turn.other rest
              outBuffer :=
                (chat.parties turn).outBuffer.overlay line.chunk }
            turn.other
            (chat.arriving turn.other ++
              sent (chat.parties turn).outBuffer line)) := by
    rw [step, speaks.speaker, Party.sendMessage, stdin, fgets_line]
    rfl
  refine ⟨_, taken, ⟨?_, ⟨(chat.parties turn).outBuffer, ?_⟩, ?_, ?_, ?_⟩, ?_⟩
  · intro side
    rcases side.eq_or_eq_other turn with rfl | rfl
    · rw [parties_move_self]
    · rw [parties_move_of_ne _ _ _ turn.other_ne]
      exact speaks.listener
  · rw [arriving_move_self, speaks.silent, List.nil_append]
  · rw [arriving_move_of_ne _ _ _ turn.other_ne.symm]
    exact speaks.silent turn
  · intro side
    rcases side.eq_or_eq_other turn with rfl | rfl
    · rw [parties_move_self]
    · rw [parties_move_of_ne _ _ _ turn.other_ne, speaks.stdin, typed,
        if_neg turn.other_ne.symm, List.nil_append]
  · intro side
    rcases side.eq_or_eq_other turn with rfl | rfl
    · rw [parties_move_self]
      exact speaks.buffers side
    · rw [parties_move_of_ne _ _ _ turn.other_ne]
      exact speaks.buffers turn.other
  · rw [prints, speaks.speaker]

theorem Sent.receive
    (isSent : chat.Sent inBuffers turn line rest) :
    ∃ next,
      chat.step turn.other = some next ∧
        next.Speaks inBuffers turn.other rest ∧
        chat.prints turn.other next =
          [shown line (inBuffers turn.other)] := by
  obtain ⟨outBuffer, arriving⟩ := isSent.arriving
  have some_byte : sent outBuffer line ≠ [] := by
    intro nothing
    have length := length_sent outBuffer line
    rw [nothing] at length
    cases length
  have later : (sent outBuffer line).drop pointerSize = [] :=
    List.drop_eq_nil_of_le (length_sent outBuffer line).le
  have taken :
      chat.step turn.other =
        some
          (chat.move turn.other
            { chat.parties turn.other with
              phase := .sending
              inBuffer :=
                afterReceive (chat.parties turn.other).inBuffer
                  (sent outBuffer line) }
            turn.other []) := by
    rw [step, isSent.phases, Party.receiveMessage, arriving,
      if_neg some_byte, later]
    rfl
  refine ⟨_, taken, ⟨?_, ?_, ?_, ?_, ?_⟩, ?_⟩
  · rw [parties_move_self]
  · rw [turn.other_other, parties_move_of_ne _ _ _ turn.other_ne.symm]
    exact isSent.phases turn
  · intro side
    rcases side.eq_or_eq_other turn with rfl | rfl
    · rw [arriving_move_of_ne _ _ _ side.other_ne.symm]
      exact isSent.silent
    · rw [arriving_move_self]
  · intro side
    rcases side.eq_or_eq_other turn with rfl | rfl
    · rw [parties_move_of_ne _ _ _ side.other_ne.symm]
      exact isSent.stdin side
    · rw [parties_move_self]
      exact isSent.stdin turn.other
  · intro side
    rcases side.eq_or_eq_other turn with rfl | rfl
    · rw [parties_move_of_ne _ _ _ side.other_ne.symm]
      exact isSent.buffers side
    · rw [parties_move_self]
      exact (drop_afterReceive _ _).trans (isSent.buffers turn.other)
  · rw [prints, isSent.phases, parties_move_self,
      ← shown_congr (isSent.buffers turn.other)]
    exact congrArg (fun text => [text]) (ofBuffer_afterReceive _ _ _)

/-- The line that has been sent is the only thing that can go on. -/
theorem Sent.only
    (isSent : chat.Sent inBuffers turn line rest) : chat.step turn = none :=
  step_waiting (isSent.phases turn) isSent.silent

/-- What any run prints is what is heard, as far as the run goes. -/
theorem Speaks.trace_prefix
    (speaks : chat.Speaks inBuffers turn lines) {actions : List Side}
    {final : Chat} (reached : run step chat actions = some final) :
    trace step prints chat actions <+: heard inBuffers turn lines := by
  induction lines generalizing chat turn actions with
  | nil =>
      cases actions with
      | nil => exact List.nil_prefix
      | cons side more =>
          obtain ⟨next, taken, _⟩ := run_cons_eq_some.mp reached
          cases (speaks.over side).symm.trans taken
  | cons line rest inductionHypothesis =>
      obtain ⟨middle, sends, isSent, nothing⟩ := speaks.send
      obtain ⟨next, receives, speaksNext, printed⟩ := isSent.receive
      rcases actions with _ | ⟨first, _ | ⟨second, more⟩⟩
      · exact List.nil_prefix
      · obtain ⟨other, taken, onwards⟩ := run_cons_eq_some.mp reached
        rcases first.eq_or_eq_other turn with rfl | rfl
        · rw [trace_cons _ sends, nothing]
          exact List.nil_prefix
        · cases (step_waiting speaks.listener (speaks.silent _)).symm.trans
            taken
      · obtain ⟨other, taken, onwards⟩ := run_cons_eq_some.mp reached
        rcases first.eq_or_eq_other turn with rfl | rfl
        · cases sends.symm.trans taken
          obtain ⟨later, takenLater, onwards⟩ := run_cons_eq_some.mp onwards
          rcases second.eq_or_eq_other first with rfl | rfl
          · cases isSent.only.symm.trans takenLater
          · cases receives.symm.trans takenLater
            rw [trace_cons _ sends, trace_cons _ receives, nothing, printed,
              heard, List.nil_append, List.singleton_append]
            exact
              List.cons_prefix_cons.mpr
                ⟨rfl, inductionHypothesis speaksNext onwards⟩
        · cases (step_waiting speaks.listener (speaks.silent _)).symm.trans
            taken

/-- The chat can go on to its end. -/
theorem Speaks.exists_run
    (speaks : chat.Speaks inBuffers turn lines) :
    ∃ actions final,
      run step chat actions = some final ∧
        trace step prints chat actions = heard inBuffers turn lines := by
  induction lines generalizing chat turn with
  | nil => exact ⟨[], chat, rfl, rfl⟩
  | cons line rest inductionHypothesis =>
      obtain ⟨middle, sends, isSent, nothing⟩ := speaks.send
      obtain ⟨next, receives, speaksNext, printed⟩ := isSent.receive
      obtain ⟨actions, final, onwards, printedLater⟩ :=
        inductionHypothesis speaksNext
      refine ⟨turn :: turn.other :: actions, final, ?_, ?_⟩
      · exact
          run_cons_eq_some.mpr
            ⟨middle, sends,
              run_cons_eq_some.mpr ⟨next, receives, onwards⟩⟩
      · rw [trace_cons _ sends, trace_cons _ receives, nothing, printed,
          printedLater]
        rfl

end Runs

/-- Each line arrives at the side that does not type it. -/
def AllArrive (inBuffers : Side → Buffer) :
    Side → List (Line bufferSize) → Prop
  | _, [] => True
  | turn, line :: rest =>
      Arrives line (inBuffers turn.other) ∧
        AllArrive inBuffers turn.other rest

theorem heard_eq_iff
    (inBuffers : Side → Buffer) (turn : Side)
    (lines : List (Line bufferSize)) :
    heard inBuffers turn lines = lines.map Line.bytes ↔
      AllArrive inBuffers turn lines := by
  induction lines generalizing turn with
  | nil => exact iff_of_true rfl trivial
  | cons line rest inductionHypothesis =>
      rw [heard, AllArrive, List.map_cons, List.cons.injEq, shown_eq_iff,
        inductionHypothesis]

theorem length_heard
    (inBuffers : Side → Buffer) (turn : Side)
    (lines : List (Line bufferSize)) :
    (heard inBuffers turn lines).length = lines.length := by
  induction lines generalizing turn with
  | nil => rfl
  | cons line rest inductionHypothesis =>
      rw [heard, List.length_cons, inductionHypothesis]
      rfl

/-- After each `send_message` on one side, `receive_message` on the other
side prints the line that was typed. -/
structure PrintsLines (chat : Chat) (lines : List (Line bufferSize)) :
    Prop where
  inOrder : ∀ (actions : List Side) (final : Chat),
    run step chat actions = some final →
      trace step prints chat actions <+: lines.map Line.bytes
  toTheEnd : ∃ actions final,
    run step chat actions = some final ∧
      trace step prints chat actions = lines.map Line.bytes

/-- The chat prints the lines exactly when each of them has at most seven
bytes, or meets a buffer that happens to hold the rest of it. -/
theorem printsLines_iff
    (outBuffers inBuffers : Side → Buffer)
    (lines : List (Line bufferSize)) :
    (initial outBuffers inBuffers lines).PrintsLines lines ↔
      AllArrive inBuffers .client lines := by
  have speaks : (initial outBuffers inBuffers lines).Speaks inBuffers
      .client lines :=
    speaks_initial outBuffers
  obtain ⟨actions, final, reached, printed⟩ := speaks.exists_run
  rw [← heard_eq_iff]
  constructor
  · intro prints
    have inOrder := prints.inOrder actions final reached
    rw [printed] at inOrder
    apply inOrder.eq_of_length
    rw [length_heard, List.length_map]
  · intro same
    rw [same] at printed
    refine ⟨?_, actions, final, reached, printed⟩
    intro otherActions otherFinal otherReached
    rw [← same]
    exact speaks.trace_prefix otherReached

/-- A buffer of zeros. -/
def blank : Buffer :=
  ⟨List.replicate bufferSize 0, List.length_replicate⟩

/-- The line `Hello server`. -/
def helloServer : Line bufferSize where
  text := [72, 101, 108, 108, 111, 32, 115, 101, 114, 118, 101, 114]
  noNewline := by decide
  noNul := by decide
  fits := by decide

/-- The server prints `Hello se`, without the rest of the line. -/
theorem line_cut :
    ¬ (initial (fun _ => blank) (fun _ => blank) [helloServer]).PrintsLines
        [helloServer] := by
  intro prints
  have speaks : (initial (fun _ => blank) (fun _ => blank)
      [helloServer]).Speaks (fun _ => blank) .client [helloServer] :=
    speaks_initial _
  obtain ⟨actions, final, reached, printed⟩ := speaks.exists_run
  have inOrder := prints.inOrder actions final reached
  have isCut : heard (fun _ => blank) .client [helloServer] =
      [[72, 101, 108, 108, 111, 32, 115, 101]] := by
    decide
  rw [printed, isCut] at inOrder
  revert inOrder
  decide

end Chat

end SistemasDistribuidos.Practica1.Simple
