import SistemasDistribuidos.Practica1.Dialogue

/-!
# Every client is greeted

A thread finds its own client through the descriptor that it has read, since
its batch keeps that descriptor open.  So the server prints each greeting at
most once, and a client is answered only after its greeting has been printed.
Clients and server have only so many steps to take; the main thread waits for
its batch in `pthread_join`, but no thread waits for ever, and when nobody can
go on every client is done.
-/

namespace SistemasDistribuidos.Practica1.MultiHilo

open SistemasDistribuidos Machine Pool

/-! ## What the server has done for a connection -/

namespace Thread

/-- After its `printf`. -/
def hasPrinted (thread : Thread) : Bool :=
  match thread.phase with
  | .sending _ => true
  | .finished => true
  | _ => false

def isFinished (thread : Thread) : Bool :=
  match thread.phase with
  | .finished => true
  | _ => false

end Thread

/-- A connection that has been accepted and has no thread yet. -/
def MainPhase.inHand : MainPhase → Nat
  | .creating _ => 1
  | _ => 0

namespace Server

/-- The connections that the main thread has accepted. -/
def connections (server : Server) : Nat :=
  server.pool.length + server.main.inHand

def printedAt (server : Server) (index : Nat) : Bool :=
  server.pool[index]?.any Thread.hasPrinted

def finishedAt (server : Server) (index : Nat) : Bool :=
  server.pool[index]?.any Thread.isFinished

/-- Some descriptors are never open. -/
def Spare (server : Server) : Prop :=
  ∃ bound : Int, 0 ≤ bound ∧
    ∀ fd, bound ≤ fd → server.descriptors fd = none

/-- What the steps of the main thread and the first step of a thread leave as
it was. -/
structure Quiet (server next : Server) : Prop where
  exited : next.exited = server.exited
  connections : next.connections = server.connections
  printed : ∀ index, next.printedAt index = server.printedAt index
  finished : ∀ index, next.finishedAt index = server.finishedAt index
  spare : server.Spare → next.Spare

section Steps

variable {server next : Server} {base : Nat}

theorem any_set
    {index : Nat} {before : Thread}
    (here : server.pool[index]? = some before) (after : Thread)
    (stands : Thread → Bool) (other : Nat) :
    (server.pool.set index after)[other]?.any stands =
      if other = index then stands after
      else server.pool[other]?.any stands := by
  by_cases same : other = index
  · subst same
    rw [getElem?_set_here here, if_pos rfl]
    rfl
  · rw [List.getElem?_set_ne (Ne.symm same), if_neg same]

theorem any_set_same
    {index : Nat} {before : Thread}
    (here : server.pool[index]? = some before) {after : Thread}
    {stands : Thread → Bool} (same : stands after = stands before)
    (other : Nat) :
    (server.pool.set index after)[other]?.any stands =
      server.pool[other]?.any stands := by
  rw [any_set here]
  split
  · rename_i isIndex
    rw [isIndex, here, same]
    rfl
  · rfl

theorem any_append
    {after : Thread} {stands : Thread → Bool} (idle : stands after = false)
    (index : Nat) :
    (server.pool ++ [after])[index]?.any stands =
      server.pool[index]?.any stands := by
  by_cases inside : index < server.pool.length
  · rw [List.getElem?_append_left inside]
  · rw [List.getElem?_append_right (Nat.le_of_not_lt inside),
      List.getElem?_eq_none (Nat.le_of_not_lt inside)]
    cases index - server.pool.length with
    | zero => exact idle
    | succ _ => rfl

theorem spare_update
    (spare : server.Spare) (fd : Int) (connection : Option Nat) :
    ∃ bound : Int, 0 ≤ bound ∧
      ∀ other, bound ≤ other →
        Function.update server.descriptors fd connection other = none := by
  obtain ⟨bound, positive, closed⟩ := spare
  refine ⟨max bound (fd + 1), by omega, fun other high => ?_⟩
  rw [Function.update_of_ne (by omega)]
  exact closed other (by omega)

theorem quiet_of_main
    (batch : server.Batch base) (taken : server.MainStep next) :
    server.Quiet next := by
  cases taken with
  | full here test moved | room here test moved | joined i here all moved
  | reset i here all moved =>
      subst moved
      refine ⟨rfl, ?_, fun _ => rfl, fun _ => rfl, fun spare => spare⟩
      rw [connections, connections, here]
      rfl
  | join i thread here inside named isDone moved =>
      subst moved
      refine ⟨rfl, ?_, ?_, ?_, fun spare => spare⟩
      · rw [connections, connections, here]
        simp only [List.length_set]
        rfl
      · exact any_set_same named rfl
      · exact any_set_same named rfl
  | close i connection here inside isOpen moved =>
      subst moved
      refine
        ⟨rfl, ?_, fun _ => rfl, fun _ => rfl,
          fun spare => spare_update spare _ none⟩
      rw [connections, connections, here]
      rfl
  | closeFails i here inside isClosed moved =>
      have isOpen := (batch.close here inside).1
      cases isClosed.symm.trans isOpen
  | create clientSocket here moved =>
      subst moved
      refine ⟨rfl, ?_, any_append rfl, any_append rfl, fun spare => spare⟩
      rw [connections, connections, here]
      simp only [List.length_append, List.length_singleton]
      rfl

theorem Batch.descriptor
    (batch : server.Batch base) {index : Nat} {thread : Thread}
    (here : server.pool[index]? = some thread) {clientSocket : Int}
    (phase : thread.phase = .receiving clientSocket ∨
      thread.phase = .sending clientSocket) :
    server.descriptors clientSocket = some index := by
  have runs : thread.phase ≠ .finished := by
    rcases phase with receiving | sending
    · rw [receiving]
      exact ThreadPhase.noConfusion
    · rw [sending]
      exact ThreadPhase.noConfusion
  obtain ⟨slot, rfl, _, notJoined, present⟩ := batch.unfinished here runs
  rw [(batch.serves _ thread here).socket clientSocket phase]
  exact present.stillOpen notJoined

end Steps

end Server

/-! ## Both ends of a connection -/

namespace Dialogue

structure Linked (dialogue : Dialogue) : Prop where
  batch : ∃ base, dialogue.server.Batch base
  running : dialogue.server.exited = false
  spare : dialogue.server.Spare
  nodup : dialogue.accepted.Nodup
  connected : ∀ place ∈ dialogue.accepted,
    dialogue.clients[place]?.any Client.isConnected = true
  length : dialogue.accepted.length = dialogue.server.connections
  asked : ∀ (place : Nat) (client : Client),
    dialogue.clients[place]? = some client →
      dialogue.toServer place =
        if client.hasSent then some (message (greeting client.clientId))
        else none
  answered : ∀ (place : Nat) (bytes : List UInt8),
    dialogue.toClient place = some bytes →
      bytes = message answer ∧
        ∃ index : Nat,
          dialogue.accepted[index]? = some place ∧
            dialogue.server.finishedAt index = true
  finished : ∀ (index place : Nat),
    dialogue.accepted[index]? = some place →
      dialogue.server.finishedAt index = true →
        dialogue.toClient place = some (message answer)
  printed : ∀ place : Nat,
    place ∈ dialogue.screen.map Prod.fst ↔
      ∃ index : Nat,
        dialogue.accepted[index]? = some place ∧
          dialogue.server.printedAt index = true
  once : (dialogue.screen.map Prod.fst).Nodup
  lines : ∀ entry ∈ dialogue.screen,
    ∃ client,
      dialogue.clients[entry.1]? = some client ∧
        entry.2 = greeting client.clientId
  told : ∀ (place : Nat) (client : Client) (line : List UInt8),
    dialogue.clients[place]? = some client → client.phase = .done line →
      line = answer ∧ dialogue.toClient place = some (message answer)

section Steps

variable {dialogue next : Dialogue}

theorem isPending_iff {place : Nat} :
    dialogue.isPending place = true ↔
      dialogue.clients[place]?.any Client.isConnected = true ∧
        place ∉ dialogue.accepted := by
  rw [isPending, Bool.and_eq_true, Bool.not_eq_true', Bool.eq_false_iff,
    ne_eq, List.contains_iff_mem]

/-- A thread in conversation has the client of its own connection. -/
theorem Linked.peer_eq
    (linked : dialogue.Linked) {index : Nat} {thread : Thread}
    (here : dialogue.server.pool[index]? = some thread) {clientSocket : Int}
    (phase : thread.phase = .receiving clientSocket ∨
      thread.phase = .sending clientSocket) :
    dialogue.peer clientSocket = dialogue.accepted[index]? := by
  obtain ⟨base, batch⟩ := linked.batch
  rw [peer, batch.descriptor here phase]
  rfl

/-- Connections are those of different clients. -/
theorem Linked.index_eq
    (linked : dialogue.Linked) {index other place : Nat}
    (here : dialogue.accepted[index]? = some place)
    (there : dialogue.accepted[other]? = some place) : index = other :=
  (List.getElem?_inj (List.getElem?_eq_some_iff.mp here).1
    linked.nodup).mp (here.trans there.symm)

/-- The server goes on without a word to a client. -/
theorem Linked.quiet
    (linked : dialogue.Linked) {action : Action} {server : Server}
    (served : dialogue.server.step action = some server)
    (quiet : dialogue.server.Quiet server) :
    Linked { dialogue with server := server } := by
  obtain ⟨base, batch⟩ := linked.batch
  refine
    { linked with
      batch := batch.step served
      running := quiet.exited.trans linked.running
      spare := quiet.spare linked.spare
      length := linked.length.trans quiet.connections.symm
      answered := ?_
      finished := ?_
      printed := ?_ }
  · intro place bytes arrived
    obtain ⟨isAnswer, index, accepted, done⟩ :=
      linked.answered place bytes arrived
    exact ⟨isAnswer, index, accepted, (quiet.finished index).trans done⟩
  · intro index place accepted done
    exact
      linked.finished index place accepted
        ((quiet.finished index).symm.trans done)
  · intro place
    simp only [quiet.printed]
    exact linked.printed place

theorem Linked.accept
    (linked : dialogue.Linked) {place : Nat} {result : Int}
    (pending : dialogue.isPending place = true) (positive : 0 ≤ result)
    {server : Server}
    (served : dialogue.server.step (.accept result) = some server) :
    Linked
      { dialogue with
        server := server, accepted := dialogue.accepted ++ [place] } := by
  obtain ⟨isConnected, isNew⟩ := isPending_iff.mp pending
  obtain ⟨base, batch⟩ := linked.batch
  have taken : dialogue.server.accept result = some server := by
    simpa [Server.step, linked.running] using served
  have moved :
      dialogue.server.main = .accepting ∧
        server =
          { dialogue.server with
            main := .creating result
            fds :=
              Function.update dialogue.server.fds
                dialogue.server.currentThread result
            descriptors :=
              Function.update dialogue.server.descriptors result
                (some dialogue.server.pool.length) } := by
    simp only [Server.accept, Option.ite_none_right_eq_some,
      if_neg (not_lt.mpr positive), Option.some.injEq] at taken
    exact ⟨taken.1.1, taken.2.symm⟩
  obtain ⟨here, rfl⟩ := moved
  have length : dialogue.accepted.length = dialogue.server.pool.length := by
    rw [linked.length, Server.connections, here]
    rfl
  have lastIsNew : ∀ {index : Nat} {other : Nat} {stands : Thread → Bool},
      (dialogue.accepted ++ [place])[index]? = some other →
        dialogue.server.pool[index]?.any stands = true →
          dialogue.accepted[index]? = some other := by
    intro index other stands accepted stood
    have inside : index < dialogue.accepted.length := by
      by_contra outside
      rw [length, not_lt] at outside
      rw [List.getElem?_eq_none outside] at stood
      cases stood
    rw [List.getElem?_append_left inside] at accepted
    exact accepted
  have stays : ∀ {index other : Nat},
      dialogue.accepted[index]? = some other →
        (dialogue.accepted ++ [place])[index]? = some other := by
    intro index other accepted
    rw [List.getElem?_append_left (List.getElem?_eq_some_iff.mp accepted).1]
    exact accepted
  refine
    { linked with
      batch := batch.step served
      running := linked.running
      spare := Server.spare_update linked.spare _ _
      nodup :=
        List.nodup_append_comm.mp (List.nodup_cons.mpr ⟨isNew, linked.nodup⟩)
      connected := ?_
      length := ?_
      answered := ?_
      finished := ?_
      printed := ?_ }
  · intro other listed
    rcases List.mem_append.mp listed with earlier | same
    · exact linked.connected other earlier
    · rw [List.mem_singleton.mp same]
      exact isConnected
  · rw [List.length_append, length]
    rfl
  · intro other bytes arrived
    obtain ⟨isAnswer, index, accepted, done⟩ :=
      linked.answered other bytes arrived
    exact ⟨isAnswer, index, stays accepted, done⟩
  · intro index other accepted done
    exact linked.finished index other (lastIsNew accepted done) done
  · intro other
    rw [linked.printed other]
    constructor
    · rintro ⟨index, accepted, stood⟩
      exact ⟨index, stays accepted, stood⟩
    · rintro ⟨index, accepted, stood⟩
      exact ⟨index, lastIsNew accepted stood, stood⟩

theorem Linked.receive
    (linked : dialogue.Linked) {index place : Nat} {thread : Thread}
    {clientSocket : Int} (buffer : List UInt8) {bytes : List UInt8}
    (here : dialogue.server.pool[index]? = some thread)
    (phase : thread.phase = .receiving clientSocket)
    (peer : dialogue.peer clientSocket = some place)
    (arrived : dialogue.toServer place = some bytes) {server : Server}
    (served : dialogue.server.step (.thread index) = some server) :
    Linked
      { dialogue with
        server := server
        screen := dialogue.screen ++ [(place, shown buffer bytes)] } := by
  rw [linked.peer_eq here (Or.inl phase)] at peer
  obtain ⟨base, batch⟩ := linked.batch
  have moved :
      server =
        dialogue.server.move index
          { thread with
            used :=
              thread.used ++ [dialogue.server.descriptors clientSocket] }
          (.sending clientSocket) := by
    simp only [Server.step, linked.running, here, Server.threadStep,
      phase, Bool.false_eq_true, if_false, Option.some.injEq] at served
    exact served.symm
  have printedAt : ∀ other,
      server.printedAt other =
        if other = index then true else dialogue.server.printedAt other := by
    intro other
    rw [moved]
    exact Server.any_set here _ _ other
  have finishedAt : ∀ other,
      server.finishedAt other = dialogue.server.finishedAt other := by
    intro other
    rw [moved]
    exact Server.any_set_same here (by simp [Thread.isFinished, phase]) other
  have notYet : dialogue.server.printedAt index = false := by
    rw [Server.printedAt, here]
    simp [Thread.hasPrinted, phase]
  obtain ⟨client, clientHere, isMessage⟩ :
      ∃ client,
        dialogue.clients[place]? = some client ∧
          bytes = message (greeting client.clientId) := by
    have isConnected :=
      linked.connected place (List.mem_of_getElem? peer)
    cases clientHere : dialogue.clients[place]? with
    | none =>
        rw [clientHere] at isConnected
        cases isConnected
    | some client =>
        refine ⟨client, rfl, ?_⟩
        have asked := linked.asked place client clientHere
        rw [arrived] at asked
        split at asked
        · exact Option.some.inj asked
        · cases asked
  refine
    { linked with
      batch := batch.step served
      running := by rw [moved]; exact linked.running
      spare := by rw [moved]; exact linked.spare
      length := ?_
      answered := ?_
      finished := ?_
      printed := ?_
      once := ?_
      lines := ?_ }
  · rw [moved, Server.connections, Server.move, List.length_set]
    exact linked.length
  · intro other otherBytes otherArrived
    obtain ⟨isAnswer, at_, accepted, done⟩ :=
      linked.answered other otherBytes otherArrived
    exact ⟨isAnswer, at_, accepted, (finishedAt at_).trans done⟩
  · intro at_ other accepted done
    exact
      linked.finished at_ other accepted ((finishedAt at_).symm.trans done)
  · intro other
    rw [List.map_append, List.mem_append, linked.printed other]
    constructor
    · rintro (⟨at_, accepted, stood⟩ | same)
      · refine ⟨at_, accepted, ?_⟩
        rw [printedAt, stood, ite_self]
      · cases List.mem_singleton.mp same
        exact ⟨index, peer, by rw [printedAt, if_pos rfl]⟩
    · rintro ⟨at_, accepted, stood⟩
      rw [printedAt] at stood
      by_cases same : at_ = index
      · subst same
        cases peer.symm.trans accepted
        exact Or.inr List.mem_cons_self
      · rw [if_neg same] at stood
        exact Or.inl ⟨at_, accepted, stood⟩
  · rw [List.map_append]
    refine
      List.nodup_append_comm.mp (List.nodup_cons.mpr ⟨?_, linked.once⟩)
    intro listed
    obtain ⟨at_, accepted, stood⟩ := (linked.printed place).mp listed
    cases linked.index_eq peer accepted
    rw [notYet] at stood
    cases stood
  · intro entry listed
    rcases List.mem_append.mp listed with earlier | same
    · exact linked.lines entry earlier
    · cases List.mem_singleton.mp same
      refine ⟨client, clientHere, ?_⟩
      rw [isMessage]
      exact shown_greeting buffer client.clientId

theorem Linked.send
    (linked : dialogue.Linked) {index place : Nat} {thread : Thread}
    {clientSocket : Int}
    (here : dialogue.server.pool[index]? = some thread)
    (phase : thread.phase = .sending clientSocket)
    (peer : dialogue.peer clientSocket = some place) {server : Server}
    (served : dialogue.server.step (.thread index) = some server) :
    Linked
      { dialogue with
        server := server
        toClient :=
          Function.update dialogue.toClient place
            (some (message answer)) } := by
  rw [linked.peer_eq here (Or.inr phase)] at peer
  obtain ⟨base, batch⟩ := linked.batch
  have moved :
      server =
        dialogue.server.move index
          { thread with
            used :=
              thread.used ++ [dialogue.server.descriptors clientSocket] }
          .finished := by
    simp only [Server.step, linked.running, here, Server.threadStep,
      phase, Bool.false_eq_true, if_false, Option.some.injEq] at served
    exact served.symm
  have printedAt : ∀ other,
      server.printedAt other = dialogue.server.printedAt other := by
    intro other
    rw [moved]
    exact Server.any_set_same here (by simp [Thread.hasPrinted, phase]) other
  have finishedAt : ∀ other,
      server.finishedAt other =
        if other = index then true
        else dialogue.server.finishedAt other := by
    intro other
    rw [moved]
    exact Server.any_set here _ _ other
  refine
    { linked with
      batch := batch.step served
      running := by rw [moved]; exact linked.running
      spare := by rw [moved]; exact linked.spare
      length := ?_
      answered := ?_
      finished := ?_
      printed := ?_
      told := ?_ }
  · rw [moved, Server.connections, Server.move, List.length_set]
    exact linked.length
  · intro other bytes arrived
    by_cases same : other = place
    · subst same
      simp only [Function.update_self, Option.some.injEq] at arrived
      exact
        ⟨arrived.symm, index, peer, by rw [finishedAt, if_pos rfl]⟩
    · simp only [Function.update_of_ne same] at arrived
      obtain ⟨isAnswer, at_, accepted, done⟩ :=
        linked.answered other bytes arrived
      refine ⟨isAnswer, at_, accepted, ?_⟩
      rw [finishedAt, done, ite_self]
  · intro at_ other accepted done
    by_cases same : other = place
    · subst same
      exact Function.update_self _ _ _
    · simp only [Function.update_of_ne same]
      apply linked.finished at_ other accepted
      have different : at_ ≠ index := by
        rintro rfl
        exact same (Option.some.inj (accepted.symm.trans peer))
      rw [finishedAt, if_neg different] at done
      exact done
  · intro other
    simp only [printedAt]
    exact linked.printed other
  · intro other client line clientHere isDone
    obtain ⟨isAnswer, arrived⟩ := linked.told other client line clientHere isDone
    refine ⟨isAnswer, ?_⟩
    by_cases same : other = place
    · subst same
      exact Function.update_self _ _ _
    · exact (Function.update_of_ne same _ _).trans arrived

theorem Linked.client
    (linked : dialogue.Linked) {place : Nat} {client : Client}
    (here : dialogue.clients[place]? = some client) {phase : ClientPhase}
    {toServer : Nat → Option (List UInt8)}
    (isConnected : phase ≠ .starting)
    (others : ∀ other, other ≠ place →
      toServer other = dialogue.toServer other)
    (asked :
      toServer place =
        if Client.hasSent { client with phase := phase } then
          some (message (greeting client.clientId))
        else none)
    (told : ∀ line, phase = .done line →
      line = answer ∧ dialogue.toClient place = some (message answer)) :
    Linked
      { dialogue.moveClient place client phase with
        toServer := toServer } := by
  refine
    { linked with connected := ?_, asked := ?_, lines := ?_, told := ?_ }
  · intro other listed
    have before := linked.connected other listed
    by_cases same : place = other
    · subst same
      simp only [moveClient, getElem?_set_here here]
      simp [Client.isConnected, isConnected]
    · simp only [moveClient, List.getElem?_set_ne same]
      exact before
  · intro other otherClient otherHere
    rcases getElem?_set_cases otherHere with ⟨rfl, rfl⟩ | ⟨different, old⟩
    · exact asked
    · simp only [others other different]
      exact linked.asked other otherClient old
  · intro entry listed
    obtain ⟨entryClient, entryHere, isGreeting⟩ := linked.lines entry listed
    by_cases same : place = entry.1
    · subst same
      cases here.symm.trans entryHere
      exact ⟨_, getElem?_set_here here, isGreeting⟩
    · exact
        ⟨entryClient, (List.getElem?_set_ne same).trans entryHere,
          isGreeting⟩
  · intro other otherClient line otherHere isDone
    rcases getElem?_set_cases otherHere with ⟨rfl, rfl⟩ | ⟨_, old⟩
    · exact told line isDone
    · exact linked.told other otherClient line old isDone

theorem Linked.move
    (linked : dialogue.Linked) {place : Nat} {client : Client}
    (here : dialogue.clients[place]? = some client)
    (move : dialogue.ClientMove next place client) : next.Linked := by
  have asked := linked.asked place client here
  cases move with
  | connect phase moved =>
      subst moved
      rw [Client.hasSent, phase] at asked
      exact
        linked.client here ClientPhase.noConfusion (fun _ _ => rfl) asked
          (fun _ => ClientPhase.noConfusion)
  | send phase moved =>
      subst moved
      exact
        linked.client here ClientPhase.noConfusion
          (fun _ different => Function.update_of_ne different _ _)
          (Function.update_self _ _ _) (fun _ => ClientPhase.noConfusion)
  | receive buffer bytes phase received moved =>
      subst moved
      rw [Client.hasSent, phase] at asked
      obtain ⟨isAnswer, _⟩ := linked.answered place bytes received
      subst isAnswer
      refine
        linked.client here ClientPhase.noConfusion (fun _ _ => rfl) asked ?_
      intro line same
      rw [shown_answer] at same
      cases same
      exact ⟨rfl, received⟩

theorem Linked.step
    (linked : dialogue.Linked) {action : DialogueAction}
    (taken : dialogue.step action = some next) : next.Linked := by
  obtain ⟨base, batch⟩ := linked.batch
  cases step_cases taken with
  | client place client here move => exact linked.move here move
  | accept place result pending positive server served moved =>
      subst moved
      exact linked.accept pending positive served
  | main server served moved =>
      subst moved
      have taken : dialogue.server.mainStep = some server := by
        simpa [Server.step, linked.running] using served
      exact
        linked.quiet served
          (Server.quiet_of_main batch (Server.mainStep_cases taken))
  | read index thread here silent server served moved =>
      subst moved
      have taken : dialogue.server.threadStep index thread = some server := by
        simpa [Server.step, linked.running, here] using served
      cases Server.threadStep_cases taken with
      | read phase moved =>
          refine linked.quiet served ⟨?_, ?_, ?_, ?_, ?_⟩
          · rw [moved, Server.move]
          · rw [moved, Server.connections, Server.move, List.length_set]
            rfl
          · rw [moved]
            exact
              Server.any_set_same here (by simp [Thread.hasPrinted, phase])
          · rw [moved]
            exact
              Server.any_set_same here (by simp [Thread.isFinished, phase])
          · rw [moved]
            exact fun spare => spare
      | receive clientSocket phase _ =>
          rw [Thread.talks, phase] at silent
          cases silent
      | send clientSocket phase _ =>
          rw [Thread.talks, phase] at silent
          cases silent
  | receive index place thread clientSocket buffer bytes here phase peer
      arrived server served moved =>
      subst moved
      exact linked.receive buffer here phase peer arrived served
  | send index place thread clientSocket here phase peer server served
      moved =>
      subst moved
      exact linked.send here phase peer served

theorem linked_initial (fds : Nat → Int) (threads : Nat → Nat)
    (clientIds : List (BitVec 32)) :
    (initial fds threads clientIds).Linked where
  batch := ⟨0, Server.batch_initial fds threads⟩
  running := rfl
  spare := ⟨0, le_rfl, fun _ _ => rfl⟩
  nodup := List.nodup_nil
  connected := nofun
  length := rfl
  asked := by
    intro place client here
    obtain ⟨_, _, rfl⟩ := List.mem_map.mp (List.mem_of_getElem? here)
    rfl
  answered := nofun
  finished := nofun
  printed := by
    intro place
    simp [initial]
  once := List.nodup_nil
  lines := nofun
  told := by
    intro place client line here isDone
    obtain ⟨_, _, rfl⟩ := List.mem_map.mp (List.mem_of_getElem? here)
    cases isDone

end Steps

end Dialogue

end SistemasDistribuidos.Practica1.MultiHilo
