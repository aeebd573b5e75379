import Mathlib.Data.List.Perm.Subperm
import SistemasDistribuidos.Practica3.Session

/-!
# The lines of the clients

The requests of the server are those of the client threads, so the counter of
a line has counted at most as many increments as there are writers.  When all
client threads have printed, the writers have all been counted, and one of
them has printed the final value.
-/

namespace SistemasDistribuidos.Practica3

open SistemasDistribuidos Machine Pool

/-- The writers that the client programs start. -/
def writers (programs : List (Operation × Nat)) : Nat :=
  (programs.map
    (fun program => if program.1 = .write then program.2 else 0)).sum

namespace ClientThread

def isPrinted (thread : ClientThread) : Bool :=
  match thread.phase with
  | .printed _ => true
  | _ => false

theorem exists_line {thread : ClientThread}
    (printed : thread.isPrinted = true) :
    ∃ line, thread.phase = .printed line := by
  obtain ⟨action, threadId, phase⟩ := thread
  cases phase with
  | printed line => exact ⟨line, rfl⟩
  | _ => cases printed

/-- In one of the two modes. -/
def hasMode (action : Operation) (thread : ClientThread) : Bool :=
  thread.action = action

end ClientThread

/-- A request of one kind. -/
def Thread.isOf (action : Operation) (thread : Thread) : Bool :=
  thread.action = action

/-- Everything is of one kind or the other. -/
theorem countP_modes {Party : Type} (pool : List Party)
    (kind : Party → Operation) :
    pool.countP (fun party => kind party = .write) +
        pool.countP (fun party => kind party = .read) =
      pool.length := by
  induction pool with
  | nil => rfl
  | cons party rest inductionHypothesis =>
      simp only [List.countP_cons, List.length_cons]
      cases kind party <;> simp <;> omega

theorem Server.stored_le_writers (server : Server) :
    server.stored ≤ server.threads.countP (Thread.isOf .write) := by
  have shares : server.ledger.shares = server.threads.map Thread.share := rfl
  rw [stored, Ledger.stored, shares, List.countP_map]
  apply List.countP_mono_left
  intro thread _ wrote
  rw [Function.comp_apply, Share.hasWritten, Bool.and_eq_true] at wrote
  exact wrote.1

namespace Session

section Counting

variable {options : Options} {session : Session}

theorem mode_of_here
    {place : Nat} {thread : ClientThread}
    (here : session.clients[place]? = some thread) :
    session.mode place = some thread.action := by
  rw [mode, here]
  rfl

theorem Linked.inside
    (linked : session.Linked) {place : Nat}
    (listed : place ∈ session.accepted) : place < session.clients.length := by
  have isConnected := linked.connected place listed
  by_contra outside
  rw [List.getElem?_eq_none (Nat.le_of_not_lt outside)] at isConnected
  cases isConnected

/-- No connection is accepted twice. -/
theorem Linked.subperm
    (linked : session.Linked) :
    session.accepted.Subperm (List.range session.clients.length) :=
  linked.nodup.subperm
    (fun _ listed => List.mem_range.mpr (linked.inside listed))

/-- The threads of the server are those of accepted connections. -/
theorem Linked.length_talks
    (linked : session.Linked)
    (attributed : session.service.Attributed) :
    session.service.talks.length ≤ session.accepted.length := by
  rw [attributed.length, linked.length]
  exact Nat.le_add_right _ _

/-- Every request of a kind is that of a client thread of this mode. -/
theorem Linked.countP_le
    (linked : session.Linked)
    (attributed : session.service.Attributed) (action : Operation) :
    session.service.server.threads.countP (Thread.isOf action) ≤
      session.clients.countP (ClientThread.hasMode action) := by
  have fewer := linked.length_talks attributed
  have beside :
      session.service.talks.countP
          (fun talk => (talk.request.map (fun request =>
            session.service.server.threads[request]?.any
              (Thread.isOf action))).getD false) ≤
        (session.accepted.take session.service.talks.length).countP
          (fun place =>
            session.clients[place]?.any (ClientThread.hasMode action)) := by
    apply countP_le_of_beside
    · rw [List.length_take]
      omega
    · intro client talk place here accepted isOf
      rw [List.getElem?_take_of_lt (List.getElem?_eq_some_iff.mp here).1]
        at accepted
      cases own : talk.request with
      | none => simp [own] at isOf
      | some request =>
          obtain ⟨thread, there, mode⟩ :=
            linked.received client place request talk accepted here own
          rw [Session.mode] at mode
          obtain ⟨party, partyHere, same⟩ := Option.map_eq_some_iff.mp mode
          simp only [own, Option.map_some, Option.getD_some, there,
            Option.any_some, Thread.isOf, decide_eq_true_eq] at isOf
          simp [partyHere, ClientThread.hasMode, same, isOf]
  calc session.service.server.threads.countP (Thread.isOf action)
      _ = (session.service.talks.filterMap Talk.request).countP
            (fun request =>
              session.service.server.threads[request]?.any
                (Thread.isOf action)) := by
          rw [attributed.requests.countP_eq, countP_range]
      _ ≤ (session.accepted.take session.service.talks.length).countP
            (fun place =>
              session.clients[place]?.any (ClientThread.hasMode action)) := by
          rw [List.countP_filterMap]
          exact beside
      _ ≤ session.accepted.countP
            (fun place =>
              session.clients[place]?.any (ClientThread.hasMode action)) :=
          (List.take_sublist _ _).countP_le
      _ ≤ (List.range session.clients.length).countP
            (fun place =>
              session.clients[place]?.any (ClientThread.hasMode action)) :=
          linked.subperm.countP_le _
      _ = session.clients.countP (ClientThread.hasMode action) :=
          countP_range _ _

/-! ## When all have printed -/

/-- The thread of an accepted connection has sent the response, when its
client has printed. -/
theorem Linked.responded_of_printed
    (linked : session.Linked)
    (printed : ∀ thread ∈ session.clients, thread.isPrinted = true)
    {client place : Nat} (accepted : session.accepted[client]? = some place) :
    ∃ request counter,
      session.service.talks[client]? = some (.responded request counter) := by
  have inside := linked.inside (List.mem_of_getElem? accepted)
  have here := List.getElem?_eq_getElem inside
  obtain ⟨line, isLine⟩ :=
    ClientThread.exists_line (printed _ (List.getElem_mem inside))
  obtain ⟨bytes, arrived, _⟩ := linked.printed place _ line here isLine
  obtain ⟨other, request, counter, _, otherAccepted, told, _⟩ :=
    linked.answered place bytes arrived
  have same : other = client :=
    (List.getElem?_inj (List.getElem?_eq_some_iff.mp otherAccepted).1
      linked.nodup).mp (otherAccepted.trans accepted.symm)
  exact ⟨request, counter, same ▸ told⟩

/-- Then all connections have been accepted. -/
theorem Linked.accepted_of_printed
    (linked : session.Linked)
    (printed : ∀ thread ∈ session.clients, thread.isPrinted = true)
    {place : Nat} (inside : place < session.clients.length) :
    place ∈ session.accepted := by
  have here := List.getElem?_eq_getElem inside
  obtain ⟨line, isLine⟩ :=
    ClientThread.exists_line (printed _ (List.getElem_mem inside))
  obtain ⟨bytes, arrived, _⟩ := linked.printed place _ line here isLine
  obtain ⟨client, _, _, _, accepted, _⟩ :=
    linked.answered place bytes arrived
  exact List.mem_of_getElem? accepted

/-- And every request has been answered. -/
theorem Linked.idle_of_printed
    (linked : session.Linked)
    (attributed : session.service.Attributed)
    (printed : ∀ thread ∈ session.clients, thread.isPrinted = true) :
    session.service.server.Idle := by
  intro thread listed
  obtain ⟨request, there⟩ := List.mem_iff_getElem?.mp listed
  have inside := (List.getElem?_eq_some_iff.mp there).1
  obtain ⟨talk, talkListed, own⟩ :=
    List.mem_filterMap.mp
      (attributed.requests.mem_iff.mpr (List.mem_range.mpr inside))
  obtain ⟨client, here⟩ := List.mem_iff_getElem?.mp talkListed
  have within :=
    (List.getElem?_eq_some_iff.mp here).1.trans_le
      (linked.length_talks attributed)
  obtain ⟨other, counter, told⟩ :=
    linked.responded_of_printed printed (List.getElem?_eq_getElem within)
  cases here.symm.trans told
  cases own
  obtain ⟨finishedThread, finishedThere, finished⟩ :=
    attributed.answered client request counter told
  cases there.symm.trans finishedThere
  exact ⟨counter, finished⟩

/-- There are then as many requests as client threads. -/
theorem Linked.length_of_printed
    (linked : session.Linked)
    (attributed : session.service.Attributed)
    (printed : ∀ thread ∈ session.clients, thread.isPrinted = true) :
    session.clients.length ≤ session.service.server.threads.length := by
  have covers :
      (List.range session.clients.length).Subperm session.accepted :=
    List.nodup_range.subperm
      (fun _ listed =>
        linked.accepted_of_printed printed (List.mem_range.mp listed))
  have all := covers.length_le
  rw [List.length_range] at all
  have requests := attributed.requests.length_eq
  rw [List.length_range, List.length_filterMap_eq_countP] at requests
  have beside :
      session.accepted.countP (fun _ => true) ≤
        session.service.talks.countP (fun talk => talk.request.isSome) := by
    apply countP_le_of_beside
    · refine le_antisymm ?_ (linked.length_talks attributed)
      by_contra longer
      have within := Nat.lt_of_not_le longer
      obtain ⟨request, counter, told⟩ :=
        linked.responded_of_printed printed
          (List.getElem?_eq_getElem within)
      exact
        absurd (List.getElem?_eq_some_iff.mp told).1 (Nat.lt_irrefl _)
    · intro client place talk accepted here _
      obtain ⟨request, counter, told⟩ :=
        linked.responded_of_printed printed accepted
      cases here.symm.trans told
      rfl
  rw [List.countP_true] at beside
  omega

/-- So every writer has had its request. -/
theorem Linked.writers_of_printed
    (linked : session.Linked)
    (attributed : session.service.Attributed)
    (printed : ∀ thread ∈ session.clients, thread.isPrinted = true) :
    session.service.server.threads.countP (Thread.isOf .write) =
      session.clients.countP (ClientThread.hasMode .write) := by
  have longer := linked.length_of_printed attributed printed
  have write := linked.countP_le attributed .write
  have read := linked.countP_le attributed .read
  have threads :
      session.service.server.threads.countP (Thread.isOf .write) +
          session.service.server.threads.countP (Thread.isOf .read) =
        session.service.server.threads.length :=
    countP_modes _ Thread.action
  have clients :
      session.clients.countP (ClientThread.hasMode .write) +
          session.clients.countP (ClientThread.hasMode .read) =
        session.clients.length :=
    countP_modes _ ClientThread.action
  omega

/-! ## What the programs have started -/

theorem countP_program (action : Operation) (threads : Nat) :
    (ClientThread.program action threads).countP
        (ClientThread.hasMode .write) =
      if action = .write then threads else 0 := by
  rw [ClientThread.program, List.countP_map]
  cases action with
  | write =>
      rw [if_pos rfl]
      exact
        (List.countP_eq_length.mpr (fun _ _ => rfl)).trans List.length_range
  | read =>
      rw [if_neg Operation.noConfusion]
      exact List.countP_eq_zero.mpr (fun _ _ => Bool.noConfusion)

theorem Kept.writers
    {counter : BitVec 32} {output : List Char}
    {programs : List (Operation × Nat)}
    (kept : session.Kept options counter output programs) :
    session.clients.countP (ClientThread.hasMode .write) =
      writers programs := by
  have mapped : ∀ clients : List ClientThread,
      clients.countP (ClientThread.hasMode .write) =
        (clients.map ClientThread.given).countP
          (fun given => given.1 = .write) := by
    intro clients
    rw [List.countP_map]
    rfl
  rw [mapped, kept.given, ← mapped, initial, List.countP_flatMap,
    Practica3.writers]
  congr 1
  apply List.map_congr_left
  intro program _
  exact countP_program program.1 program.2

end Counting

/-! ## All the way -/

/-- What a client thread has printed is what its own request has returned.  If
the request had not arrived when the server was in the state `before`, it has
counted every increment stored by then, and, if it writes, its own besides. -/
structure LineOf (before : Server) (session : Session) (start : BitVec 32)
    (most place : Nat) (thread : ClientThread) (line : Line) : Prop where
  threadId : line.threadId = thread.threadId
  mode : line.mode = thread.action
  waitingTime : line.waitingTime = (session.waited place).toInt
  counter : ∃ (client request seen : Nat) (entry : Thread)
      (response : BitVec 32),
    session.accepted[client]? = some place ∧
      session.service.talks[client]? = some (.responded request response) ∧
      session.service.server.threads[request]? = some entry ∧
      entry.action = thread.action ∧
      entry.phase = .finished response ∧
      line.counter = response.toInt ∧
      response = start + BitVec.ofNat 32 seen ∧
      seen ≤ most ∧
      (thread.action = .write → 0 < seen) ∧
      (before.threads.length ≤ request →
        before.stored ≤ seen ∧
          (thread.action = .write → before.stored < seen))

section Results

variable {options : Options} {session : Session} {start : BitVec 32}
  {output : List Char} {programs : List (Operation × Nat)}

theorem Kept.lineOf
    (kept : session.Kept options start output programs)
    {before : Server} {first second : List ServerAction}
    (earlier :
      run (Server.step options) (Server.initial start output) first =
        some before)
    (onwards :
      run (Server.step options) before second =
        some session.service.server)
    {place : Nat} {thread : ClientThread} {line : Line}
    (here : session.clients[place]? = some thread)
    (printed : thread.phase = .printed line) :
    session.LineOf before start (Practica3.writers programs) place thread
      line := by
  obtain ⟨bytes, arrived, rfl⟩ :=
    kept.linked.printed place thread line here printed
  obtain ⟨client, request, response, action, accepted, told, mode, isLine⟩ :=
    kept.linked.answered place bytes arrived
  rw [mode_of_here here] at mode
  cases mode
  obtain ⟨entry, there, sameMode⟩ :=
    kept.linked.received client place request _ accepted told rfl
  rw [mode_of_here here] at sameMode
  have sameAction : entry.action = thread.action :=
    (Option.some.inj sameMode).symm
  obtain ⟨finishedEntry, finishedThere, finished⟩ :=
    kept.sound.attributed.answered client request response told
  cases there.symm.trans finishedThere
  have most :
      session.service.server.stored ≤ Practica3.writers programs := by
    rw [← kept.writers]
    exact
      (Server.stored_le_writers _).trans
        (kept.linked.countP_le kept.sound.attributed .write)
  rw [isLine]
  by_cases absent : before.threads.length ≤ request
  · obtain ⟨seen, value, notBefore, notAfter, own⟩ :=
      Server.told_of_run earlier onwards absent there finished
    have ownStored : thread.action = .write → before.stored < seen :=
      fun writes => own (sameAction.trans writes)
    exact
      ⟨rfl, rfl, rfl, client, request, seen, entry, response, accepted,
        told, there, sameAction, finished, rfl, value, notAfter.trans most,
        fun writes => Nat.zero_lt_of_lt (ownStored writes),
        fun _ => ⟨notBefore, ownStored⟩⟩
  · -- the request was there before; it has come after the beginning
    obtain ⟨seen, value, _, notAfter, own⟩ :=
      Server.told_of_run (run_nil (Server.initial start output))
        (run_append_eq_some.mpr ⟨before, earlier, onwards⟩)
        (Nat.zero_le request) there finished
    exact
      ⟨rfl, rfl, rfl, client, request, seen, entry, response, accepted,
        told, there, sameAction, finished, rfl, value, notAfter.trans most,
        fun writes => Nat.zero_lt_of_lt (own (sameAction.trans writes)),
        fun isAbsent => absurd isAbsent absent⟩

/-- When all have printed, the last increment has been counted too. -/
theorem Kept.counter_of_printed
    (kept : session.Kept options start output programs)
    (printed : ∀ thread ∈ session.clients, thread.isPrinted = true) :
    session.service.server.stored = Practica3.writers programs ∧
      session.service.server.counter =
        start + BitVec.ofNat 32 (Practica3.writers programs) := by
  have idle := kept.linked.idle_of_printed kept.sound.attributed printed
  obtain ⟨moves, served⟩ := kept.served
  obtain ⟨serverMoves, serverServed⟩ := Service.server_of_run served
  have counted :
      session.service.server.stored =
        session.service.server.threads.countP (Thread.isOf .write) := by
    rw [Server.stored, Ledger.stored, Server.countP_hasWritten_of_idle idle]
    apply List.countP_congr
    intro thread listed
    obtain ⟨response, finished⟩ := idle thread listed
    simp [Server.isCompleted, Thread.isOf, finished, Phase.isFinished]
  rw [kept.linked.writers_of_printed kept.sound.attributed printed,
    kept.writers] at counted
  refine ⟨counted, ?_⟩
  rw [← counted]
  exact (Server.balanced_of_run serverServed).counter

/-- And the writer that has made it has printed the final value. -/
theorem Kept.exists_last_line
    (kept : session.Kept options start output programs)
    (printed : ∀ thread ∈ session.clients, thread.isPrinted = true)
    (hasWriter : 0 < Practica3.writers programs) :
    ∃ thread ∈ session.clients, ∃ line,
      thread.phase = .printed line ∧ line.mode = .write ∧
        line.counter = session.service.server.counter.toInt := by
  have idle := kept.linked.idle_of_printed kept.sound.attributed printed
  obtain ⟨moves, served⟩ := kept.served
  obtain ⟨serverMoves, serverServed⟩ := Service.server_of_run served
  have stored := (kept.counter_of_printed printed).1
  have positive : 0 < session.service.server.ledger.stored :=
    lt_of_lt_of_eq hasWriter stored.symm
  -- The request of the writer that has stored last.
  obtain ⟨request, progress, shared, _, told⟩ :=
    Server.latest_of_run serverServed positive
  rw [Server.ledger, List.getElem?_map] at shared
  obtain ⟨entry, there, isShare⟩ := Option.map_eq_some_iff.mp shared
  obtain ⟨isWrite, isProgress⟩ := Share.mk.inj isShare
  obtain ⟨response, finished⟩ := idle entry (List.mem_of_getElem? there)
  rw [finished] at isProgress
  have value : response = session.service.server.counter :=
    told response isProgress.symm
  -- The client thread that it belongs to.
  have inside := (List.getElem?_eq_some_iff.mp there).1
  obtain ⟨talk, listed, own⟩ :=
    List.mem_filterMap.mp
      (kept.sound.attributed.requests.mem_iff.mpr (List.mem_range.mpr inside))
  obtain ⟨client, here⟩ := List.mem_iff_getElem?.mp listed
  have within :=
    (List.getElem?_eq_some_iff.mp here).1.trans_le
      (kept.linked.length_talks kept.sound.attributed)
  have accepted := List.getElem?_eq_getElem within
  generalize session.accepted[client] = place at accepted
  have placed := kept.linked.inside (List.mem_of_getElem? accepted)
  have threadHere := List.getElem?_eq_getElem placed
  have threadListed := List.getElem_mem placed
  obtain ⟨line, isLine⟩ :=
    ClientThread.exists_line (printed _ threadListed)
  generalize session.clients[place] = thread at threadHere threadListed isLine
  have lineOf :=
    kept.lineOf serverServed (run_nil session.service.server) threadHere
      isLine
  obtain
    ⟨other, otherRequest, _, otherEntry, otherResponse, otherAccepted,
      otherTold, otherThere, sameAction, otherFinished, counter, _⟩ :=
    lineOf.counter
  have same : other = client :=
    (List.getElem?_inj (List.getElem?_eq_some_iff.mp otherAccepted).1
      kept.linked.nodup).mp (otherAccepted.trans accepted.symm)
  subst same
  cases here.symm.trans otherTold
  cases own
  cases there.symm.trans otherThere
  cases finished.symm.trans otherFinished
  refine ⟨thread, threadListed, line, isLine, ?_, ?_⟩
  · rw [lineOf.mode, ← sameAction]
    exact isWrite
  · rw [counter, value]

end Results

/-- Every client thread prints its own number and mode and the counter that
its own request has returned: that has counted at most all writers, every
increment that was stored before the request arrived, and, if it writes, its
own.  When all have printed, the counter has counted all writers, and a writer
has printed it. -/
theorem lines_of_clients
    (options : Options) (start : BitVec 32) (output : List Char)
    (programs : List (Operation × Nat)) {first second : List SessionAction}
    {before final : Session}
    (positive :
      Obeys (step options) Positive (initial start output programs)
        (first ++ second))
    (reached :
      run (step options) (initial start output programs) first =
        some before)
    (onwards : run (step options) before second = some final) :
    (∀ (place : Nat) (thread : ClientThread) (line : Line),
        final.clients[place]? = some thread →
          thread.phase = .printed line →
            final.LineOf before.service.server start (writers programs)
              place thread line) ∧
      ((∀ thread ∈ final.clients, thread.isPrinted = true) →
        final.service.server.counter =
            start + BitVec.ofNat 32 (writers programs) ∧
          (0 < writers programs →
            ∃ thread ∈ final.clients, ∃ line,
              thread.phase = .printed line ∧ line.mode = .write ∧
                line.counter =
                  (start + BitVec.ofNat 32 (writers programs)).toInt)) := by
  have kept :=
    kept_of_run positive (run_append_eq_some.mpr ⟨before, reached, onwards⟩)
  obtain ⟨_, served⟩ := service_of_run reached
  obtain ⟨_, earlier⟩ := Service.server_of_run served
  obtain ⟨_, servedOn⟩ := service_of_run onwards
  obtain ⟨_, later⟩ := Service.server_of_run servedOn
  refine
    ⟨fun _ _ _ here printed => kept.lineOf earlier later here printed, ?_⟩
  intro printed
  have counter := (kept.counter_of_printed printed).2
  refine ⟨counter, fun hasWriter => ?_⟩
  rw [← counter]
  exact kept.exists_last_line printed hasWriter

/-- A writer and a reader connect; the reader is accepted first, and the
writer goes as far as the store of its increment. -/
def writerStores : List SessionAction :=
  [.connect 0, .connect 1, .send 1 ⟨List.replicate 8 7, rfl⟩,
    .send 0 ⟨List.replicate 8 7, rfl⟩, .accept 1 4] ++
    List.replicate 7 .main ++ [.accept 0 5] ++ List.replicate 7 .main ++
    [.receive 1] ++ List.replicate 9 (.request 1 none)

/-- The reader's request arrives, and both take turns until they are done. -/
def readerFollows : List SessionAction :=
  [.receive 0] ++
    (List.replicate 5 [.request 0 none, .request 1 none]).flatten ++
    [.respond 1 ⟨List.replicate 16 7, rfl⟩ 75000000, .finish 1, .print 0] ++
    (List.replicate 4 [.request 0 none, .finish 1]).flatten ++
    [.request 0 none, .request 0 none,
      .respond 0 ⟨List.replicate 16 7, rfl⟩ 80000000, .finish 0, .print 1] ++
    List.replicate 4 (.finish 0)

theorem lines_of_clients_two :
    ∃ before final : Session,
      run (step ⟨.write, 0⟩) (initial 41 [] [(.write, 1), (.read, 1)])
            writerStores = some before ∧
        run (step ⟨.write, 0⟩) before readerFollows = some final ∧
        final.clients =
          [⟨.write, 0, .printed ⟨0, .write, 42, 75000000⟩⟩,
            ⟨.read, 0, .printed ⟨0, .read, 42, 80000000⟩⟩] ∧
        final.service.server.counter = 42 := by
  have evaluated :
      (run (step ⟨.write, 0⟩) (initial 41 [] [(.write, 1), (.read, 1)])
        (writerStores ++ readerFollows)).map Session.clients =
          some
            [⟨.write, 0, .printed ⟨0, .write, 42, 75000000⟩⟩,
              ⟨.read, 0, .printed ⟨0, .read, 42, 80000000⟩⟩] := by
    decide +kernel
  have positive :
      Obeys (step ⟨.write, 0⟩) Positive
        (initial 41 [] [(.write, 1), (.read, 1)])
        (writerStores ++ readerFollows) := by
    decide +kernel
  obtain ⟨final, all, clients⟩ := Option.map_eq_some_iff.mp evaluated
  obtain ⟨before, reached, onwards⟩ := run_append_eq_some.mp all
  refine ⟨before, final, reached, onwards, clients, ?_⟩
  have results :=
    lines_of_clients ⟨.write, 0⟩ 41 [] [(.write, 1), (.read, 1)] positive
      reached onwards
  refine (results.2 ?_).1
  rw [clients]
  simp [ClientThread.isPrinted]

end Session

end SistemasDistribuidos.Practica3
