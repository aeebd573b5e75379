import SistemasDistribuidos.Practica2.Progress

/-!
# The order of the shutdown

The steps of P2 keep everybody at its place in its script, and the properties
of the shutdown are read off the scripts: what P2 has received when it leaves,
what it drops, and what the clocks are.
-/

namespace SistemasDistribuidos.Practica2

open SistemasDistribuidos Machine

/-! ## A step of P2 -/

section ServerSteps

variable {first heard later peer : Peer} {system next : System}

/-- A step of P2. -/
theorem InOrder.of_server
    (inOrder : InOrder first heard system) {log : List Event}
    (clients : next.client = system.client)
    (server : ServerAt later next.server)
    (client : ∀ peer,
      ClientAt first peer next.server.stage (system.client peer)
        (next.toServer peer) (next.toClient peer))
    (printed : next.log = system.log ++ log)
    (own : ∀ event ∈ log, event.process = .p2)
    (lines : (serverScript later).take next.server.lines =
      (serverScript heard).take system.server.lines ++ log) :
    InOrder first later next where
  server := server
  client := by
    rw [clients]
    exact client
  serverLines := by
    have all : log.filter (fun event => event.process = .p2) = log := by
      rw [List.filter_eq_self]
      intro event listed
      exact decide_eq_true (own event listed)
    rw [printed_append printed, inOrder.serverLines, all, lines]
  clientLines := by
    intro peer
    have none : log.filter (fun event => event.process = peer.name) = [] := by
      rw [List.filter_eq_nil_iff]
      intro event listed isClient
      rw [own event listed, decide_eq_true_eq] at isClient
      exact peer.name_ne isClient.symm
    rw [printed_append printed, none, List.append_nil, clients]
    exact inOrder.clientLines peer

/-- A step of P2 that prints nothing. -/
theorem InOrder.of_silent
    (inOrder : InOrder first heard system)
    (clients : next.client = system.client)
    (server : ServerAt later next.server)
    (client : ∀ peer,
      ClientAt first peer next.server.stage (system.client peer)
        (next.toServer peer) (next.toClient peer))
    (printed : next.log = system.log)
    (lines : (serverScript later).take next.server.lines =
      (serverScript heard).take system.server.lines) :
    InOrder first later next := by
  refine inOrder.of_server clients server client
    (printed.trans (List.append_nil _).symm) ?_
    (lines.trans (List.append_nil _).symm)
  intro event impossible
  cases impossible

theorem expects_iff (small : system.server.currentId < 3) :
    system.expects = true ↔
      system.server.message.clockLamport =
        4 * system.server.currentId + 1 := by
  rw [System.expects, decide_eq_true_eq]
  generalize system.server.currentId = id at small
  have which : id = 0 ∨ id = 1 ∨ id = 2 := by omega
  rcases which with rfl | rfl | rfl <;>
    simp [expectedLamport, eq_comm]

theorem ServerAt.at_poll
    {server : Server} (stands : ServerAt heard server)
    (polls : server.place = .pollingFirst ∨
      server.place = .pollingSecond) :
    server.currentId < 3 ∧ server.lamport = 4 * server.currentId - 1 ∧
      server.message.clockLamport ≠ 4 * server.currentId + 1 := by
  cases stands with
  | polling _ currentId lamport clock => exact ⟨currentId, lamport, clock⟩
  | accepting place => rcases polls with polls | polls <;> simp [polls] at place
  | matched place => rcases polls with polls | polls <;> simp [polls] at place
  | notifyingFirst place =>
      rcases polls with polls | polls <;> simp [polls] at place
  | notifyingSecond place =>
      rcases polls with polls | polls <;> simp [polls] at place
  | advancing place =>
      rcases polls with polls | polls <;> simp [polls] at place
  | done place => rcases polls with polls | polls <;> simp [polls] at place

theorem progress_at_poll
    (server : Server) (polls : server.place = .pollingFirst ∨
      server.place = .pollingSecond) :
    server.stage = 5 * server.currentId ∧
      server.lines = 2 * server.currentId := by
  rcases polls with polls | polls <;>
    simp [Server.stage, Server.lines, ServerPlace.offset,
      ServerPlace.lines, polls]

/-- P2 moves on and does nothing else. -/
theorem InOrder.setPlace
    (inOrder : InOrder first heard system) {place : ServerPlace}
    (server : ServerAt heard (system.setPlace place).server)
    (offset : place.offset = system.server.place.offset)
    (lines : place.lines = system.server.place.lines) :
    InOrder first heard (system.setPlace place) := by
  have sameStage :
      (system.setPlace place).server.stage = system.server.stage :=
    congrArg (5 * system.server.currentId + ·) offset
  have sameLines :
      (system.setPlace place).server.lines = system.server.lines :=
    congrArg (2 * system.server.currentId + ·) lines
  refine inOrder.of_silent rfl server ?_ rfl (by rw [sameLines])
  rw [sameStage]
  exact inOrder.client

/-- A poll that finds nothing. -/
theorem InOrder.poll_nothing
    (inOrder : InOrder first heard system)
    (polls : system.server.place = .pollingFirst ∨
      system.server.place = .pollingSecond)
    {place : ServerPlace}
    (goesOn : place = .pollingFirst ∨ place = .pollingSecond) :
    system.expects = false ∧
      InOrder first heard (system.setPlace place) := by
  obtain ⟨currentId, lamport, clock⟩ := inOrder.server.at_poll polls
  constructor
  · rw [Bool.eq_false_iff, ne_eq, expects_iff currentId]
    exact clock
  · apply inOrder.setPlace (.polling goesOn currentId lamport clock)
    · rcases polls with polls | polls <;> rw [polls] <;>
        rcases goesOn with rfl | rfl <;> rfl
    · rcases polls with polls | polls <;> rw [polls] <;>
        rcases goesOn with rfl | rfl <;> rfl

/-- P2 hears the first client. -/
theorem InOrder.hear
    (inOrder : InOrder first heard system)
    (polls : system.server.place = .pollingFirst ∨
      system.server.place = .pollingSecond)
    {rest : List Message}
    (queue : system.toServer peer = ready peer :: rest)
    (begins : system.server.currentId = 0) :
    InOrder first peer
      ((system.recv peer (ready peer) rest).setPlace .matched) := by
  obtain ⟨small, lamport, _⟩ := inOrder.server.at_poll polls
  obtain ⟨stage, lines⟩ := progress_at_poll system.server polls
  refine inOrder.of_silent rfl (.matched rfl small lamport ?_ rfl) ?_ rfl ?_
  · simp [System.setPlace, System.recv, begins, due]
  · intro other
    have bounds := threshold_bounds first other
    have later :
        ((system.recv peer (ready peer) rest).setPlace
          .matched).server.stage = 1 := by
      simp [System.setPlace, System.recv, Server.stage, begins,
        ServerPlace.offset]
    have stands :
        ClientAt first other 1 (system.client other)
          (system.toServer other) (system.toClient other) := by
      apply (inOrder.client other).stay (by omega)
      · exact pushed_eq (by omega) (by omega)
      · cases other <;> simp [ackStage]
    rw [later]
    by_cases same : other = peer
    · subst same
      rw [queue] at stands
      simp only [System.setPlace, System.recv, Function.update_self]
      exact stands.read_ready (Nat.le_refl 1)
    · simp only [System.setPlace, System.recv, Function.update_of_ne same]
      exact stands
  · rw [lines, begins]
    simp [System.setPlace, System.recv, Server.lines, begins,
      ServerPlace.lines]

/-- P2 drops the first message of the other client. -/
theorem InOrder.drop
    (inOrder : InOrder first heard system)
    (polls : system.server.place = .pollingFirst ∨
      system.server.place = .pollingSecond)
    {rest : List Message}
    (queue : system.toServer peer = ready peer :: rest)
    (begun : system.server.currentId ≠ 0) {place : ServerPlace}
    (goesOn : place = .pollingFirst ∨ place = .pollingSecond) :
    InOrder first heard
      ((system.recv peer (ready peer) rest).setPlace place) := by
  obtain ⟨small, lamport, _⟩ := inOrder.server.at_poll polls
  obtain ⟨stage, lines⟩ := progress_at_poll system.server polls
  have after :=
    progress_at_poll
      ((system.recv peer (ready peer) rest).setPlace place).server goesOn
  refine inOrder.of_silent rfl (.polling goesOn small lamport ?_) ?_ rfl ?_
  · simp only [System.setPlace, System.recv, ready]
    omega
  · intro other
    rw [after.1]
    have stands := inOrder.client other
    rw [stage] at stands
    by_cases same : other = peer
    · subst same
      rw [queue] at stands
      simp only [System.setPlace, System.recv, Function.update_self]
      exact stands.read_ready (by omega)
    · simp only [System.setPlace, System.recv, Function.update_of_ne same]
      exact stands
  · rw [after.2, lines]
    rfl

/-- P2 receives the answer that it waits for. -/
theorem InOrder.answer
    (inOrder : InOrder first heard system)
    (polls : system.server.place = .pollingFirst ∨
      system.server.place = .pollingSecond)
    {rest : List Message}
    (queue : system.toServer peer = ack peer :: rest) :
    goal peer + 2 = 4 * system.server.currentId + 1 ∧
      InOrder first heard
        ((system.recv peer (ack peer) rest).setPlace .matched) := by
  obtain ⟨small, lamport, _⟩ := inOrder.server.at_poll polls
  obtain ⟨stage, lines⟩ := progress_at_poll system.server polls
  have bounds := threshold_bounds first
  have turn :
      goal peer + 2 = 4 * system.server.currentId + 1 ∧
        ackStage peer = 5 * system.server.currentId + 1 := by
    have own := inOrder.client peer
    rw [queue, stage] at own
    rcases own.head with same | ⟨_, reached, before⟩
    · simp [ready, ack] at same
    · cases peer with
      | p1 =>
          have bound := bounds .p1
          simp only [goalStage, ackStage, goal] at reached before ⊢
          omega
      | p3 =>
          have bound := bounds .p3
          simp only [goalStage, ackStage, goal] at reached before ⊢
          omega
  obtain ⟨clock, answered⟩ := turn
  refine ⟨clock, inOrder.of_silent rfl
    (.matched rfl small lamport ?_ rfl) ?_ rfl ?_⟩
  · have which :
        system.server.currentId = 1 ∧ peer = .p1 ∨
          system.server.currentId = 2 ∧ peer = .p3 := by
      cases peer with
      | p1 =>
          refine Or.inl ⟨?_, rfl⟩
          simp only [goal] at clock
          omega
      | p3 =>
          refine Or.inr ⟨?_, rfl⟩
          simp only [goal] at clock
          omega
    rcases which with ⟨id, rfl⟩ | ⟨id, rfl⟩ <;>
      simp [System.setPlace, System.recv, id, due]
  · intro other
    have bound := bounds other
    have after :
        ((system.recv peer (ack peer) rest).setPlace .matched).server.stage =
          5 * system.server.currentId + 1 := rfl
    have stands := inOrder.client other
    rw [stage] at stands
    rw [after]
    by_cases same : other = peer
    · subst same
      rw [queue] at stands
      simp only [System.setPlace, System.recv, Function.update_self]
      exact stands.read_ack (Nat.le_succ _) (by omega)
    · simp only [System.setPlace, System.recv, Function.update_of_ne same]
      apply stands.stay (Nat.le_succ _)
      · exact pushed_eq (Nat.le_succ _) (by omega)
      · intro reached
        have different : ackStage other ≠ ackStage peer := by
          cases other <;> cases peer <;> simp [ackStage] at same ⊢
        omega
  · rw [lines]
    rfl

/-- A poll that finds a message. -/
theorem InOrder.poll_message
    (inOrder : InOrder first heard system)
    (polls : system.server.place = .pollingFirst ∨
      system.server.place = .pollingSecond)
    {message : Message} {rest : List Message}
    (queue : system.toServer peer = message :: rest) :
    (system.recv peer message rest).expects = true ∧
        (∃ later, InOrder first later
          ((system.recv peer message rest).setPlace .matched)) ∨
      (system.recv peer message rest).expects = false ∧
        ∀ place, place = .pollingFirst ∨ place = .pollingSecond →
          InOrder first heard
            ((system.recv peer message rest).setPlace place) := by
  obtain ⟨small, _, _⟩ := inOrder.server.at_poll polls
  have expects :
      (system.recv peer message rest).expects = true ↔
        message.clockLamport = 4 * system.server.currentId + 1 :=
    expects_iff small
  have own := inOrder.client peer
  rw [queue] at own
  rcases own.head with rfl | ⟨rfl, _, _⟩
  · by_cases begins : system.server.currentId = 0
    · refine Or.inl ⟨expects.mpr ?_, peer, inOrder.hear polls queue begins⟩
      rw [begins]
      rfl
    · refine Or.inr ⟨?_, fun place => inOrder.drop polls queue begins⟩
      rw [Bool.eq_false_iff, ne_eq, expects]
      simp only [ready]
      omega
  · obtain ⟨clock, answered⟩ := inOrder.answer polls queue
    exact Or.inl ⟨expects.mpr clock, heard, answered⟩

theorem clock_due (heard : Peer) {id : Nat} (small : id < 3) :
    (due heard id).clockLamport = 4 * id + 1 := by
  have which : id = 0 ∨ id = 1 ∨ id = 2 := by omega
  rcases which with rfl | rfl | rfl <;> rfl

theorem take_serverScript_now (heard : Peer) {id : Nat} (small : id < 2) :
    (serverScript heard).take (2 * id + 2) =
      (serverScript heard).take (2 * id + 1) ++
        [.send .p2 (4 * id + 3) .shutdownNow] := by
  have which : id = 0 ∨ id = 1 := by omega
  rcases which with rfl | rfl <;> rfl

theorem take_serverScript (heard : Peer) {id : Nat} (small : id < 3) :
    (serverScript heard).take (2 * id + 1) =
      (serverScript heard).take (2 * id) ++
        [.recv .p2 (4 * id + 2) (some (due heard id).origin)
          (due heard id)] := by
  have which : id = 0 ∨ id = 1 ∨ id = 2 := by omega
  rcases which with rfl | rfl | rfl <;> rfl

/-- P2 prints what it has received. -/
theorem InOrder.accept
    (inOrder : InOrder first heard system)
    {ready : Bool} (place : system.server.place = .matched)
    (small : system.server.currentId < 3)
    (lamport : system.server.lamport = 4 * system.server.currentId - 1)
    (message : system.server.message = due heard system.server.currentId)
    (source : system.server.source = some system.server.message.origin)
    (taken : system.serverStep first ready = some next) :
    InOrder first heard next := by
  have clock : system.server.message.clockLamport =
      4 * system.server.currentId + 1 := by
    rw [message]
    exact clock_due heard small
  have accepted : receiveClock system.server.lamport
      system.server.message.clockLamport =
        4 * system.server.currentId + 2 := by
    rw [receiveClock, if_pos (by omega), clock]
  have stage : system.server.stage = 5 * system.server.currentId + 1 := by
    rw [Server.stage, place]
    rfl
  have lines : system.server.lines = 2 * system.server.currentId := by
    rw [Server.lines, place]
    rfl
  have prints :
      (serverScript heard).take (2 * system.server.currentId + 1) =
        (serverScript heard).take (2 * system.server.currentId) ++
          [.recv .p2 (4 * system.server.currentId + 2)
            (some (due heard system.server.currentId).origin)
            (due heard system.server.currentId)] :=
    take_serverScript heard small
  have own :
      ∀ event ∈ [Event.recv .p2 (4 * system.server.currentId + 2)
        system.server.source system.server.message],
        event.process = .p2 := by
    intro event listed
    rw [List.mem_singleton.mp listed]
    rfl
  have stands : ∀ later, system.server.stage ≤ later →
      later ≤ 5 * system.server.currentId + 2 ∨
        system.server.currentId = 2 ∧ later ≤ 14 →
      ∀ peer, ClientAt first peer later (system.client peer)
        (system.toServer peer) (system.toClient peer) := by
    intro later grows soon peer
    have bound := threshold_bounds first peer
    apply (inOrder.client peer).stay grows
    · exact pushed_eq grows (by omega)
    · cases peer <;> simp only [ackStage] <;> omega
  by_cases more : system.server.currentId < 2
  · have notifies :
        system.server.message.clockLamport = 1 ∨
          system.server.message.clockLamport = 5 := by
      omega
    simp only [System.serverStep, place, accepted, if_pos notifies] at taken
    cases taken
    refine inOrder.of_server rfl (.notifyingFirst rfl more rfl) ?_ rfl own ?_
    · have after : 5 * system.server.currentId + 2 =
          5 * system.server.currentId + ServerPlace.notifyingFirst.offset :=
        rfl
      simp only [Server.stage, ← after]
      exact stands _ (by omega) (Or.inl (Nat.le_refl _))
    · rw [lines, source, message]
      exact prints
  · have last : system.server.currentId = 2 := by omega
    have silent :
        ¬ (system.server.message.clockLamport = 1 ∨
          system.server.message.clockLamport = 5) := by
      omega
    simp only [System.serverStep, place, accepted, if_neg silent] at taken
    cases taken
    refine inOrder.of_server rfl (.advancing rfl small ?_) ?_ rfl own ?_
    · simp only [last]
      rfl
    · simp only [Server.stage, ServerPlace.offset, last]
      exact stands _ (by omega) (Or.inr ⟨last, Nat.le_refl _⟩)
    · rw [lines, source, message, ← prints]
      simp only [Server.lines, ServerPlace.lines, last]
      rfl

/-- P2 sends to one client, and not to the other. -/
theorem InOrder.send
    (inOrder : InOrder first heard system) (peer : Peer)
    {later : Nat} {id : Nat} (small : id < 2)
    (before : system.server.stage + 1 = later)
    (after : later = 5 * id + threshold first peer) :
    ∀ other,
      ClientAt first other later (system.client other)
        (system.toServer other)
        ((if (system.client peer).place = .closed then system.toClient
          else
            Function.update system.toClient peer
              (system.toClient peer ++ [now (4 * id + 3)])) other) := by
  intro other
  have bounds := threshold_bounds first
  have notAnswered :
      ackStage other ≤ later → ackStage other ≤ system.server.stage := by
    have bound := bounds peer
    cases other <;> simp only [ackStage] <;> omega
  by_cases same : other = peer
  · subst same
    have sent :=
      (inOrder.client other).send (by omega)
        (pushed_append small (by omega) after) notAnswered
    split at sent
    · rw [if_pos (by assumption)]
      exact sent
    · rw [if_neg (by assumption), Function.update_self]
      exact sent
  · have inbox :
        (if (system.client peer).place = .closed then system.toClient
          else
            Function.update system.toClient peer
              (system.toClient peer ++ [now (4 * id + 3)])) other =
          system.toClient other := by
      split
      · rfl
      · exact Function.update_of_ne same _ _
    rw [inbox]
    apply (inOrder.client other).stay (by omega) _ notAnswered
    have different := threshold_ne first same
    have bound := bounds peer
    have otherBound := bounds other
    exact pushed_eq (by omega) (by omega)

/-- A step of P2 that polls. -/
theorem InOrder.poll
    (inOrder : InOrder first heard system) {ready : Bool}
    (polls : system.server.place = .pollingFirst ∨
      system.server.place = .pollingSecond)
    (taken : system.serverStep first ready = some next) :
    ∃ later, InOrder first later next := by
  rcases polls with place | place
  · simp only [System.serverStep, place, Option.map_eq_some_iff] at taken
    obtain ⟨polled, received, rfl⟩ := taken
    rcases System.receiveInSocket_cases received with
      rfl | ⟨message, rest, isReady, queue, rfl⟩
    · obtain ⟨nothing, goesOn⟩ :=
        inOrder.poll_nothing (Or.inl place) (Or.inr rfl)
      rw [nothing, if_neg (by simp)]
      exact ⟨heard, goesOn⟩
    · rcases inOrder.poll_message (Or.inl place) queue with
        ⟨expects, later, accepted⟩ | ⟨ignored, goesOn⟩
      · rw [if_pos ⟨isReady, expects⟩]
        exact ⟨later, accepted⟩
      · rw [ignored, if_neg (by simp)]
        exact ⟨heard, goesOn _ (Or.inr rfl)⟩
  · simp only [System.serverStep, place, Option.map_eq_some_iff] at taken
    obtain ⟨polled, received, rfl⟩ := taken
    rcases System.receiveInSocket_cases received with
      rfl | ⟨message, rest, isReady, queue, rfl⟩
    · obtain ⟨nothing, goesOn⟩ :=
        inOrder.poll_nothing (Or.inr place) (Or.inl rfl)
      rw [nothing, if_neg (by simp)]
      exact ⟨heard, goesOn⟩
    · rcases inOrder.poll_message (Or.inr place) queue with
        ⟨expects, later, accepted⟩ | ⟨ignored, goesOn⟩
      · rw [if_pos expects]
        exact ⟨later, accepted⟩
      · rw [ignored, if_neg (by simp)]
        exact ⟨heard, goesOn _ (Or.inl rfl)⟩

/-- P2 goes on to the next message, or leaves its loop. -/
theorem InOrder.advance
    (inOrder : InOrder first heard system) {ready : Bool}
    (place : system.server.place = .advancing)
    (small : system.server.currentId < 3)
    (lamport : system.server.lamport =
      if system.server.currentId < 2 then 4 * system.server.currentId + 3
      else 10)
    (taken : system.serverStep first ready = some next) :
    InOrder first heard next := by
  have stage : system.server.stage = 5 * system.server.currentId + 4 := by
    rw [Server.stage, place]
    rfl
  have lines : system.server.lines = 2 * system.server.currentId + 2 := by
    rw [Server.lines, place]
    rfl
  have stands : ∀ peer,
      ClientAt first peer (5 * (system.server.currentId + 1))
        (system.client peer) (system.toServer peer)
        (system.toClient peer) := by
    intro peer
    have bound := threshold_bounds first peer
    apply (inOrder.client peer).stay (by omega)
    · exact pushed_eq (by omega) (by omega)
    · cases peer <;> simp only [ackStage] <;> omega
  simp only [System.serverStep, place] at taken
  split at taken
  · rename_i last
    have two : system.server.currentId = 2 := by
      by_contra other
      have which :
          system.server.currentId = 0 ∨ system.server.currentId = 1 := by
        omega
      rcases which with id | id <;> simp [id, expectedLamport] at last
    cases taken
    refine inOrder.of_silent rfl (.done (Or.inl rfl) ?_ ?_) stands rfl ?_
    · simp only [two]
    · rw [two] at lamport
      exact lamport
    · rw [lines]
      rfl
  · rename_i more
    have fewer : system.server.currentId < 2 := by
      by_contra two
      have same : system.server.currentId = 2 := by omega
      simp [same, expectedLamport] at more
    cases taken
    refine inOrder.of_silent rfl
      (.polling (Or.inl rfl) (Nat.succ_lt_succ fewer) ?_ ?_) stands rfl
      ?_
    · rw [if_pos fewer] at lamport
      simp only [lamport]
      omega
    · simp only
      omega
    · rw [lines]
      rfl

theorem InOrder.serverStep
    (inOrder : InOrder first heard system) {ready : Bool}
    (taken : system.serverStep first ready = some next) :
    ∃ later, InOrder first later next := by
  cases inOrder.server with
  | accepting place currentId lamport clock =>
      refine ⟨heard, ?_⟩
      rcases place with place | place
      · simp only [System.serverStep, place, Option.ite_none_left_eq_some,
          Option.some.injEq] at taken
        obtain ⟨_, rfl⟩ := taken
        apply inOrder.setPlace
          (.accepting (Or.inr rfl) currentId lamport clock)
        · rw [place]
          rfl
        · rw [place]
          rfl
      · simp only [System.serverStep, place, Option.ite_none_left_eq_some,
          Option.some.injEq] at taken
        obtain ⟨_, rfl⟩ := taken
        apply inOrder.setPlace
        · refine .polling (Or.inl rfl) ?_ ?_ ?_ <;>
            simp only [System.setPlace, currentId]
          · omega
          · exact lamport
          · exact clock
        · rw [place]
          rfl
        · rw [place]
          rfl
  | polling polls small lamport clock => exact inOrder.poll polls taken
  | matched place small lamport message source =>
      exact
        ⟨heard, inOrder.accept place small lamport message source taken⟩
  | notifyingFirst place small lamport =>
      refine ⟨heard, ?_⟩
      have stage : system.server.stage =
          5 * system.server.currentId + 2 := by
        rw [Server.stage, place]
        rfl
      have lines : system.server.lines =
          2 * system.server.currentId + 1 := by
        rw [Server.lines, place]
        rfl
      simp only [System.serverStep, place, lamport] at taken
      cases taken
      refine inOrder.of_silent rfl (.notifyingSecond rfl small rfl) ?_ rfl ?_
      · apply inOrder.send first small
        · rw [stage]
          rfl
        · rw [threshold, if_pos rfl]
          rfl
      · rw [lines]
        rfl
  | notifyingSecond place small lamport =>
      refine ⟨heard, ?_⟩
      have stage : system.server.stage =
          5 * system.server.currentId + 3 := by
        rw [Server.stage, place]
        rfl
      have lines : system.server.lines =
          2 * system.server.currentId + 1 := by
        rw [Server.lines, place]
        rfl
      simp only [System.serverStep, place, lamport] at taken
      cases taken
      refine inOrder.of_server rfl
        (.advancing rfl (Nat.lt_succ_of_lt small) (if_pos small).symm) ?_
        rfl ?_ ?_
      · apply inOrder.send first.other small
        · rw [stage]
          rfl
        · rw [threshold, if_neg first.other_ne]
          rfl
      · intro event listed
        rw [List.mem_singleton.mp listed]
        rfl
      · rw [lines]
        exact take_serverScript_now heard small
  | advancing place small lamport =>
      exact ⟨heard, inOrder.advance place small lamport taken⟩
  | done place currentId lamport =>
      refine ⟨heard, ?_⟩
      rcases place with place | place
      · simp only [System.serverStep, place] at taken
        cases taken
        apply inOrder.setPlace (.done (Or.inr rfl) currentId lamport)
        · rw [place]
          rfl
        · rw [place]
          rfl
      · simp only [System.serverStep, place] at taken
        cases taken

end ServerSteps

/-! ## What is so in every run -/

namespace System

/-- What P2 has accepted, and from where. -/
def receipts (system : System) : List (Option Name × Message) :=
  (system.printed .p2).filterMap fun event =>
    match event with
    | .recv _ _ source message => some (source, message)
    | .send _ _ _ => none

/-- Everybody waits, and there is nothing on its way to anybody. -/
structure Stalled (system : System) : Prop where
  server : system.server.place = .acceptingFirst ∨
    system.server.place = .acceptingSecond ∨
    system.server.place = .pollingFirst ∨
    system.server.place = .pollingSecond
  clients : ∀ peer, (system.client peer).place = .receiving ∨
    (system.client peer).place = .closed
  toServer : ∀ peer, system.toServer peer = []
  toClient : ∀ peer, (system.client peer).place ≠ .closed →
    system.toClient peer = []

/-- The shutdown goes on in its order. -/
structure Ordered (system : System) : Prop where
  leaves : system.server.place = .finished ∨
      system.server.place = .closed →
    system.server.lamport = 10 ∧
      ∃ heard : Peer,
        system.receipts =
          [(some heard.name, ready heard), (some .p1, ack .p1),
            (some .p3, ack .p3)]
  answers : ∀ clock, .send .p3 clock .shutdownAck ∈ system.log →
    ∃ received message,
      .recv .p2 received (some .p1) message ∈ system.log ∧
        message.action = .shutdownAck
  drops : ∀ peer message rest,
    system.server.place = .pollingFirst ∨
        system.server.place = .pollingSecond →
      system.toServer peer = message :: rest →
        (system.recv peer message rest).expects = false →
          ∀ id, system.server.currentId ≤ id →
            (expectedLamport .p2)[id]? ≠ some message.clockLamport
  goesOn : ¬ system.Stalled
  clocks : ∀ process,
    (system.printed process).Pairwise
      (fun earlier later => earlier.clock < later.clock)
  stamps : ∀ process clock source message,
    .recv process clock source message ∈ system.log →
      message.clockLamport < clock

end System

section Runs

variable {first heard : Peer} {system : System}

theorem mem_printed {event : Event} (listed : event ∈ system.log) :
    event ∈ system.printed event.process :=
  List.mem_filter.mpr ⟨listed, decide_eq_true rfl⟩

theorem mem_log
    {event : Event} {process : Name}
    (listed : event ∈ system.printed process) : event ∈ system.log :=
  (List.mem_filter.mp listed).1

/-- Every process prints a part of its script. -/
theorem InOrder.sublist
    (inOrder : InOrder first heard system) :
    ∀ process,
      List.Sublist (system.printed process) (script heard process)
  | .p1 => inOrder.clientLines .p1 ▸ List.take_sublist _ _
  | .p2 => inOrder.serverLines ▸ List.take_sublist _ _
  | .p3 => inOrder.clientLines .p3 ▸ List.take_sublist _ _

theorem InOrder.leaves
    (inOrder : InOrder first heard system)
    (left : system.server.place = .finished ∨
      system.server.place = .closed) :
    system.server.lamport = 10 ∧
      system.receipts =
        [(some heard.name, ready heard), (some .p1, ack .p1),
          (some .p3, ack .p3)] := by
  have lines := inOrder.serverLines
  cases inOrder.server with
  | done place currentId lamport =>
      refine ⟨lamport, ?_⟩
      have all : system.server.lines = 6 := by
        rcases place with place | place <;>
          rw [Server.lines, currentId, place] <;> rfl
      rw [System.receipts, lines, all]
      rfl
  | accepting place => rcases left with left | left <;> simp [left] at place
  | polling place => rcases left with left | left <;> simp [left] at place
  | matched place => rcases left with left | left <;> simp [left] at place
  | notifyingFirst place =>
      rcases left with left | left <;> simp [left] at place
  | notifyingSecond place =>
      rcases left with left | left <;> simp [left] at place
  | advancing place => rcases left with left | left <;> simp [left] at place

theorem InOrder.clocks
    (inOrder : InOrder first heard system) (process : Name) :
    (system.printed process).Pairwise
      (fun earlier later => earlier.clock < later.clock) := by
  apply List.Pairwise.sublist (inOrder.sublist process)
  cases heard <;> cases process <;> decide

theorem InOrder.stamps
    (inOrder : InOrder first heard system)
    {process : Name} {clock : Nat} {source : Option Name}
    {message : Message}
    (listed : .recv process clock source message ∈ system.log) :
    message.clockLamport < clock := by
  have inScript := (inOrder.sublist process).subset (mem_printed listed)
  cases process with
  | p1 =>
      simp only [script, clientScript, List.mem_cons, List.not_mem_nil,
        or_false, reduceCtorEq, false_or, Event.recv.injEq] at inScript
      obtain ⟨_, rfl, _, rfl⟩ := inScript
      decide
  | p2 =>
      simp only [script, serverScript, List.mem_cons, List.not_mem_nil,
        or_false, reduceCtorEq, false_or, Event.recv.injEq] at inScript
      rcases inScript with
        ⟨_, rfl, _, rfl⟩ | ⟨_, rfl, _, rfl⟩ | ⟨_, rfl, _, rfl⟩
      · exact Nat.one_lt_two
      · decide
      · decide
  | p3 =>
      simp only [script, clientScript, List.mem_cons, List.not_mem_nil,
        or_false, reduceCtorEq, false_or, Event.recv.injEq] at inScript
      obtain ⟨_, rfl, _, rfl⟩ := inScript
      decide

theorem ServerPlace.lines_of_offset (place : ServerPlace) :
    place.offset ≤ 4 ∧ (3 ≤ place.offset → 1 ≤ place.lines) := by
  cases place <;> decide

/-- P3 answers only when P2 has printed the answer of P1. -/
theorem InOrder.answers
    (inOrder : InOrder first heard system) {clock : Nat}
    (sent : .send .p3 clock .shutdownAck ∈ system.log) :
    .recv .p2 6 (some .p1) (ack .p1) ∈ system.log := by
  have printed :
      .send .p3 clock .shutdownAck ∈ system.printed Peer.p3.name :=
    mem_printed sent
  rw [inOrder.clientLines .p3] at printed
  have reached : goalStage first .p3 ≤ system.server.stage := by
    cases inOrder.client .p3 with
    | early place =>
        rcases place with place | place <;>
          simp [place, ClientPlace.lines] at printed
    | receiving place =>
        simp [place, ClientPlace.lines, clientScript] at printed
    | received place =>
        simp [place, ClientPlace.lines, clientScript] at printed
    | done place queue reached => exact reached
  have bounds := threshold_bounds first .p3
  have lines : 3 ≤ system.server.lines := by
    have printed := ServerPlace.lines_of_offset system.server.place
    simp only [goalStage, Server.stage] at reached
    rw [Server.lines]
    omega
  obtain ⟨more, same⟩ := Nat.exists_eq_add_of_le' lines
  have accepted :
      .recv .p2 6 (some .p1) (ack .p1) ∈ system.printed .p2 := by
    rw [inOrder.serverLines, same]
    simp [serverScript]
  exact mem_log accepted

/-- What P2 drops it does not wait for later. -/
theorem InOrder.drops
    (inOrder : InOrder first heard system) {peer : Peer}
    {message : Message} {rest : List Message}
    (polls : system.server.place = .pollingFirst ∨
      system.server.place = .pollingSecond)
    (queue : system.toServer peer = message :: rest)
    (ignored : (system.recv peer message rest).expects = false)
    {id : Nat} (later : system.server.currentId ≤ id) :
    (expectedLamport .p2)[id]? ≠ some message.clockLamport := by
  obtain ⟨small, _, _⟩ := inOrder.server.at_poll polls
  have expects :
      (system.recv peer message rest).expects = true ↔
        message.clockLamport = 4 * system.server.currentId + 1 :=
    expects_iff small
  rw [Bool.eq_false_iff, ne_eq, expects] at ignored
  have own := inOrder.client peer
  rw [queue] at own
  rcases own.head with rfl | ⟨rfl, _, _⟩
  · have begun : system.server.currentId ≠ 0 := by
      intro begins
      rw [begins] at ignored
      exact ignored rfl
    rcases id with _ | _ | _ | id
    · omega
    · simp [expectedLamport, ready]
    · simp [expectedLamport, ready]
    · simp [expectedLamport]
  · obtain ⟨clock, _⟩ := inOrder.answer polls queue
    exact absurd clock ignored

theorem ServerAt.at_wait
    {server : Server} (stands : ServerAt heard server)
    (waits : server.place = .acceptingFirst ∨
      server.place = .acceptingSecond ∨
      server.place = .pollingFirst ∨ server.place = .pollingSecond) :
    server.currentId < 3 ∧ server.stage = 5 * server.currentId := by
  have noOffset : server.place.offset = 0 := by
    rcases waits with waits | waits | waits | waits <;> rw [waits] <;> rfl
  refine ⟨?_, by rw [Server.stage, noOffset]; rfl⟩
  cases stands with
  | accepting place currentId lamport clock => omega
  | done place =>
      rcases place with place | place <;> simp [place] at waits
  | polling place currentId lamport clock => exact currentId
  | matched place currentId lamport message source => exact currentId
  | notifyingFirst place currentId lamport => omega
  | notifyingSecond place currentId lamport => omega
  | advancing place currentId lamport => exact currentId

/-- A client that waits for P2 has not been sent what it waits for, or its
answer has been received. -/
theorem ClientAt.at_wait
    {peer : Peer} {stage : Nat} {client : Client}
    {toServer toClient : List Message}
    (stands : ClientAt first peer stage client toServer toClient)
    (waits : client.place = .receiving ∨ client.place = .closed)
    (queue : toServer = [])
    (inbox : client.place ≠ .closed → toClient = []) :
    1 ≤ stage ∧ stage < goalStage first peer ∨
      ackStage peer ≤ stage := by
  subst queue
  cases stands with
  | early place =>
      rcases place with place | place <;> simp [place] at waits
  | received place => simp [place] at waits
  | receiving place lamport currentId queue sent before =>
      left
      rcases queue with impossible | ⟨some, _⟩
      · cases impossible
      · refine ⟨some, ?_⟩
        by_contra reached
        obtain ⟨message, listed, clock⟩ :=
          goal_mem_pushed.mpr (Nat.le_of_not_lt reached)
        obtain ⟨consumed, split, others⟩ := sent
        rw [split, inbox (by rw [place]; decide), List.append_nil] at listed
        exact others message listed clock
  | done place queue reached =>
      right
      rcases queue with ⟨_, impossible | impossible⟩ | ⟨after, _⟩
      · cases impossible
      · cases impossible
      · exact after

/-- Somebody can go on, or something is on its way. -/
theorem InOrder.not_stalled
    (inOrder : InOrder first heard system) : ¬ system.Stalled := by
  intro stalled
  obtain ⟨small, stage⟩ := inOrder.server.at_wait stalled.server
  have waits : ∀ peer,
      1 ≤ system.server.stage ∧
          system.server.stage < goalStage first peer ∨
        ackStage peer ≤ system.server.stage := by
    intro peer
    exact
      (inOrder.client peer).at_wait (stalled.clients peer)
        (stalled.toServer peer) (stalled.toClient peer)
  have firstBounds := threshold_bounds first .p1
  have thirdBounds := threshold_bounds first .p3
  have firstWaits := waits .p1
  have thirdWaits := waits .p3
  simp only [goalStage, ackStage] at firstWaits thirdWaits
  omega

end Runs

theorem inOrder_initial
    (first heard : Peer) (garbage : Name → Message)
    (unset : (garbage .p2).clockLamport ≠ 1) :
    InOrder first heard (System.initial garbage) where
  server := .accepting (Or.inl rfl) rfl rfl unset
  client := by
    intro peer
    have bounds := threshold_bounds first peer
    refine .early (Or.inl rfl) rfl rfl rfl ?_ ?_
    · rw [pushed, if_neg, if_neg]
      · rfl
      · simp [System.initial, Server.stage, ServerPlace.offset]
      · simp only [System.initial, Server.stage, ServerPlace.offset]
        omega
    · cases peer <;>
        simp [System.initial, Server.stage, ServerPlace.offset, ackStage]
  serverLines := rfl
  clientLines := fun _ => rfl

theorem InOrder.step
    {first heard : Peer} {system next : System}
    (inOrder : InOrder first heard system) {action : Action}
    (taken : System.step first system action = some next) :
    ∃ later, InOrder first later next := by
  cases action with
  | client peer => exact ⟨heard, inOrder.clientStep taken⟩
  | server ready => exact inOrder.serverStep taken

namespace System

/-- The shutdown goes on in its order, whichever client is accepted first and
however the steps are interleaved, if what P2 finds in its buffer at the start
is not taken for a message. -/
theorem shutdown_ordered
    (garbage : Name → Message) (first : Peer)
    (unset : (garbage .p2).clockLamport ≠ 1)
    {actions : List Action} {final : System}
    (reached : run (step first) (initial garbage) actions = some final) :
    final.Ordered := by
  have preserved :
      ∀ state action next, (∃ heard, InOrder first heard state) →
        step first state action = some next →
          ∃ heard, InOrder first heard next := by
    rintro state action next ⟨heard, inOrder⟩ taken
    exact inOrder.step taken
  obtain ⟨heard, inOrder⟩ :=
    invariant_of_any_run preserved
      ⟨first, inOrder_initial first first garbage unset⟩ reached
  exact
    { leaves := fun left =>
        have ⟨lamport, receipts⟩ := inOrder.leaves left
        ⟨lamport, heard, receipts⟩
      answers := fun _ sent => ⟨6, ack .p1, inOrder.answers sent, rfl⟩
      drops := fun _ _ _ polls queue ignored _ later =>
        inOrder.drops polls queue ignored later
      goesOn := inOrder.not_stalled
      clocks := inOrder.clocks
      stamps := fun _ _ _ _ listed => inOrder.stamps listed }

/-- P2 hears P1 first, drops the message of P3 later, and finds the socket of
P1 closed while it waits for P3. -/
def wholeShutdown : List Action :=
  [.client .p1, .client .p3, .server false, .server false, .client .p1,
    .client .p3, .server true] ++
  List.replicate 4 (.server false) ++
  [.client .p1, .client .p1, .client .p1, .client .p3, .server true] ++
  List.replicate 4 (.server false) ++
  [.client .p3, .client .p3, .server true, .server true, .server false,
    .server true, .server false, .server false]

theorem shutdown_ordered_wholeShutdown :
    ∃ final : System,
      run (step .p1) (initial emptyBuffers) wholeShutdown = some final ∧
        final.server.place = .finished ∧ final.Ordered := by
  have evaluated :
      ((run (step .p1) (initial emptyBuffers) wholeShutdown).map
        (fun final => final.server.place)) = some .finished := by
    decide
  obtain ⟨final, reached, finished⟩ := Option.map_eq_some_iff.mp evaluated
  exact
    ⟨final, reached, finished,
      shutdown_ordered emptyBuffers .p1 (by decide) reached⟩

end System

end SistemasDistribuidos.Practica2
