import SistemasDistribuidos.Practica2.Ordering

/-!
# The end of the shutdown

Every step but a poll that finds nothing brings the shutdown nearer to its end,
and until everybody has closed its sockets there is always such a step, or one
after a poll that finds nothing.  So the shutdown can be completed from every
state that it reaches, and with finitely many empty polls it comes to a stop.
-/

namespace SistemasDistribuidos.Practica2

open SistemasDistribuidos Machine

/-- How many steps a client has before it. -/
def ClientPlace.left : ClientPlace → Nat
  | .connecting => 5
  | .starting => 4
  | .receiving => 3
  | .received => 2
  | .acked => 1
  | .closed => 0

/-- How many steps P2 has before it, polls apart. -/
def Server.left (server : Server) : Nat :=
  match server.place with
  | .acceptingFirst => 19
  | .acceptingSecond => 18
  | .finished => 1
  | .closed => 0
  | _ => 17 - server.stage

namespace System

/-- What a client has before it, and the messages between it and P2. -/
def backlog (system : System) (peer : Peer) : Nat :=
  3 * (system.client peer).place.left + (system.toServer peer).length +
    (system.toClient peer).length

/-- What everybody has before it.  A step may send a message to each client,
and counts for more than that. -/
def work (system : System) : Nat :=
  3 * system.server.left + (system.backlog .p1 + system.backlog .p3)

theorem work_eq (system : System) (peer : Peer) :
    system.work =
      3 * system.server.left +
        (system.backlog peer + system.backlog peer.other) := by
  cases peer with
  | p1 => rfl
  | p3 =>
      rw [work, Nat.add_comm (system.backlog .p1)]
      rfl

/-- A poll that finds nothing. -/
def idle (first : Peer) (system : System) : Action → Bool
  | .client _ => false
  | .server ready =>
      match system.server.place with
      | .pollingFirst => !ready || (system.toServer first).isEmpty
      | .pollingSecond => !ready || (system.toServer first.other).isEmpty
      | _ => false

/-- How many polls of a run find nothing. -/
def idlePolls (first : Peer) : System → List Action → Nat
  | _, [] => 0
  | system, action :: rest =>
      (if system.idle first action then 1 else 0) +
        match step first system action with
        | some next => idlePolls first next rest
        | none => 0

/-- Everybody has closed its sockets. -/
def Closed (system : System) : Prop :=
  system.server.place = .closed ∧
    ∀ peer, (system.client peer).place = .closed

end System

section Steps

variable {first heard peer : Peer} {system next : System}

/-! ## The clients -/

/-- A client whose step changes nothing of the other one. -/
theorem work_lt_of_client
    (peer : Peer) (server : next.server = system.server)
    (other : next.backlog peer.other = system.backlog peer.other)
    (less : next.backlog peer < system.backlog peer) :
    next.work < system.work := by
  rw [System.work_eq next peer, System.work_eq system peer, server, other]
  omega

theorem work_test
    {client : Client} {message : Message} {rest : List Message}
    (receiving : (system.client peer).place = .receiving)
    (place : client.place = .receiving)
    (inbox : system.toClient peer = message :: rest) :
    (({ system with
        toClient := Function.update system.toClient peer rest } : System).test
      peer client).work < system.work := by
  have different := peer.other_ne
  apply work_lt_of_client peer
  · exact (System.test_keeps _ _ _).1
  · rw [System.test]
    split
    · simp [System.backlog, different]
    · simp [System.backlog, different]
  · rw [System.test]
    split
    · simp only [System.backlog, Function.update_self, receiving, inbox]
      split
      · simp only [ClientPlace.left, List.length_cons]
        omega
      · simp only [ClientPlace.left, List.length_cons]
        omega
    · simp only [System.backlog, Function.update_self, receiving, place, inbox,
        List.length_cons]
      omega

theorem work_notify
    {client : Client} (action : Operation) {place : ClientPlace}
    (isClient : client = system.client peer)
    (further : place.left < (system.client peer).place.left) :
    (system.notify peer client action place).work < system.work := by
  subst isClient
  have different := peer.other_ne
  apply work_lt_of_client peer
  · rfl
  · simp [System.backlog, System.notify, different]
  · simp only [System.backlog, System.notify, Function.update_self,
      List.length_append, List.length_singleton]
    omega

/-- A client that still receives has not seen P2 leave. -/
theorem InOrder.not_closed
    (inOrder : InOrder first heard system)
    (receiving : (system.client peer).place = .receiving) :
    system.server.place ≠ .closed := by
  cases inOrder.client peer with
  | early place => rcases place with place | place <;> simp [receiving] at place
  | receiving _ _ _ _ _ unanswered =>
      exact inOrder.server.not_closed unanswered
  | received place => simp [receiving] at place
  | done place => rcases place with place | place <;> simp [receiving] at place

theorem InOrder.work_clientStep
    (inOrder : InOrder first heard system)
    (taken : system.clientStep peer = some next) :
    next.work < system.work := by
  have different := peer.other_ne
  cases place : (system.client peer).place <;>
    simp only [System.clientStep, place] at taken
  case receiving =>
    split at taken
    · rename_i message rest inbox
      cases taken
      exact work_test place rfl inbox
    · rw [if_neg (inOrder.not_closed place)] at taken
      cases taken
  case closed => cases taken
  case starting =>
    cases taken
    exact work_notify _ rfl (by rw [place]; decide)
  case received =>
    cases taken
    exact work_notify _ rfl (by rw [place]; decide)
  all_goals
    cases taken
    apply work_lt_of_client peer
    · rfl
    · simp [System.backlog, different]
    · simp [System.backlog, place, ClientPlace.left]

theorem exists_clientStep
    (goesOn : (system.client peer).place ≠ .closed)
    (reads : (system.client peer).place = .receiving →
      system.toClient peer ≠ []) :
    ∃ next, system.clientStep peer = some next := by
  cases place : (system.client peer).place <;>
    simp only [System.clientStep, place]
  case receiving =>
    obtain ⟨message, rest, inbox⟩ :=
      List.exists_cons_of_ne_nil (reads place)
    rw [inbox]
    exact ⟨_, rfl⟩
  case closed => exact absurd place goesOn
  all_goals exact ⟨_, rfl⟩

/-! ## P2 -/

theorem work_lt_of_server
    (further : next.server.left < system.server.left)
    (backlog : ∀ peer, next.backlog peer ≤ system.backlog peer + 1) :
    next.work < system.work := by
  have firstBacklog := backlog .p1
  have secondBacklog := backlog .p3
  rw [System.work, System.work]
  omega

theorem backlog_sendTo
    (system : System) (peer other : Peer) (message : Message) :
    (system.sendTo peer message).backlog other ≤
      system.backlog other + 1 := by
  rw [System.sendTo]
  split
  · exact Nat.le_succ _
  · by_cases same : other = peer
    · subst same
      simp [System.backlog]
      omega
    · simp [System.backlog, same]

/-- P2 polls its clients. -/
def Server.Polls (server : Server) : Prop :=
  server.place = .pollingFirst ∨ server.place = .pollingSecond

theorem Server.Polls.left
    {server : Server} (polls : server.Polls) :
    server.left = 17 - 5 * server.currentId := by
  rcases polls with place | place
  · simp [Server.left, Server.stage, ServerPlace.offset, place]
  · simp [Server.left, Server.stage, ServerPlace.offset, place]

theorem work_setPlace
    {place : ServerPlace} (polls : system.server.Polls)
    (pollsOn : place = .pollingFirst ∨ place = .pollingSecond) :
    (system.setPlace place).work = system.work := by
  have after : (system.setPlace place).server.Polls := pollsOn
  have sameLeft :
      (system.setPlace place).server.left = system.server.left := by
    rw [after.left, polls.left]
    rfl
  rw [System.work, System.work, sameLeft]
  rfl

theorem work_recv
    {message : Message} {rest : List Message} {place : ServerPlace}
    (small : system.server.currentId < 3) (polls : system.server.Polls)
    (queue : system.toServer peer = message :: rest)
    (goesOn : place = .matched ∨ place = .pollingFirst ∨
      place = .pollingSecond) :
    ((system.recv peer message rest).setPlace place).work <
      system.work := by
  have different := peer.other_ne
  have left :
      ((system.recv peer message rest).setPlace place).server.left ≤
        system.server.left := by
    rw [polls.left]
    rcases goesOn with rfl | rfl | rfl
    · simp [Server.left, Server.stage, ServerPlace.offset, System.setPlace,
        System.recv]
      omega
    · have after :
          ((system.recv peer message rest).setPlace
            .pollingFirst).server.Polls :=
        Or.inl rfl
      exact Nat.le_of_eq after.left
    · have after :
          ((system.recv peer message rest).setPlace
            .pollingSecond).server.Polls :=
        Or.inr rfl
      exact Nat.le_of_eq after.left
  rw [System.work_eq _ peer, System.work_eq system peer]
  have less :
      ((system.recv peer message rest).setPlace place).backlog peer + 1 =
        system.backlog peer := by
    simp only [System.backlog, System.setPlace, System.recv,
      Function.update_self, queue, List.length_cons]
    omega
  have same :
      ((system.recv peer message rest).setPlace place).backlog peer.other =
        system.backlog peer.other := by
    simp [System.backlog, System.setPlace, System.recv, different]
  omega

theorem receiveInSocket_found
    {ready : Bool} {polled : System}
    (received : system.receiveInSocket peer ready = some polled) :
    if !ready || (system.toServer peer).isEmpty then polled = system
    else
      ∃ message rest,
        ready = true ∧ system.toServer peer = message :: rest ∧
          polled = system.recv peer message rest := by
  cases ready with
  | false =>
      cases received
      rfl
  | true =>
      cases queue : system.toServer peer with
      | nil =>
          simp only [System.receiveInSocket, queue, if_true,
            Option.ite_none_right_eq_some, Option.some.injEq] at received
          exact received.2.symm
      | cons message rest =>
          simp only [System.receiveInSocket, queue, if_true,
            Option.some.injEq] at received
          exact ⟨message, rest, rfl, rfl, received.symm⟩

/-- Whatever a poll finds, work is done unless it is nothing. -/
theorem InOrder.work_polled
    (inOrder : InOrder first heard system) {ready : Bool} {polled : System}
    {place : ServerPlace} (polls : system.server.Polls)
    (received : system.receiveInSocket peer ready = some polled)
    (goesOn : place = .matched ∧ polled.expects = true ∨
      place = .pollingFirst ∨ place = .pollingSecond) :
    (if !ready || (system.toServer peer).isEmpty then 0 else 1) +
        (polled.setPlace place).work ≤
      system.work := by
  obtain ⟨small, _, _⟩ := inOrder.server.at_poll polls
  have found := receiveInSocket_found received
  split at found
  · rename_i nothing
    subst found
    rw [if_pos nothing, Nat.zero_add]
    rcases goesOn with ⟨_, expected⟩ | pollsOn
    · rw [(inOrder.poll_nothing polls (Or.inl rfl)).1] at expected
      cases expected
    · exact Nat.le_of_eq (work_setPlace polls pollsOn)
  · rename_i something
    obtain ⟨message, rest, _, queue, rfl⟩ := found
    rw [if_neg something, Nat.add_comm]
    apply work_recv small polls queue
    rcases goesOn with ⟨isMatched, _⟩ | pollsOn
    · exact Or.inl isMatched
    · exact Or.inr pollsOn

/-- A step of P2 that polls: work is done unless nothing is found. -/
theorem InOrder.work_poll
    (inOrder : InOrder first heard system) {ready : Bool}
    (polls : system.server.Polls)
    (taken : system.serverStep first ready = some next) :
    (if system.idle first (.server ready) then 0 else 1) + next.work ≤
      system.work := by
  rcases polls with place | place
  · simp only [System.serverStep, place, Option.map_eq_some_iff] at taken
    obtain ⟨polled, received, rfl⟩ := taken
    simp only [System.idle, place]
    apply inOrder.work_polled (Or.inl place) received
    split
    · rename_i expected
      exact Or.inl ⟨rfl, expected.2⟩
    · exact Or.inr (Or.inr rfl)
  · simp only [System.serverStep, place, Option.map_eq_some_iff] at taken
    obtain ⟨polled, received, rfl⟩ := taken
    simp only [System.idle, place]
    apply inOrder.work_polled (Or.inr place) received
    split
    · rename_i expected
      exact Or.inl ⟨rfl, expected⟩
    · exact Or.inr (Or.inl rfl)

theorem InOrder.work_turn
    (inOrder : InOrder first heard system) {ready : Bool}
    (notPolls : ¬ system.server.Polls)
    (taken : system.serverStep first ready = some next) :
    next.work < system.work := by
  cases inOrder.server with
  | accepting place currentId lamport clock =>
      rcases place with place | place
      · simp only [System.serverStep, place,
          Option.ite_none_left_eq_some, Option.some.injEq] at taken
        obtain ⟨_, rfl⟩ := taken
        apply work_lt_of_server
        · simp [Server.left, System.setPlace, place]
        · exact fun _ => Nat.le_succ _
      · simp only [System.serverStep, place,
          Option.ite_none_left_eq_some, Option.some.injEq] at taken
        obtain ⟨_, rfl⟩ := taken
        apply work_lt_of_server
        · simp [Server.left, System.setPlace, place, Server.stage]
          omega
        · exact fun _ => Nat.le_succ _
  | polling place => exact absurd place notPolls
  | matched place small =>
      simp only [System.serverStep, place] at taken
      cases taken
      apply work_lt_of_server
      · split
        · simp [Server.left, place, Server.stage, ServerPlace.offset]
          omega
        · simp [Server.left, place, Server.stage, ServerPlace.offset]
          omega
      · exact fun _ => Nat.le_succ _
  | notifyingFirst place small =>
      simp only [System.serverStep, place] at taken
      cases taken
      apply work_lt_of_server
      · simp [Server.left, place, Server.stage, ServerPlace.offset,
          System.sendTo]
        omega
      · exact fun other => backlog_sendTo _ first other _
  | notifyingSecond place small =>
      simp only [System.serverStep, place] at taken
      cases taken
      apply work_lt_of_server
      · simp [Server.left, place, Server.stage, ServerPlace.offset,
          System.sendTo]
        omega
      · exact fun other => backlog_sendTo _ first.other other _
  | advancing place small =>
      simp only [System.serverStep, place] at taken
      split at taken
      · cases taken
        apply work_lt_of_server
        · simp [Server.left, place, Server.stage, ServerPlace.offset]
          omega
        · exact fun _ => Nat.le_succ _
      · cases taken
        apply work_lt_of_server
        · simp [Server.left, place, Server.stage, ServerPlace.offset]
          omega
        · exact fun _ => Nat.le_succ _
  | done place currentId =>
      rcases place with place | place
      · simp only [System.serverStep, place] at taken
        cases taken
        apply work_lt_of_server
        · simp [Server.left, System.setPlace, place]
        · exact fun _ => Nat.le_succ _
      · simp only [System.serverStep, place] at taken
        cases taken

theorem idle_of_not_polls
    (notPolls : ¬ system.server.Polls) (ready : Bool) :
    system.idle first (.server ready) = false := by
  simp only [System.idle]
  split
  · exact absurd (Or.inl ‹_›) notPolls
  · exact absurd (Or.inr ‹_›) notPolls
  · rfl

theorem InOrder.work_serverStep
    (inOrder : InOrder first heard system) {ready : Bool}
    (taken : system.serverStep first ready = some next) :
    (if system.idle first (.server ready) then 0 else 1) + next.work ≤
      system.work := by
  by_cases polls : system.server.Polls
  · exact inOrder.work_poll polls taken
  · rw [idle_of_not_polls polls, if_neg (by decide), Nat.add_comm]
    exact inOrder.work_turn polls taken

theorem InOrder.work_step
    (inOrder : InOrder first heard system) {action : Action}
    (taken : System.step first system action = some next) :
    (if system.idle first action then 0 else 1) + next.work ≤
      system.work := by
  cases action with
  | client peer =>
      have less := inOrder.work_clientStep taken
      rw [System.idle, if_neg (by decide)]
      omega
  | server ready => exact inOrder.work_serverStep taken

/-- However the steps are interleaved, there are not many besides the polls
that find nothing. -/
theorem InOrder.length_le :
    ∀ {actions : List Action} {heard : Peer} {system final : System},
      InOrder first heard system →
        run (System.step first) system actions = some final →
          actions.length + final.work ≤
            system.work + system.idlePolls first actions
  | [], heard, system, final, _, reached => by
      cases reached
      rw [List.length_nil, Nat.zero_add]
      exact Nat.le_add_right _ _
  | action :: rest, heard, system, final, inOrder, reached => by
      obtain ⟨next, taken, onwards⟩ := run_cons_eq_some.mp reached
      obtain ⟨later, nextInOrder⟩ := inOrder.step taken
      have here := inOrder.work_step taken
      have afterwards := nextInOrder.length_le onwards
      rw [List.length_cons, System.idlePolls, taken]
      simp only
      split at here
      · rename_i isIdle
        rw [if_pos isIdle]
        omega
      · rename_i isBusy
        rw [if_neg isBusy]
        omega

/-! ## There is always a step that helps -/

namespace System

/-- P2 is about to poll a socket in which there is nothing. -/
def detour (first : Peer) (system : System) : Nat :=
  if system.idle first (.server true) then 1 else 0

theorem detour_le (first : Peer) (system : System) :
    system.detour first ≤ 1 := by
  rw [detour]
  split
  · exact Nat.le_refl 1
  · exact Nat.zero_le 1

/-- The work, and whether P2 has to turn to the other socket first. -/
def distance (first : Peer) (system : System) : Nat :=
  2 * system.work + system.detour first

end System

theorem InOrder.nearer
    (inOrder : InOrder first heard system) {action : Action}
    (taken : System.step first system action = some next)
    (busy : system.idle first action = false) :
    next.distance first < system.distance first := by
  have less := inOrder.work_step taken
  have bound := next.detour_le first
  rw [busy, if_neg (by decide)] at less
  rw [System.distance, System.distance]
  omega

theorem Peer.eq_or_other (first peer : Peer) :
    peer = first ∨ peer = first.other := by
  cases first <;> cases peer <;> simp [Peer.other]

/-- P2 turns to the other socket, in which there is something. -/
theorem nearer_of_turn
    (action : Action) {place : ServerPlace}
    (polls : system.server.Polls)
    (taken : System.step first system action = some (system.setPlace place))
    (pollsOn : place = .pollingFirst ∨ place = .pollingSecond)
    (nothing : system.idle first (.server true) = true)
    (something :
      (system.setPlace place).idle first (.server true) = false) :
    ∃ action next,
      System.step first system action = some next ∧
        next.distance first < system.distance first := by
  refine ⟨action, _, taken, ?_⟩
  rw [System.distance, System.distance, work_setPlace polls pollsOn,
    System.detour, System.detour, something, nothing]
  simp

theorem exists_serverStep_of_busy
    (polls : system.server.Polls)
    (busy : system.idle first (.server true) = false) :
    ∃ next, System.step first system (.server true) = some next := by
  have received (peer : Peer) (something : system.toServer peer ≠ []) :
      ∃ polled, system.receiveInSocket peer true = some polled := by
    obtain ⟨message, rest, queue⟩ := List.exists_cons_of_ne_nil something
    rw [System.receiveInSocket, if_pos rfl, queue]
    exact ⟨_, rfl⟩
  rcases polls with place | place
  · obtain ⟨polled, isReceived⟩ :=
      received first (by simpa [System.idle, place] using busy)
    simp only [System.step, System.serverStep, place, isReceived]
    exact ⟨_, rfl⟩
  · obtain ⟨polled, isReceived⟩ :=
      received first.other (by simpa [System.idle, place] using busy)
    simp only [System.step, System.serverStep, place, isReceived]
    exact ⟨_, rfl⟩

/-- As long as there is something for P2 to receive, it can come nearer. -/
theorem InOrder.exists_poll
    (inOrder : InOrder first heard system)
    (polls : system.server.Polls) {peer : Peer}
    (something : system.toServer peer ≠ []) :
    ∃ action next,
      System.step first system action = some next ∧
        next.distance first < system.distance first := by
  cases nothing : system.idle first (.server true) with
  | false =>
      obtain ⟨next, taken⟩ := exists_serverStep_of_busy polls nothing
      exact ⟨_, next, taken, inOrder.nearer taken nothing⟩
  | true =>
      rcases polls with place | place
      · have empty : system.toServer first = [] := by
          simpa [System.idle, place] using nothing
        have isOther : peer = first.other := by
          rcases Peer.eq_or_other first peer with rfl | isOther
          · exact absurd empty something
          · exact isOther
        subst isOther
        refine nearer_of_turn (.server false) (Or.inl place) ?_
          (Or.inr rfl) nothing ?_
        · rw [System.step, System.serverStep, place]
          rfl
        · simpa [System.idle, System.setPlace] using something
      · have empty : system.toServer first.other = [] := by
          simpa [System.idle, place] using nothing
        have isFirst : peer = first := by
          rcases Peer.eq_or_other first peer with isFirst | rfl
          · exact isFirst
          · exact absurd empty something
        subst isFirst
        refine nearer_of_turn (.server false) (Or.inr place) ?_
          (Or.inl rfl) nothing ?_
        · have ignored :=
            (inOrder.poll_nothing (Or.inr place) (Or.inl rfl)).1
          rw [System.step, System.serverStep, place]
          simp [System.receiveInSocket, ignored]
        · simpa [System.idle, System.setPlace] using something

theorem exists_serverStep
    (notPolls : ¬ system.server.Polls)
    (notClosed : system.server.place ≠ .closed)
    (connected : ∀ peer, (system.client peer).place ≠ .connecting) :
    ∃ next, System.step first system (.server false) = some next := by
  cases place : system.server.place <;>
    simp only [System.step, System.serverStep, place]
  case acceptingFirst => exact ⟨_, if_neg (connected first)⟩
  case acceptingSecond => exact ⟨_, if_neg (connected first.other)⟩
  case pollingFirst => exact absurd (Or.inl place) notPolls
  case pollingSecond => exact absurd (Or.inr place) notPolls
  case advancing =>
    split
    · exact ⟨_, rfl⟩
    · exact ⟨_, rfl⟩
  case closed => exact absurd place notClosed
  all_goals exact ⟨_, rfl⟩

/-- Until everybody has closed its sockets, somebody can come nearer. -/
theorem InOrder.closed_or_nearer
    (inOrder : InOrder first heard system) :
    system.Closed ∨
      ∃ action next,
        System.step first system action = some next ∧
          next.distance first < system.distance first := by
  by_cases goesOn :
      ∃ peer, (system.client peer).place ≠ .closed ∧
        ((system.client peer).place = .receiving →
          system.toClient peer ≠ [])
  · obtain ⟨peer, notClosed, reads⟩ := goesOn
    obtain ⟨next, taken⟩ := exists_clientStep notClosed reads
    have stepped :
        System.step first system (.client peer) = some next := taken
    exact Or.inr ⟨_, next, stepped, inOrder.nearer stepped rfl⟩
  · have waits :
        ∀ peer, (system.client peer).place = .closed ∨
          (system.client peer).place = .receiving ∧
            system.toClient peer = [] := by
      intro peer
      by_contra neither
      apply goesOn
      refine ⟨peer, fun closed => neither (Or.inl closed), ?_⟩
      intro receiving empty
      exact neither (Or.inr ⟨receiving, empty⟩)
    have connected : ∀ peer, (system.client peer).place ≠ .connecting := by
      intro peer
      rcases waits peer with place | ⟨place, _⟩
      · rw [place]
        decide
      · rw [place]
        decide
    by_cases polls : system.server.Polls
    · by_cases something : ∃ peer, system.toServer peer ≠ []
      · obtain ⟨peer, something⟩ := something
        exact Or.inr (inOrder.exists_poll polls something)
      · exfalso
        apply inOrder.not_stalled
        refine ⟨Or.inr (Or.inr polls), ?_, ?_, ?_⟩
        · intro peer
          rcases waits peer with closed | ⟨receiving, _⟩
          · exact Or.inr closed
          · exact Or.inl receiving
        · intro peer
          by_contra queued
          exact something ⟨peer, queued⟩
        · intro peer notClosed
          rcases waits peer with closed | ⟨_, empty⟩
          · exact absurd closed notClosed
          · exact empty
    · by_cases closed : system.server.place = .closed
      · refine Or.inl ⟨closed, ?_⟩
        intro peer
        rcases waits peer with place | ⟨receiving, _⟩
        · exact place
        · exact absurd closed (inOrder.not_closed receiving)
      · obtain ⟨next, taken⟩ := exists_serverStep polls closed connected
        exact
          Or.inr
            ⟨_, next, taken,
              inOrder.nearer taken (idle_of_not_polls polls false)⟩

/-- When everybody has closed its sockets, everybody has printed its whole
script and P2 has received everything. -/
theorem InOrder.of_closed
    (inOrder : InOrder first heard system) (closed : system.Closed) :
    (∀ process, system.printed process = script heard process) ∧
      ∀ peer, system.toServer peer = [] := by
  obtain ⟨serverClosed, clientsClosed⟩ := closed
  have finished : system.server.currentId = 3 := by
    cases inOrder.server with
    | done _ currentId => exact currentId
    | _ => simp_all
  have clientLines (peer : Peer) :
      system.printed peer.name = clientScript peer := by
    rw [inOrder.clientLines peer, clientsClosed peer]
    rfl
  constructor
  · intro process
    cases process with
    | p1 => exact clientLines .p1
    | p2 =>
        rw [inOrder.serverLines, Server.lines, finished, serverClosed]
        rfl
    | p3 => exact clientLines .p3
  · intro peer
    have stage : system.server.stage = 15 := by
      rw [Server.stage, finished, serverClosed]
      rfl
    cases inOrder.client peer with
    | early place => simp [clientsClosed peer] at place
    | receiving place => simp [clientsClosed peer] at place
    | received place => simp [clientsClosed peer] at place
    | done _ queue =>
        rcases queue with ⟨early, _⟩ | ⟨_, queue⟩
        · rw [stage] at early
          cases peer <;> simp [ackStage] at early
        · exact queue

end Steps

namespace System

/-- The shutdown comes to its end, when what the buffer of P2 holds at first is
no clock of 1 and `recv` returns 0 once the other side has closed: apart from
the polls that find nothing no run is long, from every state that is reached
all sockets can still be closed, and then everybody has printed its whole
script and no message to P2 is left. -/
theorem shutdown_completes
    (garbage : Name → Message) (first : Peer)
    (unset : (garbage .p2).clockLamport ≠ 1)
    {actions : List Action} {system : System}
    (reached : run (step first) (initial garbage) actions = some system) :
    actions.length ≤ 87 + idlePolls first (initial garbage) actions ∧
      (∃ more final,
        run (step first) system more = some final ∧ final.Closed) ∧
      (system.Closed →
        ∃ heard,
          (∀ process, system.printed process = script heard process) ∧
            ∀ peer, system.toServer peer = []) := by
  have initially := inOrder_initial first first garbage unset
  have preserved :
      ∀ state action next, (∃ heard, InOrder first heard state) →
        step first state action = some next →
          ∃ heard, InOrder first heard next := by
    rintro state action next ⟨heard, inOrder⟩ taken
    exact inOrder.step taken
  have now := invariant_of_any_run preserved ⟨first, initially⟩ reached
  refine ⟨?_, ?_, ?_⟩
  · have start : (initial garbage).work = 87 := rfl
    have bound := initially.length_le reached
    omega
  · have progress :
        ∀ state, (∃ heard, InOrder first heard state) →
          state.Closed ∨
            ∃ action next,
              step first state action = some next ∧
                (∃ heard, InOrder first heard next) ∧
                next.distance first < state.distance first := by
      rintro state ⟨heard, inOrder⟩
      rcases inOrder.closed_or_nearer with
        closed | ⟨action, next, taken, nearer⟩
      · exact Or.inl closed
      · exact Or.inr ⟨action, next, taken, inOrder.step taken, nearer⟩
    exact
      exists_run_of_measure (distance first) progress _ now (Nat.le_refl _)
  · intro closed
    obtain ⟨heard, inOrder⟩ := now
    exact ⟨heard, inOrder.of_closed closed⟩

theorem shutdown_completes_wholeShutdown :
    ∃ (final : System) (heard : Peer),
      run (step .p1) (initial emptyBuffers)
            (wholeShutdown ++ [.client .p3, .server false]) =
          some final ∧
        final.Closed ∧
          ∀ process, final.printed process = script heard process := by
  have evaluated :
      ((run (step .p1) (initial emptyBuffers)
          (wholeShutdown ++ [.client .p3, .server false])).map
        (fun final =>
          (final.server.place, (final.client .p1).place,
            (final.client .p3).place))) =
        some (.closed, .closed, .closed) := by
    decide
  obtain ⟨final, reached, places⟩ := Option.map_eq_some_iff.mp evaluated
  have closed : final.Closed := by
    simp only [Prod.mk.injEq] at places
    refine ⟨places.1, ?_⟩
    intro peer
    cases peer with
    | p1 => exact places.2.1
    | p3 => exact places.2.2
  obtain ⟨_, _, complete⟩ :=
    shutdown_completes emptyBuffers .p1 (by decide) reached
  obtain ⟨heard, printed, _⟩ := complete closed
  exact ⟨final, heard, reached, closed, printed⟩

end System

end SistemasDistribuidos.Practica2
