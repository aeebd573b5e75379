import SistemasDistribuidos.Practica2.Shutdown

/-!
# How far everybody has come

Every process goes through a script of its own, line by line.  How far P2 has
come says what it has sent to each client, and with it how far that client can
have come; what stands in the sockets is the difference.
-/

namespace SistemasDistribuidos.Practica2

open SistemasDistribuidos Machine

/-! ## The scripts -/

def ready (peer : Peer) : Message :=
  ⟨peer.name, .readyToShutdown, 1⟩

/-- The clock that a client waits for. -/
def goal : Peer → Nat
  | .p1 => 3
  | .p3 => 7

def ack (peer : Peer) : Message :=
  ⟨peer.name, .shutdownAck, goal peer + 2⟩

def now (clock : Nat) : Message :=
  ⟨.p2, .shutdownNow, clock⟩

/-- What P2 waits for, if `heard` is the client that it hears first. -/
def due (heard : Peer) : Nat → Message
  | 0 => ready heard
  | 1 => ack .p1
  | _ => ack .p3

def clientScript (peer : Peer) : List Event :=
  [.send peer.name 1 .readyToShutdown,
    .recv peer.name (goal peer + 1) (some .p2) (now (goal peer)),
    .send peer.name (goal peer + 2) .shutdownAck]

def serverScript (heard : Peer) : List Event :=
  [.recv .p2 2 (some heard.name) (ready heard), .send .p2 3 .shutdownNow,
    .recv .p2 6 (some .p1) (ack .p1), .send .p2 7 .shutdownNow,
    .recv .p2 10 (some .p3) (ack .p3)]

def script (heard : Peer) : Name → List Event
  | .p1 => clientScript .p1
  | .p2 => serverScript heard
  | .p3 => clientScript .p3

/-- How many lines of its script a client has printed. -/
def ClientPlace.lines : ClientPlace → Nat
  | .connecting => 0
  | .starting => 0
  | .receiving => 1
  | .received => 2
  | .acked => 3
  | .closed => 3

namespace ServerPlace

/-- How far P2 has come with one message. -/
def offset : ServerPlace → Nat
  | .matched => 1
  | .notifyingFirst => 2
  | .notifyingSecond => 3
  | .advancing => 4
  | _ => 0

/-- How many lines it has printed about that message. -/
def lines : ServerPlace → Nat
  | .notifyingFirst => 1
  | .notifyingSecond => 1
  | .advancing => 2
  | _ => 0

end ServerPlace

namespace Server

def stage (server : Server) : Nat :=
  5 * server.currentId + server.place.offset

def lines (server : Server) : Nat :=
  2 * server.currentId + server.place.lines

end Server

/-! ## How far everybody has come -/

/-- The stage from which on a client has been sent its first message. -/
def threshold (first peer : Peer) : Nat :=
  if peer = first then 3 else 4

/-- What P2 has sent to a client. -/
def pushed (first peer : Peer) (stage : Nat) : List Message :=
  (if threshold first peer ≤ stage then [now 3] else []) ++
    if threshold first peer + 5 ≤ stage then [now 7] else []

/-- The stage from which on a client has been sent what it waits for. -/
def goalStage (first : Peer) : Peer → Nat
  | .p1 => threshold first .p1
  | .p3 => threshold first .p3 + 5

/-- The stage from which on the answer of a client has been received. -/
def ackStage : Peer → Nat
  | .p1 => 6
  | .p3 => 11

/-- A client, what it has sent, and what it has been sent. -/
inductive ClientAt (first peer : Peer) (stage : Nat) (client : Client)
    (toServer toClient : List Message) : Prop where
  | early
      (place : client.place = .connecting ∨ client.place = .starting)
      (lamport : client.lamport = 0) (currentId : client.currentId = 0)
      (queue : toServer = []) (inbox : toClient = pushed first peer stage)
      (unanswered : stage < ackStage peer)
  | receiving
      (place : client.place = .receiving)
      (lamport : client.lamport = 1) (currentId : client.currentId = 0)
      (queue : toServer = [ready peer] ∨ 1 ≤ stage ∧ toServer = [])
      (inbox : ∃ consumed,
        pushed first peer stage = consumed ++ toClient ∧
          ∀ message ∈ consumed, message.clockLamport ≠ goal peer)
      (unanswered : stage < ackStage peer)
  | received
      (place : client.place = .received)
      (lamport : client.lamport = goal peer + 1)
      (queue : toServer = [ready peer] ∨ 1 ≤ stage ∧ toServer = [])
      (reached : goalStage first peer ≤ stage)
      (unanswered : stage < ackStage peer)
  | done
      (place : client.place = .acked ∨ client.place = .closed)
      (queue : stage < ackStage peer ∧
          (toServer = [ready peer, ack peer] ∨ toServer = [ack peer]) ∨
        ackStage peer ≤ stage ∧ toServer = [])
      (reached : goalStage first peer ≤ stage)

/-- P2, if `heard` is the client that it hears first. -/
inductive ServerAt (heard : Peer) (server : Server) : Prop where
  | accepting
      (place : server.place = .acceptingFirst ∨
        server.place = .acceptingSecond)
      (currentId : server.currentId = 0) (lamport : server.lamport = 0)
      (clock : server.message.clockLamport ≠ 1)
  | polling
      (place : server.place = .pollingFirst ∨
        server.place = .pollingSecond)
      (currentId : server.currentId < 3)
      (lamport : server.lamport = 4 * server.currentId - 1)
      (clock : server.message.clockLamport ≠ 4 * server.currentId + 1)
  | matched
      (place : server.place = .matched) (currentId : server.currentId < 3)
      (lamport : server.lamport = 4 * server.currentId - 1)
      (message : server.message = due heard server.currentId)
      (source : server.source = some server.message.origin)
  | notifyingFirst
      (place : server.place = .notifyingFirst)
      (currentId : server.currentId < 2)
      (lamport : server.lamport = 4 * server.currentId + 2)
  | notifyingSecond
      (place : server.place = .notifyingSecond)
      (currentId : server.currentId < 2)
      (lamport : server.lamport = 4 * server.currentId + 3)
  | advancing
      (place : server.place = .advancing) (currentId : server.currentId < 3)
      (lamport : server.lamport =
        if server.currentId < 2 then 4 * server.currentId + 3 else 10)
  | done
      (place : server.place = .finished ∨ server.place = .closed)
      (currentId : server.currentId = 3) (lamport : server.lamport = 10)

/-- Everybody goes through its script. -/
structure InOrder (first heard : Peer) (system : System) : Prop where
  server : ServerAt heard system.server
  client : ∀ peer,
    ClientAt first peer system.server.stage (system.client peer)
      (system.toServer peer) (system.toClient peer)
  serverLines : system.printed .p2 =
    (serverScript heard).take system.server.lines
  clientLines : ∀ peer : Peer, system.printed peer.name =
    (clientScript peer).take (system.client peer).place.lines

/-! ## What has been sent to a client -/

section Pushed

variable {first peer : Peer} {stage later : Nat}

theorem mem_pushed {message : Message} :
    message ∈ pushed first peer stage ↔
      threshold first peer ≤ stage ∧ message = now 3 ∨
        threshold first peer + 5 ≤ stage ∧ message = now 7 := by
  rw [pushed, List.mem_append]
  apply or_congr
  · split <;> simp [*]
  · split <;> simp [*]

/-- The message that a client waits for has been sent to it. -/
theorem goal_mem_pushed :
    (∃ message ∈ pushed first peer stage,
        message.clockLamport = goal peer) ↔
      goalStage first peer ≤ stage := by
  constructor
  · rintro ⟨message, listed, clock⟩
    rcases mem_pushed.mp listed with ⟨sent, rfl⟩ | ⟨sent, rfl⟩
    · cases peer with
      | p1 => exact sent
      | p3 => cases clock
    · cases peer with
      | p1 => cases clock
      | p3 => exact sent
  · intro sent
    cases peer with
    | p1 => exact ⟨now 3, mem_pushed.mpr (Or.inl ⟨sent, rfl⟩), rfl⟩
    | p3 => exact ⟨now 7, mem_pushed.mpr (Or.inr ⟨sent, rfl⟩), rfl⟩

theorem threshold_ne
    (first : Peer) {peer other : Peer} (different : other ≠ peer) :
    threshold first other ≠ threshold first peer := by
  unfold threshold
  cases other <;> cases peer <;> cases first <;> simp at different ⊢

theorem threshold_bounds (first peer : Peer) :
    3 ≤ threshold first peer ∧ threshold first peer ≤ 4 := by
  unfold threshold
  split <;> omega

/-- The stages at which a message is sent to a client. -/
theorem pushed_append
    {id : Nat} (small : id < 2)
    (before : stage = 5 * id + threshold first peer - 1)
    (after : later = 5 * id + threshold first peer) :
    pushed first peer later =
      pushed first peer stage ++ [now (4 * id + 3)] := by
  have bounds := threshold_bounds first peer
  subst before after
  have which : id = 0 ∨ id = 1 := by omega
  rcases which with rfl | rfl
  · rw [pushed, pushed, if_pos (by omega), if_neg (by omega),
      if_neg (by omega), if_neg (by omega)]
    rfl
  · rw [pushed, pushed, if_pos (by omega), if_pos (by omega),
      if_pos (by omega), if_neg (by omega)]
    rfl

theorem eq_now_of_mem
    {message : Message} (listed : message ∈ pushed first peer stage) :
    message = now message.clockLamport := by
  rcases mem_pushed.mp listed with ⟨_, rfl⟩ | ⟨_, rfl⟩ <;> rfl

/-- Nothing is sent between two stages. -/
theorem pushed_eq
    (grows : stage ≤ later)
    (nothing : later < threshold first peer ∨
      threshold first peer ≤ stage ∧ later < threshold first peer + 5 ∨
      threshold first peer + 5 ≤ stage) :
    pushed first peer later = pushed first peer stage := by
  have sameFirst :
      threshold first peer ≤ later ↔ threshold first peer ≤ stage := by
    omega
  have sameSecond :
      threshold first peer + 5 ≤ later ↔
        threshold first peer + 5 ≤ stage := by
    omega
  simp only [pushed, sameFirst, sameSecond]

end Pushed

/-! ## A client while P2 goes on -/

section ClientAt

variable {first peer : Peer} {stage later : Nat} {client : Client}
  {toServer toClient : List Message}

/-- P2 goes on without this client. -/
theorem ClientAt.stay
    (stands : ClientAt first peer stage client toServer toClient)
    (grows : stage ≤ later)
    (same : pushed first peer later = pushed first peer stage)
    (unanswered : ackStage peer ≤ later → ackStage peer ≤ stage) :
    ClientAt first peer later client toServer toClient := by
  cases stands with
  | early place lamport currentId queue inbox before =>
      refine .early place lamport currentId queue (inbox.trans same.symm) ?_
      omega
  | receiving place lamport currentId queue inbox before =>
      refine .receiving place lamport currentId ?_ ?_ (by omega)
      · exact queue.imp_right (And.imp_left (fun some => by omega))
      · rw [same]
        exact inbox
  | received place lamport queue reached before =>
      refine .received place lamport ?_ (by omega) (by omega)
      exact queue.imp_right (And.imp_left (fun some => by omega))
  | done place queue reached =>
      refine .done place ?_ (by omega)
      rcases queue with ⟨before, queue⟩ | ⟨after, queue⟩
      · exact Or.inl ⟨by omega, queue⟩
      · exact Or.inr ⟨by omega, queue⟩

/-- P2 sends a message to this client. -/
theorem ClientAt.push
    (stands : ClientAt first peer stage client toServer toClient)
    {message : Message} (grows : stage ≤ later)
    (sent : pushed first peer later =
      pushed first peer stage ++ [message])
    (unanswered : ackStage peer ≤ later → ackStage peer ≤ stage) :
    ClientAt first peer later client toServer (toClient ++ [message]) := by
  cases stands with
  | early place lamport currentId queue inbox before =>
      refine .early place lamport currentId queue ?_ (by omega)
      rw [inbox, sent]
  | receiving place lamport currentId queue inbox before =>
      refine .receiving place lamport currentId ?_ ?_ (by omega)
      · exact queue.imp_right (And.imp_left (fun some => by omega))
      · obtain ⟨consumed, split, others⟩ := inbox
        refine ⟨consumed, ?_, others⟩
        rw [sent, split, List.append_assoc]
  | received place lamport queue reached before =>
      refine .received place lamport ?_ (by omega) (by omega)
      exact queue.imp_right (And.imp_left (fun some => by omega))
  | done place queue reached =>
      refine .done place ?_ (by omega)
      rcases queue with ⟨before, queue⟩ | ⟨after, queue⟩
      · exact Or.inl ⟨by omega, queue⟩
      · exact Or.inr ⟨by omega, queue⟩

/-- A client that has closed its socket does not see what P2 sends. -/
theorem ClientAt.send
    (stands : ClientAt first peer stage client toServer toClient)
    {message : Message} (grows : stage ≤ later)
    (sent : pushed first peer later =
      pushed first peer stage ++ [message])
    (unanswered : ackStage peer ≤ later → ackStage peer ≤ stage) :
    ClientAt first peer later client toServer
      (if client.place = .closed then toClient
        else toClient ++ [message]) := by
  have pushed := stands.push grows sent unanswered
  split
  · rename_i closed
    cases pushed with
    | early place => simp [closed] at place
    | receiving place => simp [closed] at place
    | received place => simp [closed] at place
    | done place queue reached => exact .done place queue reached
  · exact pushed

/-- What P2 finds in the socket of this client. -/
theorem ClientAt.head
    {message : Message}
    (stands : ClientAt first peer stage client (message :: toServer)
      toClient) :
    message = ready peer ∨
      message = ack peer ∧ goalStage first peer ≤ stage ∧
        stage < ackStage peer := by
  cases stands with
  | early place lamport currentId queue inbox before => cases queue
  | receiving place lamport currentId queue inbox before =>
      rcases queue with queue | ⟨_, queue⟩
      · exact Or.inl (List.cons.inj queue).1
      · cases queue
  | received place lamport queue reached before =>
      rcases queue with queue | ⟨_, queue⟩
      · exact Or.inl (List.cons.inj queue).1
      · cases queue
  | done place queue reached =>
      rcases queue with ⟨before, queue | queue⟩ | ⟨_, queue⟩
      · exact Or.inl (List.cons.inj queue).1
      · exact Or.inr ⟨(List.cons.inj queue).1, reached, before⟩
      · cases queue

/-- P2 receives the first message of this client. -/
theorem ClientAt.read_ready
    (stands : ClientAt first peer stage client (ready peer :: toServer)
      toClient)
    (started : 1 ≤ stage) :
    ClientAt first peer stage client toServer toClient := by
  cases stands with
  | early place lamport currentId queue inbox before => cases queue
  | receiving place lamport currentId queue inbox before =>
      refine .receiving place lamport currentId ?_ inbox before
      rcases queue with queue | ⟨_, queue⟩
      · exact Or.inr ⟨started, (List.cons.inj queue).2⟩
      · cases queue
  | received place lamport queue reached before =>
      refine .received place lamport ?_ reached before
      rcases queue with queue | ⟨_, queue⟩
      · exact Or.inr ⟨started, (List.cons.inj queue).2⟩
      · cases queue
  | done place queue reached =>
      refine .done place ?_ reached
      rcases queue with ⟨before, queue | queue⟩ | ⟨_, queue⟩
      · exact Or.inl ⟨before, Or.inr (List.cons.inj queue).2⟩
      · have same := (List.cons.inj queue).1
        simp [ready, ack] at same
      · cases queue

/-- P2 receives the answer of this client. -/
theorem ClientAt.read_ack
    (stands : ClientAt first peer stage client (ack peer :: toServer)
      toClient)
    (grows : stage ≤ later) (answered : ackStage peer ≤ later) :
    ClientAt first peer later client toServer toClient := by
  have notReady : ack peer ≠ ready peer := by
    simp [ready, ack]
  cases stands with
  | early place lamport currentId queue inbox before => cases queue
  | receiving place lamport currentId queue inbox before =>
      rcases queue with queue | ⟨_, queue⟩
      · exact absurd (List.cons.inj queue).1 notReady
      · cases queue
  | received place lamport queue reached before =>
      rcases queue with queue | ⟨_, queue⟩
      · exact absurd (List.cons.inj queue).1 notReady
      · cases queue
  | done place queue reached =>
      refine .done place ?_ (by omega)
      rcases queue with ⟨before, queue | queue⟩ | ⟨_, queue⟩
      · exact absurd (List.cons.inj queue).1 notReady
      · exact Or.inr ⟨answered, (List.cons.inj queue).2⟩
      · cases queue

end ClientAt

/-! ## A step of a client -/

theorem Peer.name_injective {peer other : Peer}
    (same : peer.name = other.name) : peer = other := by
  cases peer <;> cases other <;> first | rfl | cases same

theorem Peer.other_ne (peer : Peer) : peer.other ≠ peer := by
  cases peer <;> decide

theorem Peer.name_ne (peer : Peer) : peer.name ≠ .p2 := by
  cases peer <;> decide

section ClientSteps

variable {first heard peer : Peer} {system next : System}

theorem printed_append
    {log : List Event} (printed : next.log = system.log ++ log)
    (process : Name) :
    next.printed process =
      system.printed process ++
        log.filter (fun event => event.process = process) := by
  rw [System.printed, printed, List.filter_append, System.printed]

/-- A step of one client. -/
theorem InOrder.of_client
    (inOrder : InOrder first heard system) {client : Client}
    {toServer toClient : List Message} {log : List Event}
    (sameServer : next.server = system.server)
    (clients : next.client = Function.update system.client peer client)
    (queues : next.toServer =
      Function.update system.toServer peer toServer)
    (inboxes : next.toClient =
      Function.update system.toClient peer toClient)
    (printed : next.log = system.log ++ log)
    (own : ∀ event ∈ log, event.process = peer.name)
    (stands : ClientAt first peer system.server.stage client toServer
      toClient)
    (lines : (clientScript peer).take client.place.lines =
      (clientScript peer).take (system.client peer).place.lines ++ log) :
    InOrder first heard next where
  server := by
    rw [sameServer]
    exact inOrder.server
  client := by
    intro other
    rw [sameServer, clients, queues, inboxes]
    by_cases same : other = peer
    · subst same
      simp only [Function.update_self]
      exact stands
    · simp only [Function.update_of_ne same]
      exact inOrder.client other
  serverLines := by
    have none : log.filter (fun event => event.process = .p2) = [] := by
      rw [List.filter_eq_nil_iff]
      intro event listed isServer
      rw [own event listed, decide_eq_true_eq] at isServer
      exact peer.name_ne isServer
    rw [printed_append printed, none, List.append_nil, sameServer]
    exact inOrder.serverLines
  clientLines := by
    intro other
    rw [printed_append printed, clients, inOrder.clientLines other]
    by_cases same : other = peer
    · subst same
      have all :
          log.filter (fun event => event.process = other.name) = log := by
        rw [List.filter_eq_self]
        intro event listed
        exact decide_eq_true (own event listed)
      rw [Function.update_self, all, lines]
    · have none :
          log.filter (fun event => event.process = other.name) = [] := by
        rw [List.filter_eq_nil_iff]
        intro event listed isOther
        rw [own event listed, decide_eq_true_eq] at isOther
        exact same (Peer.name_injective isOther.symm)
      rw [Function.update_of_ne same, none, List.append_nil]

/-- A message that the client does not wait for, or the end of the socket. -/
theorem test_of_ne
    {client : Client} (currentId : client.currentId = 0)
    (ignored : client.message.clockLamport ≠ goal peer) :
    system.test peer client =
      { system with client := Function.update system.client peer client } := by
  rw [System.test, if_neg]
  rw [currentId]
  cases peer <;> simpa [Peer.name, expectedLamport, goal, eq_comm]
    using ignored

/-- The message that the client waits for. -/
theorem test_of_eq
    {client : Client} (currentId : client.currentId = 0)
    (lamport : client.lamport = 1)
    (expected : client.message.clockLamport = goal peer) :
    system.test peer client =
      { system with
        client :=
          Function.update system.client peer
            { client with
              place := .received
              lamport := goal peer + 1
              currentId := 1 }
        log :=
          system.log ++
            [.recv peer.name (goal peer + 1) (some .p2) client.message] } := by
  rw [System.test, if_pos]
  · rw [currentId, lamport, expected]
    cases peer <;> rfl
  · rw [currentId, expected]
    cases peer <;> rfl

/-- A client receives a message. -/
theorem InOrder.receive
    (inOrder : InOrder first heard system) {client : Client}
    {rest : List Message}
    (place : (system.client peer).place = .receiving)
    (inbox : system.toClient peer = client.message :: rest)
    (samePlace : client.place = .receiving)
    (sameLamport : client.lamport = (system.client peer).lamport)
    (sameId : client.currentId = (system.client peer).currentId) :
    InOrder first heard
      (({ system with
          toClient :=
            Function.update system.toClient peer rest } : System).test
        peer client) := by
  have stands := inOrder.client peer
  rw [inbox] at stands
  cases stands with
  | early otherPlace => simp [place] at otherPlace
  | received otherPlace => simp [place] at otherPlace
  | done otherPlace => simp [place] at otherPlace
  | receiving _ lamport currentId queue sent before =>
      obtain ⟨consumed, split, others⟩ := sent
      rw [← sameLamport] at lamport
      rw [← sameId] at currentId
      have listed :
          client.message ∈ pushed first peer system.server.stage := by
        rw [split]
        exact List.mem_append_right _ List.mem_cons_self
      by_cases expected : client.message.clockLamport = goal peer
      · rw [test_of_eq currentId lamport expected]
        refine inOrder.of_client rfl rfl
          (Function.update_eq_self _ _).symm rfl rfl ?_ ?_ ?_
        · intro event isEvent
          rw [List.mem_singleton.mp isEvent]
          rfl
        · refine .received rfl rfl queue ?_ before
          exact goal_mem_pushed.mp ⟨client.message, listed, expected⟩
        · have isNow := eq_now_of_mem listed
          rw [expected] at isNow
          rw [place, isNow]
          rfl
      · rw [test_of_ne currentId expected]
        refine inOrder.of_client rfl rfl
          (Function.update_eq_self _ _).symm rfl
          (List.append_nil _).symm ?_ ?_ ?_
        · intro event impossible
          cases impossible
        · refine .receiving samePlace lamport currentId queue
            ⟨consumed ++ [client.message], ?_, ?_⟩ before
          · rw [split, List.append_assoc, List.singleton_append]
          · intro other isConsumed
            rcases List.mem_append.mp isConsumed with old | new
            · exact others other old
            · rw [List.mem_singleton.mp new]
              exact expected
        · rw [samePlace, place, List.append_nil]

/-- P2 has not closed its sockets while a client still waits. -/
theorem ServerAt.not_closed
    {server : Server} (stands : ServerAt heard server)
    (unanswered : server.stage < ackStage peer) :
    server.place ≠ .closed := by
  intro closed
  have late : server.stage = 15 := by
    cases stands <;> simp_all [Server.stage, ServerPlace.offset]
  cases peer <;> simp [ackStage] at unanswered <;> omega

theorem InOrder.clientStep
    (inOrder : InOrder first heard system)
    (taken : system.clientStep peer = some next) :
    InOrder first heard next := by
  have stands := inOrder.client peer
  cases stands with
  | early place lamport currentId queue inbox before =>
      rcases place with place | place
      · simp only [System.clientStep, place] at taken
        cases taken
        refine inOrder.of_client rfl rfl
          (Function.update_eq_self _ _).symm
          (Function.update_eq_self _ _).symm
          (List.append_nil _).symm ?_ ?_ ?_
        · intro event impossible
          cases impossible
        · exact .early (Or.inr rfl) lamport currentId queue inbox before
        · rw [place]
          rfl
      · simp only [System.clientStep, place] at taken
        cases taken
        refine inOrder.of_client rfl rfl rfl
          (Function.update_eq_self _ _).symm rfl ?_ ?_ ?_
        · intro event isEvent
          rw [List.mem_singleton.mp isEvent]
          rfl
        · refine .receiving rfl ?_ currentId (Or.inl ?_)
            ⟨[], inbox.symm, ?_⟩ before
          · rw [lamport]
          · rw [queue, lamport]
            rfl
          · intro message impossible
            cases impossible
        · rw [place, lamport]
          rfl
  | receiving place lamport currentId queue inbox before =>
      simp only [System.clientStep, place] at taken
      split at taken
      · rename_i message rest inbox
        cases taken
        exact inOrder.receive place inbox rfl rfl rfl
      · rw [if_neg (inOrder.server.not_closed before)] at taken
        cases taken
  | received place lamport queue reached before =>
      simp only [System.clientStep, place] at taken
      cases taken
      refine inOrder.of_client rfl rfl rfl
        (Function.update_eq_self _ _).symm rfl ?_ ?_ ?_
      · intro event isEvent
        rw [List.mem_singleton.mp isEvent]
        rfl
      · refine .done (Or.inl rfl) (Or.inl ⟨before, ?_⟩) reached
        rw [lamport]
        rcases queue with queue | ⟨_, queue⟩
        · rw [queue]
          exact Or.inl rfl
        · rw [queue]
          exact Or.inr rfl
      · rw [place, lamport]
        rfl
  | done place queue reached =>
      rcases place with place | place
      · simp only [System.clientStep, place] at taken
        cases taken
        refine inOrder.of_client rfl rfl
          (Function.update_eq_self _ _).symm
          (Function.update_eq_self _ _).symm
          (List.append_nil _).symm ?_ ?_ ?_
        · intro event impossible
          cases impossible
        · exact .done (Or.inr rfl) queue reached
        · rw [place]
          rfl
      · simp only [System.clientStep, place] at taken
        cases taken

end ClientSteps

end SistemasDistribuidos.Practica2
