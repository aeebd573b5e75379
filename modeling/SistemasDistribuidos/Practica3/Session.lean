import SistemasDistribuidos.Practica3.Answers
import SistemasDistribuidos.Practica3.Client

/-!
# Who is told what

Between a client thread and its line stand two structs, an accepted
connection and a request in `do_request`.  Nothing gets mixed up on the way:
the line has the thread's own number and mode, and the counter that the
thread's own request has returned.
-/

namespace SistemasDistribuidos.Practica3

open SistemasDistribuidos Machine Pool SlotArray

/-! ## What the server keeps -/

namespace Server

/-- A request keeps its kind. -/
theorem action_stays
    {options : Options} {server later : Server} {action : ServerAction}
    (taken : server.step options action = some later) {request : Nat}
    {thread : Thread} (here : server.threads[request]? = some thread) :
    ∃ after,
      later.threads[request]? = some after ∧
        after.action = thread.action := by
  have set_stays : ∀ (threads : List Thread) (index : Nat)
      (mover moved other : Thread),
      threads[index]? = some mover → moved.action = mover.action →
        threads[request]? = some other →
          ∃ after,
            (threads.set index moved)[request]? = some after ∧
              after.action = other.action := by
    intro threads index mover moved other moverHere same otherHere
    by_cases own : index = request
    · subst own
      cases moverHere.symm.trans otherHere
      exact ⟨moved, getElem?_set_here moverHere, same⟩
    · exact ⟨other, (List.getElem?_set_ne own).trans otherHere, rfl⟩
  cases action with
  | arrive action =>
      obtain ⟨_, rfl⟩ := step_arrive taken
      have inside := (List.getElem?_eq_some_iff.mp here).1
      exact ⟨thread, (List.getElem?_append_left inside).trans here, rfl⟩
  | advance index woken =>
      obtain ⟨mover, there, advanced⟩ := step_advance taken
      by_cases departs : mover.phase = .departing
      · rw [advance, departs] at advanced
        obtain ⟨after, afterHere, same⟩ :=
          set_stays server.threads index mover
            { mover with phase := .signalled } thread there rfl here
        rcases wake_cases advanced with
          ⟨_, rfl⟩ | ⟨sleeper, other, otherHere, _, rfl⟩
        · exact ⟨after, afterHere, same⟩
        · obtain ⟨last, lastHere, sameAgain⟩ :=
            set_stays _ sleeper other { other with phase := .woken } after
              otherHere rfl afterHere
          exact ⟨last, lastHere, sameAgain.trans same⟩
      · obtain ⟨phase, locked, _, threads⟩ :=
          advance_follows advanced departs
        rw [threads]
        exact
          set_stays server.threads index mover ⟨mover.action, locked, phase⟩
            thread there rfl here

theorem exists_arrived
    {options : Options} {server later : Server} {action : Operation}
    (taken : server.step options (.arrive action) = some later) :
    ∃ thread,
      later.threads[server.threads.length]? = some thread ∧
        thread.action = action := by
  obtain ⟨_, rfl⟩ := step_arrive taken
  exact ⟨_, List.getElem?_concat_length, rfl⟩

end Server

/-- A client that has been accepted and has no thread yet. -/
def MainPhase.inHand : MainPhase → Nat
  | .accepting => 0
  | .counting => 0
  | _ => 1

namespace Acceptor

/-- The connections that the main thread has accepted. -/
def connections (acceptor : Acceptor) : Nat :=
  acceptor.clients.length + acceptor.main.inHand

theorem connections_accept
    {acceptor later : Acceptor} {clientSocket : Int}
    (taken : acceptor.step (.accept clientSocket) = some later) :
    later.connections = acceptor.connections + 1 := by
  obtain ⟨here, rfl⟩ := step_accept taken
  rw [connections, connections, here]
  rfl

theorem connections_main
    {acceptor later : Acceptor} (taken : acceptor.step .main = some later) :
    later.connections = acceptor.connections := by
  cases mainStep_cases taken with
  | create fd id here moved =>
      rw [moved, connections, connections, here, List.length_append]
      rfl
  | lock fd here moved | full fd here test moved | room fd here test moved
  | wait fd here moved | relock fd here moved | found fd here inside moved
  | failed fd here outside moved | leave fd id here moved
  | store fd id here moved | count here unlocked moved =>
      rw [moved, connections, connections, here]
      rfl

theorem connections_client
    {acceptor later : Acceptor} {index : Nat}
    (taken : acceptor.step (.client index) = some later) :
    later.connections = acceptor.connections := by
  obtain ⟨client, _, advanced⟩ := step_client taken
  cases clientStep_cases advanced with
  | signal fd isHere waits moved =>
      rw [moved, connections, connections, waits]
      simp only [Acceptor.move, List.length_set]
      rfl
  | close isHere moved | release isHere free moved
  | decrement isHere free moved | lose isHere awake moved
  | unlock isHere moved =>
      rw [moved, connections, connections]
      simp only [Acceptor.move, List.length_set]

end Acceptor

namespace Service

/-- A request is the one that a talk has just received. -/
structure Receives (service next : Service) (client : Nat) (talk : Talk)
    (action : ServiceAction) : Prop where
  operation : ∃ operation thread,
    action = .receive client operation ∧
      next.server.threads[service.server.threads.length]? = some thread ∧
      thread.action = operation
  talk : talk = .requesting service.server.threads.length

/-- What a quiet step leaves as it was. -/
structure Quiet (service next : Service) (action : ServiceAction) : Prop where
  connections :
    next.acceptor.connections = service.acceptor.connections
  talks : ∀ (client : Nat) (talk : Talk), next.talks[client]? = some talk →
    service.talks[client]? = some talk ∨ talk = .receiving ∨
      service.Receives next client talk action
  responded : ∀ (client request : Nat) (counter : BitVec 32),
    service.talks[client]? = some (Talk.responded request counter) →
      next.talks[client]? = some (Talk.responded request counter)
  threads : ∀ (request : Nat) (thread : Thread),
    service.server.threads[request]? = some thread →
      ∃ after,
        next.server.threads[request]? = some after ∧
          after.action = thread.action

theorem quiet_of_step
    {options : Options} {service next : Service} {action : ServiceAction}
    (quiet : Session.isQuiet action = true)
    (taken : service.step options action = some next) :
    service.Quiet next action := by
  cases step_cases taken with
  | accept clientSocket acceptor server talks => cases quiet
  | respond client request thread counter here there finished acceptor server
      talks => cases quiet
  | main acceptor server talks =>
      refine ⟨Acceptor.connections_main acceptor, ?_, ?_, ?_⟩
      · intro client talk here
        rw [talks] at here
        by_cases inside : client < service.talks.length
        · rw [List.getElem?_append_left inside] at here
          exact Or.inl here
        · rw [List.getElem?_append_right (Nat.le_of_not_lt inside)] at here
          have listed := List.mem_of_getElem? here
          unfold created at listed
          split at listed
          · exact Or.inr (Or.inl (List.mem_singleton.mp listed))
          · cases listed
      · intro client request counter here
        have inside := (List.getElem?_eq_some_iff.mp here).1
        rw [talks, List.getElem?_append_left inside]
        exact here
      · intro request thread here
        rw [server]
        exact ⟨thread, here, rfl⟩
  | receive client operation here acceptor server talks =>
      refine ⟨congrArg _ acceptor, ?_, ?_, ?_⟩
      · intro other talk otherHere
        rw [talks] at otherHere
        rcases getElem?_set_cases otherHere with ⟨rfl, rfl⟩ | ⟨_, old⟩
        · obtain ⟨thread, there, isAction⟩ := Server.exists_arrived server
          exact
            Or.inr (Or.inr ⟨⟨operation, thread, rfl, there, isAction⟩, rfl⟩)
        · exact Or.inl old
      · intro other request counter otherHere
        have different : client ≠ other := by
          rintro rfl
          cases here.symm.trans otherHere
        rw [talks, List.getElem?_set_ne different]
        exact otherHere
      · intro request thread there
        exact Server.action_stays server there
  | request client woken request here acceptor server talks =>
      refine ⟨congrArg _ acceptor, ?_, ?_, ?_⟩
      · intro other talk otherHere
        rw [talks] at otherHere
        exact Or.inl otherHere
      · intro other own counter otherHere
        rw [talks]
        exact otherHere
      · intro own thread there
        exact Server.action_stays server there
  | finish client request counter here acceptor server talks =>
      refine ⟨Acceptor.connections_client acceptor, ?_, ?_, ?_⟩
      · intro other talk otherHere
        rw [talks] at otherHere
        exact Or.inl otherHere
      · intro other own otherCounter otherHere
        rw [talks]
        exact otherHere
      · intro own thread there
        rw [server]
        exact ⟨thread, there, rfl⟩

end Service

/-! ## Both ends of a connection -/

namespace ClientThread

/-- What it was started with. -/
def given (thread : ClientThread) : Operation × Int :=
  (thread.action, thread.threadId)

/-- Its request has been sent. -/
def hasSent (thread : ClientThread) : Bool :=
  match thread.phase with
  | .sent => true
  | .printed _ => true
  | _ => false

theorem isConnected_of_hasSent {thread : ClientThread}
    (sent : thread.hasSent = true) : thread.isConnected = true := by
  obtain ⟨action, threadId, phase⟩ := thread
  cases phase with
  | starting => cases sent
  | _ => rfl

end ClientThread

namespace Session

/-- The mode of a client thread. -/
def mode (session : Session) (place : Nat) : Option Operation :=
  session.clients[place]?.map ClientThread.action

/-- What the connections carry is what the two threads at their ends have. -/
structure Linked (session : Session) : Prop where
  nodup : session.accepted.Nodup
  connected : ∀ place ∈ session.accepted,
    session.clients[place]?.any ClientThread.isConnected = true
  length : session.accepted.length = session.service.acceptor.connections
  asked : ∀ (place : Nat) (bytes : StructRequest),
    session.toServer place = some bytes →
      StructRequest.action bytes = session.mode place
  sent : ∀ (place : Nat) (thread : ClientThread),
    session.clients[place]? = some thread → thread.hasSent = true →
      ∃ bytes, session.toServer place = some bytes
  received : ∀ (client place request : Nat) (talk : Talk),
    session.accepted[client]? = some place →
      session.service.talks[client]? = some talk →
        talk.request = some request →
          ∃ thread,
            session.service.server.threads[request]? = some thread ∧
              session.mode place = some thread.action
  answered : ∀ (place : Nat) (bytes : StructResponse),
    session.toClient place = some bytes →
      ∃ (client request : Nat) (counter : BitVec 32) (action : Operation),
        session.accepted[client]? = some place ∧
          session.service.talks[client]? =
            some (.responded request counter) ∧
          session.mode place = some action ∧
          ∀ threadId, StructResponse.line threadId bytes =
            ⟨threadId, action, counter.toInt,
              (session.waited place).toInt⟩
  responded : ∀ (client place request : Nat) (counter : BitVec 32),
    session.accepted[client]? = some place →
      session.service.talks[client]? = some (.responded request counter) →
        ∃ bytes, session.toClient place = some bytes
  printed : ∀ (place : Nat) (thread : ClientThread) (line : Line),
    session.clients[place]? = some thread → thread.phase = .printed line →
      ∃ bytes,
        session.toClient place = some bytes ∧
          line = StructResponse.line thread.threadId bytes

section Steps

variable {options : Options} {session next : Session}

theorem isPending_iff {place : Nat} :
    session.isPending place = true ↔
      session.clients[place]?.any ClientThread.isConnected = true ∧
        place ∉ session.accepted := by
  rw [isPending, decide_eq_true_iff]

/-- A client thread keeps what it was started with. -/
theorem given_of_set
    {place : Nat} {thread : ClientThread}
    (here : session.clients[place]? = some thread) (phase : TalkPhase)
    (clients :
      next.clients =
        session.clients.set place { thread with phase := phase }) :
    next.clients.map ClientThread.given =
      session.clients.map ClientThread.given := by
  have mapped :
      (session.clients.map ClientThread.given)[place]? =
        some thread.given := by
    rw [List.getElem?_map, here]
    rfl
  rw [clients, List.map_set]
  exact set_here mapped

theorem mode_of_given
    (given :
      next.clients.map ClientThread.given =
        session.clients.map ClientThread.given) (place : Nat) :
    next.mode place = session.mode place := by
  have same := congrArg (fun list => list[place]?.map Prod.fst) given
  simp only [List.getElem?_map, Option.map_map] at same
  exact same

/-- The server goes on by itself. -/
theorem Linked.quiet
    (linked : session.Linked) {action : ServiceAction} {service : Service}
    (quiet : session.service.Quiet service action)
    (asked : ∀ client operation, action = .receive client operation →
      ∃ place bytes,
        session.accepted[client]? = some place ∧
          session.toServer place = some bytes ∧
          StructRequest.action bytes = some operation) :
    Linked { session with service := service } where
  nodup := linked.nodup
  connected := linked.connected
  length := linked.length.trans quiet.connections.symm
  asked := linked.asked
  sent := linked.sent
  received := by
    intro client place request talk accepted here own
    rcases quiet.talks client talk here with old | rfl | receives
    · obtain ⟨thread, there, mode⟩ :=
        linked.received client place request talk accepted old own
      obtain ⟨after, afterThere, same⟩ := quiet.threads request thread there
      exact ⟨after, afterThere, same ▸ mode⟩
    · cases own
    · obtain ⟨⟨operation, thread, isReceive, there, isAction⟩, rfl⟩ :=
        receives
      cases own
      obtain ⟨other, bytes, otherAccepted, arrived, read⟩ :=
        asked client operation isReceive
      cases accepted.symm.trans otherAccepted
      refine ⟨thread, there, ?_⟩
      rw [isAction, ← read]
      exact (linked.asked place bytes arrived).symm
  answered := by
    intro place bytes arrived
    obtain ⟨client, request, counter, action, accepted, here, rest⟩ :=
      linked.answered place bytes arrived
    exact
      ⟨client, request, counter, action, accepted,
        quiet.responded client request counter here, rest⟩
  responded := by
    intro client place request counter accepted here
    rcases quiet.talks client _ here with old | impossible | receives
    · exact linked.responded client place request counter accepted old
    · cases impossible
    · cases receives.talk
  printed := linked.printed

/-- A connection is accepted. -/
theorem Linked.accept
    (linked : session.Linked) {place : Nat} {clientSocket : Int}
    (pending : session.isPending place = true) {service : Service}
    (attributed : session.service.Attributed)
    (served :
      session.service.step options (.accept clientSocket) =
        some service) :
    Linked
      { session with
        service := service, accepted := session.accepted ++ [place] } := by
  obtain ⟨isConnected, isNew⟩ := isPending_iff.mp pending
  have sameTalks :
      service.talks = session.service.talks ∧
        service.server = session.service.server ∧
        service.acceptor.connections =
          session.service.acceptor.connections + 1 := by
    cases Service.step_cases served with
    | accept _ acceptor server talks =>
        exact ⟨talks, server, Acceptor.connections_accept acceptor⟩
  obtain ⟨talks, server, connections⟩ := sameTalks
  have inside : ∀ {client : Nat} {talk : Talk},
      service.talks[client]? = some talk →
        client < session.accepted.length := by
    intro client talk here
    have within := (List.getElem?_eq_some_iff.mp here).1
    rw [talks, attributed.length] at within
    rw [linked.length]
    exact within.trans_le (Nat.le_add_right _ _)
  have old : ∀ {client other : Nat} {talk : Talk},
      service.talks[client]? = some talk →
        (session.accepted ++ [place])[client]? = some other →
          session.accepted[client]? = some other := by
    intro client other talk here accepted
    rw [List.getElem?_append_left (inside here)] at accepted
    exact accepted
  refine ⟨?_, ?_, ?_, linked.asked, linked.sent, ?_, ?_, ?_, linked.printed⟩
  · exact List.nodup_append_comm.mp (List.nodup_cons.mpr ⟨isNew, linked.nodup⟩)
  · intro other listed
    rcases List.mem_append.mp listed with earlier | same
    · exact linked.connected other earlier
    · rw [List.mem_singleton.mp same]
      exact isConnected
  · rw [List.length_append, linked.length]
    exact connections.symm
  · intro client other request talk accepted here own
    have earlier := old here accepted
    simp only at here
    rw [talks] at here
    rw [server]
    exact linked.received client other request talk earlier here own
  · intro other bytes arrived
    obtain ⟨client, request, counter, action, accepted, here, rest⟩ :=
      linked.answered other bytes arrived
    rw [← talks] at here
    exact
      ⟨client, request, counter, action,
        (List.getElem?_append_left (inside here)).trans accepted, here,
        rest⟩
  · intro client other request counter accepted here
    have earlier := old here accepted
    simp only at here
    rw [talks] at here
    exact linked.responded client other request counter earlier here

/-- A response is sent. -/
theorem Linked.respond
    (linked : session.Linked) {client place : Nat} (stack : StructResponse)
    (waitingTime : BitVec 64) {action : Operation} {counter : BitVec 32}
    (accepted : session.accepted[client]? = some place)
    (response : session.service.response client = some (action, counter))
    {service : Service}
    (served :
      session.service.step options (.respond client) = some service) :
    Linked
      { session with
        service := service
        toClient :=
          Function.update session.toClient place
            (some (.store stack action counter waitingTime))
        waited :=
          Function.update session.waited place waitingTime } := by
  obtain ⟨request, thread, here, there, isAction, finished⟩ :=
    response_eq_some response
  have moved :
      service.talks =
          session.service.talks.set client (.responded request counter) ∧
        service.server = session.service.server ∧
        service.acceptor = session.service.acceptor := by
    cases Service.step_cases served with
    | respond _ other otherThread otherCounter otherHere otherThere
        otherFinished acceptor server talks =>
        cases here.symm.trans otherHere
        cases there.symm.trans otherThere
        cases finished.symm.trans otherFinished
        exact ⟨talks, server, acceptor⟩
  obtain ⟨talks, server, acceptor⟩ := moved
  have mode : session.mode place = some action := by
    obtain ⟨own, ownThere, mode⟩ :=
      linked.received client place request _ accepted here rfl
    cases there.symm.trans ownThere
    rw [mode, isAction]
  refine
    ⟨linked.nodup, linked.connected, ?_, linked.asked, linked.sent, ?_, ?_,
      ?_, ?_⟩
  · rw [linked.length, acceptor]
  · intro other otherPlace otherRequest talk otherAccepted otherHere own
    simp only at otherHere
    rw [talks] at otherHere
    rw [server]
    rcases getElem?_set_cases otherHere with ⟨rfl, rfl⟩ | ⟨_, old⟩
    · exact
        linked.received other otherPlace otherRequest _ otherAccepted here
          own
    · exact
        linked.received other otherPlace otherRequest talk otherAccepted old
          own
  · intro otherPlace bytes arrived
    by_cases same : otherPlace = place
    · subst same
      simp only [Function.update_self, Option.some.injEq] at arrived ⊢
      subst arrived
      refine ⟨client, request, counter, action, accepted, ?_, mode, ?_⟩
      · rw [talks]
        exact getElem?_set_here here
      · intro threadId
        exact StructResponse.line_store threadId stack action counter _
    · simp only [Function.update_of_ne same] at arrived ⊢
      obtain
        ⟨other, otherRequest, otherCounter, otherAction, otherAccepted,
          otherHere, rest⟩ := linked.answered otherPlace bytes arrived
      refine
        ⟨other, otherRequest, otherCounter, otherAction, otherAccepted, ?_,
          rest⟩
      have different : client ≠ other := by
        rintro rfl
        cases here.symm.trans otherHere
      rw [talks, List.getElem?_set_ne different]
      exact otherHere
  · intro other otherPlace otherRequest otherCounter otherAccepted otherHere
    by_cases same : otherPlace = place
    · subst same
      exact ⟨_, Function.update_self _ _ _⟩
    · simp only [Function.update_of_ne same]
      simp only at otherHere
      rw [talks] at otherHere
      rcases getElem?_set_cases otherHere with ⟨rfl, _⟩ | ⟨_, old⟩
      · cases accepted.symm.trans otherAccepted
        exact absurd rfl same
      · exact
          linked.responded other otherPlace otherRequest otherCounter
            otherAccepted old
  · intro otherPlace otherThread line otherHere isPrinted
    obtain ⟨bytes, arrived, isLine⟩ :=
      linked.printed otherPlace otherThread line otherHere isPrinted
    have different : otherPlace ≠ place := by
      rintro rfl
      obtain ⟨other, otherRequest, otherCounter, _, otherAccepted,
        otherTold, _⟩ := linked.answered otherPlace bytes arrived
      have sameClient : other = client :=
        (List.getElem?_inj (List.getElem?_eq_some_iff.mp otherAccepted).1
          linked.nodup).mp (otherAccepted.trans accepted.symm)
      subst sameClient
      cases here.symm.trans otherTold
    exact
      ⟨bytes, (Function.update_of_ne different _ _).trans arrived, isLine⟩

/-- A client thread goes on to another phase, and the server has no part in
it. -/
theorem Linked.client
    (linked : session.Linked) {place : Nat} {thread : ClientThread}
    (here : session.clients[place]? = some thread) {phase : TalkPhase}
    {toServer : Nat → Option StructRequest}
    (isConnected : phase ≠ .starting)
    (asked : ∀ other bytes, toServer other = some bytes →
      StructRequest.action bytes = session.mode other)
    (keeps : ∀ other, (session.toServer other).isSome = true →
      (toServer other).isSome = true)
    (sent :
      ({ thread with phase := phase } : ClientThread).hasSent = true →
        (toServer place).isSome = true)
    (printed : ∀ line, phase = .printed line →
      ∃ bytes,
        session.toClient place = some bytes ∧
          line = StructResponse.line thread.threadId bytes) :
    Linked
      { session.moveClient place thread phase with toServer := toServer } := by
  have mode : ∀ other,
      Session.mode
          { session.moveClient place thread phase with toServer := toServer }
          other =
        session.mode other :=
    mode_of_given (given_of_set here phase rfl)
  refine
    ⟨linked.nodup, ?_, linked.length, ?_, ?_, ?_, ?_, linked.responded, ?_⟩
  · intro other listed
    have before := linked.connected other listed
    by_cases same : place = other
    · subst same
      simp only [moveClient, getElem?_set_here here]
      simp [ClientThread.isConnected, isConnected]
    · simp only [moveClient, List.getElem?_set_ne same]
      exact before
  · intro other bytes arrived
    rw [mode]
    exact asked other bytes arrived
  · intro other otherThread otherHere hasSent
    rw [← Option.isSome_iff_exists]
    rcases getElem?_set_cases otherHere with ⟨rfl, rfl⟩ | ⟨_, old⟩
    · exact sent hasSent
    · apply keeps
      rw [Option.isSome_iff_exists]
      exact linked.sent other otherThread old hasSent
  · intro client other request talk accepted talkHere own
    rw [mode]
    exact linked.received client other request talk accepted talkHere own
  · intro other bytes arrived
    rw [mode]
    exact linked.answered other bytes arrived
  · intro other otherThread line otherHere isPrinted
    rcases getElem?_set_cases otherHere with ⟨rfl, rfl⟩ | ⟨_, old⟩
    · exact printed line isPrinted
    · exact linked.printed other otherThread line old isPrinted

theorem Linked.move
    (linked : session.Linked) {place : Nat} {thread : ClientThread}
    (here : session.clients[place]? = some thread)
    (move : session.ClientMove next place thread) : next.Linked := by
  cases move with
  | connect phase moved =>
      subst moved
      exact
        linked.client here TalkPhase.noConfusion linked.asked
          (fun _ given => given) Bool.noConfusion
          (fun _ => TalkPhase.noConfusion)
  | send stack phase moved =>
      subst moved
      have mode : session.mode place = some thread.action := by
        rw [mode, here]
        rfl
      refine
        linked.client here TalkPhase.noConfusion ?_ ?_ ?_
          (fun _ => TalkPhase.noConfusion)
      · intro other bytes arrived
        by_cases same : other = place
        · subst same
          simp only [Function.update_self, Option.some.injEq] at arrived
          subst arrived
          rw [StructRequest.action_store, mode]
        · rw [Function.update_of_ne same] at arrived
          exact linked.asked other bytes arrived
      · intro other given
        by_cases same : other = place
        · subst same
          rw [Function.update_self]
          rfl
        · rw [Function.update_of_ne same]
          exact given
      · intro _
        rw [Function.update_self]
        rfl
  | print bytes phase received moved =>
      subst moved
      have hasSent : thread.hasSent = true := by
        rw [ClientThread.hasSent, phase]
      refine
        linked.client here TalkPhase.noConfusion linked.asked
          (fun _ given => given) ?_ ?_
      · intro _
        rw [Option.isSome_iff_exists]
        exact linked.sent place thread here hasSent
      · intro line same
        cases same
        exact ⟨bytes, received, rfl⟩

end Steps

/-! ## Runs -/

/-- `accept` gives a positive descriptor. -/
def Positive (_ : Session) : SessionAction → Prop
  | .accept _ clientSocket => 0 < clientSocket
  | _ => True

instance (session : Session) :
    ∀ action, Decidable (session.Positive action)
  | .accept _ clientSocket => inferInstanceAs (Decidable (0 < clientSocket))
  | .connect _ => inferInstanceAs (Decidable True)
  | .send _ _ => inferInstanceAs (Decidable True)
  | .print _ => inferInstanceAs (Decidable True)
  | .main => inferInstanceAs (Decidable True)
  | .receive _ => inferInstanceAs (Decidable True)
  | .request _ _ => inferInstanceAs (Decidable True)
  | .respond _ _ _ => inferInstanceAs (Decidable True)
  | .finish _ => inferInstanceAs (Decidable True)

section Runs

variable {options : Options} {session next : Session}

/-- A step of the whole is a step of the server, or leaves it alone. -/
theorem service_of_step
    {action : SessionAction}
    (taken : session.step options action = some next) :
    next.service = session.service ∨
      ∃ move,
        (session.Positive action → session.service.Positive move) ∧
          session.service.step options move = some next.service := by
  cases step_cases taken with
  | client place thread here move =>
      left
      cases move with
      | connect _ moved => rw [moved]; rfl
      | send _ _ moved => rw [moved]; rfl
      | print _ _ _ moved => rw [moved]; rfl
  | accept place clientSocket same pending service served moved =>
      subst same moved
      exact Or.inr ⟨.accept clientSocket, fun positive => positive, served⟩
  | quiet move quiet asked service served moved =>
      subst moved
      refine Or.inr ⟨move, fun _ => ?_, served⟩
      cases move with
      | accept clientSocket => cases quiet
      | _ => trivial
  | respond client place stack waitingTime operation counter here response
      service served moved =>
      subst moved
      exact Or.inr ⟨.respond client, fun _ => trivial, served⟩

/-- What a run does to the server is a run of the server. -/
theorem service_of_run
    {actions : List SessionAction} {final : Session}
    (reached : run (step options) session actions = some final) :
    ∃ moves,
      run (Service.step options) session.service moves =
        some final.service := by
  refine exists_run_of_view Session.service ?_ reached
  intro state action next taken
  rcases service_of_step taken with same | ⟨move, _, further⟩
  · exact ⟨[], congrArg some same.symm⟩
  · exact ⟨[move], (run_singleton _ _).trans further⟩

theorem Linked.step
    (linked : session.Linked) (sound : session.service.Sound)
    {action : SessionAction}
    (taken : session.step options action = some next) : next.Linked := by
  cases step_cases taken with
  | client place thread here move => exact linked.move here move
  | accept place clientSocket same pending service served moved =>
      subst moved
      exact linked.accept pending sound.attributed served
  | quiet move quiet asked service served moved =>
      subst moved
      exact linked.quiet (Service.quiet_of_step quiet served) asked
  | respond client place stack waitingTime operation counter here response
      service served moved =>
      subst moved
      exact linked.respond stack waitingTime here response served

theorem given_step
    {action : SessionAction}
    (taken : session.step options action = some next) :
    next.clients.map ClientThread.given =
      session.clients.map ClientThread.given := by
  cases step_cases taken with
  | client place thread here move =>
      cases move with
      | connect _ moved => exact given_of_set here .connected (by rw [moved]; rfl)
      | send _ _ moved => exact given_of_set here .sent (by rw [moved]; rfl)
      | print _ _ _ moved => exact given_of_set here _ (by rw [moved]; rfl)
  | accept _ _ _ _ _ _ moved | quiet _ _ _ _ _ moved
  | respond _ _ _ _ _ _ _ _ _ _ moved => rw [moved]

theorem phase_initial
    {counter : BitVec 32} {output : List Char}
    {programs : List (Operation × Nat)} {thread : ClientThread}
    (listed : thread ∈ (initial counter output programs).clients) :
    thread.phase = .starting := by
  simp only [initial, List.mem_flatMap, ClientThread.program,
    List.mem_map] at listed
  obtain ⟨_, _, _, _, rfl⟩ := listed
  rfl

theorem linked_initial (counter : BitVec 32) (output : List Char)
    (programs : List (Operation × Nat)) :
    (initial counter output programs).Linked where
  nodup := List.nodup_nil
  connected := nofun
  length := rfl
  asked := nofun
  sent := by
    intro place thread here sent
    rw [ClientThread.hasSent, phase_initial (List.mem_of_getElem? here)]
      at sent
    cases sent
  received := nofun
  answered := nofun
  responded := nofun
  printed := by
    intro place thread line here printed
    rw [phase_initial (List.mem_of_getElem? here)] at printed
    cases printed

/-- What holds in every state that is reached. -/
structure Kept (options : Options) (counter : BitVec 32)
    (output : List Char) (programs : List (Operation × Nat))
    (session : Session) : Prop where
  linked : session.Linked
  sound : session.service.Sound
  given :
    session.clients.map ClientThread.given =
      (initial counter output programs).clients.map ClientThread.given
  served : ∃ moves,
    run (Service.step options) (Service.initial counter output) moves =
      some session.service

section Kept

variable {counter : BitVec 32} {output : List Char}
  {programs : List (Operation × Nat)}

theorem kept_initial (options : Options) (counter : BitVec 32)
    (output : List Char) (programs : List (Operation × Nat)) :
    (initial counter output programs).Kept options counter output
      programs where
  linked := linked_initial counter output programs
  sound := Service.sound_initial counter output
  given := rfl
  served := ⟨[], rfl⟩

theorem Kept.step
    (kept : session.Kept options counter output programs)
    {action : SessionAction} (positive : session.Positive action)
    (taken : session.step options action = some next) :
    next.Kept options counter output programs := by
  obtain ⟨moves, served⟩ := kept.served
  refine
    ⟨kept.linked.step kept.sound taken, ?_,
      (given_step taken).trans kept.given, ?_⟩
  · rcases service_of_step taken with same | ⟨move, isPositive, further⟩
    · rw [same]
      exact kept.sound
    · exact kept.sound.step (isPositive positive) further
  · obtain ⟨more, further⟩ :=
      service_of_run ((run_singleton session action).trans taken)
    exact
      ⟨moves ++ more,
        run_append_eq_some.mpr ⟨session.service, served, further⟩⟩

theorem kept_of_run
    {actions : List SessionAction}
    (positive :
      Obeys (step options) Positive (initial counter output programs)
        actions)
    (reached :
      run (step options) (initial counter output programs) actions =
        some session) :
    session.Kept options counter output programs :=
  invariant_of_run (fun _ _ _ kept positive taken => kept.step positive taken)
    (kept_initial options counter output programs) positive reached

end Kept

end Runs

end Session

end SistemasDistribuidos.Practica3
