import SistemasDistribuidos.Practica3.Slots
import SistemasDistribuidos.Practica3.Termination

/-!
# The whole server

The accept loop and the requests at work together.  A `talk_2_client` thread
receives its request, goes through `do_request`, sends the response, and only
then closes its socket, releases its slot and counts itself out.  What the
accept loop and `do_request` do is what they do by themselves, so whatever
holds of their runs holds here; what is new is which request is whose.

A client that closes its socket without a request, and a response that cannot
be sent, are left out: the first leaves the request without a value, and the
second ends the server.
-/

namespace SistemasDistribuidos.Practica3

open SistemasDistribuidos Machine Pool

/-- What a `talk_2_client` thread has done before its `close`. -/
inductive Talk where
  /-- In `receive_request`. -/
  | receiving
  /-- In `do_request`, with its place among the requests. -/
  | requesting (request : Nat)
  /-- After `send_response`. -/
  | responded (request : Nat) (counter : BitVec 32)
  deriving DecidableEq

namespace Talk

/-- The place of the request in `do_request`. -/
def request : Talk → Option Nat
  | .receiving => none
  | .requesting request => some request
  | .responded request _ => some request

def isRequesting : Talk → Bool
  | .requesting _ => true
  | _ => false

end Talk

structure Service where
  acceptor : Acceptor
  server : Server
  /-- For each client of `acceptor`, in the same order. -/
  talks : List Talk

inductive ServiceAction where
  /-- `accept` returns. -/
  | accept (clientSocket : Int)
  /-- The main thread goes on. -/
  | main
  /-- `receive_request` returns, and the request arrives. -/
  | receive (client : Nat) (action : Operation)
  /-- A client goes on in `do_request`. -/
  | request (client : Nat) (woken : Option Nat)
  /-- `send_response`. -/
  | respond (client : Nat)
  /-- A client goes on after `send_response`. -/
  | finish (client : Nat)

namespace Service

/-- `pthread_create` starts a thread that has received nothing yet. -/
def created (main : MainPhase) : List Talk :=
  match main with
  | .creating _ _ => [.receiving]
  | _ => []

def step (options : Options) (service : Service) :
    ServiceAction → Option Service
  | .accept clientSocket =>
      (service.acceptor.step (.accept clientSocket)).map
        (fun acceptor => { service with acceptor := acceptor })
  | .main =>
      (service.acceptor.step .main).map
        (fun acceptor =>
          { service with
            acceptor := acceptor
            talks := service.talks ++ created service.acceptor.main })
  | .receive client action =>
      match service.talks[client]? with
      | some .receiving =>
          (service.server.step options (.arrive action)).map
            (fun server =>
              { service with
                server := server
                talks :=
                  service.talks.set client
                    (.requesting service.server.threads.length) })
      | _ => none
  | .request client woken =>
      match service.talks[client]? with
      | some (.requesting request) =>
          (service.server.step options (.advance request woken)).map
            (fun server => { service with server := server })
      | _ => none
  | .respond client =>
      match service.talks[client]? with
      | some (.requesting request) =>
          match service.server.threads[request]? with
          | some ⟨_, _, .finished counter⟩ =>
              some
                { service with
                  talks :=
                    service.talks.set client
                      (.responded request counter) }
          | _ => none
      | _ => none
  | .finish client =>
      match service.talks[client]? with
      | some (.responded _ _) =>
          (service.acceptor.step (.client client)).map
            (fun acceptor => { service with acceptor := acceptor })
      | _ => none

def initial (counter : BitVec 32) (output : List Char) : Service where
  acceptor := Acceptor.initial
  server := Server.initial counter output
  talks := []

/-! ## What one step does -/

/-- The parts of the server that a step moves. -/
inductive Step (options : Options) (service next : Service) :
    ServiceAction → Prop where
  | accept (clientSocket : Int)
      (acceptor :
        service.acceptor.step (.accept clientSocket) = some next.acceptor)
      (server : next.server = service.server)
      (talks : next.talks = service.talks) :
      Step options service next (.accept clientSocket)
  | main (acceptor : service.acceptor.step .main = some next.acceptor)
      (server : next.server = service.server)
      (talks :
        next.talks = service.talks ++ created service.acceptor.main) :
      Step options service next .main
  | receive (client : Nat) (action : Operation)
      (here : service.talks[client]? = some .receiving)
      (acceptor : next.acceptor = service.acceptor)
      (server :
        service.server.step options (.arrive action) = some next.server)
      (talks :
        next.talks =
          service.talks.set client
            (.requesting service.server.threads.length)) :
      Step options service next (.receive client action)
  | request (client : Nat) (woken : Option Nat) (request : Nat)
      (here : service.talks[client]? = some (.requesting request))
      (acceptor : next.acceptor = service.acceptor)
      (server :
        service.server.step options (.advance request woken) =
          some next.server)
      (talks : next.talks = service.talks) :
      Step options service next (.request client woken)
  | respond (client : Nat) (request : Nat) (thread : Thread)
      (counter : BitVec 32)
      (here : service.talks[client]? = some (.requesting request))
      (there : service.server.threads[request]? = some thread)
      (finished : thread.phase = .finished counter)
      (acceptor : next.acceptor = service.acceptor)
      (server : next.server = service.server)
      (talks :
        next.talks =
          service.talks.set client (.responded request counter)) :
      Step options service next (.respond client)
  | finish (client : Nat) (request : Nat) (counter : BitVec 32)
      (here : service.talks[client]? = some (.responded request counter))
      (acceptor :
        service.acceptor.step (.client client) = some next.acceptor)
      (server : next.server = service.server)
      (talks : next.talks = service.talks) :
      Step options service next (.finish client)

section Inversion

variable {options : Options} {service next : Service}

theorem step_cases
    {action : ServiceAction}
    (taken : service.step options action = some next) :
    Step options service next action := by
  cases action with
  | accept clientSocket =>
      obtain ⟨acceptor, accepted, rfl⟩ := Option.map_eq_some_iff.mp taken
      exact .accept clientSocket accepted rfl rfl
  | main =>
      obtain ⟨acceptor, moved, rfl⟩ := Option.map_eq_some_iff.mp taken
      exact .main moved rfl rfl
  | receive client action =>
      simp only [step] at taken
      split at taken
      · rename_i here
        obtain ⟨server, arrived, rfl⟩ := Option.map_eq_some_iff.mp taken
        exact .receive client action here rfl arrived rfl
      · cases taken
  | request client woken =>
      simp only [step] at taken
      split at taken
      · rename_i request here
        obtain ⟨server, moved, rfl⟩ := Option.map_eq_some_iff.mp taken
        exact .request client woken request here rfl moved rfl
      · cases taken
  | respond client =>
      simp only [step] at taken
      split at taken
      · rename_i request here
        split at taken
        · rename_i counter there
          cases taken
          exact .respond client request _ counter here there rfl rfl rfl rfl
        · cases taken
      · cases taken
  | finish client =>
      simp only [step] at taken
      split at taken
      · rename_i request counter here
        obtain ⟨acceptor, moved, rfl⟩ := Option.map_eq_some_iff.mp taken
        exact .finish client request counter here moved rfl rfl
      · cases taken

/-- What a run of the whole server does to the accept loop is a run of the
accept loop. -/
theorem acceptor_of_run
    {actions : List ServiceAction} {final : Service}
    (reached : run (step options) service actions = some final) :
    ∃ moves,
      run Acceptor.step service.acceptor moves = some final.acceptor := by
  refine exists_run_of_view Service.acceptor ?_ reached
  intro state action next taken
  cases step_cases taken with
  | accept clientSocket acceptor _ _ =>
      exact ⟨[.accept clientSocket], (run_singleton _ _).trans acceptor⟩
  | main acceptor _ _ => exact ⟨[.main], (run_singleton _ _).trans acceptor⟩
  | receive client action here acceptor _ _ =>
      exact ⟨[], congrArg some acceptor.symm⟩
  | request client woken request here acceptor _ _ =>
      exact ⟨[], congrArg some acceptor.symm⟩
  | respond client request thread counter here there finished acceptor _ _ =>
      exact ⟨[], congrArg some acceptor.symm⟩
  | finish client request counter here acceptor _ _ =>
      exact ⟨[.client client], (run_singleton _ _).trans acceptor⟩

/-- What it does to the requests is a run of `do_request`. -/
theorem server_of_run
    {actions : List ServiceAction} {final : Service}
    (reached : run (step options) service actions = some final) :
    ∃ moves,
      run (Server.step options) service.server moves =
        some final.server := by
  refine exists_run_of_view Service.server ?_ reached
  intro state action next taken
  cases step_cases taken with
  | accept clientSocket _ server _ => exact ⟨[], congrArg some server.symm⟩
  | main _ server _ => exact ⟨[], congrArg some server.symm⟩
  | receive client action here _ server _ =>
      exact ⟨[.arrive action], (run_singleton _ _).trans server⟩
  | request client woken request here _ server _ =>
      exact ⟨[.advance request woken], (run_singleton _ _).trans server⟩
  | respond client request thread counter here there finished _ server _ =>
      exact ⟨[], congrArg some server.symm⟩
  | finish client request counter here _ server _ =>
      exact ⟨[], congrArg some server.symm⟩

end Inversion

/-! ## Whose request it is -/

/-- Every request is that of one client, who is told what has become of it and
goes on only then. -/
structure Attributed (service : Service) : Prop where
  length : service.talks.length = service.acceptor.clients.length
  requests :
    (service.talks.filterMap Talk.request).Perm
      (List.range service.server.threads.length)
  answered : ∀ (client request : Nat) (counter : BitVec 32),
    service.talks[client]? = some (.responded request counter) →
      ∃ thread,
        service.server.threads[request]? = some thread ∧
          thread.phase = .finished counter
  told : ∀ (place : Nat) (talk : Talk) (client : Client),
    service.talks[place]? = some talk →
      service.acceptor.clients[place]? = some client →
        client.phase ≠ .serving →
          ∃ request counter, talk = .responded request counter

section Attribution

variable {options : Options} {service next : Service}

/-- A request that is finished stays as it is. -/
theorem finished_stays
    {server later : Server} {action : ServerAction}
    (taken : server.step options action = some later) {request : Nat}
    {thread : Thread} {counter : BitVec 32}
    (here : server.threads[request]? = some thread)
    (finished : thread.phase = .finished counter) :
    later.threads[request]? = some thread := by
  cases action with
  | arrive action =>
      obtain ⟨_, rfl⟩ := Server.step_arrive taken
      have inside := (List.getElem?_eq_some_iff.mp here).1
      exact (List.getElem?_append_left inside).trans here
  | advance index woken =>
      obtain ⟨mover, there, advanced⟩ := Server.step_advance taken
      have different : index ≠ request := by
        rintro rfl
        cases here.symm.trans there
        rw [Server.advance, finished] at advanced
        cases advanced
      by_cases departs : mover.phase = .departing
      · rw [Server.advance, departs] at advanced
        have still :
            (server.threads.set index { mover with phase := .signalled })[
                request]? = some thread :=
          (List.getElem?_set_ne different).trans here
        rcases Server.wake_cases advanced with
          ⟨_, rfl⟩ | ⟨sleeper, other, otherHere, asleep, rfl⟩
        · exact still
        · have notSleeper : sleeper ≠ request := by
            rintro rfl
            cases otherHere.symm.trans still
            simp [Server.sleeps, finished] at asleep
          exact (List.getElem?_set_ne notSleeper).trans still
      · obtain ⟨phase, locked, _, threads⟩ :=
          Server.advance_follows advanced departs
        rw [threads, List.getElem?_set_ne different]
        exact here

/-- Only `pthread_create` adds a client. -/
theorem clients_of_main
    {acceptor later : Acceptor} (taken : acceptor.step .main = some later) :
    ∃ clients : List Client,
      later.clients = acceptor.clients ++ clients ∧
        clients.length = (created acceptor.main).length ∧
        ∀ client ∈ clients, client.phase = .serving := by
  cases Acceptor.mainStep_cases taken with
  | create fd id here moved =>
      subst moved
      refine ⟨_, rfl, ?_, ?_⟩
      · rw [here]
        rfl
      · intro client listed
        rw [List.mem_singleton.mp listed]
  | lock fd here moved | full fd here test moved | room fd here test moved
  | wait fd here moved | relock fd here moved | found fd here inside moved
  | failed fd here outside moved | leave fd id here moved
  | store fd id here moved | count here unlocked moved =>
      subst moved
      refine ⟨[], (List.append_nil _).symm, ?_, nofun⟩
      rw [here]
      rfl

theorem clients_of_client
    {acceptor later : Acceptor} {index : Nat}
    (taken : acceptor.step (.client index) = some later) :
    ∃ after, later.clients = acceptor.clients.set index after := by
  obtain ⟨client, here, advanced⟩ := Acceptor.step_client taken
  cases Acceptor.clientStep_cases advanced with
  | close here moved | release here free moved | decrement here free moved
  | signal fd here waits moved | lose here awake moved | unlock here moved =>
      exact ⟨_, congrArg Acceptor.clients moved⟩

theorem attributed_initial (counter : BitVec 32) (output : List Char) :
    (initial counter output).Attributed where
  length := rfl
  requests := List.Perm.refl []
  answered := by
    intro client request counter here
    cases here
  told := by
    intro place talk client here
    cases here

/-- The requests stay whose they are, and a talk is replaced by another one of
the same request. -/
theorem Attributed.keep
    (attributed : service.Attributed)
    (acceptor : next.acceptor = service.acceptor)
    (threads : ∀ (request : Nat) (thread : Thread) (counter : BitVec 32),
      service.server.threads[request]? = some thread →
        thread.phase = .finished counter →
          next.server.threads[request]? = some thread)
    (length :
      next.server.threads.length = service.server.threads.length)
    (talks : next.talks = service.talks) : next.Attributed where
  length := by
    rw [talks, acceptor]
    exact attributed.length
  requests := by
    rw [talks, length]
    exact attributed.requests
  answered := by
    intro client request counter here
    rw [talks] at here
    obtain ⟨thread, there, finished⟩ :=
      attributed.answered client request counter here
    exact ⟨thread, threads request thread counter there finished, finished⟩
  told := by
    rw [talks, acceptor]
    exact attributed.told

theorem Attributed.accept
    (attributed : service.Attributed) {clientSocket : Int}
    (acceptor :
      service.acceptor.step (.accept clientSocket) = some next.acceptor)
    (server : next.server = service.server)
    (talks : next.talks = service.talks) : next.Attributed := by
  obtain ⟨_, moved⟩ := Acceptor.step_accept acceptor
  have clients : next.acceptor.clients = service.acceptor.clients := by
    rw [moved]
  refine ⟨?_, ?_, ?_, ?_⟩
  · rw [talks, clients]
    exact attributed.length
  · rw [talks, server]
    exact attributed.requests
  · rw [talks, server]
    exact attributed.answered
  · rw [talks, clients]
    exact attributed.told

theorem Attributed.main
    (attributed : service.Attributed)
    (acceptor : service.acceptor.step .main = some next.acceptor)
    (server : next.server = service.server)
    (talks : next.talks = service.talks ++ created service.acceptor.main) :
    next.Attributed := by
  obtain ⟨clients, appended, sameLength, allServe⟩ :=
    clients_of_main acceptor
  have receives : ∀ talk ∈ created service.acceptor.main,
      talk = .receiving := by
    intro talk listed
    unfold created at listed
    split at listed
    · exact List.mem_singleton.mp listed
    · cases listed
  refine ⟨?_, ?_, ?_, ?_⟩
  · rw [talks, appended, List.length_append, List.length_append, sameLength,
      attributed.length]
  · have nothing :
        (created service.acceptor.main).filterMap Talk.request = [] := by
      rw [List.filterMap_eq_nil_iff]
      intro talk listed
      rw [receives talk listed]
      rfl
    rw [talks, server, List.filterMap_append, nothing, List.append_nil]
    exact attributed.requests
  · intro client request counter here
    rw [talks] at here
    rw [server]
    by_cases inside : client < service.talks.length
    · rw [List.getElem?_append_left inside] at here
      exact attributed.answered client request counter here
    · rw [List.getElem?_append_right (Nat.le_of_not_lt inside)] at here
      cases receives _ (List.mem_of_getElem? here)
  · intro place talk client here there notServing
    rw [talks] at here
    rw [appended] at there
    by_cases inside : place < service.talks.length
    · rw [List.getElem?_append_left inside] at here
      rw [attributed.length] at inside
      rw [List.getElem?_append_left inside] at there
      exact attributed.told place talk client here there notServing
    · rw [attributed.length] at inside
      rw [List.getElem?_append_right (Nat.le_of_not_lt inside)] at there
      exact
        absurd (allServe client (List.mem_of_getElem? there)) notServing

theorem Attributed.receive
    (attributed : service.Attributed) {client : Nat} {action : Operation}
    (here : service.talks[client]? = some .receiving)
    (acceptor : next.acceptor = service.acceptor)
    (server :
      service.server.step options (.arrive action) = some next.server)
    (talks :
      next.talks =
        service.talks.set client
          (.requesting service.server.threads.length)) :
    next.Attributed := by
  have length :
      next.server.threads.length = service.server.threads.length + 1 := by
    obtain ⟨_, moved⟩ := Server.step_arrive server
    rw [moved, Server.arrive, List.length_append, List.length_singleton]
  refine ⟨?_, ?_, ?_, ?_⟩
  · rw [talks, acceptor, List.length_set]
    exact attributed.length
  · have moved :=
      filterMap_set_perm here (.requesting service.server.threads.length)
        Talk.request
    rw [talks, length, List.range_succ]
    have grown :
        ((service.talks.set client
          (.requesting service.server.threads.length)).filterMap
            Talk.request).Perm
          (service.server.threads.length ::
            service.talks.filterMap Talk.request) :=
      moved
    exact
      grown.trans
        ((attributed.requests.cons _).trans
          (List.perm_append_singleton _ _).symm)
  · intro other request counter otherHere
    rw [talks] at otherHere
    rcases getElem?_set_cases otherHere with ⟨_, impossible⟩ | ⟨_, old⟩
    · cases impossible
    · obtain ⟨thread, there, finished⟩ :=
        attributed.answered other request counter old
      exact ⟨thread, finished_stays server there finished, finished⟩
  · intro place talk party otherHere there notServing
    rw [talks] at otherHere
    rw [acceptor] at there
    rcases getElem?_set_cases otherHere with ⟨rfl, rfl⟩ | ⟨_, old⟩
    · obtain ⟨_, _, impossible⟩ :=
        attributed.told place _ party here there notServing
      cases impossible
    · exact attributed.told place talk party old there notServing

theorem Attributed.respond
    (attributed : service.Attributed) {client request : Nat}
    {thread : Thread} {counter : BitVec 32}
    (here : service.talks[client]? = some (.requesting request))
    (there : service.server.threads[request]? = some thread)
    (finished : thread.phase = .finished counter)
    (acceptor : next.acceptor = service.acceptor)
    (server : next.server = service.server)
    (talks :
      next.talks = service.talks.set client (.responded request counter)) :
    next.Attributed := by
  refine ⟨?_, ?_, ?_, ?_⟩
  · rw [talks, acceptor, List.length_set]
    exact attributed.length
  · have moved :=
      filterMap_set_perm here (.responded request counter) Talk.request
    rw [talks, server]
    have same :
        ((service.talks.set client (.responded request counter)).filterMap
          Talk.request).Perm (service.talks.filterMap Talk.request) :=
      (List.perm_cons request).mp moved
    exact same.trans attributed.requests
  · intro other otherRequest otherCounter otherHere
    rw [talks] at otherHere
    rw [server]
    rcases getElem?_set_cases otherHere with ⟨_, told⟩ | ⟨_, old⟩
    · cases told
      exact ⟨thread, there, finished⟩
    · exact attributed.answered other otherRequest otherCounter old
  · intro place talk party otherHere placed notServing
    rw [talks] at otherHere
    rw [acceptor] at placed
    rcases getElem?_set_cases otherHere with ⟨_, rfl⟩ | ⟨_, old⟩
    · exact ⟨request, counter, rfl⟩
    · exact attributed.told place talk party old placed notServing

theorem Attributed.finish
    (attributed : service.Attributed) {client request : Nat}
    {counter : BitVec 32}
    (here : service.talks[client]? = some (.responded request counter))
    (acceptor :
      service.acceptor.step (.client client) = some next.acceptor)
    (server : next.server = service.server)
    (talks : next.talks = service.talks) : next.Attributed := by
  obtain ⟨after, clients⟩ := clients_of_client acceptor
  refine ⟨?_, ?_, ?_, ?_⟩
  · rw [talks, clients, List.length_set]
    exact attributed.length
  · rw [talks, server]
    exact attributed.requests
  · rw [talks, server]
    exact attributed.answered
  · intro place talk party otherHere there notServing
    rw [talks] at otherHere
    rw [clients] at there
    rcases getElem?_set_cases there with ⟨rfl, _⟩ | ⟨_, old⟩
    · cases here.symm.trans otherHere
      exact ⟨request, counter, rfl⟩
    · exact attributed.told place talk party otherHere old notServing

theorem Attributed.step
    (attributed : service.Attributed) {action : ServiceAction}
    (taken : service.step options action = some next) :
    next.Attributed := by
  cases step_cases taken with
  | accept clientSocket acceptor server talks =>
      exact attributed.accept acceptor server talks
  | main acceptor server talks => exact attributed.main acceptor server talks
  | receive client action here acceptor server talks =>
      exact attributed.receive here acceptor server talks
  | request client woken request here acceptor server talks =>
      refine attributed.keep acceptor ?_ ?_ talks
      · intro other thread counter there finished
        exact finished_stays server there finished
      · obtain ⟨thread, there, advanced⟩ := Server.step_advance server
        exact (Server.rank_advance there advanced).2
  | respond client request thread counter here there finished acceptor server
      talks =>
      exact attributed.respond here there finished acceptor server talks
  | finish client request counter here acceptor server talks =>
      exact attributed.finish here acceptor server talks

end Attribution

end Service

end SistemasDistribuidos.Practica3
