import SistemasDistribuidos.Practica3.Service

/-!
# The whole server at work and at rest

At most `MAX_THREADS` clients are counted at any time, so there are never more
requests in `do_request`.  Between two connections the server has only so
many steps to take; when it has taken them, every client is gone, but for
those that sleep in `do_request`, and the table of the slots is empty again.
-/

namespace SistemasDistribuidos.Practica3

open SistemasDistribuidos Machine Pool

namespace Service

/-- `accept` gives a positive descriptor. -/
def Positive (_ : Service) : ServiceAction → Prop
  | .accept clientSocket => 0 < clientSocket
  | _ => True

instance (service : Service) :
    ∀ action, Decidable (service.Positive action)
  | .accept clientSocket => inferInstanceAs (Decidable (0 < clientSocket))
  | .main => inferInstanceAs (Decidable True)
  | .receive _ _ => inferInstanceAs (Decidable True)
  | .request _ _ => inferInstanceAs (Decidable True)
  | .respond _ => inferInstanceAs (Decidable True)
  | .finish _ => inferInstanceAs (Decidable True)

/-- What holds of the parts holds of the whole. -/
structure Sound (service : Service) : Prop where
  tallies : service.acceptor.Tallies
  placed : service.acceptor.Placed
  attributed : service.Attributed
  consistent : service.server.Consistent
  queued : service.server.Queued

section Soundness

variable {options : Options} {service next : Service}

theorem sound_initial (counter : BitVec 32) (output : List Char) :
    (initial counter output).Sound where
  tallies := Acceptor.tallies_initial
  placed := Acceptor.placed_initial
  attributed := attributed_initial counter output
  consistent := Server.consistent_initial counter output
  queued := Server.queued_initial counter output

theorem Sound.step
    (sound : service.Sound) {action : ServiceAction}
    (positive : service.Positive action)
    (taken : service.step options action = some next) : next.Sound := by
  have attributed := sound.attributed.step taken
  cases step_cases taken with
  | accept clientSocket acceptor server talks =>
      have isPositive :
          service.acceptor.Positive (.accept clientSocket) :=
        positive
      refine ⟨sound.tallies.step acceptor, ?_, attributed, ?_, ?_⟩
      · exact sound.placed.step sound.tallies isPositive acceptor
      · rw [server]
        exact sound.consistent
      · rw [server]
        exact sound.queued
  | main acceptor server talks =>
      have isPositive : service.acceptor.Positive .main := trivial
      refine ⟨sound.tallies.step acceptor, ?_, attributed, ?_, ?_⟩
      · exact sound.placed.step sound.tallies isPositive acceptor
      · rw [server]
        exact sound.consistent
      · rw [server]
        exact sound.queued
  | receive client action here acceptor server talks
  | request client woken request here acceptor server talks =>
      refine ⟨?_, ?_, attributed, ?_, ?_⟩
      · rw [acceptor]
        exact sound.tallies
      · rw [acceptor]
        exact sound.placed
      · exact sound.consistent.step server
      · exact sound.queued.step server
  | respond client request thread counter here there finished acceptor server
      talks =>
      refine ⟨?_, ?_, attributed, ?_, ?_⟩
      · rw [acceptor]
        exact sound.tallies
      · rw [acceptor]
        exact sound.placed
      · rw [server]
        exact sound.consistent
      · rw [server]
        exact sound.queued
  | finish client request counter here acceptor server talks =>
      have isPositive : service.acceptor.Positive (.client client) := trivial
      refine ⟨sound.tallies.step acceptor, ?_, attributed, ?_, ?_⟩
      · exact sound.placed.step sound.tallies isPositive acceptor
      · rw [server]
        exact sound.consistent
      · rw [server]
        exact sound.queued

theorem sound_of_run
    {counter : BitVec 32} {output : List Char}
    {actions : List ServiceAction}
    (positive :
      Obeys (step options) Positive (initial counter output) actions)
    (reached :
      run (step options) (initial counter output) actions = some service) :
    service.Sound :=
  invariant_of_run
    (fun _ _ _ sound positive taken => sound.step positive taken)
    (sound_initial counter output) positive reached

end Soundness

/-! ## How many requests there are -/

/-- The requests that have arrived and are not finished. -/
def inProgress (service : Service) : Nat :=
  service.server.threads.countP (fun thread => !thread.phase.isFinished)

section Capacity

variable {service : Service}

/-- However the main thread stands, no more clients are counted. -/
theorem counted_le_of_room
    {counted pending : Nat} {main : MainPhase}
    (room : Room counted pending main) : counted ≤ maxThreads := by
  cases main <;> simp only [Room] at room <;> omega

/-- A request that is not finished has a client that is not answered. -/
theorem Attributed.inProgress_le
    (attributed : service.Attributed) :
    service.inProgress ≤ service.talks.countP Talk.isRequesting := by
  rw [inProgress, ← countP_range,
    ← attributed.requests.countP_eq, List.countP_filterMap]
  apply List.countP_mono_left
  intro talk listed unfinished
  obtain ⟨client, here⟩ := List.mem_iff_getElem?.mp listed
  cases talk with
  | receiving => cases unfinished
  | requesting request => rfl
  | responded request counter =>
      obtain ⟨thread, there, finished⟩ :=
        attributed.answered client request counter here
      simp [Talk.request, there, finished, Phase.isFinished] at unfinished

/-- A client that is not answered is counted. -/
theorem Attributed.requesting_le
    (attributed : service.Attributed) :
    service.talks.countP Talk.isRequesting ≤
      service.acceptor.clients.countP Client.isCounted := by
  apply countP_le_of_beside attributed.length
  intro place talk client here there requests
  by_cases serves : client.phase = .serving
  · rw [Client.isCounted, serves]
    rfl
  · obtain ⟨request, counter, rfl⟩ :=
      attributed.told place talk client here there serves
    cases requests

theorem isFinished_of_isCounted
    {phase : Phase} (counted : phase.isCounted = true) :
    phase.isFinished = false := by
  cases phase
  case finished => cases counted
  all_goals rfl

/-- A request is counted once, and only before it is finished. -/
theorem countP_isCounted_add (threads : List Thread) :
    threads.countP (Thread.isCounted .read) +
        threads.countP (Thread.isCounted .write) ≤
      threads.countP (fun thread => !thread.phase.isFinished) := by
  induction threads with
  | nil => exact Nat.zero_le _
  | cons thread rest inductionHypothesis =>
      rw [List.countP_cons, List.countP_cons, List.countP_cons]
      cases counted : thread.phase.isCounted with
      | false =>
          simp only [Thread.isCounted, counted, Bool.and_false,
            Bool.false_eq_true, if_false]
          omega
      | true =>
          rw [isFinished_of_isCounted counted]
          cases action : thread.action <;>
            simp only [Thread.isCounted, counted, action, Bool.and_true,
              decide_true, decide_false, reduceCtorEq, Bool.false_eq_true,
              Bool.not_false, if_true, if_false] <;>
            omega

/-- There are never more requests than the table has slots. -/
theorem Sound.inProgress_le
    (sound : service.Sound) :
    service.inProgress ≤ maxThreads ∧
      service.server.current .read + service.server.current .write ≤
        maxThreads := by
  have few : service.inProgress ≤ maxThreads :=
    sound.attributed.inProgress_le.trans
      (sound.attributed.requesting_le.trans
        (counted_le_of_room sound.tallies.room))
  refine ⟨few, ?_⟩
  have reads : service.server.current .read = _ :=
    sound.consistent.current .read
  have writes : service.server.current .write = _ :=
    sound.consistent.current .write
  have both := countP_isCounted_add service.server.threads
  rw [inProgress] at few
  omega

end Capacity

end Service

/-! ## How many steps there are -/

/-- The steps that the main thread and the client it creates still have before
them, until `accept`. -/
def MainPhase.rank : MainPhase → Nat
  | .accepting => 0
  | .locking _ => 36
  | .testing _ => 35
  | .starting _ => 34
  | .waiting _ => 33
  | .woken _ => 32
  | .searching _ => 31
  | .returning _ _ => 30
  | .storing _ _ => 29
  | .creating _ _ => 28
  | .counting => 1

/-- The steps that a client still has after its response. -/
def ClientPhase.rank : ClientPhase → Nat
  | .serving => 5
  | .closed => 4
  | .released => 3
  | .decremented => 2
  | .signalled => 1
  | .finished => 0

/-- The steps that a client still has until its response, but for those in
`do_request`. -/
def Talk.rank : Talk → Nat
  | .receiving => 21
  | .requesting _ => 1
  | .responded _ _ => 0

namespace Acceptor

def rank (acceptor : Acceptor) : Nat :=
  acceptor.main.rank +
    (acceptor.clients.map (fun client => client.phase.rank)).sum

/-- The main thread has fewer steps before it, with those of the client it
creates. -/
theorem rank_main
    {acceptor later : Acceptor} (taken : acceptor.step .main = some later) :
    later.rank + ((Service.created acceptor.main).map Talk.rank).sum <
      acceptor.rank := by
  cases Acceptor.mainStep_cases taken with
  | create fd id here moved =>
      subst moved
      simp [rank, here, Service.created, Talk.rank, ClientPhase.rank,
        MainPhase.rank]
      omega
  | lock fd here moved | full fd here test moved | room fd here test moved
  | wait fd here moved | relock fd here moved | found fd here inside moved
  | failed fd here outside moved | leave fd id here moved
  | store fd id here moved | count here unlocked moved =>
      subst moved
      simp [rank, here, Service.created, MainPhase.rank]

theorem rank_client
    {acceptor later : Acceptor} {index : Nat}
    (taken : acceptor.step (.client index) = some later) :
    later.rank < acceptor.rank := by
  obtain ⟨client, here, advanced⟩ := Acceptor.step_client taken
  have fewer : ∀ after : Client, after.phase.rank < client.phase.rank →
      ((acceptor.clients.set index after).map
          (fun other => other.phase.rank)).sum <
        (acceptor.clients.map (fun other => other.phase.rank)).sum := by
    intro after less
    have moved :=
      sum_map_set_add here after (fun other => other.phase.rank)
    omega
  cases Acceptor.clientStep_cases advanced with
  | signal fd isHere waits moved =>
      subst moved
      apply Nat.add_lt_add
      · rw [waits]
        exact Nat.lt_add_one 32
      · apply fewer
        rw [isHere]
        exact Nat.lt_add_one 1
  | close isHere moved | release isHere free moved
  | decrement isHere free moved | lose isHere awake moved
  | unlock isHere moved =>
      subst moved
      apply Nat.add_lt_add_left
      apply fewer
      rw [isHere]
      exact Nat.lt_add_one _

end Acceptor

namespace Service

/-- The steps that the server still has before it, without a further
connection. -/
def rank (service : Service) : Nat :=
  service.acceptor.rank + service.server.rank +
    (service.talks.map Talk.rank).sum

def isAccept : ServiceAction → Bool
  | .accept _ => true
  | _ => false

section Rank

variable {options : Options} {service next : Service}

theorem rank_talks_set
    {client : Nat} {before : Talk}
    (here : service.talks[client]? = some before) (after : Talk) :
    ((service.talks.set client after).map Talk.rank).sum + before.rank =
      (service.talks.map Talk.rank).sum + after.rank :=
  sum_map_set_add here after Talk.rank

/-- Only a new connection gives the server more to do. -/
theorem rank_step
    {action : ServiceAction}
    (taken : service.step options action = some next) :
    next.rank < service.rank + if isAccept action then 37 else 0 := by
  rw [rank, rank]
  cases step_cases taken with
  | accept clientSocket acceptor server talks =>
      obtain ⟨here, moved⟩ := Acceptor.step_accept acceptor
      rw [moved, server, talks]
      simp only [Acceptor.rank, here, MainPhase.rank, isAccept, if_true]
      omega
  | main acceptor server talks =>
      have fewer := Acceptor.rank_main acceptor
      rw [server, talks, List.map_append, List.sum_append]
      simp only [isAccept, Bool.false_eq_true, if_false]
      omega
  | receive client action here acceptor server talks =>
      obtain ⟨_, moved⟩ := Server.step_arrive server
      have more : next.server.rank = service.server.rank + 19 := by
        rw [moved]
        simp [Server.rank, Server.arrive, Phase.rank]
      have changed :=
        rank_talks_set here
          (.requesting service.server.threads.length)
      rw [acceptor, more, talks]
      simp only [Talk.rank, isAccept, Bool.false_eq_true, if_false]
        at changed ⊢
      omega
  | request client woken request here acceptor server talks =>
      obtain ⟨thread, there, advanced⟩ := Server.step_advance server
      have fewer := (Server.rank_advance there advanced).1
      rw [acceptor, talks]
      simp only [isAccept, Bool.false_eq_true, if_false]
      omega
  | respond client request thread counter here there finished acceptor server
      talks =>
      have changed :=
        rank_talks_set here (.responded request counter)
      rw [acceptor, server, talks]
      simp only [Talk.rank, isAccept, Bool.false_eq_true, if_false]
        at changed ⊢
      omega
  | finish client request counter here acceptor server talks =>
      have fewer := Acceptor.rank_client acceptor
      rw [server, talks]
      simp only [isAccept, Bool.false_eq_true, if_false]
      omega

/-- A run takes at most so many steps for each of its connections. -/
theorem rank_of_run
    {counter : BitVec 32} {output : List Char}
    {actions : List ServiceAction}
    (reached :
      run (step options) (initial counter output) actions = some service) :
    actions.length + service.rank ≤ 37 * actions.countP isAccept := by
  have preserved :
      ∀ (past : List ServiceAction) (state : Service)
        (action : ServiceAction) (next : Service),
        past.length + state.rank ≤ 37 * past.countP isAccept →
          True → state.step options action = some next →
            (past ++ [action]).length + next.rank ≤
              37 * (past ++ [action]).countP isAccept := by
    intro past state action next bounded _ taken
    have fewer := rank_step taken
    rw [List.length_append, List.length_singleton, List.countP_append,
      List.countP_singleton]
    cases isNew : isAccept action <;>
      simp only [isNew, Bool.false_eq_true, if_true, if_false] at fewer ⊢ <;>
      omega
  have initially :
      ([] : List ServiceAction).length + (initial counter output).rank ≤
        37 * ([] : List ServiceAction).countP isAccept :=
    Nat.le_refl 0
  exact history_of_run preserved initially (obeys_true _ actions) reached

end Rank

/-! ## The server at rest -/

/-- Nothing can be done but accept a new connection. -/
def Rests (options : Options) (service : Service) : Prop :=
  ∀ action next, service.step options action = some next →
    isAccept action = true

/-- A client that is done, or sleeps in `do_request`. -/
def Gone (service : Service) (place : Nat) (client : Client) : Prop :=
  client.phase = .finished ∨
    client.phase = .serving ∧
      ∃ request thread,
        service.talks[place]? = some (.requesting request) ∧
          service.server.threads[request]? = some thread ∧
          thread.phase = .waiting

section Rest

variable {options : Options} {service : Service}

/-- The thread of a request that goes on has a client that lets it. -/
theorem Rests.server_ended
    (rests : service.Rests options) (sound : service.Sound) :
    service.server.Ended := by
  rw [← not_not (a := service.server.Ended),
    ← Server.moves_iff_not_ended options sound.consistent sound.queued]
  rintro ⟨request, woken, server, taken⟩
  obtain ⟨thread, there, advanced⟩ := Server.step_advance taken
  have inside := (List.getElem?_eq_some_iff.mp there).1
  obtain ⟨talk, listed, own⟩ :=
    List.mem_filterMap.mp
      (sound.attributed.requests.mem_iff.mpr (List.mem_range.mpr inside))
  obtain ⟨client, here⟩ := List.mem_iff_getElem?.mp listed
  cases talk with
  | receiving => cases own
  | requesting other =>
      cases own
      have moved :
          service.step options (.request client woken) =
            some { service with server := server } := by
        simp only [step, here, taken, Option.map_some]
      cases rests _ _ moved
  | responded other counter =>
      cases own
      obtain ⟨finishedThread, finishedThere, finished⟩ :=
        sound.attributed.answered client request counter here
      cases there.symm.trans finishedThere
      rw [Server.advance, finished] at advanced
      cases advanced

/-- Nobody keeps `counter_mutex` in a server that rests. -/
theorem Rests.counter_free
    (rests : service.Rests options) (sound : service.Sound) :
    service.server.counterMutex = none := by
  cases held : service.server.counterMutex with
  | none => rfl
  | some owner =>
      have moves : service.server.Moves options :=
        sound.queued.moves_of_counter sound.consistent held
      exact
        absurd moves
          (Server.not_moves_of_ended (rests.server_ended sound))

theorem Rests.main_stops
    (rests : service.Rests options) : service.acceptor.step .main = none := by
  cases taken : service.acceptor.step .main with
  | none => rfl
  | some acceptor =>
      have moved :
          service.step options .main =
            some
              { service with
                acceptor := acceptor
                talks := service.talks ++ created service.acceptor.main } := by
        simp only [step, taken, Option.map_some]
      cases rests _ _ moved

/-- A client that has been answered goes on to its end. -/
theorem Rests.client_stops
    (rests : service.Rests options) {place request : Nat}
    {counter : BitVec 32}
    (here : service.talks[place]? = some (.responded request counter)) :
    service.acceptor.step (.client place) = none := by
  cases taken : service.acceptor.step (.client place) with
  | none => rfl
  | some acceptor =>
      have moved :
          service.step options (.finish place) =
            some { service with acceptor := acceptor } := by
        simp only [step, here, taken, Option.map_some]
      cases rests _ _ moved

/-- A client that is past its response is answered. -/
theorem Sound.responded
    (sound : service.Sound) {place : Nat} {client : Client}
    (there : service.acceptor.clients[place]? = some client)
    (notServing : client.phase ≠ .serving) :
    ∃ request counter,
      service.talks[place]? = some (.responded request counter) := by
  have inside := (List.getElem?_eq_some_iff.mp there).1
  rw [← sound.attributed.length] at inside
  have here := List.getElem?_eq_getElem inside
  obtain ⟨request, counter, told⟩ :=
    sound.attributed.told place _ client here there notServing
  exact ⟨request, counter, here.trans (congrArg some told)⟩

/-- Nobody keeps `current_threads_mutex` in a server that rests. -/
theorem Rests.threads_free
    (rests : service.Rests options) (sound : service.Sound) :
    service.acceptor.currentThreadsMutex = none := by
  cases held : service.acceptor.currentThreadsMutex with
  | none => rfl
  | some owner =>
      have inside := sound.tallies.threads.inside owner held
      have there := List.getElem?_eq_getElem inside
      have holds := (sound.tallies.threads.owner owner _ there).mpr held
      generalize service.acceptor.clients[owner] = client at there holds
      have notServing : client.phase ≠ .serving := by
        intro serves
        rw [Client.holdsThreads, serves] at holds
        cases holds
      obtain ⟨request, counter, here⟩ := sound.responded there notServing
      have stops := rests.client_stops here
      simp only [Acceptor.step, there, Acceptor.clientStep] at stops
      obtain ⟨id, clientSocket, phase, closed⟩ := client
      cases phase with
      | decremented => cases stops
      | signalled => cases stops
      | serving => cases holds
      | closed => cases holds
      | released => cases holds
      | finished => cases holds

/-- The main thread accepts, or sleeps in `get_free_fd`. -/
theorem Rests.main_phase
    (rests : service.Rests options) (sound : service.Sound) :
    service.acceptor.main = .accepting ∨
      ∃ fd, service.acceptor.main = .waiting fd := by
  have stops := rests.main_stops
  have free := sound.tallies.free
  simp only [Acceptor.step, Acceptor.mainStep] at stops
  cases here : service.acceptor.main with
  | accepting => exact Or.inl rfl
  | waiting fd => exact Or.inr ⟨fd, rfl⟩
  | locking fd =>
      rw [here] at free stops
      simp [free, MainPhase.holdsFree] at stops
  | woken fd =>
      rw [here] at free stops
      simp [free, MainPhase.holdsFree] at stops
  | storing fd id =>
      rw [here] at free stops
      simp [Acceptor.setValueFd, free, MainPhase.holdsFree] at stops
  | counting =>
      rw [here] at stops
      simp [rests.threads_free sound] at stops
  | testing fd =>
      rw [here] at stops
      simp only at stops
      split at stops
      · cases stops
      · cases stops
  | starting fd =>
      rw [here] at stops
      cases stops
  | searching fd =>
      rw [here] at stops
      cases stops
  | returning fd id =>
      rw [here] at stops
      cases stops
  | creating fd id =>
      rw [here] at stops
      cases stops

theorem Rests.free
    (rests : service.Rests options) (sound : service.Sound) :
    service.acceptor.freeFdMutex = false := by
  rw [sound.tallies.free]
  rcases rests.main_phase sound with accepts | ⟨fd, waits⟩
  · rw [accepts]
    rfl
  · rw [waits]
    rfl

/-- In a server that rests every client is done, or sleeps. -/
theorem Rests.gone
    (rests : service.Rests options) (sound : service.Sound) {place : Nat}
    {client : Client}
    (there : service.acceptor.clients[place]? = some client) :
    service.Gone place client := by
  by_cases serves : client.phase = .serving
  · right
    refine ⟨serves, ?_⟩
    have inside := (List.getElem?_eq_some_iff.mp there).1
    rw [← sound.attributed.length] at inside
    have here := List.getElem?_eq_getElem inside
    cases talk : service.talks[place] with
    | receiving =>
        rw [talk] at here
        have moved :
            ∃ next, service.step options (.receive place .read) =
              some next := by
          simp only [step, here, Server.step,
            if_pos (rests.counter_free sound), Option.map_some]
          exact ⟨_, rfl⟩
        obtain ⟨next, taken⟩ := moved
        cases rests _ _ taken
    | requesting request =>
        rw [talk] at here
        have own :
            request ∈ service.talks.filterMap Talk.request :=
          List.mem_filterMap.mpr ⟨_, List.mem_of_getElem? here, rfl⟩
        have isThere :=
          List.mem_range.mp (sound.attributed.requests.mem_iff.mp own)
        have threadHere := List.getElem?_eq_getElem isThere
        generalize service.server.threads[request] = thread at threadHere
        refine ⟨request, thread, here, threadHere, ?_⟩
        rcases rests.server_ended sound thread
            (List.mem_of_getElem? threadHere) with finished | waits
        · obtain ⟨action, locked, phase⟩ := thread
          cases phase
          case finished counter =>
            have moved :
                ∃ next, service.step options (.respond place) =
                  some next := by
              simp only [step, here, threadHere]
              exact ⟨_, rfl⟩
            obtain ⟨next, taken⟩ := moved
            cases rests _ _ taken
          all_goals cases finished
        · exact waits
    | responded request counter =>
        rw [talk] at here
        have stops := rests.client_stops here
        simp only [Acceptor.step, there, Acceptor.clientStep, serves]
          at stops
        cases stops
  · left
    obtain ⟨request, counter, here⟩ := sound.responded there serves
    have stops := rests.client_stops here
    simp only [Acceptor.step, there, Acceptor.clientStep] at stops
    obtain ⟨id, clientSocket, phase, closed⟩ := client
    cases phase with
    | finished => rfl
    | serving => exact absurd rfl serves
    | closed => simp [Acceptor.setValueFd, Acceptor.move, rests.free sound] at stops
    | released => simp [rests.threads_free sound] at stops
    | decremented => cases stops
    | signalled => cases stops

/-- Once every client is gone all the slots are free again. -/
theorem Sound.all_free
    (sound : service.Sound)
    (accepts : service.acceptor.main = .accepting)
    (done : ∀ client ∈ service.acceptor.clients, client.phase = .finished) :
    service.acceptor.currentThreads = 0 ∧
      ∀ id, id < maxThreads → service.acceptor.clientSockets id = 0 := by
  constructor
  · have count := sound.tallies.count
    have nobody :
        service.acceptor.clients.countP Client.isCounted = 0 := by
      rw [List.countP_eq_zero]
      intro client listed
      rw [Client.isCounted, done client listed]
      exact Bool.false_ne_true
    rw [Counts, nobody, accepts] at count
    simpa [MainPhase.uncounted] using count
  · intro id inside
    by_contra inUse
    rcases sound.placed.used id inside inUse with
      mine | ⟨client, listed, holds, _⟩
    · rw [accepts] at mine
      cases mine
    · rw [Client.holdsSlot, done client listed] at holds
      cases holds

/-- From every state the server comes to rest, if no further connection is
accepted. -/
theorem exists_rest (options : Options) (service : Service) :
    ∃ more last,
      run (step options) service more = some last ∧
        (∀ action ∈ more, isAccept action = false) ∧
        last.Rests options := by
  have falls :
      ∀ (state : Service) (action : ServiceAction) (next : Service),
        True → isAccept action = false →
          state.step options action = some next →
            True ∧ next.rank < state.rank := by
    intro state action next _ isOld taken
    have fewer := rank_step taken
    simp only [isOld, Bool.false_eq_true, if_false] at fewer
    exact ⟨trivial, fewer⟩
  obtain ⟨more, last, obeys, onwards, _, rests⟩ :=
    exists_run_to_rest falls service.rank trivial le_rfl
  refine
    ⟨more, last, onwards,
      forall_mem_of_obeys (fun action => isAccept action = false)
        (fun _ _ isOld => isOld) obeys onwards, ?_⟩
  intro action next taken
  by_contra isOld
  rw [rests action (Bool.not_eq_true _ ▸ isOld)] at taken
  cases taken

end Rest

/-- Every request is that of one client, whose socket is closed only when it
has been answered, and there are never more requests than slots. -/
theorem requests_of_clients
    (options : Options) (counter : BitVec 32) (output : List Char)
    {actions : List ServiceAction} {final : Service}
    (positive :
      Obeys (step options) Positive (initial counter output) actions)
    (reached :
      run (step options) (initial counter output) actions = some final) :
    (∃ moves,
        run Acceptor.step Acceptor.initial moves = some final.acceptor) ∧
      (∃ moves,
        run (Server.step options) (Server.initial counter output) moves =
          some final.server) ∧
      (final.talks.filterMap Talk.request).Perm
        (List.range final.server.threads.length) ∧
      (∀ (place : Nat) (client : Client),
        final.acceptor.clients[place]? = some client →
          client.closed ≠ [] →
            client.closed = [client.clientSocket] ∧
              ∃ request response thread,
                final.talks[place]? = some (.responded request response) ∧
                  final.server.threads[request]? = some thread ∧
                  thread.phase = .finished response) ∧
      final.inProgress ≤ maxThreads ∧
      final.server.current .read + final.server.current .write ≤
        maxThreads := by
  have sound := sound_of_run positive reached
  refine
    ⟨acceptor_of_run reached, server_of_run reached,
      sound.attributed.requests, ?_, sound.inProgress_le⟩
  intro place client there hasClosed
  have closes := sound.placed.closes client (List.mem_of_getElem? there)
  rw [closes, Client.closes] at hasClosed ⊢
  by_cases serves : client.phase = .serving
  · rw [if_pos serves] at hasClosed
    exact absurd rfl hasClosed
  · obtain ⟨request, response, here⟩ := sound.responded there serves
    obtain ⟨thread, threadHere, finished⟩ :=
      sound.attributed.answered place request response here
    exact
      ⟨if_neg serves, request, response, thread, here, threadHere, finished⟩

/-- A writer and a reader are accepted and take turns until their threads have
ended. -/
def writerAndReader : List ServiceAction :=
  [.accept 4] ++ List.replicate 7 .main ++ [.accept 5] ++
    List.replicate 7 .main ++
    [.receive 0 .write, .request 0 none, .receive 1 .read,
      .request 1 none, .request 0 none, .request 1 none] ++
    List.replicate 11 (.request 0 none) ++
    [.request 1 none, .request 0 none, .respond 0] ++
    (List.replicate 5 [.finish 0, .request 1 none]).flatten ++
    List.replicate 5 (.request 1 none) ++ [.respond 1] ++
    List.replicate 5 (.finish 1)

theorem writerAndReader_positive :
    Obeys (step ⟨.write, 0⟩) Positive (initial 41 []) writerAndReader := by
  decide +kernel

theorem run_writerAndReader :
    ∃ final : Service,
      run (step ⟨.write, 0⟩) (initial 41 []) writerAndReader = some final ∧
        final.acceptor.main = .accepting ∧
        final.acceptor.clients =
          [⟨0, 4, .finished, [4]⟩, ⟨1, 5, .finished, [5]⟩] ∧
        final.talks = [.responded 0 42, .responded 1 42] := by
  have evaluated :
      ((run (step ⟨.write, 0⟩) (initial 41 []) writerAndReader).map
        (fun service =>
          (service.acceptor.main, service.acceptor.clients,
            service.talks))) =
          some
            (.accepting, [⟨0, 4, .finished, [4]⟩, ⟨1, 5, .finished, [5]⟩],
              [.responded 0 42, .responded 1 42]) := by
    decide +kernel
  obtain ⟨final, reached, parts⟩ := Option.map_eq_some_iff.mp evaluated
  obtain ⟨main, both⟩ := Prod.mk.inj parts
  obtain ⟨clients, talks⟩ := Prod.mk.inj both
  exact ⟨final, reached, main, clients, talks⟩

theorem requests_of_clients_two :
    ∃ final : Service,
      run (step ⟨.write, 0⟩) (initial 41 []) writerAndReader = some final ∧
        ∃ thread,
          final.server.threads[1]? = some thread ∧
            thread.phase = .finished 42 := by
  obtain ⟨final, reached, _, clients, talks⟩ := run_writerAndReader
  have there : final.acceptor.clients[1]? = some ⟨1, 5, .finished, [5]⟩ := by
    rw [clients]
    rfl
  obtain ⟨_, request, response, thread, here, threadHere, finished⟩ :=
    (requests_of_clients ⟨.write, 0⟩ 41 [] writerAndReader_positive
      reached).2.2.2.1 1 _ there (List.cons_ne_nil _ _)
  rw [talks] at here
  cases here
  exact ⟨final, reached, thread, threadHere, finished⟩

/-- The server always comes to rest between connections; then every client is
done or sleeps in `do_request`, without a ratio every client is done, and once
all are done the table of the slots is empty again. -/
theorem comes_to_rest
    (options : Options) (counter : BitVec 32) (output : List Char)
    {actions : List ServiceAction} {final : Service}
    (positive :
      Obeys (step options) Positive (initial counter output) actions)
    (reached :
      run (step options) (initial counter output) actions = some final) :
    actions.length ≤ 37 * actions.countP isAccept ∧
      (∃ more last,
        run (step options) final more = some last ∧
          (∀ action ∈ more, isAccept action = false) ∧
          last.Rests options) ∧
      (final.Rests options →
        (final.acceptor.main = .accepting ∨
            ∃ fd, final.acceptor.main = .waiting fd) ∧
          (∀ (place : Nat) (client : Client),
            final.acceptor.clients[place]? = some client →
              final.Gone place client) ∧
          (options.ratio = 0 →
            ∀ client ∈ final.acceptor.clients, client.phase = .finished)) ∧
      (final.acceptor.main = .accepting →
        (∀ client ∈ final.acceptor.clients, client.phase = .finished) →
          final.acceptor.currentThreads = 0 ∧
            ∀ id, id < maxThreads →
              final.acceptor.clientSockets id = 0) := by
  have sound := sound_of_run positive reached
  have bounded := rank_of_run reached
  refine
    ⟨by omega, exists_rest options final, ?_,
      sound.all_free⟩
  intro rests
  refine ⟨rests.main_phase sound, fun _ _ => rests.gone sound, ?_⟩
  intro noRatio client listed
  obtain ⟨place, there⟩ := List.mem_iff_getElem?.mp listed
  rcases rests.gone sound there with
    finished | ⟨_, request, thread, _, threadHere, waits⟩
  · exact finished
  · obtain ⟨priority, ratio⟩ := options
    cases noRatio
    obtain ⟨moves, serverReached⟩ := server_of_run reached
    have notDozes :=
      Server.restless_of_run serverReached thread
        (List.mem_of_getElem? threadHere)
    rw [waits] at notDozes
    cases notDozes

theorem comes_to_rest_two :
    ∃ final : Service,
      run (step ⟨.write, 0⟩) (initial 41 []) writerAndReader = some final ∧
        final.acceptor.currentThreads = 0 ∧
        ∀ id, id < maxThreads → final.acceptor.clientSockets id = 0 := by
  obtain ⟨final, reached, main, clients, _⟩ := run_writerAndReader
  have allFree :=
    (comes_to_rest ⟨.write, 0⟩ 41 [] writerAndReader_positive
      reached).2.2.2 main
  rw [clients] at allFree
  exact ⟨final, reached, allFree (by simp)⟩

end Service

end SistemasDistribuidos.Practica3
