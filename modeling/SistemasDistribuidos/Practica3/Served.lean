import SistemasDistribuidos.Practica3.Lines

/-!
# All clients are served

Clients and server together have only so many steps to take.  When they have
taken them, with no more client threads than the server has slots, every
client thread has printed its line or has a request that sleeps in
`do_request`; without a ratio, every one has printed.
-/

namespace SistemasDistribuidos.Practica3

open SistemasDistribuidos Machine Pool

namespace Acceptor

/-- The main thread is on its way to sleep, asleep, or just woken. -/
def sleepy : MainPhase → Bool
  | .starting _ => true
  | .waiting _ => true
  | .woken _ => true
  | _ => false

/-- It is so only when all slots have been taken at once. -/
def Crowded (acceptor : Acceptor) : Prop :=
  sleepy acceptor.main = true → maxThreads ≤ acceptor.clients.length

section Crowded

variable {acceptor next : Acceptor}

theorem currentThreads_le (tallies : acceptor.Tallies)
    {fd : Int} (here : acceptor.main = .testing fd) :
    acceptor.currentThreads ≤ acceptor.clients.length := by
  have count := tallies.count
  rw [Counts, here] at count
  simp only [MainPhase.uncounted, add_zero] at count
  rw [count]
  exact_mod_cast List.countP_le_length

theorem Crowded.step
    (crowded : acceptor.Crowded) (tallies : acceptor.Tallies)
    {action : AcceptorAction}
    (taken : acceptor.step action = some next) : next.Crowded := by
  cases action with
  | accept clientSocket =>
      obtain ⟨_, rfl⟩ := step_accept taken
      exact Bool.noConfusion
  | main =>
      cases mainStep_cases taken with
      | full fd here test moved =>
          have most := currentThreads_le tallies here
          subst moved
          intro _
          simp only
          omega
      | wait fd here moved =>
          subst moved
          exact fun _ => crowded (by rw [here]; rfl)
      | lock fd here moved | room fd here test moved
      | relock fd here moved | found fd here inside moved
      | failed fd here outside moved | leave fd id here moved
      | store fd id here moved | create fd id here moved
      | count here unlocked moved =>
          subst moved
          exact Bool.noConfusion
  | client index =>
      obtain ⟨client, _, advanced⟩ := step_client taken
      cases clientStep_cases advanced with
      | signal fd isHere waits moved =>
          subst moved
          intro _
          simp only [move, List.length_set]
          exact crowded (by rw [waits]; rfl)
      | close isHere moved | release isHere free moved
      | decrement isHere free moved | lose isHere awake moved
      | unlock isHere moved =>
          subst moved
          intro isSleepy
          simp only [move, List.length_set]
          exact crowded isSleepy

end Crowded

end Acceptor

theorem Service.crowded_step
    {options : Options} {service next : Service}
    (crowded : service.acceptor.Crowded)
    (tallies : service.acceptor.Tallies) {action : ServiceAction}
    (taken : service.step options action = some next) :
    next.acceptor.Crowded := by
  cases step_cases taken with
  | accept clientSocket acceptor _ _ => exact crowded.step tallies acceptor
  | main acceptor _ _ => exact crowded.step tallies acceptor
  | receive client action here acceptor _ _ => exact acceptor ▸ crowded
  | request client woken request here acceptor _ _ => exact acceptor ▸ crowded
  | respond client request thread counter here there finished acceptor _ _ =>
      exact acceptor ▸ crowded
  | finish client request counter here acceptor _ _ =>
      exact crowded.step tallies acceptor

/-! ## How much there is to do -/

/-- The steps that a client thread has before it. -/
def ClientThread.rank (thread : ClientThread) : Nat :=
  match thread.phase with
  | .starting => 3
  | .connected => 2
  | .sent => 1
  | .printed _ => 0

namespace Session

/-- The steps that clients and server still have before them. -/
def rank (session : Session) : Nat :=
  session.service.rank + (session.clients.map ClientThread.rank).sum +
    37 * (session.clients.length - session.accepted.length)

section Rank

variable {options : Options} {session next : Session}

theorem rank_client
    {place : Nat} {thread : ClientThread}
    (here : session.clients[place]? = some thread)
    (move : session.ClientMove next place thread) :
    next.rank < session.rank := by
  have less : ∀ phase : TalkPhase,
      ClientThread.rank { thread with phase := phase } < thread.rank →
        next.service = session.service →
          next.accepted = session.accepted →
            next.clients =
                session.clients.set place { thread with phase := phase } →
              next.rank < session.rank := by
    intro phase fewer service accepted clients
    have moved :=
      sum_map_set_add here { thread with phase := phase } ClientThread.rank
    rw [rank, rank, service, accepted, clients, List.length_set]
    omega
  cases move with
  | connect phase moved =>
      refine less .connected ?_ ?_ ?_ ?_
      · simp [ClientThread.rank, phase]
      all_goals rw [moved]; rfl
  | send stack phase moved =>
      refine less .sent ?_ ?_ ?_ ?_
      · simp [ClientThread.rank, phase]
      all_goals rw [moved]; rfl
  | print bytes phase received moved =>
      refine less _ ?_ ?_ ?_ (by rw [moved]; rfl)
      · simp [ClientThread.rank, phase]
      all_goals rw [moved]; rfl

theorem Linked.accepted_lt
    (linked : session.Linked) {place : Nat}
    (pending : session.isPending place = true) :
    session.accepted.length < session.clients.length := by
  obtain ⟨isConnected, isNew⟩ := isPending_iff.mp pending
  have inside : place < session.clients.length := by
    by_contra outside
    rw [List.getElem?_eq_none (Nat.le_of_not_lt outside)] at isConnected
    cases isConnected
  have more :
      (place :: session.accepted).Subperm
        (List.range session.clients.length) := by
    apply (List.nodup_cons.mpr ⟨isNew, linked.nodup⟩).subperm
    intro other listed
    rw [List.mem_range]
    rcases List.mem_cons.mp listed with rfl | earlier
    · exact inside
    · exact linked.inside earlier
  have most := more.length_le
  rw [List.length_range, List.length_cons] at most
  exact most

/-- Every step leaves less to do. -/
theorem Linked.rank_step
    (linked : session.Linked) {action : SessionAction}
    (taken : session.step options action = some next) :
    next.rank < session.rank := by
  cases step_cases taken with
  | client place thread here move => exact rank_client here move
  | accept place clientSocket same pending service served moved =>
      have fewer := Service.rank_step served
      have room := linked.accepted_lt pending
      subst moved
      simp only [Service.isAccept, if_true] at fewer
      simp only [rank, List.length_append, List.length_singleton]
      omega
  | quiet move quiet asked service served moved =>
      have fewer := Service.rank_step served
      have old : Service.isAccept move = false := by
        cases move with
        | accept clientSocket => cases quiet
        | _ => rfl
      subst moved
      simp only [old, Bool.false_eq_true, if_false] at fewer
      simp only [rank]
      omega
  | respond client place stack waitingTime operation counter here response
      service served moved =>
      have fewer := Service.rank_step served
      subst moved
      simp only [Service.isAccept, Bool.false_eq_true, if_false] at fewer
      simp only [rank]
      omega

end Rank

/-! ## Clients and server at rest -/

/-- Nobody can go on. -/
def Rests (options : Options) (session : Session) : Prop :=
  ∀ action, session.Positive action → session.step options action = none

/-- The request of a client thread sleeps in `do_request`. -/
def Sleeps (session : Session) (place : Nat) : Prop :=
  ∃ (client request : Nat) (entry : Thread),
    session.accepted[client]? = some place ∧
      session.service.talks[client]? = some (.requesting request) ∧
      session.service.server.threads[request]? = some entry ∧
      entry.phase = .waiting

/-- What holds of all reachable states. -/
structure Settles (options : Options) (counter : BitVec 32)
    (output : List Char) (programs : List (Operation × Nat))
    (session : Session) : Prop where
  kept : session.Kept options counter output programs
  crowded : session.service.acceptor.Crowded

section Rest

variable {options : Options} {session next : Session} {start : BitVec 32}
  {output : List Char} {programs : List (Operation × Nat)}

theorem Settles.step
    (settles : session.Settles options start output programs)
    {action : SessionAction} (positive : session.Positive action)
    (taken : session.step options action = some next) :
    next.Settles options start output programs := by
  refine ⟨settles.kept.step positive taken, ?_⟩
  rcases service_of_step taken with same | ⟨move, _, served⟩
  · rw [same]
    exact settles.crowded
  · exact
      Service.crowded_step settles.crowded settles.kept.sound.tallies served

/-- Every client thread has sent its request. -/
theorem Rests.hasSent
    (rests : session.Rests options) {place : Nat} {thread : ClientThread}
    (here : session.clients[place]? = some thread) :
    thread.hasSent = true := by
  obtain ⟨action, threadId, phase⟩ := thread
  cases phase with
  | starting =>
      have stops := rests (.connect place) trivial
      simp [step, here] at stops
  | connected =>
      have stops := rests (.send place ⟨List.replicate 8 0, rfl⟩) trivial
      simp [step, here] at stops
  | sent => rfl
  | printed line => rfl

/-- The connection of a thread of the server. -/
theorem Linked.exists_connection
    (linked : session.Linked)
    (attributed : session.service.Attributed) {client : Nat} {talk : Talk}
    (here : session.service.talks[client]? = some talk) :
    ∃ place thread,
      session.accepted[client]? = some place ∧
        session.clients[place]? = some thread := by
  have within :=
    (List.getElem?_eq_some_iff.mp here).1.trans_le
      (linked.length_talks attributed)
  have accepted := List.getElem?_eq_getElem within
  have inside := linked.inside (List.mem_of_getElem? accepted)
  exact ⟨_, _, accepted, List.getElem?_eq_getElem inside⟩

/-- The server rests, too. -/
theorem Rests.service
    (rests : session.Rests options) (linked : session.Linked)
    (attributed : session.service.Attributed) :
    session.service.Rests options := by
  have serve_none : ∀ action,
      session.serve options action = none →
        session.service.step options action = none :=
    fun _ stops => Option.map_eq_none_iff.mp stops
  intro action service served
  cases action with
  | accept clientSocket => rfl
  | main =>
      have stops := serve_none .main (rests .main trivial)
      cases stops.symm.trans served
  | receive client operation =>
      cases Service.step_cases served with
      | receive _ _ here acceptor server talks =>
          obtain ⟨place, thread, accepted, placed⟩ :=
            linked.exists_connection attributed here
          obtain ⟨bytes, arrived⟩ :=
            linked.sent place thread placed (rests.hasSent placed)
          have asked := linked.asked place bytes arrived
          rw [mode_of_here placed] at asked
          obtain ⟨free, _⟩ := Server.step_arrive server
          have stops := rests (.receive client) trivial
          simp [step, serve, accepted, arrived, asked, Service.step, here,
            Server.step, free] at stops
  | request client woken =>
      have stops :=
        serve_none (.request client woken) (rests (.request client woken) trivial)
      cases stops.symm.trans served
  | respond client =>
      cases Service.step_cases served with
      | respond _ request thread counter here there finished acceptor server
          talks =>
          obtain ⟨place, _, accepted, _⟩ :=
            linked.exists_connection attributed here
          obtain ⟨operation, locked, phase⟩ := thread
          cases finished
          have stops :=
            rests (.respond client ⟨List.replicate 16 0, rfl⟩ 0) trivial
          simp [step, serve, accepted, Service.response, here, there,
            Service.step] at stops
  | finish client =>
      have stops := serve_none (.finish client) (rests (.finish client) trivial)
      cases stops.symm.trans served

/-- With no more client threads than slots, the main thread accepts. -/
theorem Settles.accepts
    (settles : session.Settles options start output programs)
    (rests : session.Rests options)
    (few : session.clients.length ≤ maxThreads) :
    session.service.acceptor.main = .accepting := by
  have linked := settles.kept.linked
  have sound := settles.kept.sound
  rcases (rests.service linked sound.attributed).main_phase sound with
    accepts | ⟨fd, waits⟩
  · exact accepts
  · have many : maxThreads ≤ session.service.acceptor.clients.length :=
      settles.crowded (by rw [waits]; rfl)
    have most := linked.subperm.length_le
    rw [List.length_range, linked.length, Acceptor.connections, waits]
      at most
    simp only [MainPhase.inHand] at most
    omega

/-- Then every connection has been accepted. -/
theorem Settles.accepted
    (settles : session.Settles options start output programs)
    (rests : session.Rests options)
    (few : session.clients.length ≤ maxThreads) {place : Nat}
    {thread : ClientThread}
    (here : session.clients[place]? = some thread) :
    ∃ (client : Nat) (talk : Talk),
      session.accepted[client]? = some place ∧
        session.service.talks[client]? = some talk := by
  have linked := settles.kept.linked
  have accepts := settles.accepts rests few
  have isConnected :=
    ClientThread.isConnected_of_hasSent (rests.hasSent here)
  have listed : place ∈ session.accepted := by
    by_contra absent
    have pending : session.isPending place = true := by
      simp [isPending, here, isConnected, absent]
    have stops := rests (.accept place 1) Int.one_pos
    simp [Session.step, pending, serve, Service.step, Acceptor.step,
      accepts] at stops
  obtain ⟨client, accepted⟩ := List.mem_iff_getElem?.mp listed
  have within := (List.getElem?_eq_some_iff.mp accepted).1
  rw [linked.length, Acceptor.connections, accepts] at within
  have inside : client < session.service.talks.length := by
    rw [settles.kept.sound.attributed.length]
    exact within
  exact ⟨client, _, accepted, List.getElem?_eq_getElem inside⟩

/-- Every client thread has printed, or its request sleeps. -/
theorem Settles.printed_or_asleep
    (settles : session.Settles options start output programs)
    (rests : session.Rests options)
    (few : session.clients.length ≤ maxThreads) {place : Nat}
    {thread : ClientThread}
    (here : session.clients[place]? = some thread) :
    thread.isPrinted = true ∨ session.Sleeps place := by
  have linked := settles.kept.linked
  have sound := settles.kept.sound
  obtain ⟨client, talk, accepted, told⟩ :=
    settles.accepted rests few here
  have inside := (List.getElem?_eq_some_iff.mp told).1
  rw [sound.attributed.length] at inside
  have serverClient := List.getElem?_eq_getElem inside
  rcases (rests.service linked sound.attributed).gone sound serverClient with
    finished | ⟨_, request, entry, requesting, there, waits⟩
  · left
    have notServing :
        session.service.acceptor.clients[client].phase ≠ .serving := by
      rw [finished]
      exact ClientPhase.noConfusion
    obtain ⟨request, counter, responded⟩ :=
      sound.responded serverClient notServing
    obtain ⟨bytes, arrived⟩ :=
      linked.responded client place request counter accepted responded
    have hasSent := rests.hasSent here
    have stops := rests (.print place) trivial
    obtain ⟨action, threadId, phase⟩ := thread
    cases phase with
    | starting => cases hasSent
    | connected => cases hasSent
    | sent => simp [Session.step, here, arrived] at stops
    | printed line => rfl
  · exact Or.inr ⟨client, request, entry, accepted, requesting, there, waits⟩

/-- From every state clients and server come to rest. -/
theorem exists_rest
    (settles : session.Settles options start output programs) :
    ∃ more last,
      run (step options) session more = some last ∧
        last.Settles options start output programs ∧
        last.Rests options := by
  have falls :
      ∀ (state : Session) (action : SessionAction) (next : Session),
        state.Settles options start output programs →
          state.Positive action → state.step options action = some next →
            next.Settles options start output programs ∧
              next.rank < state.rank :=
    fun _ _ _ settles positive taken =>
      ⟨settles.step positive taken, settles.kept.linked.rank_step taken⟩
  obtain ⟨more, last, _, onwards, lastSettles, rests⟩ :=
    exists_run_to_rest falls session.rank settles le_rfl
  exact ⟨more, last, onwards, lastSettles, rests⟩

/-- Without a ratio nobody ever sleeps. -/
theorem Kept.awake
    (kept : session.Kept options start output programs)
    (noRatio : options.ratio = 0) {request : Nat} {entry : Thread}
    (there : session.service.server.threads[request]? = some entry) :
    entry.phase ≠ .waiting := by
  obtain ⟨priority, ratio⟩ := options
  cases noRatio
  obtain ⟨moves, served⟩ := kept.served
  obtain ⟨serverMoves, serverServed⟩ := Service.server_of_run served
  have notDozes :=
    Server.restless_of_run serverServed entry (List.mem_of_getElem? there)
  intro waits
  rw [waits] at notDozes
  cases notDozes

/-- Without a ratio every client thread has printed and the server is as it
was before the first of them. -/
theorem Settles.all_served
    (settles : session.Settles options start output programs)
    (rests : session.Rests options)
    (few : session.clients.length ≤ maxThreads)
    (noRatio : options.ratio = 0) :
    (∀ thread ∈ session.clients, thread.isPrinted = true) ∧
      session.service.acceptor.currentThreads = 0 ∧
      ∀ id, id < maxThreads →
        session.service.acceptor.clientSockets id = 0 := by
  have linked := settles.kept.linked
  have sound := settles.kept.sound
  refine ⟨?_, sound.all_free (settles.accepts rests few) ?_⟩
  · intro thread listed
    obtain ⟨place, here⟩ := List.mem_iff_getElem?.mp listed
    rcases settles.printed_or_asleep rests few here with
      printed | ⟨_, _, _, _, _, there, waits⟩
    · exact printed
    · exact absurd waits (settles.kept.awake noRatio there)
  · intro client listed
    obtain ⟨place, here⟩ := List.mem_iff_getElem?.mp listed
    rcases (rests.service linked sound.attributed).gone sound here with
      finished | ⟨_, _, _, _, there, waits⟩
    · exact finished
    · exact absurd waits (settles.kept.awake noRatio there)

end Rest

/-! ## Runs -/

/-- The threads that the client programs start. -/
def threads (programs : List (Operation × Nat)) : Nat :=
  (programs.map Prod.snd).sum

section Runs

variable {options : Options} {session : Session} {start : BitVec 32}
  {output : List Char} {programs : List (Operation × Nat)}

theorem settles_initial (options : Options) (start : BitVec 32)
    (output : List Char) (programs : List (Operation × Nat)) :
    (initial start output programs).Settles options start output
      programs where
  kept := kept_initial options start output programs
  crowded := Bool.noConfusion

theorem length_initial (start : BitVec 32) (output : List Char)
    (programs : List (Operation × Nat)) :
    (initial start output programs).clients.length = threads programs := by
  rw [initial, List.length_flatMap, threads]
  congr 1
  apply List.map_congr_left
  intro program _
  rw [ClientThread.program, List.length_map, List.length_range]

theorem Kept.length
    (kept : session.Kept options start output programs) :
    session.clients.length = threads programs := by
  have same := congrArg List.length kept.given
  rw [List.length_map, List.length_map, length_initial] at same
  exact same

theorem rank_initial (start : BitVec 32) (output : List Char)
    (programs : List (Operation × Nat)) :
    (initial start output programs).rank = 40 * threads programs := by
  have three :
      ((initial start output programs).clients.map ClientThread.rank).sum =
        3 * (initial start output programs).clients.length := by
    have each :
        (initial start output programs).clients.map ClientThread.rank =
          (initial start output programs).clients.map (fun _ => 3) := by
      apply List.map_congr_left
      intro thread listed
      rw [ClientThread.rank, phase_initial listed]
    rw [each, List.map_const', List.sum_replicate_nat, Nat.mul_comm]
  have nothing : (initial start output programs).service.rank = 0 := rfl
  have noneAccepted :
      (initial start output programs).accepted.length = 0 :=
    rfl
  rw [rank, three, nothing, noneAccepted, length_initial]
  omega

/-- A run takes at most so many steps for each client thread. -/
theorem rank_of_run
    {actions : List SessionAction}
    (positive :
      Obeys (step options) Positive (initial start output programs) actions)
    (reached :
      run (step options) (initial start output programs) actions =
        some session) :
    session.Settles options start output programs ∧
      actions.length + session.rank ≤ 40 * threads programs := by
  have falls :
      ∀ (state : Session) (action : SessionAction) (next : Session),
        state.Settles options start output programs →
          state.Positive action → state.step options action = some next →
            next.Settles options start output programs ∧
              next.rank < state.rank :=
    fun _ _ _ settles positive taken =>
      ⟨settles.step positive taken, settles.kept.linked.rank_step taken⟩
  rw [← rank_initial start output programs]
  exact
    length_add_rank_le falls (settles_initial options start output programs)
      positive reached

end Runs

/-- With no more client threads than slots, clients and server come to rest
in at most 40 steps for each client thread; then every client thread has
printed or has a request that sleeps in `do_request`.  Without a ratio every
one has printed, the counter has counted all writers, and all slots are free
again. -/
theorem clients_served
    (options : Options) (start : BitVec 32) (output : List Char)
    (programs : List (Operation × Nat))
    (few : threads programs ≤ maxThreads) {actions : List SessionAction}
    {final : Session}
    (positive :
      Obeys (step options) Positive (initial start output programs) actions)
    (reached :
      run (step options) (initial start output programs) actions =
        some final) :
    actions.length ≤ 40 * threads programs ∧
      (∃ more last,
        run (step options) final more = some last ∧ last.Rests options) ∧
      (final.Rests options →
        (∀ (place : Nat) (thread : ClientThread),
          final.clients[place]? = some thread →
            thread.isPrinted = true ∨ final.Sleeps place) ∧
        (options.ratio = 0 →
          (∀ thread ∈ final.clients, thread.isPrinted = true) ∧
            final.service.server.counter =
              start + BitVec.ofNat 32 (writers programs) ∧
            final.service.acceptor.currentThreads = 0 ∧
            ∀ id, id < maxThreads →
              final.service.acceptor.clientSockets id = 0)) := by
  obtain ⟨settles, bounded⟩ := rank_of_run positive reached
  have fits : final.clients.length ≤ maxThreads := by
    rw [settles.kept.length]
    exact few
  refine ⟨by omega, ?_, ?_⟩
  · obtain ⟨more, last, onwards, _, rests⟩ :=
      exists_rest settles
    exact ⟨more, last, onwards, rests⟩
  · intro rests
    refine
      ⟨fun _ _ here => settles.printed_or_asleep rests fits here, ?_⟩
    intro noRatio
    obtain ⟨printed, free⟩ := settles.all_served rests fits noRatio
    exact ⟨printed, (settles.kept.counter_of_printed printed).2, free⟩

/-- The writer has just stored, and the reader has sent its request. -/
theorem clients_served_two :
    ∃ final last : Session, ∃ more,
      run (step ⟨.write, 0⟩) (initial 41 [] [(.write, 1), (.read, 1)])
          writerStores = some final ∧
        run (step ⟨.write, 0⟩) final more = some last ∧
        last.Rests ⟨.write, 0⟩ := by
  have goesOn :
      (run (step ⟨.write, 0⟩) (initial 41 [] [(.write, 1), (.read, 1)])
        writerStores).isSome := by
    decide +kernel
  have positive :
      Obeys (step ⟨.write, 0⟩) Positive
        (initial 41 [] [(.write, 1), (.read, 1)]) writerStores := by
    decide +kernel
  obtain ⟨final, reached⟩ := Option.isSome_iff_exists.mp goesOn
  obtain ⟨_, ⟨more, last, onwards, rests⟩, _⟩ :=
    clients_served ⟨.write, 0⟩ 41 [] [(.write, 1), (.read, 1)] (by decide)
      positive reached
  exact ⟨final, last, more, reached, onwards, rests⟩

end Session

end SistemasDistribuidos.Practica3
