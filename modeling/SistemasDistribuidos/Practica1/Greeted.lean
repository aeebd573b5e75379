import Mathlib.Data.List.Perm.Subperm
import SistemasDistribuidos.Practica1.Greetings

/-!
# Clients and server at rest

Every step leaves less to do.  A client that connects brings the main thread
some steps, among them its share of joining and closing the batch.
-/

namespace SistemasDistribuidos.Practica1.MultiHilo

open SistemasDistribuidos Machine Pool

/-! ## How much there is to do -/

/-- The steps that the main thread has before it, with those of the thread that
it is about to create. -/
def MainPhase.rank (currentThread : Nat) : MainPhase → Nat
  | .looping => 3 * currentThread + 1
  | .joining i => 2 * numberOfThreads + 2 - i
  | .closing i => numberOfThreads + 1 - i
  | .accepting => 3 * currentThread
  | .creating _ => 3 * currentThread + 8

def Thread.rank (thread : Thread) : Nat :=
  match thread.phase with
  | .created => 3
  | .receiving _ => 2
  | .sending _ => 1
  | .finished => 0

def Client.rank (client : Client) : Nat :=
  match client.phase with
  | .starting => 3
  | .connected => 2
  | .sent => 1
  | .done _ => 0

namespace Server

def rank (server : Server) : Nat :=
  server.main.rank server.currentThread + (server.pool.map Thread.rank).sum

section Rank

variable {server next : Server} {base : Nat}

theorem rank_main
    (batch : server.Batch base) (taken : server.MainStep next) :
    next.rank < server.rank := by
  have allows := batch.allows
  cases taken with
  | full here test moved =>
      subst moved
      simp only [rank, here, MainPhase.rank]
      simp only [numberOfThreads] at test ⊢
      omega
  | room here test moved =>
      subst moved
      simp only [rank, here, MainPhase.rank]
      omega
  | join i thread here inside named isDone moved =>
      subst moved
      have same :=
        sum_map_set_add named { thread with joined := true } Thread.rank
      have equal :
          Thread.rank { thread with joined := true } = thread.rank :=
        rfl
      simp only [rank, here, MainPhase.rank]
      omega
  | joined i here all moved =>
      subst moved
      rw [here] at allows
      have few : i ≤ numberOfThreads := allows.2
      simp only [rank, here, MainPhase.rank]
      omega
  | close i connection here inside isOpen moved =>
      subst moved
      simp only [rank, here, MainPhase.rank]
      omega
  | closeFails i here inside isClosed moved =>
      have isOpen := (batch.close here inside).1
      cases isClosed.symm.trans isOpen
  | reset i here all moved =>
      subst moved
      rw [here] at allows
      have few : i ≤ numberOfThreads := allows.2
      simp only [rank, here, MainPhase.rank]
      omega
  | create clientSocket here moved =>
      subst moved
      simp only [rank, here, MainPhase.rank, List.map_append,
        List.sum_append, List.map_cons, List.map_nil, List.sum_cons,
        List.sum_nil, Thread.rank]
      omega

theorem rank_thread
    {index : Nat} {thread : Thread}
    (here : server.pool[index]? = some thread)
    (taken : server.ThreadStep next index thread) :
    next.rank < server.rank := by
  have less : ∀ after : Thread, after.rank < thread.rank →
      ((server.pool.set index after).map Thread.rank).sum <
        (server.pool.map Thread.rank).sum := by
    intro after fewer
    have moved := sum_map_set_add here after Thread.rank
    omega
  cases taken with
  | read phase moved | receive clientSocket phase moved
  | send clientSocket phase moved =>
      subst moved
      apply Nat.add_lt_add_left
      apply less
      simp [Thread.rank, phase]

end Rank

end Server

namespace Dialogue

/-- The steps that clients and server still have before them. -/
def rank (dialogue : Dialogue) : Nat :=
  dialogue.server.rank + (dialogue.clients.map Client.rank).sum +
    9 * (dialogue.clients.length - dialogue.accepted.length)

section Rank

variable {dialogue next : Dialogue}

theorem rank_client
    {place : Nat} {client : Client}
    (here : dialogue.clients[place]? = some client)
    (move : dialogue.ClientMove next place client) :
    next.rank < dialogue.rank := by
  have less : ∀ phase : ClientPhase,
      Client.rank { client with phase := phase } < client.rank →
        next.server = dialogue.server →
          next.accepted = dialogue.accepted →
            next.clients =
                dialogue.clients.set place { client with phase := phase } →
              next.rank < dialogue.rank := by
    intro phase fewer server accepted clients
    have moved :=
      sum_map_set_add here { client with phase := phase } Client.rank
    rw [rank, rank, server, accepted, clients, List.length_set]
    omega
  cases move with
  | connect phase moved =>
      refine less .connected ?_ ?_ ?_ ?_
      · simp [Client.rank, phase]
      all_goals rw [moved]; rfl
  | send phase moved =>
      refine less .sent ?_ ?_ ?_ ?_
      · simp [Client.rank, phase]
      all_goals rw [moved]; rfl
  | receive buffer bytes phase received moved =>
      refine less _ ?_ ?_ ?_ (by rw [moved]; rfl)
      · simp [Client.rank, phase]
      all_goals rw [moved]; rfl

theorem inside_of_connected
    {place : Nat}
    (isConnected :
      dialogue.clients[place]?.any Client.isConnected = true) :
    place < dialogue.clients.length := by
  by_contra outside
  rw [List.getElem?_eq_none (Nat.le_of_not_lt outside)] at isConnected
  cases isConnected

theorem Linked.accepted_lt
    (linked : dialogue.Linked) {place : Nat}
    (pending : dialogue.isPending place = true) :
    dialogue.accepted.length < dialogue.clients.length := by
  obtain ⟨isConnected, isNew⟩ := isPending_iff.mp pending
  have more :
      (place :: dialogue.accepted).Subperm
        (List.range dialogue.clients.length) := by
    apply (List.nodup_cons.mpr ⟨isNew, linked.nodup⟩).subperm
    intro other listed
    rw [List.mem_range]
    rcases List.mem_cons.mp listed with rfl | earlier
    · exact inside_of_connected isConnected
    · exact inside_of_connected (linked.connected other earlier)
  have most := more.length_le
  rw [List.length_range, List.length_cons] at most
  exact most

theorem Linked.rank_step
    (linked : dialogue.Linked) {action : DialogueAction}
    (taken : dialogue.step action = some next) :
    next.rank < dialogue.rank := by
  obtain ⟨base, batch⟩ := linked.batch
  have thread_less : ∀ {index : Nat} {thread : Thread} {server : Server},
      dialogue.server.pool[index]? = some thread →
        dialogue.server.step (.thread index) = some server →
          server.rank < dialogue.server.rank := by
    intro index thread server here served
    have moves : dialogue.server.threadStep index thread = some server := by
      simpa [Server.step, linked.running, here] using served
    exact Server.rank_thread here (Server.threadStep_cases moves)
  cases step_cases taken with
  | client place client here move => exact rank_client here move
  | accept place result pending positive server served moved =>
      have room := linked.accepted_lt pending
      have accepts : dialogue.server.accept result = some server := by
        simpa [Server.step, linked.running] using served
      simp only [Server.accept, Option.ite_none_right_eq_some,
        if_neg (not_lt.mpr positive), Option.some.injEq] at accepts
      obtain ⟨⟨here, _⟩, rfl⟩ := accepts
      subst moved
      simp only [rank, Server.rank, here, MainPhase.rank,
        List.length_append, List.length_singleton]
      omega
  | main server served moved =>
      have moves : dialogue.server.mainStep = some server := by
        simpa [Server.step, linked.running] using served
      have fewer := Server.rank_main batch (Server.mainStep_cases moves)
      subst moved
      simp only [rank]
      omega
  | read index thread here _ server served moved
  | receive index _ thread _ _ _ here _ _ _ server served moved
  | send index _ thread _ here _ _ server served moved =>
      have fewer := thread_less here served
      subst moved
      simp only [rank]
      omega

end Rank

/-! ## At rest -/

/-- Nobody can go on. -/
def Rests (dialogue : Dialogue) : Prop :=
  ∀ action, dialogue.step action = none

section Rest

variable {dialogue : Dialogue}

theorem Rests.hasSent
    (rests : dialogue.Rests) {place : Nat} {client : Client}
    (here : dialogue.clients[place]? = some client) :
    client.hasSent = true := by
  obtain ⟨clientId, phase⟩ := client
  cases phase with
  | starting =>
      have stops := rests (.connect place)
      simp [step, here] at stops
  | connected =>
      have stops := rests (.send place)
      simp [step, here] at stops
  | sent => rfl
  | done line => rfl

theorem Rests.finished
    (rests : dialogue.Rests) (linked : dialogue.Linked) {index : Nat}
    {thread : Thread} (here : dialogue.server.pool[index]? = some thread) :
    thread.phase = .finished := by
  have stops := rests (.thread index [])
  have within : index < dialogue.accepted.length := by
    have inside := (List.getElem?_eq_some_iff.mp here).1
    rw [linked.length]
    exact inside.trans_le (Nat.le_add_right _ _)
  have accepted := List.getElem?_eq_getElem within
  generalize dialogue.accepted[index] = place at accepted
  cases phase : thread.phase with
  | created =>
      simp [step, here, phase, serve, Server.step, linked.running,
        Server.threadStep] at stops
  | receiving clientSocket =>
      have peer := (linked.peer_eq here (Or.inl phase)).trans accepted
      have inside :=
        inside_of_connected
          (linked.connected place (List.mem_of_getElem? accepted))
      have clientHere := List.getElem?_eq_getElem inside
      have arrived := linked.asked place _ clientHere
      rw [if_pos (rests.hasSent clientHere)] at arrived
      simp [step, here, phase, peer, arrived, serve, Server.step,
        linked.running, Server.threadStep] at stops
  | sending clientSocket =>
      have peer := (linked.peer_eq here (Or.inr phase)).trans accepted
      simp [step, here, phase, peer, serve, Server.step, linked.running,
        Server.threadStep] at stops
  | finished => rfl

theorem Rests.accepts
    (rests : dialogue.Rests) (linked : dialogue.Linked) :
    dialogue.server.main = .accepting := by
  obtain ⟨base, batch⟩ := linked.batch
  have stops : dialogue.server.mainStep = none := by
    simpa [step, serve, Server.step, linked.running] using rests .main
  rw [Server.mainStep] at stops
  cases here : dialogue.server.main with
  | accepting => rfl
  | looping =>
      simp only [here] at stops
      split at stops <;> cases stops
  | joining i =>
      simp only [here] at stops
      split at stops
      · rename_i inside
        obtain ⟨thread, named, there, _⟩ := batch.joins here inside
        have isDone := rests.finished linked there
        simp [Server.join, named, there, isDone] at stops
      · cases stops
  | closing i =>
      simp only [here] at stops
      split at stops <;> cases stops
  | creating clientSocket =>
      simp only [here] at stops
      cases stops

theorem Rests.accepted
    (rests : dialogue.Rests) (linked : dialogue.Linked) {place : Nat}
    {client : Client} (here : dialogue.clients[place]? = some client) :
    place ∈ dialogue.accepted := by
  have accepts := rests.accepts linked
  have isConnected := Client.isConnected_of_hasSent (rests.hasSent here)
  by_contra absent
  have pending : dialogue.isPending place = true := by
    rw [isPending_iff, here]
    exact ⟨isConnected, absent⟩
  obtain ⟨bound, positive, closed⟩ := linked.spare
  have stops := rests (.accept place bound)
  simp [step, pending, positive, serve, Server.step, linked.running,
    Server.accept, accepts, closed bound le_rfl, not_lt.mpr positive] at stops

theorem Rests.done
    (rests : dialogue.Rests) (linked : dialogue.Linked) {place : Nat}
    {client : Client} (here : dialogue.clients[place]? = some client) :
    client.phase = .done answer := by
  obtain ⟨index, accepted⟩ :=
    List.mem_iff_getElem?.mp (rests.accepted linked here)
  have inside := (List.getElem?_eq_some_iff.mp accepted).1
  rw [linked.length, Server.connections, rests.accepts linked] at inside
  have there := List.getElem?_eq_getElem (Nat.lt_of_lt_of_eq inside rfl)
  have isDone := rests.finished linked there
  have finished : dialogue.server.finishedAt index = true := by
    rw [Server.finishedAt, there]
    simp [Thread.isFinished, isDone]
  have arrived := linked.finished index place accepted finished
  have hasSent := rests.hasSent here
  have stops := rests (.receive place [])
  have told := linked.told place client
  obtain ⟨clientId, phase⟩ := client
  cases phase with
  | starting => cases hasSent
  | connected => cases hasSent
  | sent => simp [step, here, arrived] at stops
  | done line => rw [(told line here rfl).1]

end Rest

/-! ## Runs -/

/-- What holds in every state that is reached. -/
structure Kept (clientIds : List (BitVec 32)) (dialogue : Dialogue) :
    Prop where
  linked : dialogue.Linked
  ids : dialogue.clients.map Client.clientId = clientIds

section Runs

variable {dialogue next : Dialogue} {clientIds : List (BitVec 32)}

theorem ids_step
    {action : DialogueAction} (taken : dialogue.step action = some next) :
    next.clients.map Client.clientId =
      dialogue.clients.map Client.clientId := by
  cases step_cases taken with
  | client place client here move =>
      have mapped :
          (dialogue.clients.map Client.clientId)[place]? =
            some client.clientId := by
        rw [List.getElem?_map, here]
        rfl
      cases move with
      | connect _ moved | send _ moved | receive _ _ _ _ moved =>
          rw [moved]
          simp only [moveClient, List.map_set]
          exact set_here mapped
  | accept _ _ _ _ _ _ moved | main _ _ moved | read _ _ _ _ _ _ moved
  | receive _ _ _ _ _ _ _ _ _ _ _ _ moved
  | send _ _ _ _ _ _ _ _ _ moved => rw [moved]

theorem kept_initial (fds : Nat → Int) (threads : Nat → Nat)
    (clientIds : List (BitVec 32)) :
    (initial fds threads clientIds).Kept clientIds where
  linked := linked_initial fds threads clientIds
  ids := by
    rw [initial, List.map_map]
    exact List.map_id clientIds

theorem Kept.step
    (kept : dialogue.Kept clientIds) {action : DialogueAction}
    (taken : dialogue.step action = some next) : next.Kept clientIds where
  linked := kept.linked.step taken
  ids := (ids_step taken).trans kept.ids

theorem rank_initial (fds : Nat → Int) (threads : Nat → Nat)
    (clientIds : List (BitVec 32)) :
    (initial fds threads clientIds).rank = 12 * clientIds.length + 1 := by
  have three :
      ((initial fds threads clientIds).clients.map Client.rank).sum =
        3 * clientIds.length := by
    have each :
        (initial fds threads clientIds).clients.map Client.rank =
          clientIds.map (fun _ => 3) := by
      rw [initial, List.map_map]
      rfl
    rw [each, List.map_const', List.sum_replicate_nat, Nat.mul_comm]
  have server : (initial fds threads clientIds).server.rank = 1 := rfl
  have length :
      (initial fds threads clientIds).clients.length = clientIds.length :=
    List.length_map _
  have noneAccepted :
      (initial fds threads clientIds).accepted.length = 0 :=
    rfl
  rw [rank, three, server, length, noneAccepted]
  omega

/-- A run takes at most so many steps for each client. -/
theorem rank_of_run
    {fds : Nat → Int} {threads : Nat → Nat} {actions : List DialogueAction}
    (reached :
      run step (initial fds threads clientIds) actions = some dialogue) :
    dialogue.Kept clientIds ∧
      actions.length + dialogue.rank ≤ 12 * clientIds.length + 1 := by
  have falls :
      ∀ (state : Dialogue) (action : DialogueAction) (next : Dialogue),
        state.Kept clientIds → True → state.step action = some next →
          next.Kept clientIds ∧ next.rank < state.rank :=
    fun _ _ _ kept _ taken =>
      ⟨kept.step taken, kept.linked.rank_step taken⟩
  rw [← rank_initial fds threads clientIds]
  exact
    length_add_rank_le falls (kept_initial fds threads clientIds)
      (obeys_true _ actions) reached

theorem exists_rest (linked : dialogue.Linked) :
    ∃ more last, run step dialogue more = some last ∧ last.Rests := by
  have falls :
      ∀ (state : Dialogue) (action : DialogueAction) (next : Dialogue),
        state.Linked → True → state.step action = some next →
          next.Linked ∧ next.rank < state.rank :=
    fun _ _ _ linked _ taken =>
      ⟨linked.step taken, linked.rank_step taken⟩
  obtain ⟨more, last, _, onwards, _, rests⟩ :=
    exists_run_to_rest falls dialogue.rank linked le_rfl
  exact ⟨more, last, onwards, fun action => rests action trivial⟩

/-- What the server has printed for a client that is done. -/
theorem Linked.printed_of_done
    (linked : dialogue.Linked) {place : Nat} {client : Client}
    {line : List UInt8} (here : dialogue.clients[place]? = some client)
    (isDone : client.phase = .done line) :
    (place, greeting client.clientId) ∈ dialogue.screen := by
  obtain ⟨_, arrived⟩ := linked.told place client line here isDone
  obtain ⟨_, index, accepted, finished⟩ := linked.answered place _ arrived
  have hasPrinted : dialogue.server.printedAt index = true := by
    rw [Server.finishedAt, Option.any_eq_true] at finished
    obtain ⟨thread, there, isFinished⟩ := finished
    rw [Server.printedAt, there]
    obtain ⟨slot, accepted, phase, used, joined⟩ := thread
    cases phase with
    | finished => rfl
    | _ => cases isFinished
  have listed := (linked.printed place).mpr ⟨index, accepted, hasPrinted⟩
  obtain ⟨entry, inScreen, rfl⟩ := List.mem_map.mp listed
  obtain ⟨owner, ownerHere, isGreeting⟩ := linked.lines entry inScreen
  cases here.symm.trans ownerHere
  rw [← isGreeting]
  exact inScreen

theorem Kept.screen_of_rest
    (kept : dialogue.Kept clientIds) (rests : dialogue.Rests) :
    (dialogue.screen.map Prod.snd).Perm (clientIds.map greeting) := by
  have linked := kept.linked
  have places :
      (dialogue.screen.map Prod.fst).Perm
        (List.range dialogue.clients.length) := by
    refine (List.perm_ext_iff_of_nodup linked.once List.nodup_range).mpr ?_
    intro place
    rw [List.mem_range]
    constructor
    · intro listed
      obtain ⟨index, accepted, _⟩ := (linked.printed place).mp listed
      exact
        inside_of_connected
          (linked.connected place (List.mem_of_getElem? accepted))
    · intro inside
      have here := List.getElem?_eq_getElem inside
      exact
        List.mem_map.mpr
          ⟨_, linked.printed_of_done here (rests.done linked here), rfl⟩
  have texts :
      dialogue.screen.map Prod.snd =
        (dialogue.screen.map Prod.fst).map
          (fun place => greeting (clientIds.getD place 0)) := by
    rw [List.map_map]
    apply List.map_congr_left
    intro entry listed
    obtain ⟨client, here, isGreeting⟩ := linked.lines entry listed
    have id : clientIds[entry.1]? = some client.clientId := by
      rw [← kept.ids, List.getElem?_map, here]
      rfl
    rw [isGreeting, Function.comp_apply, List.getD_eq_getElem?_getD, id]
    rfl
  have all :
      (List.range dialogue.clients.length).map
          (fun place => greeting (clientIds.getD place 0)) =
        clientIds.map greeting := by
    have length : dialogue.clients.length = clientIds.length := by
      rw [← kept.ids, List.length_map]
    rw [length]
    apply List.ext_getElem
    · rw [List.length_map, List.length_map, List.length_range]
    · intro place inside _
      rw [List.length_map, List.length_range] at inside
      rw [List.getElem_map, List.getElem_map, List.getElem_range,
        List.getD_eq_getElem?_getD, List.getElem?_eq_getElem inside,
        Option.getD_some]
  rw [texts, ← all]
  exact places.map _

end Runs

/-- However many clients there are, and in whatever order all threads run, the
server prints only greetings of its clients and each at most once; a client
prints `Hello client!`, and only after its own greeting has been printed.  A
run has at most 12 steps for each client and one more; clients and server
always come to rest, and then every client is done and the server has printed
each greeting once. -/
theorem every_client_greeted
    (fds : Nat → Int) (threads : Nat → Nat) (clientIds : List (BitVec 32))
    {actions : List DialogueAction} {final : Dialogue}
    (reached :
      run step (initial fds threads clientIds) actions = some final) :
    (final.screen.map Prod.fst).Nodup ∧
      (∀ entry ∈ final.screen, ∃ client,
        final.clients[entry.1]? = some client ∧
          entry.2 = greeting client.clientId) ∧
      (∀ (place : Nat) (client : Client) (line : List UInt8),
        final.clients[place]? = some client → client.phase = .done line →
          line = answer ∧
            (place, greeting client.clientId) ∈ final.screen) ∧
      actions.length ≤ 12 * clientIds.length + 1 ∧
      (∃ more last, run step final more = some last ∧ last.Rests) ∧
      (final.Rests →
        (∀ client ∈ final.clients, client.phase = .done answer) ∧
          (final.screen.map Prod.snd).Perm (clientIds.map greeting)) := by
  obtain ⟨kept, bounded⟩ := rank_of_run reached
  have linked := kept.linked
  refine
    ⟨linked.once, linked.lines, ?_, by omega,
      exists_rest linked, ?_⟩
  · intro place client line here isDone
    exact
      ⟨(linked.told place client line here isDone).1,
        linked.printed_of_done here isDone⟩
  · intro rests
    refine ⟨?_, kept.screen_of_rest rests⟩
    intro client listed
    obtain ⟨place, here⟩ := List.mem_iff_getElem?.mp listed
    exact rests.done linked here

/-- Two clients, of which the second one is accepted and greeted first. -/
def twoGreetings : List DialogueAction :=
  [.main, .connect 0, .connect 1, .accept 1 4, .main, .main, .accept 0 5,
    .send 0, .main, .send 1, .thread 1 [], .thread 0 [], .thread 0 [],
    .thread 1 [], .thread 0 [], .receive 1 [], .thread 1 [], .receive 0 []]

theorem every_client_greeted_two :
    ∃ final,
      run step (initial (fun _ => 0) (fun _ => 0) [7, 8]) twoGreetings =
          some final ∧
        (0, greeting 7) ∈ final.screen ∧ (1, greeting 8) ∈ final.screen := by
  have evaluated :
      (run step (initial (fun _ => 0) (fun _ => 0) [7, 8])
          twoGreetings).map Dialogue.clients =
        some [⟨7, .done answer⟩, ⟨8, .done answer⟩] := by
    decide +kernel
  obtain ⟨final, reached, clients⟩ := Option.map_eq_some_iff.mp evaluated
  have first : final.clients[0]? = some ⟨7, .done answer⟩ := by
    rw [clients]
    rfl
  have second : final.clients[1]? = some ⟨8, .done answer⟩ := by
    rw [clients]
    rfl
  obtain ⟨_, _, told, _⟩ := every_client_greeted _ _ [7, 8] reached
  exact
    ⟨final, reached, (told 0 _ _ first rfl).2, (told 1 _ _ second rfl).2⟩

end Dialogue

end SistemasDistribuidos.Practica1.MultiHilo
