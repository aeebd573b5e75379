import SistemasDistribuidos.Practica3.Slots

/-!
# The main thread that sleeps

Between the test of `current_threads` and the start of its wait the main
thread has `free_fd_mutex`, which a client needs to release its slot but not
to signal `not_full`.  A client that still has its slot then signals when the
main thread waits.  `Occupied` says that there is one whenever the table is
found full; the code does not see to it, and all the clients that are counted
can be between the two.
-/

namespace SistemasDistribuidos.Practica3

open SistemasDistribuidos Machine Pool SlotArray

namespace ClientPhase

/-- How many steps it takes to get through `set_current_threads(-1)`. -/
def remaining : ClientPhase → Nat
  | .released => 3
  | .decremented => 2
  | .signalled => 1
  | _ => 0

end ClientPhase

/-- Before the test of `current_threads`. -/
def MainPhase.isTesting : MainPhase → Bool
  | .testing _ => true
  | _ => false

namespace Acceptor

/-- The main thread waits, and every client is past its
`set_current_threads(-1)`. -/
def Stuck (acceptor : Acceptor) : Prop :=
  (∃ clientSocket, acceptor.main = .waiting clientSocket) ∧
    ∀ client ∈ acceptor.clients, client.phase = .finished

/-- When the main thread finds the table full, some client still has its
slot. -/
def Occupied (acceptor : Acceptor) : AcceptorAction → Prop
  | .main =>
      acceptor.main.isTesting = true →
        (maxThreads : Int) ≤ acceptor.currentThreads →
          ∃ client ∈ acceptor.clients, client.holdsSlot = true
  | _ => True

instance (acceptor : Acceptor) :
    ∀ action, Decidable (acceptor.Occupied action)
  | .main => inferInstanceAs (Decidable (_ → _ → _))
  | .accept _ => isTrue trivial
  | .client _ => isTrue trivial

/-- Somebody will signal when the main thread waits. -/
def Watched (acceptor : Acceptor) : Prop :=
  match acceptor.main with
  | .starting _ => ∃ client ∈ acceptor.clients, client.holdsSlot = true
  | .waiting _ => ∃ client ∈ acceptor.clients, client.phase.signals = true
  | _ => True

section Steps

variable {acceptor next : Acceptor}

theorem Watched.not_stuck (watched : acceptor.Watched) :
    ¬ acceptor.Stuck := by
  rintro ⟨⟨clientSocket, waits⟩, allFinished⟩
  simp only [Watched, waits] at watched
  obtain ⟨client, listed, signals⟩ := watched
  rw [allFinished client listed] at signals
  cases signals

theorem signals_of_holdsSlot
    {client : Client} (holds : client.holdsSlot = true) :
    client.phase.signals = true := by
  obtain ⟨id, clientSocket, phase, closed⟩ := client
  cases phase <;> first | rfl | cases holds

theorem Watched.mainStep
    (watched : acceptor.Watched) (occupied : acceptor.Occupied .main)
    (taken : acceptor.MainStep next) : next.Watched := by
  cases taken with
  | full fd here test moved =>
      subst moved
      simp only [Occupied, here] at occupied
      exact occupied rfl test
  | wait fd here moved =>
      subst moved
      simp only [Watched, here] at watched
      obtain ⟨client, listed, holds⟩ := watched
      exact ⟨client, listed, signals_of_holdsSlot holds⟩
  | lock fd here moved | room fd here test moved | relock fd here moved
  | found fd here inside moved | failed fd here outside moved
  | leave fd id here moved | store fd id here moved
  | create fd id here moved | count here unlocked moved =>
      subst moved
      trivial

/-- A client moves on, and keeps its slot before the wait and its signal in
the wait. -/
theorem Watched.set
    (watched : acceptor.Watched) {index : Nat} {before after : Client}
    (here : acceptor.clients[index]? = some before)
    (sameMain : next.main = acceptor.main)
    (clients : next.clients = acceptor.clients.set index after)
    (sameHolds : ∀ fd, acceptor.main = .starting fd →
      after.holdsSlot = before.holdsSlot)
    (sameSignals : ∀ fd, acceptor.main = .waiting fd →
      after.phase.signals = before.phase.signals) :
    next.Watched := by
  rw [Watched, sameMain, clients]
  split
  · rename_i fd starts
    simp only [Watched, starts] at watched
    exact
      (exists_set_iff here Client.holdsSlot (sameHolds fd starts)).mpr
        watched
  · rename_i fd waits
    simp only [Watched, waits] at watched
    exact
      (exists_set_iff here (fun client => client.phase.signals)
        (sameSignals fd waits)).mpr watched
  · trivial

/-- Before the wait a client cannot release its slot, and in the wait a signal
is heard. -/
theorem Watched.clientStep
    (watched : acceptor.Watched) (tallies : acceptor.Tallies)
    {index : Nat} {client : Client}
    (here : acceptor.clients[index]? = some client)
    (taken : acceptor.ClientStep next index client) : next.Watched := by
  obtain ⟨id, clientSocket, phase, closed⟩ := client
  cases taken with
  | close isHere moved =>
      cases isHere
      subst moved
      exact watched.set here rfl rfl (fun _ _ => rfl) (fun _ _ => rfl)
  | release isHere free moved =>
      cases isHere
      subst moved
      refine watched.set here rfl rfl ?_ (fun _ _ => rfl)
      intro fd starts
      have locked := tallies.free
      rw [free, starts] at locked
      cases locked
  | decrement isHere free moved =>
      cases isHere
      subst moved
      exact watched.set here rfl rfl (fun _ _ => rfl) (fun _ _ => rfl)
  | signal fd isHere waits moved =>
      cases isHere
      subst moved
      trivial
  | lose isHere awake moved =>
      cases isHere
      subst moved
      refine watched.set here rfl rfl (fun _ _ => rfl) ?_
      intro fd waits
      exact absurd waits (awake fd)
  | unlock isHere moved =>
      cases isHere
      subst moved
      exact watched.set here rfl rfl (fun _ _ => rfl) (fun _ _ => rfl)

theorem Watched.step
    (watched : acceptor.Watched) (tallies : acceptor.Tallies)
    {action : AcceptorAction} (occupied : acceptor.Occupied action)
    (taken : acceptor.step action = some next) : next.Watched := by
  cases action with
  | accept clientSocket =>
      obtain ⟨_, rfl⟩ := step_accept taken
      trivial
  | main => exact watched.mainStep occupied (mainStep_cases taken)
  | client index =>
      obtain ⟨client, here, advanced⟩ := step_client taken
      exact watched.clientStep tallies here (clientStep_cases advanced)

/-! ## A signal that comes too early -/

/-- The main thread is about to wait, and no client has its slot any more. -/
structure Deserted (acceptor : Acceptor) : Prop where
  starts : ∃ clientSocket, acceptor.main = .starting clientSocket
  released : ∀ client ∈ acceptor.clients, client.holdsSlot = false
  threads :
    Owns acceptor.currentThreadsMutex Client.holdsThreads acceptor.clients

def remaining (acceptor : Acceptor) : Nat :=
  (acceptor.clients.map (fun client => client.phase.remaining)).sum

/-- A client goes on through `set_current_threads(-1)`. -/
theorem Deserted.set
    (deserted : acceptor.Deserted) {index : Nat} {before after : Client}
    (here : acceptor.clients[index]? = some before)
    (sameMain : next.main = acceptor.main)
    (clients : next.clients = acceptor.clients.set index after)
    (holdsNothing : after.holdsSlot = false)
    (owns :
      Owns next.currentThreadsMutex Client.holdsThreads
        (acceptor.clients.set index after))
    (less : after.phase.remaining < before.phase.remaining) :
    next.Deserted ∧ next.remaining < acceptor.remaining := by
  refine ⟨⟨?_, ?_, ?_⟩, ?_⟩
  · rw [sameMain]
    exact deserted.starts
  · intro client listed
    rw [clients] at listed
    rcases List.mem_or_eq_of_mem_set listed with old | rfl
    · exact deserted.released client old
    · exact holdsNothing
  · rw [clients]
    exact owns
  · have total :=
      sum_map_set_add here after (fun client => client.phase.remaining)
    rw [remaining, remaining, clients]
    omega

theorem step_of_clientStep
    {index : Nat} {client : Client}
    (here : acceptor.clients[index]? = some client) :
    acceptor.step (.client index) = acceptor.clientStep index client := by
  rw [step, here]

/-- Whoever has `current_threads_mutex` goes on; its signal is lost. -/
theorem Deserted.holderStep
    (deserted : acceptor.Deserted) {index : Nat} {client : Client}
    (here : acceptor.clients[index]? = some client)
    (holds : client.holdsThreads = true) :
    ∃ next,
      acceptor.step (.client index) = some next ∧ next.Deserted ∧
        next.remaining < acceptor.remaining := by
  rw [step_of_clientStep here]
  obtain ⟨fd, starts⟩ := deserted.starts
  obtain ⟨id, clientSocket, phase, closed⟩ := client
  cases phase with
  | decremented =>
      have lost :
          (acceptor.move index ⟨id, clientSocket, .decremented, closed⟩
              .signalled).signal =
            acceptor.move index ⟨id, clientSocket, .decremented, closed⟩
              .signalled := by
        simp only [signal, move, starts]
      refine ⟨_, congrArg some lost, ?_⟩
      exact
        deserted.set here rfl rfl rfl (deserted.threads.set here rfl)
          (Nat.lt_succ_self _)
  | signalled =>
      refine ⟨_, rfl, ?_⟩
      exact
        deserted.set here rfl rfl rfl
          (deserted.threads.release here rfl rfl) (Nat.lt_succ_self _)
  | serving => cases holds
  | closed => cases holds
  | released => cases holds
  | finished => cases holds

/-- A client that has released its slot locks `current_threads_mutex`. -/
theorem Deserted.releasedStep
    (deserted : acceptor.Deserted) {index : Nat} {client : Client}
    (here : acceptor.clients[index]? = some client)
    (free : acceptor.currentThreadsMutex = none)
    (isReleased : client.phase = .released) :
    ∃ next,
      acceptor.step (.client index) = some next ∧ next.Deserted ∧
        next.remaining < acceptor.remaining := by
  rw [step_of_clientStep here]
  obtain ⟨id, clientSocket, phase, closed⟩ := client
  cases isReleased
  have owns := deserted.threads
  rw [free] at owns
  refine ⟨_, if_pos free, ?_⟩
  exact
    deserted.set here rfl rfl rfl (owns.acquire here rfl)
      (Nat.lt_succ_self _)

/-- While somebody is not done, somebody can go on. -/
theorem Deserted.progress
    (deserted : acceptor.Deserted)
    (unfinished : ¬ ∀ client ∈ acceptor.clients, client.phase = .finished) :
    ∃ action next,
      acceptor.step action = some next ∧ next.Deserted ∧
        next.remaining < acceptor.remaining := by
  cases mutex : acceptor.currentThreadsMutex with
  | some index =>
      have inside := deserted.threads.inside index mutex
      have here := List.getElem?_eq_getElem inside
      have holds :=
        (deserted.threads.owner index _ here).mpr mutex
      exact ⟨.client index, deserted.holderStep here holds⟩
  | none =>
      push Not at unfinished
      obtain ⟨client, listed, notDone⟩ := unfinished
      obtain ⟨index, here⟩ := List.mem_iff_getElem?.mp listed
      have noSlot := deserted.released client listed
      have owns := deserted.threads
      rw [mutex] at owns
      have noMutex := owns.free listed
      have isReleased : client.phase = .released := by
        obtain ⟨id, clientSocket, phase, closed⟩ := client
        cases phase with
        | released => rfl
        | serving => cases noSlot
        | closed => cases noSlot
        | decremented => cases noMutex
        | signalled => cases noMutex
        | finished => exact absurd rfl notDone
      exact ⟨.client index, deserted.releasedStep here mutex isReleased⟩

/-- All the signals are lost, and then the main thread waits. -/
theorem Deserted.exists_run_stuck (deserted : acceptor.Deserted) :
    ∃ actions last, run step acceptor actions = some last ∧ last.Stuck := by
  have onwards : ∀ state : Acceptor, state.Deserted →
      (state.Deserted ∧
          ∀ client ∈ state.clients, client.phase = .finished) ∨
        ∃ action next,
          state.step action = some next ∧ next.Deserted ∧
            next.remaining < state.remaining := by
    intro state isDeserted
    by_cases done : ∀ client ∈ state.clients, client.phase = .finished
    · exact Or.inl ⟨isDeserted, done⟩
    · exact Or.inr (isDeserted.progress done)
  obtain ⟨actions, final, reached, isDeserted, done⟩ :=
    exists_run_of_measure remaining onwards acceptor.remaining deserted
      (Nat.le_refl _)
  obtain ⟨fd, starts⟩ := isDeserted.starts
  have waits :
      final.step .main =
        some { final with main := .waiting fd, freeFdMutex := false } := by
    rw [step, mainStep, starts]
  refine
    ⟨actions ++ [.main],
      { final with main := .waiting fd, freeFdMutex := false },
      run_append_eq_some.mpr ⟨final, reached, ?_⟩, ⟨fd, rfl⟩, done⟩
  rw [run_singleton]
  exact waits

/-- When the table is found full and no client has its slot, everybody can be
done before the main thread waits. -/
theorem exists_run_of_not_occupied
    {action : AcceptorAction} (tallies : acceptor.Tallies)
    (taken : acceptor.step action = some next)
    (empty : ¬ acceptor.Occupied action) :
    ∃ more last, run step next more = some last ∧ last.Stuck := by
  cases action with
  | accept clientSocket => exact absurd trivial empty
  | client index => exact absurd trivial empty
  | main =>
      have moved := mainStep_cases taken
      cases here : acceptor.main with
      | testing fd =>
          rw [Occupied] at empty
          push Not at empty
          obtain ⟨_, full, nobody⟩ := empty
          cases moved with
          | full other isHere test moved =>
              subst moved
              apply Deserted.exists_run_stuck
              refine ⟨⟨other, rfl⟩, ?_, tallies.threads⟩
              intro client listed
              exact Bool.eq_false_iff.mpr (nobody client listed)
          | room other isHere test moved => omega
          | lock other isHere moved | wait other isHere moved
          | relock other isHere moved | found other isHere inside moved
          | failed other isHere outside moved
          | leave other id isHere moved | store other id isHere moved
          | create other id isHere moved | count isHere unlocked moved =>
              cases here.symm.trans isHere
      | _ => simp [Occupied, MainPhase.isTesting, here] at empty

end Steps

theorem watched_initial : initial.Watched := trivial

theorem tallies_of_run
    {actions : List AcceptorAction} {final : Acceptor}
    (reached : run step initial actions = some final) : final.Tallies :=
  invariant_of_any_run
    (fun _ _ _ tallies taken => Tallies.step tallies taken)
    tallies_initial reached

/-- The main thread does not sleep for ever in a run that finds a slot
occupied whenever it finds the table full, and a step that does not find one
leads to a state in which it does. -/
theorem main_never_stuck
    {actions : List AcceptorAction} {final : Acceptor}
    (reached : run step initial actions = some final) :
    (Obeys step Occupied initial actions → ¬ final.Stuck) ∧
      ∀ action next,
        final.step action = some next → ¬ final.Occupied action →
          ∃ more last, run step next more = some last ∧ last.Stuck := by
  constructor
  · intro occupied
    have preserved :
        ∀ state action next, state.Tallies ∧ state.Watched →
          Occupied state action → step state action = some next →
            next.Tallies ∧ next.Watched := by
      rintro state action next ⟨tallies, watched⟩ occupied taken
      exact ⟨tallies.step taken, watched.step tallies occupied taken⟩
    obtain ⟨_, watched⟩ :=
      invariant_of_run preserved ⟨tallies_initial, watched_initial⟩ occupied
        reached
    exact watched.not_stuck
  · intro action next taken empty
    exact exists_run_of_not_occupied (tallies_of_run reached) taken empty

/-! ## A table full of clients that are being served -/

/-- The table when the first so many slots are taken. -/
def seats (number id : Nat) : Int :=
  if id < number then (id : Int) + 4 else 0

/-- So many clients that are being served. -/
def busy (number : Nat) : Acceptor where
  main := .accepting
  clients :=
    (List.range number).map fun id => ⟨id, (id : Int) + 4, .serving, []⟩
  clientSockets := seats number
  currentThreads := number
  freeFdMutex := false
  currentThreadsMutex := none

/-- One more client comes. -/
def arrival (number : Nat) : List AcceptorAction :=
  .accept ((number : Int) + 4) :: List.replicate 7 .main

theorem search_seats {number : Nat} (few : number < maxThreads) :
    search (fun id => seats number id = 0) maxThreads = number := by
  apply search_eq_of_first few
  · simp [seats]
  · intro id inside
    simp [seats, inside]
    omega

theorem update_seats (number : Nat) :
    Function.update (seats number) number ((number : Int) + 4) =
      seats (number + 1) := by
  funext id
  by_cases same : id = number
  · rw [same, Function.update_self]
    simp [seats]
  · rw [Function.update_of_ne same]
    have other : id < number + 1 ↔ id < number := by omega
    simp only [seats, other]

theorem run_arrival {number : Nat} (few : number < maxThreads) :
    run step (busy number) (arrival number) = some (busy (number + 1)) ∧
      Obeys step Occupied (busy number) (arrival number) := by
  have notFull : ¬ (maxThreads : Int) ≤ number := by omega
  have isSocket : (0 : Int) ≤ (number : Int) + 4 := by omega
  have first := search_seats few
  constructor
  · simp [arrival, run_cons, step, mainStep, busy, freeFd, setValueFd, notFull,
      isSocket, first, few, update_seats, List.range_succ]
  · simp [arrival, Obeys, Occupied, step, mainStep, busy, freeFd, setValueFd,
      notFull, isSocket, first, few, MainPhase.isTesting]

/-- The table can be full of clients that are being served. -/
theorem exists_run_busy :
    ∃ actions,
      run step initial actions = some (busy maxThreads) ∧
        Obeys step Occupied initial actions :=
  exists_run_of_series busy (fun _ few => run_arrival few)
    maxThreads le_rfl

/-- The client after them, for which the main thread waits. -/
def oneTooMany : List AcceptorAction :=
  .accept 7 :: List.replicate 3 .main

theorem main_never_stuck_full :
    ∃ actions final,
      run step initial actions = some final ∧ final.main = .waiting 7 ∧
        ¬ final.Stuck := by
  obtain ⟨actions, reached, occupied⟩ := exists_run_busy
  have waits :
      run step (busy maxThreads) oneTooMany =
        some { busy maxThreads with main := .waiting 7 } := rfl
  have stillOccupied : Obeys step Occupied (busy maxThreads) oneTooMany := by
    decide
  have whole :=
    run_append_eq_some.mpr ⟨busy maxThreads, reached, waits⟩
  exact
    ⟨_, _, whole, rfl,
      (main_never_stuck whole).1 (occupied.append reached stillOccupied)⟩

/-! ## A table full of clients that have released their slots -/

/-- So many clients that have released their slots and are still counted. -/
def crowd (number : Nat) : Acceptor where
  main := .accepting
  clients := List.replicate number ⟨0, 7, .released, [7]⟩
  clientSockets := fun _ => 0
  currentThreads := number
  freeFdMutex := false
  currentThreadsMutex := none

/-- A client comes, and releases its slot. -/
def visit (number : Nat) : List AcceptorAction :=
  .accept 7 :: List.replicate 7 .main ++ List.replicate 2 (.client number)

theorem run_visit {number : Nat} (few : number < maxThreads) :
    run step (crowd number) (visit number) = some (crowd (number + 1)) := by
  have first : search (fun _ => true) maxThreads = 0 :=
    search_eq_of_first (by decide) rfl nofun
  have slots : 0 < maxThreads := by decide
  have notFull : ¬ (maxThreads : Int) ≤ number := by omega
  simp [visit, run_cons, step, mainStep, clientStep, crowd, freeFd,
    setValueFd, notFull, first, slots, move, List.replicate_succ']

/-- The table can be full of clients that have all released their slots. -/
theorem exists_run_crowd :
    ∃ actions, run step initial actions = some (crowd maxThreads) := by
  obtain ⟨actions, reached, _⟩ :=
    exists_run_of_series crowd
      (fun _ few => ⟨run_visit few, obeys_true _ _⟩) maxThreads le_rfl
  exact ⟨actions, reached⟩

/-- One more client comes, and the main thread is before its test. -/
def packed : Acceptor :=
  { crowd maxThreads with main := .testing 8, freeFdMutex := true }

theorem exists_run_packed :
    ∃ actions, run step initial actions = some packed := by
  obtain ⟨actions, reached⟩ := exists_run_crowd
  exact
    ⟨actions ++ [.accept 8, .main],
      run_append_eq_some.mpr ⟨crowd maxThreads, reached, rfl⟩⟩

theorem not_occupied_packed : ¬ packed.Occupied .main := by
  intro occupied
  obtain ⟨client, listed, holds⟩ := occupied rfl (Int.le_refl _)
  rw [List.eq_of_mem_replicate listed] at holds
  cases holds

/-- All the clients signal between the test and the wait of the main thread,
which nobody wakes then. -/
theorem main_stuck :
    ¬ ∀ (actions : List AcceptorAction) (final : Acceptor),
        run step initial actions = some final → ¬ final.Stuck := by
  intro always
  obtain ⟨actions, reached⟩ := exists_run_packed
  have found :
      packed.step .main = some { packed with main := .starting 8 } := rfl
  obtain ⟨more, last, onwards, stuck⟩ :=
    exists_run_of_not_occupied (tallies_of_run reached) found
      not_occupied_packed
  apply always (actions ++ .main :: more) last _ stuck
  exact
    run_append_eq_some.mpr
      ⟨packed, reached, run_cons_eq_some.mpr ⟨_, found, onwards⟩⟩

end Acceptor

end SistemasDistribuidos.Practica3
