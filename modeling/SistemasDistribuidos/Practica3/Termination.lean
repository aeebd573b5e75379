import SistemasDistribuidos.Practica3.Increments
import SistemasDistribuidos.Practica3.Sleeping

/-!
# Every request ends

A request takes at most nineteen steps through `do_request`, and the signal it
sends takes one of them off the request that it wakes.  The mutexes never
block one another: `counter_mutex` is kept while the mutex of a condition is
taken, and `mutex` while `counter_mutex` is taken, but never the other way
round.  So the only place where a request can stay for ever is
`pthread_cond_wait`.
-/

namespace SistemasDistribuidos.Practica3

open SistemasDistribuidos Machine Pool

namespace Phase

/-- How many steps a thread still has before it, at most. -/
def rank : Phase → Nat
  | .counted _ => 19
  | .queueing => 18
  | .starting => 17
  | .waiting => 16
  | .woken => 15
  | .resumed => 14
  | .testing => 13
  | .locking => 12
  | .entering => 11
  | .entered => 10
  | .loaded _ => 9
  | .acted => 8
  | .opened => 7
  | .formatted _ => 6
  | .closed => 5
  | .departing => 4
  | .signalled => 3
  | .leaving => 2
  | .responding => 1
  | .finished _ => 0

theorem Follows.rank_lt
    {before after : Phase} (follows : before.Follows after) :
    after.rank < before.rank := by
  cases follows <;> exact Nat.lt_add_one_of_le (by simp only [rank]; omega)

/-- With the mutex of its condition. -/
def holdsQueue : Phase → Bool
  | .queueing => true
  | .starting => true
  | .resumed => true
  | _ => false

/-- The next line needs no lock that another thread may have. -/
def runs : Phase → Bool
  | .counted waits => !waits
  | .waiting => false
  | .woken => false
  | .locking => false
  | .closed => false
  | .finished _ => false
  | _ => true

theorem runs_of_holdsQueue
    {phase : Phase} (holds : phase.holdsQueue = true) :
    phase.runs = true := by
  cases phase
  case queueing | starting | resumed => rfl
  all_goals cases holds

end Phase

/-- With the mutex of the condition of its kind. -/
def Thread.holdsQueue (action : Operation) (thread : Thread) : Bool :=
  thread.action = action && thread.phase.holdsQueue

namespace Server

/-- The steps that the threads still have before them, at most. -/
def rank (server : Server) : Nat :=
  (server.threads.map (fun thread => thread.phase.rank)).sum

/-- Some thread can take a step. -/
def Moves (options : Options) (server : Server) : Prop :=
  ∃ index woken next,
    server.step options (.advance index woken) = some next

/-- `readers_mutex` and `writers_mutex` are with the threads between their
locks and their waits, and between their waits and their unlocks. -/
def Queued (server : Server) : Prop :=
  ∀ action,
    Owns (server.queueMutex action) (Thread.holdsQueue action)
      server.threads

section Rank

variable {options : Options} {server next : Server} {index : Nat}
  {thread : Thread}

/-- A thread that goes on has fewer steps before it. -/
theorem rank_set
    (here : server.threads[index]? = some thread) {after : Thread}
    (fewer : after.phase.rank < thread.phase.rank)
    (threads : next.threads = server.threads.set index after) :
    next.rank < server.rank ∧
      next.threads.length = server.threads.length := by
  have moved :=
    sum_map_set_add here after (fun other => other.phase.rank)
  refine ⟨?_, by rw [threads, List.length_set]⟩
  rw [rank, rank, threads]
  omega

theorem rank_move
    (here : server.threads[index]? = some thread) {phase : Phase}
    (fewer : phase.rank < thread.phase.rank) :
    (server.move index thread phase).rank < server.rank ∧
      (server.move index thread phase).threads.length =
        server.threads.length :=
  rank_set here fewer rfl

theorem rank_wake
    {condition : Operation} {woken : Option Nat}
    (taken : server.wake condition woken = some next) :
    next.rank ≤ server.rank ∧
      next.threads.length = server.threads.length := by
  rcases wake_cases taken with
    ⟨_, rfl⟩ | ⟨sleeper, other, otherHere, asleep, rfl⟩
  · exact ⟨le_rfl, rfl⟩
  · simp only [sleeps, decide_eq_true_eq] at asleep
    have less : Phase.woken.rank < other.phase.rank := by
      rw [asleep.1]
      decide
    obtain ⟨smaller, same⟩ := rank_move otherHere less
    exact ⟨smaller.le, same⟩

theorem rank_advance
    {woken : Option Nat}
    (here : server.threads[index]? = some thread)
    (taken : server.advance options index thread woken = some next) :
    next.rank < server.rank ∧
      next.threads.length = server.threads.length := by
  by_cases departs : thread.phase = .departing
  · rw [advance, departs] at taken
    have less : Phase.signalled.rank < thread.phase.rank := by
      rw [departs]
      decide
    obtain ⟨smaller, same⟩ := rank_move here less
    obtain ⟨notMore, still⟩ := rank_wake taken
    exact ⟨notMore.trans_lt smaller, still.trans same⟩
  · obtain ⟨phase, locked, follows, threads⟩ :=
      advance_follows taken departs
    exact rank_set here follows.rank_lt threads

/-- A run takes at most twenty steps for each of its requests. -/
theorem rank_of_run
    {counter : BitVec 32} {output : List Char}
    {actions : List ServerAction} {final : Server}
    (reached :
      run (step options) (initial counter output) actions = some final) :
    actions.length + final.rank ≤ 20 * final.threads.length := by
  have preserved :
      ∀ (past : List ServerAction) (state : Server) (action : ServerAction)
        (next : Server),
        past.length + state.rank ≤ 20 * state.threads.length →
          True → state.step options action = some next →
            (past ++ [action]).length + next.rank ≤
              20 * next.threads.length := by
    intro past state action next bounded _ taken
    rw [List.length_append, List.length_singleton]
    cases action with
    | arrive action =>
        obtain ⟨_, rfl⟩ := step_arrive taken
        simp only [rank, arrive, List.map_append, List.sum_append,
          List.length_append, List.map_cons, List.map_nil, List.sum_cons,
          List.sum_nil, List.length_singleton, Phase.rank] at bounded ⊢
        omega
    | advance index woken =>
        obtain ⟨thread, here, advanced⟩ := step_advance taken
        obtain ⟨smaller, same⟩ := rank_advance here advanced
        omega
  have initially :
      ([] : List ServerAction).length + (initial counter output).rank ≤
        20 * (initial counter output).threads.length :=
    Nat.zero_le _
  exact history_of_run preserved initially (obeys_true _ actions) reached

end Rank

/-! ## Who keeps the mutexes of the conditions -/

section Queues

variable {options : Options} {server next : Server} {index : Nat}
  {thread : Thread}

theorem queued_initial (counter : BitVec 32) (output : List Char) :
    (initial counter output).Queued :=
  fun _ => owns_nil

/-- A thread moves on and keeps what it has. -/
theorem Queued.stay
    (queued : server.Queued)
    (here : server.threads[index]? = some thread) {after : Thread}
    (threads : next.threads = server.threads.set index after)
    (sameAction : after.action = thread.action)
    (sameQueue : after.phase.holdsQueue = thread.phase.holdsQueue)
    (queueMutex : next.queueMutex = server.queueMutex) : next.Queued := by
  intro action
  rw [threads, queueMutex]
  apply (queued action).set here
  rw [Thread.holdsQueue, Thread.holdsQueue, sameAction, sameQueue]

/-- A thread takes the mutex of its condition. -/
theorem Queued.acquire
    (queued : server.Queued)
    (here : server.threads[index]? = some thread) {after : Thread}
    (threads : next.threads = server.threads.set index after)
    (free : server.queueMutex thread.action = none)
    (sameAction : after.action = thread.action)
    (takes : after.phase.holdsQueue = true)
    (queueMutex :
      next.queueMutex =
        Function.update server.queueMutex thread.action (some index)) :
    next.Queued := by
  intro action
  have owns := queued action
  rw [threads, queueMutex]
  by_cases same : action = thread.action
  · subst same
    rw [Function.update_self]
    rw [free] at owns
    apply owns.acquire here
    rw [Thread.holdsQueue, sameAction, takes, decide_eq_true rfl]
    rfl
  · rw [Function.update_of_ne same]
    apply owns.set here
    rw [Thread.holdsQueue, Thread.holdsQueue, sameAction,
      decide_eq_false (Ne.symm same), Bool.false_and, Bool.false_and]

/-- A thread gives the mutex of its condition back. -/
theorem Queued.release
    (queued : server.Queued)
    (here : server.threads[index]? = some thread) {after : Thread}
    (threads : next.threads = server.threads.set index after)
    (held : thread.phase.holdsQueue = true)
    (sameAction : after.action = thread.action)
    (released : after.phase.holdsQueue = false)
    (queueMutex :
      next.queueMutex =
        Function.update server.queueMutex thread.action none) :
    next.Queued := by
  intro action
  have owns := queued action
  rw [threads, queueMutex]
  by_cases same : action = thread.action
  · subst same
    rw [Function.update_self]
    apply owns.release here
    · rw [Thread.holdsQueue, held, decide_eq_true rfl]
      rfl
    · rw [Thread.holdsQueue, released, Bool.and_false]
  · rw [Function.update_of_ne same]
    apply owns.set here
    rw [Thread.holdsQueue, Thread.holdsQueue, sameAction,
      decide_eq_false (Ne.symm same), Bool.false_and, Bool.false_and]

theorem Queued.wake
    (queued : server.Queued) {condition : Operation} {woken : Option Nat}
    (taken : server.wake condition woken = some next) : next.Queued := by
  rcases wake_cases taken with
    ⟨_, rfl⟩ | ⟨sleeper, other, otherHere, asleep, rfl⟩
  · exact queued
  · simp only [sleeps, decide_eq_true_eq] at asleep
    have sameQueue : Phase.woken.holdsQueue = other.phase.holdsQueue := by
      rw [asleep.1]
      rfl
    exact queued.stay otherHere rfl rfl sameQueue rfl

theorem Queued.advance
    (queued : server.Queued) {woken : Option Nat}
    (here : server.threads[index]? = some thread)
    (taken : server.advance options index thread woken = some next) :
    next.Queued := by
  obtain ⟨action, locked, phase⟩ := thread
  cases phase
  case counted waits =>
    cases waits with
    | true =>
        simp only [Server.advance, Option.ite_none_right_eq_some,
          Option.some.injEq] at taken
        obtain ⟨free, rfl⟩ := taken
        exact queued.acquire here rfl free rfl rfl rfl
    | false =>
        cases taken
        exact queued.stay here rfl rfl rfl rfl
  case woken =>
    simp only [Server.advance, Option.ite_none_right_eq_some,
      Option.some.injEq] at taken
    obtain ⟨free, rfl⟩ := taken
    exact queued.acquire here rfl free rfl rfl rfl
  case starting | resumed =>
    cases taken
    exact queued.release here rfl rfl rfl rfl rfl
  case testing =>
    simp only [Server.advance] at taken
    split at taken
    · cases taken
      exact queued.stay here rfl rfl rfl rfl
    · cases taken
      exact queued.stay here rfl rfl rfl rfl
  case locking | closed =>
    simp only [Server.advance, Option.ite_none_right_eq_some,
      Option.some.injEq] at taken
    obtain ⟨_, rfl⟩ := taken
    exact queued.stay here rfl rfl rfl rfl
  case entered =>
    cases action with
    | write =>
        cases taken
        exact queued.stay here rfl rfl rfl rfl
    | read =>
        cases taken
        exact queued.stay here rfl rfl rfl rfl
  case departing =>
    have moved :
        (server.move index ⟨action, locked, .departing⟩
          .signalled).Queued :=
      queued.stay here rfl rfl rfl rfl
    simp only [Server.advance, Server.signal] at taken
    refine Queued.wake ?_ taken
    exact moved
  case signalled =>
    cases taken
    cases locked with
    | true => exact queued.stay here rfl rfl rfl rfl
    | false => exact queued.stay here rfl rfl rfl rfl
  case waiting | finished => cases taken
  all_goals
    cases taken
    exact queued.stay here rfl rfl rfl rfl

theorem Queued.step
    (queued : server.Queued) {action : ServerAction}
    (taken : server.step options action = some next) : next.Queued := by
  cases action with
  | arrive action =>
      obtain ⟨_, rfl⟩ := step_arrive taken
      intro other
      exact (queued other).append (Bool.and_false _)
  | advance index woken =>
      obtain ⟨thread, here, advanced⟩ := step_advance taken
      exact queued.advance here advanced

theorem queued_of_run
    {counter : BitVec 32} {output : List Char}
    {actions : List ServerAction} {final : Server}
    (reached :
      run (step options) (initial counter output) actions = some final) :
    final.Queued :=
  invariant_of_any_run (fun _ _ _ queued taken => queued.step taken)
    (queued_initial counter output) reached

end Queues

/-! ## Somebody can go on -/

section Progress

variable {options : Options} {server : Server} {index : Nat}
  {thread : Thread}

/-- A signal can always be sent. -/
theorem exists_wake (server : Server) (condition : Operation) :
    ∃ woken next, server.wake condition woken = some next := by
  by_cases someone : server.threads.any (sleeps condition) = true
  · obtain ⟨sleeper, listed, asleep⟩ := List.any_eq_true.mp someone
    obtain ⟨place, here⟩ := List.mem_iff_getElem?.mp listed
    refine ⟨some place, server.move place sleeper .woken, ?_⟩
    simp only [wake, here, asleep, if_true]
  · refine ⟨none, server, ?_⟩
    rw [wake, if_neg someone]

/-- A thread whose next line needs no lock goes on. -/
theorem moves_of_runs
    (here : server.threads[index]? = some thread)
    (runs : thread.phase.runs = true) : server.Moves options := by
  suffices advanced :
      ∃ woken next,
        server.advance options index thread woken = some next by
    obtain ⟨woken, next, taken⟩ := advanced
    refine ⟨index, woken, next, ?_⟩
    simp only [Server.step, here]
    exact taken
  obtain ⟨action, locked, phase⟩ := thread
  cases phase
  case counted waits =>
    cases waits with
    | true => cases runs
    | false => exact ⟨none, _, rfl⟩
  case testing =>
    simp only [Server.advance]
    split
    · exact ⟨none, _, rfl⟩
    · exact ⟨none, _, rfl⟩
  case entered =>
    cases action with
    | write => exact ⟨none, _, rfl⟩
    | read => exact ⟨none, _, rfl⟩
  case departing =>
    simp only [Server.advance, Server.signal]
    exact exists_wake _ _
  case waiting | woken | locking | closed | finished => cases runs
  all_goals exact ⟨none, _, rfl⟩

/-- Whoever holds the mutex of a condition goes on. -/
theorem Queued.moves
    (queued : server.Queued) {action : Operation} {owner : Nat}
    (held : server.queueMutex action = some owner) :
    server.Moves options := by
  have owns := queued action
  have inside := owns.inside owner held
  have here := List.getElem?_eq_getElem inside
  have holds := (owns.owner owner _ here).mpr held
  rw [Thread.holdsQueue, Bool.and_eq_true] at holds
  exact moves_of_runs here (Phase.runs_of_holdsQueue holds.2)

/-- A thread that needs the mutex of its condition can be passed by the one
that has it. -/
theorem Queued.moves_of_queue
    (queued : server.Queued)
    (here : server.threads[index]? = some thread)
    (takes : server.queueMutex thread.action = none →
      ∃ next, server.advance options index thread none = some next) :
    server.Moves options := by
  cases free : server.queueMutex thread.action with
  | none =>
      obtain ⟨next, taken⟩ := takes free
      refine ⟨index, none, next, ?_⟩
      simp only [Server.step, here]
      exact taken
  | some owner => exact queued.moves free

/-- Whoever holds `counter_mutex` goes on, or waits for somebody who does. -/
theorem Queued.moves_of_counter
    (queued : server.Queued) (consistent : server.Consistent) {owner : Nat}
    (held : server.counterMutex = some owner) : server.Moves options := by
  have inside := consistent.counterMutex.inside owner held
  have here := List.getElem?_eq_getElem inside
  have holds := (consistent.counterMutex.owner owner _ here).mpr held
  generalize server.threads[owner] = thread at here holds
  obtain ⟨action, locked, phase⟩ := thread
  cases phase
  case counted waits =>
    cases waits with
    | true =>
        apply queued.moves_of_queue here
        intro free
        simp only [Server.advance, if_pos free]
        exact ⟨_, rfl⟩
    | false => exact moves_of_runs here rfl
  case queueing | departing | signalled => exact moves_of_runs here rfl
  all_goals cases holds

/-- A thread that has done its work needs `counter_mutex` only. -/
theorem Queued.moves_of_closed
    (queued : server.Queued) (consistent : server.Consistent)
    (here : server.threads[index]? = some thread)
    (isClosed : thread.phase = .closed) : server.Moves options := by
  cases free : server.counterMutex with
  | none =>
      refine ⟨index, none, ?_⟩
      simp only [Server.step, here, Server.advance, isClosed, if_pos free]
      exact ⟨_, rfl⟩
  | some owner => exact queued.moves_of_counter consistent free

/-- Whoever holds `mutex` goes on, or waits for `counter_mutex`. -/
theorem Queued.moves_of_mutex
    (queued : server.Queued) (consistent : server.Consistent) {owner : Nat}
    (held : server.mutex = some owner) : server.Moves options := by
  have inside := consistent.mutex.inside owner held
  have here := List.getElem?_eq_getElem inside
  have holds := (consistent.mutex.owner owner _ here).mpr held
  generalize server.threads[owner] = thread at here holds
  rw [Thread.holdsMutex, Bool.and_eq_true] at holds
  obtain ⟨action, locked, phase⟩ := thread
  cases phase
  case closed => exact queued.moves_of_closed consistent here rfl
  case counted | queueing | starting | waiting | woken | resumed | testing |
      locking | responding | finished =>
    cases holds.2
  all_goals exact moves_of_runs here rfl

/-- As long as somebody has neither finished nor fallen asleep, somebody can
go on. -/
theorem Queued.moves_of_thread
    (queued : server.Queued) (consistent : server.Consistent)
    (here : server.threads[index]? = some thread)
    (unfinished : thread.phase.isFinished = false)
    (isAwake : thread.phase ≠ .waiting) : server.Moves options := by
  obtain ⟨action, locked, phase⟩ := thread
  cases phase
  case counted waits =>
    cases held : server.counterMutex with
    | none =>
        have holds :=
          (consistent.counterMutex.owner index _ here).mp rfl
        rw [held] at holds
        cases holds
    | some owner => exact queued.moves_of_counter consistent held
  case woken =>
    apply queued.moves_of_queue here
    intro free
    simp only [Server.advance, if_pos free]
    exact ⟨_, rfl⟩
  case locking =>
    cases free : server.mutex with
    | none =>
        refine ⟨index, none, ?_⟩
        simp only [Server.step, here, Server.advance, if_pos free]
        exact ⟨_, rfl⟩
    | some owner => exact queued.moves_of_mutex consistent free
  case closed => exact queued.moves_of_closed consistent here rfl
  case waiting => exact absurd rfl isAwake
  case finished => cases unfinished
  all_goals exact moves_of_runs here rfl

end Progress

/-! ## Runs that cannot go on -/

/-- Every request is answered, or in `pthread_cond_wait`. -/
def Ended (server : Server) : Prop :=
  ∀ thread ∈ server.threads,
    thread.phase.isFinished = true ∨ thread.phase = .waiting

instance (server : Server) : Decidable server.Ended :=
  inferInstanceAs (Decidable (∀ _ ∈ _, _))

section Ends

variable {options : Options} {server : Server}

theorem not_moves_of_ended (ended : server.Ended) :
    ¬ server.Moves options := by
  rintro ⟨index, woken, next, taken⟩
  obtain ⟨thread, here, advanced⟩ := step_advance taken
  have stands := ended thread (List.mem_of_getElem? here)
  obtain ⟨action, locked, phase⟩ := thread
  cases phase
  case waiting | finished => cases advanced
  all_goals
    rcases stands with impossible | impossible
    · cases impossible
    · cases impossible

/-- The threads come to a stop exactly when every request is answered or
asleep. -/
theorem moves_iff_not_ended
    (options : Options) (consistent : server.Consistent) (queued : server.Queued) :
    server.Moves options ↔ ¬ server.Ended := by
  constructor
  · intro moves ended
    exact not_moves_of_ended ended moves
  · intro notEnded
    simp only [Ended, not_forall, not_or] at notEnded
    obtain ⟨thread, listed, unfinished, isAwake⟩ := notEnded
    obtain ⟨index, here⟩ := List.mem_iff_getElem?.mp listed
    exact
      queued.moves_of_thread consistent here
        (Bool.eq_false_iff.mpr unfinished) isAwake

/-- Nobody is asleep once the requests that do not sleep are answered. -/
theorem idle_of_ended (ended : server.Ended) (notAsleep : ¬ server.Asleep) :
    server.Idle := by
  intro thread listed
  rcases ended thread listed with finished | waits
  · obtain ⟨action, locked, phase⟩ := thread
    cases phase
    case finished response => exact ⟨response, rfl⟩
    all_goals cases finished
  · apply absurd _ notAsleep
    refine ⟨⟨thread, listed, by rw [waits]; rfl⟩, ?_⟩
    intro other otherListed unfinished
    rcases ended other otherListed with otherFinished | otherWaits
    · rw [unfinished] at otherFinished
      cases otherFinished
    · exact otherWaits

/-- From every state that is reached the threads come to a stop, without a
further request. -/
theorem exists_ended
    {counter : BitVec 32} {output : List Char} {actions : List ServerAction}
    (reached :
      run (step options) (initial counter output) actions = some server) :
    ∃ more last,
      run (step options) server more = some last ∧
        last.Ended ∧ last.threads.length = server.threads.length := by
  have progress :
      ∀ state : Server,
        (state.Consistent ∧ state.Queued) ∧
            state.threads.length = server.threads.length →
          (state.Ended ∧ state.threads.length = server.threads.length) ∨
            ∃ action next,
              state.step options action = some next ∧
                ((next.Consistent ∧ next.Queued) ∧
                  next.threads.length = server.threads.length) ∧
                next.rank < state.rank := by
    rintro state ⟨⟨consistent, queued⟩, same⟩
    by_cases ended : state.Ended
    · exact Or.inl ⟨ended, same⟩
    · obtain ⟨index, woken, next, taken⟩ :=
        (moves_iff_not_ended options consistent queued).mpr ended
      obtain ⟨thread, here, advanced⟩ := step_advance taken
      obtain ⟨smaller, still⟩ := rank_advance here advanced
      exact
        Or.inr
          ⟨.advance index woken, next, taken,
            ⟨⟨consistent.step taken, queued.step taken⟩, still.trans same⟩,
            smaller⟩
  exact
    exists_run_of_measure rank progress server.rank
      ⟨⟨consistent_of_run reached, queued_of_run reached⟩, rfl⟩ le_rfl

end Ends

/-- No order of the steps keeps the threads busy for ever, and they stop only
when every request is answered or asleep; if every signal is heard, they are
all answered. -/
theorem answered_or_waiting
    (options : Options) (counter : BitVec 32) (output : List Char)
    {actions : List ServerAction} {final : Server}
    (reached :
      run (step options) (initial counter output) actions = some final) :
    actions.length ≤ 20 * final.threads.length ∧
      (¬ final.Moves options ↔ final.Ended) ∧
      (Obeys (step options) (Heard options) (initial counter output)
          actions →
        ¬ final.Moves options → final.Idle) ∧
      ∃ more last,
        run (step options) final more = some last ∧
          last.Ended ∧ last.threads.length = final.threads.length := by
  have consistent := consistent_of_run reached
  have stops : ¬ final.Moves options ↔ final.Ended := by
    rw [moves_iff_not_ended options consistent (queued_of_run reached),
      not_not]
  refine ⟨?_, stops, ?_, exists_ended reached⟩
  · have bounded := rank_of_run reached
    omega
  · intro obeys stuck
    apply idle_of_ended (stops.mp stuck)
    have preserved :
        ∀ state action next,
          state.Consistent ∧ state.Attended → state.Heard options action →
            step options state action = some next →
              next.Consistent ∧ next.Attended := by
      intro state action next kept heard taken
      exact ⟨kept.1.step taken, kept.2.step kept.1 heard taken⟩
    have kept :=
      invariant_of_run preserved
        ⟨consistent_initial counter output,
          attended_initial counter output⟩
        obeys reached
    exact kept.2.not_asleep

/-- A reader that waits for another one is woken, and both are answered. -/
def readerAfterReader : List ServerAction :=
  readerBehindReader ++
    .advance 1 none ::
      (firstDeparts (some 1) ++ List.replicate 12 (.advance 1 none))

theorem answered_or_waiting_readerAfterReader :
    ∃ final : Server,
      run (step ⟨.write, 1⟩) (initial 0 []) readerAfterReader =
          some final ∧
        final.Idle := by
  have evaluated :
      ((run (step ⟨.write, 1⟩) (initial 0 []) readerAfterReader).map
        Server.threads) =
          some [⟨.read, false, .finished 0⟩, ⟨.read, false, .finished 0⟩] := by
    decide
  obtain ⟨final, reached, threads⟩ := Option.map_eq_some_iff.mp evaluated
  refine ⟨final, reached, ?_⟩
  have ended : final.Ended := by
    rw [Ended, threads]
    decide
  have answered := answered_or_waiting ⟨.write, 1⟩ 0 [] reached
  apply answered.2.2.1
  · decide
  · exact answered.2.1.mpr ended

/-! ## Without a ratio -/

/-- Nobody goes to sleep. -/
def Restless (server : Server) : Prop :=
  ∀ thread ∈ server.threads, thread.phase.dozes = false

theorem Restless.step
    {priority : Operation} {server next : Server} (restless : server.Restless)
    {action : ServerAction}
    (taken : server.step ⟨priority, 0⟩ action = some next) :
    next.Restless := by
  cases action with
  | arrive action =>
      obtain ⟨_, rfl⟩ := step_arrive taken
      intro thread listed
      rcases List.mem_append.mp listed with old | new
      · exact restless thread old
      · rw [List.mem_singleton.mp new]
        simp [Phase.dozes, mustWait]
  | advance index woken =>
      obtain ⟨thread, here, advanced⟩ := step_advance taken
      have notDozes := restless thread (List.mem_of_getElem? here)
      by_cases departs : thread.phase = .departing
      · rw [Server.advance, departs] at advanced
        rcases wake_cases advanced with
          ⟨_, rfl⟩ | ⟨sleeper, other, _, _, rfl⟩
        · intro party listed
          rcases List.mem_or_eq_of_mem_set listed with old | rfl
          · exact restless party old
          · rfl
        · intro party listed
          rcases List.mem_or_eq_of_mem_set listed with old | rfl
          · rcases List.mem_or_eq_of_mem_set old with older | rfl
            · exact restless party older
            · rfl
          · rfl
      · obtain ⟨phase, locked, follows, threads⟩ :=
          advance_follows advanced departs
        intro party listed
        rw [threads] at listed
        rcases List.mem_or_eq_of_mem_set listed with old | rfl
        · exact restless party old
        · exact follows.dozes.trans notDozes

theorem restless_of_run
    {priority : Operation} {counter : BitVec 32} {output : List Char}
    {actions : List ServerAction} {final : Server}
    (reached :
      run (step ⟨priority, 0⟩) (initial counter output) actions =
        some final) :
    final.Restless := by
  have initially : (initial counter output).Restless := by
    intro thread impossible
    cases impossible
  exact
    invariant_of_any_run (fun _ _ _ restless taken => restless.step taken)
      initially reached

/-- Without a ratio every request is answered, whatever the order of the
steps, and the counter has then counted every writer. -/
theorem answered_without_ratio
    (priority : Operation) (start : BitVec 32) (output : List Char)
    {actions : List ServerAction} {final : Server}
    (reached :
      run (step ⟨priority, 0⟩) (initial start output) actions =
        some final) :
    (¬ final.Moves ⟨priority, 0⟩ → final.Idle) ∧
      ∃ more last,
        run (step ⟨priority, 0⟩) final more = some last ∧
          last.threads.length = final.threads.length ∧ last.Idle ∧
          last.counter =
            start +
              BitVec.ofNat 32
                (last.threads.countP (isCompleted .write)) := by
  have idle :
      ∀ {steps : List ServerAction} {server : Server},
        run (step ⟨priority, 0⟩) (initial start output) steps =
            some server → server.Ended → server.Idle := by
    intro steps server runs ended
    apply idle_of_ended ended
    rintro ⟨⟨thread, listed, unfinished⟩, allWait⟩
    have notDozes := restless_of_run runs thread listed
    rw [allWait thread listed unfinished] at notDozes
    cases notDozes
  have stops :=
    moves_iff_not_ended ⟨priority, 0⟩
      (consistent_of_run reached) (queued_of_run reached)
  constructor
  · intro stuck
    exact idle reached (not_not.mp (fun notEnded => stuck (stops.mpr notEnded)))
  · obtain ⟨more, last, onwards, ended, same⟩ := exists_ended reached
    have further := run_append_eq_some.mpr ⟨final, reached, onwards⟩
    have isIdle := idle further ended
    refine ⟨more, last, onwards, same, isIdle, ?_⟩
    rw [← countP_hasWritten_of_idle isIdle]
    exact (balanced_of_run further).counter

/-- Two writers have arrived, and the second one waits for `mutex`. -/
theorem answered_without_ratio_twoWriters :
    ∃ final more last,
      run (step ⟨.write, 0⟩) (initial 41 [])
          [.arrive .write, .advance 0 none, .arrive .write, .advance 1 none,
            .advance 0 none, .advance 0 none, .advance 1 none] =
        some final ∧
        run (step ⟨.write, 0⟩) final more = some last ∧
        last.threads.length = final.threads.length ∧ last.Idle := by
  have evaluated :
      ((run (step ⟨.write, 0⟩) (initial 41 [])
        [.arrive .write, .advance 0 none, .arrive .write, .advance 1 none,
          .advance 0 none, .advance 0 none, .advance 1 none]).map
        Server.counter) = some 41 := by
    decide
  obtain ⟨final, reached, _⟩ := Option.map_eq_some_iff.mp evaluated
  obtain ⟨more, last, onwards, same, idle, _⟩ :=
    (answered_without_ratio .write 41 [] reached).2
  exact ⟨final, more, last, reached, onwards, same, idle⟩

end Server

end SistemasDistribuidos.Practica3
