import Mathlib.Data.Option.Basic
import Mathlib.Data.List.Basic

/-!
# Labelled machines

A machine is a partial step function `step : State → Action → Option State`.
A run takes a list of actions; it is undefined as soon as one action is not
enabled.  Runs are restricted by a *guard*, a condition on the state in which
an action is taken.

An invariant kept by every guarded step holds after every guarded run; it may
speak of the actions taken so far, of a view of the state, or of the events
that were observed on the way.
-/

namespace SistemasDistribuidos.Machine

universe u v w

variable {State : Type u} {Action : Type v}

/-- Take the actions one after another. -/
def run (step : State → Action → Option State) :
    State → List Action → Option State
  | state, [] => some state
  | state, action :: rest =>
      (step state action).bind fun next => run step next rest

/-- Every action of the run is taken in a state that meets the guard. -/
def Obeys
    (step : State → Action → Option State)
    (guard : State → Action → Prop) :
    State → List Action → Prop
  | _, [] => True
  | state, action :: rest =>
      guard state action ∧
        ∀ next, step state action = some next →
          Obeys step guard next rest

section Runs

variable {step : State → Action → Option State}

@[simp]
theorem run_nil (state : State) :
    run step state [] = some state :=
  rfl

theorem run_cons
    (state : State) (action : Action) (rest : List Action) :
    run step state (action :: rest) =
      (step state action).bind fun next => run step next rest :=
  rfl

theorem run_singleton (state : State) (action : Action) :
    run step state [action] = step state action := by
  rw [run_cons]
  cases step state action with
  | none => rfl
  | some next => rfl

theorem run_append
    (state : State) (first second : List Action) :
    run step state (first ++ second) =
      (run step state first).bind fun middle =>
        run step middle second := by
  induction first generalizing state with
  | nil =>
      rfl
  | cons action rest inductionHypothesis =>
      rw [List.cons_append, run_cons, run_cons]
      cases step state action with
      | none => rfl
      | some next => exact inductionHypothesis next

/-- A run that can be taken splits at every point. -/
theorem run_append_eq_some
    {state final : State} {first second : List Action} :
    run step state (first ++ second) = some final ↔
      ∃ middle,
        run step state first = some middle ∧
          run step middle second = some final := by
  rw [run_append, Option.bind_eq_some_iff]

theorem run_cons_eq_some
    {state final : State} {action : Action} {rest : List Action} :
    run step state (action :: rest) = some final ↔
      ∃ next,
        step state action = some next ∧
          run step next rest = some final := by
  rw [run_cons, Option.bind_eq_some_iff]

end Runs

section Groups

variable {Group : Type w}

/-- The machine that takes the actions of a group without interruption. -/
def grouped
    (step : State → Action → Option State)
    (expand : Group → List Action) : State → Group → Option State :=
  fun state group => run step state (expand group)

/-- A run in groups is a run of the underlying machine. -/
theorem run_grouped
    (step : State → Action → Option State)
    (expand : Group → List Action) :
    ∀ (state : State) (groups : List Group),
      run (grouped step expand) state groups =
        run step state (groups.flatMap expand)
  | state, [] => rfl
  | state, group :: rest => by
      rw [run_cons, List.flatMap_cons, run_append, grouped]
      congr 1
      funext next
      exact run_grouped step expand next rest

end Groups

section Guards

variable {step : State → Action → Option State}
  {guard : State → Action → Prop}

theorem obeys_append
    {state : State} {first second : List Action} :
    Obeys step guard state (first ++ second) ↔
      Obeys step guard state first ∧
        ∀ middle, run step state first = some middle →
          Obeys step guard middle second := by
  induction first generalizing state with
  | nil =>
      simp [Obeys]
  | cons action rest inductionHypothesis =>
      simp only [List.cons_append, Obeys, inductionHypothesis,
        run_cons_eq_some]
      constructor
      · intro given
        rcases given with ⟨here, later⟩
        refine ⟨⟨here, fun next taken => (later next taken).1⟩, ?_⟩
        rintro middle ⟨next, taken, reached⟩
        exact (later next taken).2 middle reached
      · intro given
        rcases given with ⟨⟨here, later⟩, after⟩
        exact
          ⟨here, fun next taken =>
            ⟨later next taken,
              fun middle reached => after middle ⟨next, taken, reached⟩⟩⟩

/-- A step that is known to be taken, for runs given action by action. -/
theorem Obeys.cons
    {state next : State} {action : Action} {rest : List Action}
    (taken : step state action = some next)
    (here : guard state action)
    (later : Obeys step guard next rest) :
    Obeys step guard state (action :: rest) := by
  refine ⟨here, fun other otherTaken => ?_⟩
  cases taken.symm.trans otherTaken
  exact later

theorem Obeys.append
    {state middle : State} {first second : List Action}
    (before : Obeys step guard state first)
    (reached : run step state first = some middle)
    (later : Obeys step guard middle second) :
    Obeys step guard state (first ++ second) := by
  refine obeys_append.mpr ⟨before, fun other otherReached => ?_⟩
  cases reached.symm.trans otherReached
  exact later

/-- Guarded runs from each state of a series to the next one. -/
theorem exists_run_of_series
    (states : Nat → State) {stages : Nat → List Action} {bound : Nat}
    (each : ∀ number < bound,
      run step (states number) (stages number) =
          some (states (number + 1)) ∧
        Obeys step guard (states number) (stages number))
    (number : Nat) (inside : number ≤ bound) :
    ∃ actions,
      run step (states 0) actions = some (states number) ∧
        Obeys step guard (states 0) actions := by
  induction number with
  | zero => exact ⟨[], rfl, trivial⟩
  | succ number inductionHypothesis =>
      obtain ⟨actions, reached, before⟩ :=
        inductionHypothesis (Nat.le_of_succ_le inside)
      obtain ⟨onwards, later⟩ := each number inside
      exact
        ⟨actions ++ stages number,
          run_append_eq_some.mpr ⟨states number, reached, onwards⟩,
          before.append reached later⟩

theorem Obeys.mono
    {weaker : State → Action → Prop}
    (implied : ∀ state action, guard state action → weaker state action) :
    ∀ {state : State} {actions : List Action},
      Obeys step guard state actions → Obeys step weaker state actions
  | _, [], _ => trivial
  | state, action :: _, obeys =>
      ⟨implied state action obeys.1,
        fun next taken => (obeys.2 next taken).mono implied⟩

/-- A run that obeys two guards obeys both at once. -/
theorem Obeys.both
    {other : State → Action → Prop} :
    ∀ {state : State} {actions : List Action},
      Obeys step guard state actions →
        Obeys step other state actions →
          Obeys step (fun state action =>
            guard state action ∧ other state action) state actions
  | _, [], _, _ => trivial
  | _, _ :: _, first, second =>
      ⟨⟨first.1, second.1⟩,
        fun next taken => (first.2 next taken).both (second.2 next taken)⟩

/-- Actions that the guard allows in every state. -/
theorem obeys_of_always :
    ∀ {actions : List Action} (state : State),
      (∀ action ∈ actions, ∀ other, guard other action) →
        Obeys step guard state actions
  | [], _, _ => trivial
  | action :: _, state, always =>
      ⟨always action List.mem_cons_self state,
        fun next _ =>
          obeys_of_always next
            (fun later listed => always later (List.mem_cons_of_mem _ listed))⟩

/-- The guard that allows everything is obeyed by every run. -/
theorem obeys_true (state : State) (actions : List Action) :
    Obeys step (fun _ _ => True) state actions :=
  obeys_of_always state (fun _ _ _ => trivial)

/-- What the guard says of every action, a run's actions have. -/
theorem forall_mem_of_obeys
    (property : Action → Prop)
    (implied : ∀ state action, guard state action → property action) :
    ∀ {actions : List Action} {state final : State},
      Obeys step guard state actions → run step state actions = some final →
        ∀ action ∈ actions, property action
  | [], _, _, _, _ => nofun
  | _ :: _, _, _, obeys, reached => by
      obtain ⟨next, taken, onwards⟩ := run_cons_eq_some.mp reached
      intro action listed
      rcases List.mem_cons.mp listed with rfl | later
      · exact implied _ _ obeys.1
      · exact
          forall_mem_of_obeys property implied (obeys.2 next taken) onwards
            action later

/-- Whether a run obeys a guard can be computed. -/
instance decidableObeys
    [∀ state action, Decidable (guard state action)] :
    ∀ (state : State) (actions : List Action),
      Decidable (Obeys step guard state actions)
  | _, [] => isTrue trivial
  | state, action :: rest =>
      match taken : step state action with
      | none =>
          decidable_of_iff (guard state action) (by simp [Obeys, taken])
      | some next =>
          have := decidableObeys next rest
          decidable_of_iff
            (guard state action ∧ Obeys step guard next rest)
            (by simp [Obeys, taken])

/-- A guard that implies another one under an invariant. -/
theorem obeys_of_invariant
    {stronger : State → Action → Prop} {Invariant : State → Prop}
    (implied : ∀ state action,
      Invariant state → stronger state action → guard state action)
    (preserved : ∀ state action next,
      Invariant state → guard state action →
        step state action = some next → Invariant next) :
    ∀ {actions : List Action} {state : State},
      Invariant state →
        Obeys step stronger state actions → Obeys step guard state actions
  | [], _, _, _ => trivial
  | action :: _, state, initially, obeys =>
      have here := implied state action initially obeys.1
      ⟨here, fun next taken =>
        obeys_of_invariant implied preserved
          (preserved state action next initially here taken)
          (obeys.2 next taken)⟩

/-- An invariant kept by every guarded step holds after every guarded run. -/
theorem invariant_of_run
    {Invariant : State → Prop}
    (preserved : ∀ state action next,
      Invariant state → guard state action →
        step state action = some next → Invariant next) :
    ∀ {actions : List Action} {state final : State},
      Invariant state →
        Obeys step guard state actions →
          run step state actions = some final → Invariant final
  | [], state, final, initially, _, reached => by
      cases reached
      exact initially
  | action :: rest, state, final, initially, obeys, reached => by
      obtain ⟨next, taken, onwards⟩ := run_cons_eq_some.mp reached
      exact
        invariant_of_run preserved
          (preserved state action next initially obeys.1 taken)
          (obeys.2 next taken) onwards

/-- The same rule for the runs on which no guard is imposed. -/
theorem invariant_of_any_run
    {Invariant : State → Prop}
    (preserved : ∀ state action next,
      Invariant state → step state action = some next → Invariant next)
    {actions : List Action} {state final : State}
    (initially : Invariant state)
    (reached : run step state actions = some final) :
    Invariant final :=
  invariant_of_run
    (fun state action next holds _ taken =>
      preserved state action next holds taken)
    initially (obeys_true state actions) reached

/-- An invariant that may also speak of the actions taken so far. -/
theorem history_of_run
    {Invariant : List Action → State → Prop}
    (preserved : ∀ past state action next,
      Invariant past state → guard state action →
        step state action = some next →
          Invariant (past ++ [action]) next) :
    ∀ {actions past : List Action} {state final : State},
      Invariant past state →
        Obeys step guard state actions →
          run step state actions = some final →
            Invariant (past ++ actions) final
  | [], past, state, final, initially, _, reached => by
      cases reached
      rw [List.append_nil]
      exact initially
  | action :: rest, past, state, final, initially, obeys, reached => by
      obtain ⟨next, taken, onwards⟩ := run_cons_eq_some.mp reached
      rw [← List.singleton_append, ← List.append_assoc]
      exact
        history_of_run preserved
          (preserved past state action next initially obeys.1 taken)
          (obeys.2 next taken) onwards

/-- When each guarded step does to a view of the state what an action stands
for, so does each guarded run. -/
theorem view_of_run
    {View : Type w} {view : State → View} {handle : View → Action → View}
    {Invariant : State → Prop}
    (preserved : ∀ state action next,
      Invariant state → guard state action →
        step state action = some next →
          Invariant next ∧ view next = handle (view state) action) :
    ∀ {actions : List Action} {state final : State},
      Invariant state →
        Obeys step guard state actions →
          run step state actions = some final →
            view final = actions.foldl handle (view state)
  | [], state, final, _, _, reached => by
      cases reached
      rfl
  | action :: rest, state, final, initially, obeys, reached => by
      obtain ⟨next, taken, onwards⟩ := run_cons_eq_some.mp reached
      obtain ⟨holds, moved⟩ :=
        preserved state action next initially obeys.1 taken
      rw [List.foldl_cons, ← moved]
      exact view_of_run preserved holds (obeys.2 next taken) onwards

end Guards

section Traces

variable {Event : Type w} {step : State → Action → Option State}

/-- The events observed in a run, in their order. -/
def trace
    (step : State → Action → Option State)
    (observe : State → Action → State → List Event) :
    State → List Action → List Event
  | _, [] => []
  | state, action :: rest =>
      match step state action with
      | none => []
      | some next =>
          observe state action next ++ trace step observe next rest

variable {observe : State → Action → State → List Event}

theorem trace_cons
    {state next : State} {action : Action} (rest : List Action)
    (taken : step state action = some next) :
    trace step observe state (action :: rest) =
      observe state action next ++ trace step observe next rest := by
  rw [trace, taken]

theorem trace_append
    {state middle : State} {first : List Action} (second : List Action)
    (reached : run step state first = some middle) :
    trace step observe state (first ++ second) =
      trace step observe state first ++
        trace step observe middle second := by
  induction first generalizing state with
  | nil =>
      cases reached
      rfl
  | cons action rest inductionHypothesis =>
      obtain ⟨next, taken, onwards⟩ := run_cons_eq_some.mp reached
      rw [List.cons_append, trace_cons _ taken, trace_cons _ taken,
        inductionHypothesis onwards, List.append_assoc]

/-- An invariant that may also speak of the events observed so far. -/
theorem trace_of_run
    {guard : State → Action → Prop}
    {Invariant : List Event → State → Prop}
    (preserved : ∀ past state action next,
      Invariant past state → guard state action →
        step state action = some next →
          Invariant (past ++ observe state action next) next) :
    ∀ {actions : List Action} {past : List Event} {state final : State},
      Invariant past state →
        Obeys step guard state actions →
          run step state actions = some final →
            Invariant (past ++ trace step observe state actions) final
  | [], past, state, final, initially, _, reached => by
      cases reached
      rw [trace, List.append_nil]
      exact initially
  | action :: rest, past, state, final, initially, obeys, reached => by
      obtain ⟨next, taken, onwards⟩ := run_cons_eq_some.mp reached
      rw [trace_cons rest taken, ← List.append_assoc]
      exact
        trace_of_run preserved
          (preserved past state action next initially obeys.1 taken)
          (obeys.2 next taken) onwards

end Traces

/-- When each step is a run of another machine on a view of the state, so is
each run. -/
theorem exists_run_of_view
    {Other : Type w} {OtherAction : Type*}
    {step : State → Action → Option State}
    {otherStep : Other → OtherAction → Option Other} (view : State → Other)
    (simulated : ∀ state action next, step state action = some next →
      ∃ moves, run otherStep (view state) moves = some (view next)) :
    ∀ {actions : List Action} {state final : State},
      run step state actions = some final →
        ∃ moves, run otherStep (view state) moves = some (view final)
  | [], _, _, reached => by
      cases reached
      exact ⟨[], rfl⟩
  | action :: rest, state, final, reached => by
      obtain ⟨next, taken, onwards⟩ := run_cons_eq_some.mp reached
      obtain ⟨first, moved⟩ := simulated state action next taken
      obtain ⟨second, movedOn⟩ := exists_run_of_view view simulated onwards
      exact
        ⟨first ++ second,
          run_append_eq_some.mpr ⟨view next, moved, movedOn⟩⟩

/-- If every state of a kind is a goal or has a guarded step to a smaller state
of the kind, then a guarded run leads from it to a goal. -/
theorem exists_guarded_run_of_measure
    {step : State → Action → Option State}
    {guard : State → Action → Prop}
    {Kind Goal : State → Prop} (measure : State → Nat)
    (progress : ∀ state, Kind state →
      Goal state ∨
        ∃ action next,
          guard state action ∧ step state action = some next ∧
            Kind next ∧ measure next < measure state) :
    ∀ (bound : Nat) {state : State},
      Kind state → measure state ≤ bound →
        ∃ actions final,
          Obeys step guard state actions ∧
            run step state actions = some final ∧ Goal final := by
  intro bound
  induction bound with
  | zero =>
      intro state isKind small
      rcases progress state isKind with reached | ⟨_, _, _, _, _, smaller⟩
      · exact ⟨[], state, trivial, rfl, reached⟩
      · omega
  | succ bound inductionHypothesis =>
      intro state isKind small
      rcases progress state isKind with
        reached | ⟨action, next, allowed, taken, nextKind, smaller⟩
      · exact ⟨[], state, trivial, rfl, reached⟩
      · obtain ⟨actions, final, obeys, onwards, reached⟩ :=
          inductionHypothesis nextKind (by omega)
        exact
          ⟨action :: actions, final, Obeys.cons taken allowed obeys,
            run_cons_eq_some.mpr ⟨next, taken, onwards⟩, reached⟩

/-- The same when no step is forbidden. -/
theorem exists_run_of_measure
    {step : State → Action → Option State}
    {Kind Goal : State → Prop} (measure : State → Nat)
    (progress : ∀ state, Kind state →
      Goal state ∨
        ∃ action next,
          step state action = some next ∧ Kind next ∧
            measure next < measure state)
    (bound : Nat) {state : State} (isKind : Kind state)
    (small : measure state ≤ bound) :
    ∃ actions final,
      run step state actions = some final ∧ Goal final := by
  have always : ∀ state, Kind state →
      Goal state ∨
        ∃ action next,
          True ∧ step state action = some next ∧ Kind next ∧
            measure next < measure state := by
    intro state isKind
    refine (progress state isKind).imp_right ?_
    rintro ⟨action, next, rest⟩
    exact ⟨action, next, trivial, rest⟩
  obtain ⟨actions, final, _, reached⟩ :=
    exists_guarded_run_of_measure measure always bound isKind small
  exact ⟨actions, final, reached⟩

/-- When the steps that are counted leave less to do and no other step leaves
more, so many of them are taken at most. -/
theorem countP_add_rank_le
    {step : State → Action → Option State} {Invariant : State → Prop}
    {rank : State → Nat} {counted : Action → Bool}
    (falls : ∀ state action next,
      Invariant state → step state action = some next →
        Invariant next ∧
          rank next + (if counted action then 1 else 0) ≤ rank state) :
    ∀ {actions : List Action} {state final : State},
      Invariant state → run step state actions = some final →
        Invariant final ∧
          actions.countP counted + rank final ≤ rank state
  | [], _, _, initially, reached => by
      cases reached
      exact ⟨initially, Nat.le_of_eq (Nat.zero_add _)⟩
  | action :: rest, state, final, initially, reached => by
      obtain ⟨next, taken, onwards⟩ := run_cons_eq_some.mp reached
      obtain ⟨kept, fewer⟩ := falls state action next initially taken
      obtain ⟨keptLast, bounded⟩ := countP_add_rank_le falls kept onwards
      refine ⟨keptLast, ?_⟩
      rw [List.countP_cons]
      omega

section Rest

variable {step : State → Action → Option State}
  {guard : State → Action → Prop} {Invariant : State → Prop}
  {rank : State → Nat}

/-- When every step leaves less to do, a run is at most as long as there was
to do. -/
theorem length_add_rank_le
    (falls : ∀ state action next,
      Invariant state → guard state action →
        step state action = some next →
          Invariant next ∧ rank next < rank state) :
    ∀ {actions : List Action} {state final : State},
      Invariant state → Obeys step guard state actions →
        run step state actions = some final →
          Invariant final ∧ actions.length + rank final ≤ rank state
  | [], _, _, initially, _, reached => by
      cases reached
      exact ⟨initially, Nat.le_of_eq (Nat.zero_add _)⟩
  | action :: rest, state, final, initially, obeys, reached => by
      obtain ⟨next, taken, onwards⟩ := run_cons_eq_some.mp reached
      obtain ⟨kept, fewer⟩ :=
        falls state action next initially obeys.1 taken
      obtain ⟨keptLast, bounded⟩ :=
        length_add_rank_le falls kept (obeys.2 next taken) onwards
      refine ⟨keptLast, ?_⟩
      rw [List.length_cons]
      omega

/-- When every step leaves less to do, the machine comes to rest. -/
theorem exists_run_to_rest
    (falls : ∀ state action next,
      Invariant state → guard state action →
        step state action = some next →
          Invariant next ∧ rank next < rank state) :
    ∀ (bound : Nat) {state : State},
      Invariant state → rank state ≤ bound →
        ∃ more last,
          Obeys step guard state more ∧ run step state more = some last ∧
            Invariant last ∧
            ∀ action, guard last action → step last action = none := by
  intro bound
  induction bound with
  | zero =>
      intro state initially small
      refine ⟨[], state, trivial, rfl, initially, ?_⟩
      intro action allowed
      by_contra moves
      obtain ⟨next, taken⟩ := Option.ne_none_iff_exists'.mp moves
      have fewer := (falls state action next initially allowed taken).2
      omega
  | succ bound inductionHypothesis =>
      intro state initially small
      by_cases rests :
          ∀ action, guard state action → step state action = none
      · exact ⟨[], state, trivial, rfl, initially, rests⟩
      · simp only [not_forall] at rests
        obtain ⟨action, allowed, moves⟩ := rests
        obtain ⟨next, taken⟩ := Option.ne_none_iff_exists'.mp moves
        obtain ⟨kept, fewer⟩ :=
          falls state action next initially allowed taken
        obtain ⟨more, last, obeys, onwards, keptLast⟩ :=
          inductionHypothesis kept (by omega)
        exact
          ⟨action :: more, last, Obeys.cons taken allowed obeys,
            run_cons_eq_some.mpr ⟨next, taken, onwards⟩, keptLast⟩

end Rest

end SistemasDistribuidos.Machine
