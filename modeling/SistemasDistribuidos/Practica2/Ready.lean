import SistemasDistribuidos.Practica2.Shutdown

/-!
# Who is ready when the shutdown starts

P2 waits for one message with clock 1 and sends `SHUTDOWN_NOW` as soon as it
has it.  Both clients send their `READY_TO_SHUTDOWN` with clock 1, so the first
one that arrives starts the shutdown, and the other one is read later and
dropped.
-/

namespace SistemasDistribuidos.Practica2

open SistemasDistribuidos Machine

namespace System

/-- P2 has received `READY_TO_SHUTDOWN` from both clients when it sends
`SHUTDOWN_NOW`. -/
def BothReady (system : System) : Action → Prop
  | .client _ => True
  | .server _ =>
      system.server.place = .notifyingFirst ∨
          system.server.place = .notifyingSecond →
        ∀ peer : Peer, ∃ message,
          (peer, message) ∈ system.read ∧ message.origin = peer.name ∧
            message.action = .readyToShutdown

/-- P2 has not sent anything yet. -/
structure Early (system : System) : Prop where
  unsent : system.sends = []
  currentId : system.server.currentId = 0
  place : system.server.place = .acceptingFirst ∨
    system.server.place = .acceptingSecond ∨
    system.server.place = .pollingFirst ∨
    system.server.place = .pollingSecond ∨
    system.server.place = .matched ∨
    system.server.place = .notifyingFirst
  silent : ∀ peer, system.toClient peer = []
  lamport : ∀ peer,
    ((system.client peer).place = .connecting ∨
        (system.client peer).place = .starting) ∧
        (system.client peer).lamport = 0 ∨
      (system.client peer).place = .receiving
  ready : ∀ peer, ∀ message ∈ system.toServer peer, message.clockLamport = 1
  clock : system.server.place = .matched →
    system.server.message.clockLamport = 1
  unread : system.server.place ≠ .matched →
    system.server.place ≠ .notifyingFirst → system.read = []
  atMostOne : system.read.length ≤ 1

section Steps

variable {system next : System} {first : Peer}

theorem early_initial (garbage : Name → Message) :
    (initial garbage).Early where
  unsent := rfl
  currentId := rfl
  place := Or.inl rfl
  silent := fun _ => rfl
  lamport := fun _ => Or.inl ⟨Or.inl rfl, rfl⟩
  ready := by
    intro peer message impossible
    cases impossible
  clock := by
    intro impossible
    cases impossible
  unread := fun _ _ => rfl
  atMostOne := Nat.zero_le _

theorem Early.clientStep
    (early : system.Early) {peer : Peer}
    (taken : system.clientStep peer = some next) : next.Early := by
  rcases early.lamport peer with ⟨place | place, zero⟩ | place
  · simp only [System.clientStep, place] at taken
    cases taken
    refine ⟨early.unsent, early.currentId, early.place, early.silent, ?_,
      early.ready, early.clock, early.unread, early.atMostOne⟩
    intro other
    by_cases same : other = peer
    · subst same
      simp [zero]
    · simp only [Function.update_of_ne same]
      exact early.lamport other
  · simp only [System.clientStep, place] at taken
    cases taken
    refine ⟨early.unsent, early.currentId, early.place, early.silent, ?_,
      ?_, early.clock, early.unread, early.atMostOne⟩
    · intro other
      by_cases same : other = peer
      · subst same
        simp [notify]
      · simp only [notify, Function.update_of_ne same]
        exact early.lamport other
    · intro other message listed
      by_cases same : other = peer
      · subst same
        simp only [notify, Function.update_self, zero, List.mem_append,
          List.mem_singleton] at listed
        rcases listed with old | rfl
        · exact early.ready other message old
        · rfl
      · simp only [notify, Function.update_of_ne same] at listed
        exact early.ready other message listed
  · have notClosed : system.server.place ≠ .closed := by
      have places := early.place
      intro closed
      rw [closed] at places
      simp at places
    simp only [System.clientStep, place, early.silent peer] at taken
    rw [if_neg notClosed] at taken
    cases taken

/-- A poll that finds nothing that P2 waits for goes on polling. -/
theorem Early.setPlace
    (early : system.Early) {place : ServerPlace}
    (polled : system.server.place = .acceptingFirst ∨
      system.server.place = .acceptingSecond ∨
      system.server.place = .pollingFirst ∨
      system.server.place = .pollingSecond)
    (goesOn : place = .acceptingSecond ∨ place = .pollingFirst ∨
      place = .pollingSecond ∨ place = .matched ∧ system.expects = true) :
    (system.setPlace place).Early := by
  have nothing : system.read = [] := by
    rcases polled with place | place | place | place <;>
      exact early.unread (by rw [place]; decide) (by rw [place]; decide)
  refine ⟨early.unsent, early.currentId, ?_, early.silent, early.lamport,
    early.ready, ?_, fun _ _ => nothing, early.atMostOne⟩
  · simp only [System.setPlace]
    tauto
  · intro isMatched
    simp only [System.setPlace] at isMatched ⊢
    rcases goesOn with rfl | rfl | rfl | ⟨_, expects⟩
    · cases isMatched
    · cases isMatched
    · cases isMatched
    · simpa [System.expects, early.currentId, expectedLamport, eq_comm]
        using expects

/-- A message that is received is the one that P2 waits for. -/
theorem Early.receive
    (early : system.Early) {peer : Peer} {message : Message}
    {rest : List Message}
    (queue : system.toServer peer = message :: rest)
    (nothing : system.read = []) :
    (system.recv peer message rest).expects = true ∧
      ((system.recv peer message rest).setPlace .matched).Early := by
  have one : message.clockLamport = 1 := by
    apply early.ready peer
    rw [queue]
    exact List.mem_cons_self
  constructor
  · simp [System.expects, System.recv, early.currentId, expectedLamport,
      one]
  · refine ⟨early.unsent, early.currentId, ?_, early.silent, early.lamport,
      ?_, fun _ => one, fun notMatched => absurd rfl notMatched, ?_⟩
    · simp [System.setPlace]
    · intro other later listed
      by_cases same : other = peer
      · subst same
        simp only [System.setPlace, System.recv, Function.update_self]
          at listed
        apply early.ready other
        rw [queue]
        exact List.mem_cons_of_mem _ listed
      · simp only [System.setPlace, System.recv,
          Function.update_of_ne same] at listed
        exact early.ready other later listed
    · simp [System.setPlace, System.recv, nothing]

/-- Two clients have not been heard with one message. -/
theorem Early.not_bothReady
    (early : system.Early) {ready : Bool}
    (notifying : system.server.place = .notifyingFirst) :
    ¬ system.BothReady (.server ready) := by
  intro bothReady
  obtain ⟨first, firstListed, _⟩ := bothReady (Or.inl notifying) .p1
  obtain ⟨second, secondListed, _⟩ := bothReady (Or.inl notifying) .p3
  have short := early.atMostOne
  cases read : system.read with
  | nil =>
      rw [read] at firstListed
      cases firstListed
  | cons entry rest =>
      rw [read, List.length_cons] at short
      have single : rest = [] := List.length_eq_zero_iff.mp (by omega)
      rw [read, single, List.mem_singleton] at firstListed secondListed
      rw [← firstListed] at secondListed
      cases secondListed

theorem Early.serverStep
    (early : system.Early) {ready : Bool}
    (bothReady : system.BothReady (.server ready))
    (taken : system.serverStep first ready = some next) : next.Early := by
  rcases early.place with
    place | place | place | place | place | place
  · simp only [System.serverStep, place, Option.ite_none_left_eq_some,
      Option.some.injEq] at taken
    obtain ⟨_, rfl⟩ := taken
    exact early.setPlace (Or.inl place) (Or.inl rfl)
  · simp only [System.serverStep, place, Option.ite_none_left_eq_some,
      Option.some.injEq] at taken
    obtain ⟨_, rfl⟩ := taken
    exact early.setPlace (Or.inr (Or.inl place)) (Or.inr (Or.inl rfl))
  · have nothing : system.read = [] :=
      early.unread (by rw [place]; decide) (by rw [place]; decide)
    simp only [System.serverStep, place, Option.map_eq_some_iff] at taken
    obtain ⟨polled, received, rfl⟩ := taken
    rcases receiveInSocket_cases received with
      rfl | ⟨message, rest, isReady, queue, rfl⟩
    · apply early.setPlace (Or.inr (Or.inr (Or.inl place)))
      split
      · rename_i both
        exact Or.inr (Or.inr (Or.inr ⟨rfl, both.2⟩))
      · exact Or.inr (Or.inr (Or.inl rfl))
    · obtain ⟨expects, isEarly⟩ := early.receive queue nothing
      rw [if_pos ⟨isReady, expects⟩]
      exact isEarly
  · have nothing : system.read = [] :=
      early.unread (by rw [place]; decide) (by rw [place]; decide)
    simp only [System.serverStep, place, Option.map_eq_some_iff] at taken
    obtain ⟨polled, received, rfl⟩ := taken
    rcases receiveInSocket_cases received with
      rfl | ⟨message, rest, isReady, queue, rfl⟩
    · apply early.setPlace (Or.inr (Or.inr (Or.inr place)))
      split
      · rename_i expects
        exact Or.inr (Or.inr (Or.inr ⟨rfl, expects⟩))
      · exact Or.inr (Or.inl rfl)
    · obtain ⟨expects, isEarly⟩ := early.receive queue nothing
      rw [if_pos expects]
      exact isEarly
  · have one := early.clock place
    simp only [System.serverStep, place, one] at taken
    cases taken
    refine ⟨early.unsent, early.currentId, ?_, early.silent, early.lamport,
      early.ready, ?_, ?_, early.atMostOne⟩
    · simp
    · intro impossible
      simp at impossible
    · intro _ notNotifying
      simp at notNotifying
  · exact absurd bothReady (early.not_bothReady place)

theorem Early.step
    (early : system.Early) {action : Action}
    (bothReady : system.BothReady action)
    (taken : step first system action = some next) : next.Early := by
  cases action with
  | client peer => exact early.clientStep taken
  | server ready => exact early.serverStep bothReady taken

/-! ## What has been sent stays sent -/

/-- A step after which P2 has sent nothing sends nothing. -/
theorem unsent_of_step
    {action : Action} (taken : step first system action = some next)
    (unsent : next.sends = []) :
    system.sends = [] ∧ system.BothReady action := by
  cases action with
  | client peer =>
      obtain ⟨_, sends⟩ := clientStep_keeps taken
      exact ⟨sends.symm.trans unsent, trivial⟩
  | server ready =>
      cases place : system.server.place <;>
        simp only [step, System.serverStep, place] at taken
      case pollingFirst | pollingSecond =>
        obtain ⟨polled, received, rfl⟩ := Option.map_eq_some_iff.mp taken
        refine ⟨?_, fun notifying => by simp [place] at notifying⟩
        rcases receiveInSocket_cases received with
          rfl | ⟨_, _, _, _, rfl⟩
        · exact unsent
        · exact unsent
      case notifyingFirst | notifyingSecond =>
        cases taken
        simp [sendTo] at unsent
      case acceptingFirst | acceptingSecond =>
        simp only [Option.ite_none_left_eq_some, Option.some.injEq] at taken
        obtain ⟨_, rfl⟩ := taken
        exact ⟨unsent, fun notifying => by simp [place] at notifying⟩
      case advancing =>
        refine ⟨?_, fun notifying => by simp [place] at notifying⟩
        split at taken <;> cases taken <;> exact unsent
      case closed => cases taken
      all_goals
        cases taken
        exact ⟨unsent, fun notifying => by simp [place] at notifying⟩

theorem obeys_of_unsent
    {actions : List Action} {final : System}
    (reached : run (step first) system actions = some final)
    (unsent : final.sends = []) :
    system.sends = [] ∧ Obeys (step first) BothReady system actions := by
  induction actions generalizing system with
  | nil =>
      cases reached
      exact ⟨unsent, trivial⟩
  | cons action rest inductionHypothesis =>
      obtain ⟨next, taken, onwards⟩ := run_cons_eq_some.mp reached
      obtain ⟨nextUnsent, later⟩ := inductionHypothesis onwards
      obtain ⟨now, bothReady⟩ := unsent_of_step taken nextUnsent
      exact ⟨now, Obeys.cons taken bothReady later⟩

end Steps

/-- P2 has heard from both clients whenever it sends `SHUTDOWN_NOW` only in
the runs in which it never sends it. -/
theorem bothReady_iff_unsent
    (garbage : Name → Message) (first : Peer)
    {actions : List Action} {final : System}
    (reached : run (step first) (initial garbage) actions = some final) :
    Obeys (step first) BothReady (initial garbage) actions ↔
      final.sends = [] := by
  constructor
  · intro obeys
    have early : final.Early :=
      invariant_of_run
        (fun _ _ _ early bothReady taken =>
          Early.step early bothReady taken)
        (early_initial garbage) obeys reached
    exact early.unsent
  · intro unsent
    exact (obeys_of_unsent reached unsent).2

/-- Both connect, and P1 is heard before P3 has sent anything. -/
def onlyOneReady : List Action :=
  [.client .p1, .client .p3, .server false, .server false, .client .p1,
    .server true, .server false]

theorem bothReady_iff_unsent_onlyOneReady :
    ∃ final : System,
      run (step .p1) (initial emptyBuffers)
          (onlyOneReady ++ [.server false]) =
        some final ∧
        final.sends = [(.p1, ⟨.p2, .shutdownNow, 3⟩)] ∧
        ¬ Obeys (step .p1) BothReady (initial emptyBuffers)
          (onlyOneReady ++ [.server false]) := by
  have evaluated :
      ((run (step .p1) (initial emptyBuffers)
        (onlyOneReady ++ [.server false])).map System.sends) =
          some [(.p1, ⟨.p2, .shutdownNow, 3⟩)] := by
    decide
  obtain ⟨final, reached, sends⟩ := Option.map_eq_some_iff.mp evaluated
  refine ⟨final, reached, sends, ?_⟩
  rw [bothReady_iff_unsent emptyBuffers .p1 reached, sends]
  exact List.cons_ne_nil _ _

/-- P2 sends `SHUTDOWN_NOW` to both clients when only P1 is ready. -/
theorem shutdown_before_ready :
    ¬ ∀ (garbage : Name → Message) (first : Peer) (actions : List Action)
        (final : System),
        run (step first) (initial garbage) actions = some final →
          Obeys (step first) BothReady (initial garbage) actions := by
  intro always
  have evaluated :
      ((run (step .p1) (initial emptyBuffers) onlyOneReady).map
        (fun middle => (middle.server.place, middle.read))) =
          some (.notifyingFirst, [(.p1, ⟨.p1, .readyToShutdown, 1⟩)]) := by
    decide
  obtain ⟨middle, reached, state⟩ := Option.map_eq_some_iff.mp evaluated
  obtain ⟨notifying, read⟩ := Prod.mk.inj state
  have goesOn : ∃ final, step .p1 middle (.server false) = some final := by
    simp only [step, System.serverStep, notifying]
    exact ⟨_, rfl⟩
  obtain ⟨final, taken⟩ := goesOn
  have obeys :=
    always emptyBuffers .p1 (onlyOneReady ++ [.server false]) final
      (run_append_eq_some.mpr
        ⟨middle, reached, (run_singleton _ _).trans taken⟩)
  have bothReady := ((obeys_append.mp obeys).2 middle reached).1
  obtain ⟨message, listed, _⟩ := bothReady (Or.inl notifying) .p3
  rw [read, List.mem_singleton] at listed
  cases listed

end System

end SistemasDistribuidos.Practica2
