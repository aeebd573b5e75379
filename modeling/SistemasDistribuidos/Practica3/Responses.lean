import Mathlib.Data.List.Perm.Basic
import SistemasDistribuidos.Practica3.Increments

/-!
# What the writers are told

`do_request` reads `counter` into the response when it has released `mutex`,
so a writer is told the value it has stored only if no other writer stores
another one before line 352.  `Prompt` says that none does; the code does not
see to it.
-/

namespace SistemasDistribuidos.Practica3

open SistemasDistribuidos Machine Pool SlotArray

/-! ## The increments of a run -/

/-- A request, and the value `counter` has right after its increment. -/
abbrev Increment := Nat × BitVec 32

/-- The increments of one request. -/
def ofRequest (index : Nat) (log : List Increment) : List Increment :=
  log.filter (fun increment => increment.1 = index)

theorem ofRequest_append (index : Nat) (log more : List Increment) :
    ofRequest index (log ++ more) =
      ofRequest index log ++ ofRequest index more :=
  List.filter_append log more

theorem ofRequest_own (index : Nat) (value : BitVec 32) :
    ofRequest index [(index, value)] = [(index, value)] := by
  simp [ofRequest]

theorem ofRequest_other
    {index other : Nat} (different : other ≠ index) (value : BitVec 32) :
    ofRequest index [(other, value)] = [] := by
  simp [ofRequest, different]

namespace Share

/-- A writer that has stored and has not been answered. -/
def owes (share : Share) : Bool :=
  share.action = .write && share.progress = .done

/-- What a writer has been told. -/
def told (share : Share) : Option (BitVec 32) :=
  match share.action, share.progress with
  | .write, .answered response => some response
  | _, _ => none

/-- A writer that has stored has been answered, or has to be. -/
theorem countP_hasWritten (shares : List Share) :
    shares.countP hasWritten =
      shares.countP owes + (shares.filterMap told).length := by
  induction shares with
  | nil => rfl
  | cons share rest inductionHypothesis =>
      obtain ⟨action, progress⟩ := share
      rw [List.countP_cons, List.countP_cons, List.filterMap_cons,
        inductionHypothesis]
      cases action <;> cases progress <;>
        simp [hasWritten, owes, told] <;> omega

theorem owes_eq_false
    {share : Share} (nothing : share.hasWritten = false) :
    share.owes = false ∧ share.told = none := by
  obtain ⟨action, progress⟩ := share
  cases action <;> cases progress <;> first | exact ⟨rfl, rfl⟩ | cases nothing

end Share

namespace Ledger

/-- The increments that belong to a move. -/
def increments (next : Ledger) : Move → List Increment
  | .store index => [(index, next.counter)]
  | _ => []

/-- A writer stores only when all earlier ones have been answered. -/
def Prompt (ledger : Ledger) : Move → Prop
  | .store _ => ∀ share ∈ ledger.shares, share.owes = false
  | _ => True

/-- What the writers have been told. -/
def responses (ledger : Ledger) : List (BitVec 32) :=
  ledger.shares.filterMap Share.told

/-- The first values after `start`. -/
def valuesFrom (start : BitVec 32) (number : Nat) : List (BitVec 32) :=
  (List.range number).map
    (fun earlier => start + BitVec.ofNat 32 (earlier + 1))

/-- Who has been answered has been told its own value, and whoever still has
to be answered is alone with the present one. -/
structure Reported (start : BitVec 32) (log : List Increment)
    (ledger : Ledger) : Prop where
  answered : ∀ (index : Nat) (response : BitVec 32),
    ledger.shares[index]? = some ⟨.write, .answered response⟩ →
      ofRequest index log = [(index, response)]
  owing : ∀ (index : Nat), ledger.shares[index]? = some ⟨.write, .done⟩ →
    ofRequest index log = [(index, ledger.counter)]
  fresh : ∀ (index : Nat),
    (∀ share, ledger.shares[index]? = some share →
      share.hasWritten = false) →
        ofRequest index log = []
  alone : ledger.shares.countP Share.owes ≤ 1
  told : ledger.responses.Perm (valuesFrom start ledger.responses.length)

section Reports

variable {start : BitVec 32} {log : List Increment}
  {ledger next : Ledger} {index : Nat} {before after : Share}

/-- The writers that have stored stay as they are. -/
theorem Reported.keep
    (reported : ledger.Reported start log)
    (counter : next.counter = ledger.counter)
    (same : ∀ (other : Nat) (share : Share), share.hasWritten = true →
      (next.shares[other]? = some share ↔
        ledger.shares[other]? = some share))
    (sameOwes :
      next.shares.countP Share.owes = ledger.shares.countP Share.owes)
    (sameTold : next.responses.Perm ledger.responses) :
    next.Reported start log where
  answered := by
    intro other response here
    exact reported.answered other response ((same other _ rfl).mp here)
  owing := by
    intro other here
    rw [counter]
    exact reported.owing other ((same other _ rfl).mp here)
  fresh := by
    intro other nothing
    apply reported.fresh other
    intro share here
    rw [Bool.eq_false_iff]
    intro written
    have stillNothing := nothing share ((same other share written).mpr here)
    rw [written] at stillNothing
    cases stillNothing
  alone := by
    rw [sameOwes]
    exact reported.alone
  told := by
    rw [sameTold.length_eq]
    exact sameTold.trans reported.told

/-- A request moves on that has stored nothing and stores nothing. -/
theorem Reported.set
    (reported : ledger.Reported start log)
    (here : ledger.shares[index]? = some before)
    (counter : next.counter = ledger.counter)
    (shares : next.shares = ledger.shares.set index after)
    (nothing : before.hasWritten = false)
    (stillNothing : after.hasWritten = false) :
    next.Reported start log := by
  obtain ⟨noOwes, noTold⟩ := Share.owes_eq_false nothing
  obtain ⟨stillNoOwes, stillNoTold⟩ := Share.owes_eq_false stillNothing
  refine reported.keep counter ?_ ?_ ?_
  · intro other share written
    rw [shares]
    constructor
    · intro otherHere
      rcases getElem?_set_cases otherHere with ⟨_, rfl⟩ | ⟨_, old⟩
      · rw [stillNothing] at written
        cases written
      · exact old
    · intro old
      have different : index ≠ other := by
        rintro rfl
        cases here.symm.trans old
        rw [nothing] at written
        cases written
      rw [List.getElem?_set_ne different]
      exact old
  · have moved := countP_set_add here after Share.owes
    rw [noOwes, stillNoOwes, Nat.add_right_cancel_iff] at moved
    rw [shares, moved]
  · have moved := filterMap_set_perm here after Share.told
    rw [noTold, stillNoTold] at moved
    rw [responses, shares]
    exact moved

/-- A writer stores when nobody has to be answered. -/
theorem Reported.store
    (reported : ledger.Reported start log)
    (here : ledger.shares[index]? = some before)
    (nothing : before.hasWritten = false)
    (shares : next.shares = ledger.shares.set index ⟨.write, .done⟩)
    (prompt : ∀ share ∈ ledger.shares, share.owes = false) :
    next.Reported start (log ++ [(index, next.counter)]) := by
  obtain ⟨noOwes, noTold⟩ := Share.owes_eq_false nothing
  have others : ∀ (other : Nat) (share : Share),
      next.shares[other]? = some share → other ≠ index →
        ledger.shares[other]? = some share := by
    intro other share otherHere different
    rw [shares, List.getElem?_set_ne (Ne.symm different)] at otherHere
    exact otherHere
  have logged : ∀ other, other ≠ index →
      ofRequest other (log ++ [(index, next.counter)]) =
        ofRequest other log := by
    intro other different
    rw [ofRequest_append, ofRequest_other (Ne.symm different),
      List.append_nil]
  have placed : next.shares[index]? = some ⟨.write, .done⟩ := by
    rw [shares]
    exact getElem?_set_here here
  refine ⟨?_, ?_, ?_, ?_, ?_⟩
  · intro other response otherHere
    by_cases same : other = index
    · subst same
      cases placed.symm.trans otherHere
    · rw [logged other same]
      exact reported.answered other response (others other _ otherHere same)
  · intro other otherHere
    by_cases same : other = index
    · subst same
      rw [ofRequest_append, ofRequest_own, reported.fresh other]
      · rfl
      · intro share shareHere
        cases here.symm.trans shareHere
        exact nothing
    · have owes := prompt _ (List.mem_of_getElem? (others other _ otherHere same))
      cases owes
  · intro other stillNothing
    have different : other ≠ index := by
      rintro rfl
      cases stillNothing _ placed
    rw [logged other different]
    apply reported.fresh other
    intro share shareHere
    apply stillNothing share
    rw [shares, List.getElem?_set_ne (Ne.symm different)]
    exact shareHere
  · have moved := countP_set_add here ⟨.write, .done⟩ Share.owes
    have nobody : ledger.shares.countP Share.owes = 0 := by
      rw [List.countP_eq_zero]
      intro share listed
      rw [prompt share listed]
      exact Bool.false_ne_true
    rw [noOwes, nobody] at moved
    rw [shares]
    exact Nat.le_of_eq moved
  · have moved := filterMap_set_perm here ⟨.write, .done⟩ Share.told
    rw [noTold] at moved
    have sameTold : next.responses.Perm ledger.responses := by
      rw [responses, shares]
      exact moved
    rw [sameTold.length_eq]
    exact sameTold.trans reported.told

theorem valuesFrom_succ (start : BitVec 32) (number : Nat) :
    valuesFrom start (number + 1) =
      valuesFrom start number ++ [start + BitVec.ofNat 32 (number + 1)] := by
  rw [valuesFrom, List.range_succ, List.map_append]
  rfl

/-- The writer that has to be answered is answered. -/
theorem Reported.answer
    (reported : ledger.Reported start log)
    (balanced : ledger.Balanced start)
    (here : ledger.shares[index]? = some ⟨.write, .done⟩)
    (counter : next.counter = ledger.counter)
    (shares :
      next.shares =
        ledger.shares.set index ⟨.write, .answered ledger.counter⟩) :
    next.Reported start log := by
  have others : ∀ (other : Nat) (share : Share),
      next.shares[other]? = some share → other ≠ index →
        ledger.shares[other]? = some share := by
    intro other share otherHere different
    rw [shares, List.getElem?_set_ne (Ne.symm different)] at otherHere
    exact otherHere
  have placed :
      next.shares[index]? = some ⟨.write, .answered ledger.counter⟩ := by
    rw [shares]
    exact getElem?_set_here here
  have owesNothing :
      next.shares.countP Share.owes + 1 = ledger.shares.countP Share.owes := by
    rw [shares]
    exact countP_set_add here _ Share.owes
  have one : ledger.shares.countP Share.owes = 1 := by
    have alone := reported.alone
    omega
  refine ⟨?_, ?_, ?_, ?_, ?_⟩
  · intro other response otherHere
    by_cases same : other = index
    · subst same
      cases placed.symm.trans otherHere
      exact reported.owing other here
    · exact reported.answered other response (others other _ otherHere same)
  · intro other otherHere
    rw [counter]
    by_cases same : other = index
    · subst same
      cases placed.symm.trans otherHere
    · exact reported.owing other (others other _ otherHere same)
  · intro other nothing
    have different : other ≠ index := by
      rintro rfl
      cases nothing _ placed
    apply reported.fresh other
    intro share shareHere
    apply nothing share
    rw [shares, List.getElem?_set_ne (Ne.symm different)]
    exact shareHere
  · omega
  · have moved :
        next.responses.Perm (ledger.counter :: ledger.responses) := by
      rw [responses, shares]
      exact
        filterMap_set_perm here ⟨.write, .answered ledger.counter⟩
          Share.told
    have value :
        ledger.counter =
          start + BitVec.ofNat 32 (ledger.responses.length + 1) := by
      rw [balanced.counter, Share.countP_hasWritten, one, Nat.add_comm]
      rfl
    rw [moved.length_eq, List.length_cons, valuesFrom_succ, ← value]
    exact
      moved.trans
        ((reported.told.cons ledger.counter).trans
          (List.perm_append_singleton _ _).symm)

theorem Reported.step
    (reported : ledger.Reported start log)
    (balanced : ledger.Balanced start) {move : Move}
    (prompt : ledger.Prompt move) (taken : ledger.Step next move) :
    next.Reported start (log ++ increments next move) := by
  cases taken with
  | stay counter shares =>
      show next.Reported start (log ++ [])
      rw [List.append_nil]
      refine reported.keep counter ?_ ?_ ?_
      · intro other share _
        rw [shares]
      · rw [shares]
      · rw [responses, shares]
        exact List.Perm.refl _
  | arrive action counter shares =>
      show next.Reported start (log ++ [])
      rw [List.append_nil]
      have noWritten : Share.hasWritten ⟨action, .before⟩ = false :=
        Bool.and_false _
      obtain ⟨noOwes, noTold⟩ := Share.owes_eq_false noWritten
      refine reported.keep counter ?_ ?_ ?_
      · intro other share written
        rw [shares]
        constructor
        · intro otherHere
          rcases getElem?_append_cases otherHere with ⟨_, rfl⟩ | old
          · rw [noWritten] at written
            cases written
          · exact old
        · intro old
          have inside := (List.getElem?_eq_some_iff.mp old).1
          rw [List.getElem?_append_left inside]
          exact old
      · rw [shares, List.countP_append, List.countP_singleton, noOwes]
        rfl
      · rw [responses, shares, List.filterMap_append, List.filterMap_cons,
          noTold, List.filterMap_nil, List.append_nil]
        exact List.Perm.refl _
  | load index here counter shares =>
      show next.Reported start (log ++ [])
      rw [List.append_nil]
      exact reported.set here counter shares rfl rfl
  | store index action value here counter shares =>
      obtain ⟨rfl, _⟩ := balanced.loaded index action value here
      exact reported.store here rfl shares prompt
  | look index here counter shares =>
      show next.Reported start (log ++ [])
      rw [List.append_nil]
      exact reported.set here counter shares rfl rfl
  | answer index action here counter shares =>
      show next.Reported start (log ++ [])
      rw [List.append_nil]
      cases action with
      | write => exact reported.answer balanced here counter shares
      | read => exact reported.set here counter shares rfl rfl

end Reports

end Ledger

/-! ## The writers of the server -/

namespace Thread

/-- A writer between its own increment and line 352. -/
def isUnanswered (thread : Thread) : Bool :=
  thread.action = .write && thread.phase.progress = .done

/-- The counter in the response to a writer. -/
def response (thread : Thread) : Option (BitVec 32) :=
  match thread.action, thread.phase with
  | .write, .finished response => some response
  | _, _ => none

end Thread

namespace Server

/-- The increment that belongs to a step, with the value that `counter` has
after it. -/
def increments (server : Server) :
    ServerAction → Server → List Increment
  | .arrive _, _ => []
  | .advance index _, next =>
      match server.threads[index]? with
      | some thread =>
          if thread.phase.stores then [(index, next.counter)] else []
      | none => []

/-- A writer stores its increment only while no other writer is between its
own increment and line 352. -/
def Prompt (server : Server) : ServerAction → Prop
  | .arrive _ => True
  | .advance index _ =>
      ∀ thread ∈ server.threads[index]?, thread.phase.stores = true →
        ∀ other ∈ server.threads, other.isUnanswered = false

instance (server : Server) :
    ∀ action, Decidable (server.Prompt action)
  | .arrive _ => isTrue trivial
  | .advance index _ =>
      inferInstanceAs
        (Decidable
          (∀ thread ∈ server.threads[index]?, thread.phase.stores = true →
            ∀ other ∈ server.threads, other.isUnanswered = false))

/-- The responses to the writers that are done with. -/
def responses (server : Server) : List (BitVec 32) :=
  server.threads.filterMap Thread.response

/-- Each writer is told the value of its own increment, and so all of them
together the first values after `start`. -/
structure Informed (start : BitVec 32) (log : List Increment)
    (server : Server) : Prop where
  own : ∀ (index : Nat) (thread : Thread) (response : BitVec 32),
    server.threads[index]? = some thread →
      thread.action = .write → thread.phase = .finished response →
        ofRequest index log = [(index, response)]
  values :
    server.responses.Perm
      ((List.range server.responses.length).map
        (fun earlier => start + BitVec.ofNat 32 (earlier + 1)))
  distinct : server.responses.length ≤ 2 ^ 32 → server.responses.Nodup

section Steps

variable {options : Options} {server next : Server} {start : BitVec 32}
  {log : List Increment}

theorem increments_ledger (server next : Server) (action : ServerAction) :
    server.increments action next =
      Ledger.increments next.ledger (server.ledgerMove action) := by
  cases action with
  | arrive action => rfl
  | advance index woken =>
      rw [increments, ledgerMove]
      cases server.threads[index]? with
      | none => rfl
      | some thread =>
          obtain ⟨action, locked, phase⟩ := thread
          cases phase <;> first | rfl | cases action <;> rfl

theorem share_told (thread : Thread) :
    thread.share.told = thread.response := by
  obtain ⟨action, locked, phase⟩ := thread
  cases action <;> cases phase <;> rfl

theorem responses_ledger (server : Server) :
    server.ledger.responses = server.responses := by
  rw [Ledger.responses, ledger, List.filterMap_map, responses]
  congr 1
  funext thread
  exact share_told thread

theorem prompt_ledger
    {action : ServerAction} (prompt : server.Prompt action) :
    server.ledger.Prompt (server.ledgerMove action) := by
  cases action with
  | arrive action => trivial
  | advance index woken =>
      rw [ledgerMove]
      cases here : server.threads[index]? with
      | none => trivial
      | some thread =>
          have kept := prompt thread here
          obtain ⟨action, locked, phase⟩ := thread
          cases phase
          case entered =>
            cases action <;> trivial
          case loaded value =>
            intro share listed
            obtain ⟨other, otherListed, rfl⟩ := List.mem_map.mp listed
            exact kept rfl other otherListed
          all_goals trivial

/-- Different numbers of increments give different values. -/
theorem valuesFrom_nodup
    (start : BitVec 32) {number : Nat} (small : number ≤ 2 ^ 32) :
    (Ledger.valuesFrom start number).Nodup := by
  rw [Ledger.valuesFrom]
  apply List.Nodup.map_on _ List.nodup_range
  intro first firstListed second secondListed same
  rw [List.mem_range] at firstListed secondListed
  have sameNumber := congrArg BitVec.toNat ((BitVec.add_right_inj start).mp same)
  simp only [BitVec.toNat_ofNat] at sameNumber
  omega

theorem reported_initial (counter : BitVec 32) (output : List Char) :
    (initial counter output).ledger.Reported counter [] where
  answered := by
    intro index response here
    cases here
  owing := by
    intro index here
    cases here
  fresh := fun _ _ => rfl
  alone := Nat.zero_le _
  told := List.Perm.refl _

/-- What a report says about the threads themselves. -/
theorem informed_of_reported
    (reported : server.ledger.Reported start log) :
    server.Informed start log := by
  have told := reported.told
  rw [responses_ledger] at told
  refine ⟨?_, told, ?_⟩
  · intro index thread response here writes finished
    apply reported.answered index response
    rw [share_here here, Thread.share, writes, finished]
    rfl
  · intro small
    exact (told.nodup_iff).mpr (valuesFrom_nodup start small)

theorem reported_of_run
    {actions : List ServerAction} {output : List Char} {final : Server}
    (prompt :
      Obeys (step options) Prompt (initial start output) actions)
    (reached :
      run (step options) (initial start output) actions = some final) :
    final.ledger.Reported start
      (trace (step options) increments (initial start output) actions) := by
  have preserved :
      ∀ past state action next,
        state.Consistent ∧ state.ledger.Balanced start ∧
            state.ledger.Reported start past →
          state.Prompt action → step options state action = some next →
            next.Consistent ∧ next.ledger.Balanced start ∧
              next.ledger.Reported start
                (past ++ increments state action next) := by
    rintro past state action next ⟨consistent, balanced, reported⟩ prompt
      taken
    have alone := alone_of_consistent consistent balanced
    refine
      ⟨consistent.step taken, balanced.step alone (ledger_step taken), ?_⟩
    rw [increments_ledger]
    exact reported.step balanced (prompt_ledger prompt) (ledger_step taken)
  have kept :=
    trace_of_run preserved
      ⟨consistent_initial start output, balanced_initial start output,
        reported_initial start output⟩
      prompt reached
  exact kept.2.2

/-- A writer that has stored, and does not hold `mutex`, is before line 352. -/
theorem responding_of_unanswered
    (consistent : server.Consistent) {other : Nat} {thread : Thread}
    (here : server.threads[other]? = some thread)
    (unanswered : thread.isUnanswered = true)
    (holdsNothing : thread.holdsMutex = false) :
    thread = ⟨.write, thread.locked, .responding⟩ := by
  have valid := consistent.valid thread (List.mem_of_getElem? here)
  rw [Thread.isUnanswered, Bool.and_eq_true, decide_eq_true_eq,
    decide_eq_true_eq] at unanswered
  obtain ⟨writes, progress⟩ := unanswered
  by_cases past : thread.pastTest = true
  · have isLocked := valid.writer writes past
    rw [Thread.holdsMutex, isLocked, Bool.true_and] at holdsNothing
    rw [Thread.pastTest, holdsNothing] at past
    cases past
  · obtain ⟨action, locked, phase⟩ := thread
    cases writes
    cases phase
    case responding => rfl
    all_goals first | exact absurd rfl past | cases progress

/-- Line 352. -/
theorem exists_step_of_responding
    (options : Options) {other : Nat} {locked : Bool}
    (here : server.threads[other]? = some ⟨.write, locked, .responding⟩) :
    ∃ last,
      server.step options (.advance other none) = some last ∧
        last.threads[other]? =
          some ⟨.write, locked, .finished server.counter⟩ ∧
        server.increments (.advance other none) last = [] := by
  refine
    ⟨server.move other ⟨.write, locked, .responding⟩
      (.finished server.counter), ?_, ?_, ?_⟩
  · rw [step, here]
    rfl
  · exact getElem?_set_here here
  · rw [increments, here]
    rfl

/-- The step of a writer that stores too early, and the writer that still has
to be answered then. -/
theorem unanswered_of_not_prompt
    {action : ServerAction}
    (consistent : server.Consistent)
    (balanced : server.ledger.Balanced start)
    (taken : server.step options action = some next)
    (late : ¬ server.Prompt action) :
    ∃ index other locked,
      index ≠ other ∧
        server.threads[other]? = some ⟨.write, locked, .responding⟩ ∧
        next.threads[other]? = some ⟨.write, locked, .responding⟩ ∧
        next.counter = server.counter + 1 ∧
        server.increments action next = [(index, server.counter + 1)] := by
  cases action with
  | arrive action => exact absurd trivial late
  | advance index woken =>
      obtain ⟨thread, here, advanced⟩ := step_advance taken
      simp only [Prompt, not_forall, Bool.not_eq_false] at late
      obtain ⟨storing, storingHere, stores, waiting, listed, unanswered⟩ :=
        late
      cases here.symm.trans storingHere
      obtain ⟨other, otherHere⟩ := List.mem_iff_getElem?.mp listed
      obtain ⟨action, locked, phase⟩ := thread
      cases phase
      case loaded value =>
        obtain ⟨rfl, same⟩ :=
          balanced.loaded index action value (share_here here)
        obtain ⟨holder, holderHere, holds⟩ :=
          holdsMutex_of_loaded consistent balanced (share_here here)
        have different : index ≠ other := by
          rintro rfl
          cases here.symm.trans otherHere
          cases unanswered
        have holdsNothing : waiting.holdsMutex = false := by
          rw [Bool.eq_false_iff]
          intro also
          exact
            different
              (consistent.mutex.unique holderHere otherHere holds also)
        rw [responding_of_unanswered consistent otherHere unanswered
          holdsNothing] at otherHere
        have counter : value + 1 = server.counter + 1 :=
          congrArg (fun loaded => loaded + 1) same
        cases advanced
        refine
          ⟨index, other, waiting.locked, different, otherHere, ?_, counter,
            ?_⟩
        · rw [← otherHere]
          exact List.getElem?_set_ne different
        · rw [increments, here, ← counter]
          rfl
      all_goals cases stores

/-- A writer that still has to be answered is told what another one stores in
the meantime. -/
theorem exists_run_of_not_prompt
    {action : ServerAction}
    (consistent : server.Consistent)
    (balanced : server.ledger.Balanced start)
    (reported : server.ledger.Reported start log)
    (taken : server.step options action = some next)
    (late : ¬ server.Prompt action) :
    ∃ more last,
      run (step options) next more = some last ∧
        ¬ last.Informed start
          (log ++ trace (step options) increments server (action :: more)) := by
  obtain ⟨index, other, locked, different, earlier, here, counter, stored⟩ :=
    unanswered_of_not_prompt consistent balanced taken late
  obtain ⟨last, answered, finished, silent⟩ :=
    exists_step_of_responding options here
  refine ⟨[.advance other none], last, ?_, ?_⟩
  · rw [run_singleton]
    exact answered
  · intro informed
    have told :=
      informed.own other _ next.counter finished rfl rfl
    have owed :
        ofRequest other log = [(other, server.counter)] :=
      reported.owing other (share_here earlier)
    rw [trace_cons _ taken, trace_cons _ answered, silent, stored, trace,
      List.append_nil, List.append_nil, ofRequest_append,
      ofRequest_other different, List.append_nil, owed, counter] at told
    have same : server.counter = server.counter + 1 :=
      congrArg Prod.snd (List.singleton_inj.mp told)
    simp at same

end Steps

/-- In a run in which the writers store one after another's response, each of
them is told its own value, and the first step that stores too early leads to
one that is not. -/
theorem writers_informed
    (options : Options) (start : BitVec 32) (output : List Char)
    {actions : List ServerAction} {final : Server}
    (prompt :
      Obeys (step options) Prompt (initial start output) actions)
    (reached :
      run (step options) (initial start output) actions = some final) :
    final.Informed start
        (trace (step options) increments (initial start output) actions) ∧
      ∀ action next,
        final.step options action = some next → ¬ final.Prompt action →
          ∃ more last,
            run (step options) next more = some last ∧
              ¬ last.Informed start
                (trace (step options) increments (initial start output)
                  (actions ++ action :: more)) := by
  have reported := reported_of_run prompt reached
  constructor
  · exact informed_of_reported reported
  · intro action next taken late
    obtain ⟨more, last, onwards, uninformed⟩ :=
      exists_run_of_not_prompt (consistent_of_run reached)
        (balanced_of_run reached) reported taken late
    refine ⟨more, last, onwards, ?_⟩
    rw [trace_append _ reached]
    exact uninformed

theorem writers_informed_twoWriters :
    ∃ final : Server,
      run (step ⟨.write, 0⟩) (initial 41 []) twoWriters = some final ∧
        final.responses = [42, 43] ∧
        final.Informed 41 [(0, 42), (1, 43)] := by
  have evaluated :
      ((run (step ⟨.write, 0⟩) (initial 41 []) twoWriters).map
        Server.responses) = some [42, 43] := by
    decide
  have logged :
      trace (step ⟨.write, 0⟩) increments (initial 41 []) twoWriters =
        [(0, 42), (1, 43)] := by
    decide
  obtain ⟨final, reached, told⟩ := Option.map_eq_some_iff.mp evaluated
  have informed :=
    (writers_informed ⟨.write, 0⟩ 41 [] (by decide) reached).1
  rw [logged] at informed
  exact ⟨final, reached, told, informed⟩

/-- A writer has released `mutex` when a second one stores, and both are told
the second value. -/
theorem told_other_value :
    ¬ ∀ (options : Options) (start : BitVec 32) (output : List Char)
        (actions : List ServerAction) (final : Server),
        run (step options) (initial start output) actions = some final →
          final.Informed start
            (trace (step options) increments (initial start output)
              actions) := by
  intro always
  have evaluated :
      ((run (step ⟨.write, 0⟩) (initial 41 [])
        ([.arrive .write, .advance 0 none, .arrive .write,
            .advance 1 none] ++
          List.replicate 12 (.advance 0 none) ++
          List.replicate 5 (.advance 1 none) ++ [.advance 0 none])).map
        Server.responses) = some [43] := by
    decide
  obtain ⟨final, reached, told⟩ := Option.map_eq_some_iff.mp evaluated
  have values := (always _ _ _ _ final reached).values
  rw [told] at values
  exact absurd values (by decide)

end Server

end SistemasDistribuidos.Practica3
