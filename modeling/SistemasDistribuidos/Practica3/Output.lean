import SistemasDistribuidos.Practica3.DoRequest

/-!
# The persisted counter

`write_output` truncates `server_output.txt`, formats `counter` into the
buffer of its own stream and writes that buffer later, from the beginning of
the file.  A reader without `mutex` may do so while writers change `counter`.
`Fresh` says that a value that is out of date is only written when the file is
still to be truncated again; the code does not see to it.
-/

namespace SistemasDistribuidos.Practica3

open SistemasDistribuidos Machine Pool TextFile

namespace Phase

/-- Before the `fopen` of `write_output`. -/
def beforeOpen : Phase → Bool
  | .counted _ => true
  | .queueing => true
  | .starting => true
  | .waiting => true
  | .woken => true
  | .resumed => true
  | .testing => true
  | .locking => true
  | .entering => true
  | .entered => true
  | .loaded _ => true
  | .acted => true
  | _ => false

/-- Between the `fopen` and the `fclose`. -/
def writing : Phase → Bool
  | .opened => true
  | .formatted _ => true
  | _ => false

/-- What `fclose` will write. -/
def buffer : Phase → Option (List Char)
  | .formatted buffer => some buffer
  | _ => none

end Phase

/-- `read_output`: what `counter` is set to when the server starts.  `buffer`
is what the array holds before anything is read. -/
def readOutput (buffer : List Char) : Option (List Char) → BitVec 32
  | some content => atoi (lastLine 20 buffer content)
  | none => 0

theorem readOutput_text (buffer : List Char) (counter : BitVec 32) :
    readOutput buffer (some (text counter.toInt)) = counter := by
  have small : counter.toInt.natAbs < 10 ^ 10 := by
    have least := BitVec.le_toInt counter
    have greatest := BitVec.toInt_lt (x := counter)
    omega
  have short := length_text_le (by decide) small
  rw [readOutput,
    lastLine_eq buffer (text_ne_nil _) (by omega) (newline_not_mem_text _),
    atoi_text]

namespace Server

/-- Whoever closes its stream writes the present value of `counter`, or
somebody will truncate the file again. -/
def Fresh (server : Server) : ServerAction → Prop
  | .arrive _ => True
  | .advance index _ =>
      ∀ thread ∈ server.threads[index]?,
        ∀ buffer ∈ thread.phase.buffer,
          buffer = text server.counter.toInt ∨
            ∃ other ∈ server.threads, other.phase.beforeOpen = true

instance (server : Server) : ∀ action, Decidable (server.Fresh action)
  | .arrive _ => isTrue trivial
  | .advance index _ =>
      inferInstanceAs
        (Decidable
          (∀ thread ∈ server.threads[index]?,
            ∀ buffer ∈ thread.phase.buffer,
              buffer = text server.counter.toInt ∨
                ∃ other ∈ server.threads, other.phase.beforeOpen = true))

/-- The file holds the text of `counter`, or nothing yet, or it is still to
be truncated. -/
inductive Saved (server : Server) : Prop where
  | stale (later : ∃ thread ∈ server.threads,
      thread.phase.beforeOpen = true)
  | untouched (nobody : server.threads = [])
  | written (current : server.output = text server.counter.toInt)
  | truncated (empty : server.output = [])
      (writes : ∃ thread ∈ server.threads, thread.phase.writing = true)

section Steps

variable {options : Options} {server next : Server} {index : Nat}

/-- When every request is done, the file holds the text of `counter`. -/
theorem Saved.output
    (saved : server.Saved) (idle : server.Idle)
    (served : server.threads ≠ []) :
    server.output = text server.counter.toInt := by
  cases saved with
  | stale later =>
      obtain ⟨thread, listed, before⟩ := later
      obtain ⟨response, finished⟩ := idle thread listed
      rw [finished] at before
      cases before
  | untouched nobody => exact absurd nobody served
  | written current => exact current
  | truncated _ writes =>
      obtain ⟨thread, listed, isWriting⟩ := writes
      obtain ⟨response, finished⟩ := idle thread listed
      rw [finished] at isWriting
      cases isWriting

theorem Saved.keep
    (saved : server.Saved) {before after : Thread}
    (here : server.threads[index]? = some before)
    (threads : next.threads = server.threads.set index after)
    (output : next.output = server.output)
    (counter : next.counter = server.counter)
    (sameBefore : after.phase.beforeOpen = before.phase.beforeOpen)
    (sameWriting : after.phase.writing = before.phase.writing) :
    next.Saved := by
  cases saved with
  | stale later =>
      apply Saved.stale
      rw [threads]
      exact
        (exists_set_iff here (fun thread => thread.phase.beforeOpen)
          sameBefore).mpr later
  | untouched nobody =>
      rw [nobody] at here
      cases here
  | written current =>
      apply Saved.written
      rw [output, counter]
      exact current
  | truncated empty writes =>
      apply Saved.truncated
      · rw [output]
        exact empty
      · rw [threads]
        exact
          (exists_set_iff here (fun thread => thread.phase.writing)
            sameWriting).mpr writes

theorem Saved.fclose
    (saved : server.Saved) {action : Operation} {locked : Bool}
    {buffer : List Char}
    (here : server.threads[index]? = some ⟨action, locked, .formatted buffer⟩)
    (threads :
      next.threads = server.threads.set index ⟨action, locked, .closed⟩)
    (output : next.output = overwrite server.output buffer)
    (counter : next.counter = server.counter)
    (fresh :
      buffer = text server.counter.toInt ∨
        ∃ other ∈ server.threads, other.phase.beforeOpen = true) :
    next.Saved := by
  rcases fresh with rfl | later
  · cases saved with
    | stale later =>
        apply Saved.stale
        rw [threads]
        refine
          (exists_set_iff here (fun thread => thread.phase.beforeOpen)
            ?_).mpr later
        rfl
    | untouched nobody =>
        rw [nobody] at here
        cases here
    | written current =>
        apply Saved.written
        rw [output, current, counter, overwrite_self]
    | truncated empty _ =>
        apply Saved.written
        rw [output, empty, counter, overwrite_nil]
  · apply Saved.stale
    rw [threads]
    refine
      (exists_set_iff here (fun thread => thread.phase.beforeOpen)
        ?_).mpr later
    rfl

theorem Saved.wake
    (saved : server.Saved) {condition : Operation} {woken : Option Nat}
    (taken : server.wake condition woken = some next) : next.Saved := by
  rcases wake_cases taken with
    ⟨_, rfl⟩ | ⟨sleeper, thread, here, asleep, rfl⟩
  · exact saved
  · simp only [sleeps, decide_eq_true_eq] at asleep
    refine saved.keep here rfl rfl rfl ?_ ?_
    · rw [asleep.1]
      rfl
    · rw [asleep.1]
      rfl

theorem Saved.advance
    (saved : server.Saved) {thread : Thread} {woken : Option Nat}
    (here : server.threads[index]? = some thread)
    (fresh : server.Fresh (.advance index woken))
    (taken : server.advance options index thread woken = some next) :
    next.Saved := by
  obtain ⟨action, locked, phase⟩ := thread
  have writesFresh := fresh _ here
  cases phase
  case counted waits =>
    cases waits with
    | true =>
        simp only [Server.advance, Option.ite_none_right_eq_some,
          Option.some.injEq] at taken
        obtain ⟨_, rfl⟩ := taken
        exact saved.keep here rfl rfl rfl rfl rfl
    | false =>
        cases taken
        exact saved.keep here rfl rfl rfl rfl rfl
  case woken | locking | closed =>
    simp only [Server.advance, Option.ite_none_right_eq_some,
      Option.some.injEq] at taken
    obtain ⟨_, rfl⟩ := taken
    exact saved.keep here rfl rfl rfl rfl rfl
  case testing =>
    simp only [Server.advance] at taken
    split at taken
    · cases taken
      exact saved.keep here rfl rfl rfl rfl rfl
    · cases taken
      exact saved.keep here rfl rfl rfl rfl rfl
  case entered =>
    cases action with
    | write =>
        cases taken
        exact saved.keep here rfl rfl rfl rfl rfl
    | read =>
        cases taken
        exact saved.keep here rfl rfl rfl rfl rfl
  case loaded value =>
    cases taken
    exact
      Saved.stale
        ⟨_, List.mem_of_getElem? (getElem?_set_here here), rfl⟩
  case acted =>
    cases taken
    exact
      Saved.truncated rfl
        ⟨_, List.mem_of_getElem? (getElem?_set_here here), rfl⟩
  case formatted buffer =>
    cases taken
    exact saved.fclose here rfl rfl rfl (writesFresh buffer rfl)
  case departing =>
    refine Saved.wake ?_ taken
    exact saved.keep here rfl rfl rfl rfl rfl
  case signalled =>
    cases taken
    cases locked with
    | true => exact saved.keep here rfl rfl rfl rfl rfl
    | false => exact saved.keep here rfl rfl rfl rfl rfl
  case waiting | finished => cases taken
  all_goals
    cases taken
    exact saved.keep here rfl rfl rfl rfl rfl

theorem Saved.step
    (saved : server.Saved) {action : ServerAction}
    (fresh : server.Fresh action)
    (taken : server.step options action = some next) : next.Saved := by
  cases action with
  | arrive action =>
      obtain ⟨_, rfl⟩ := step_arrive taken
      exact
        Saved.stale
          ⟨_, List.mem_append_right _ (List.mem_singleton_self _), rfl⟩
  | advance index woken =>
      obtain ⟨thread, here, advanced⟩ := step_advance taken
      exact saved.advance here fresh advanced

end Steps

/-- In a run whose streams write the present value, the file that is left
when every request is done holds the text of `counter`, and a restart goes on
from there. -/
theorem output_persisted
    (options : Options) (counter : BitVec 32) (output : List Char)
    {actions : List ServerAction} {final : Server}
    (fresh :
      Obeys (step options) Fresh (initial counter output) actions)
    (reached :
      run (step options) (initial counter output) actions = some final)
    (idle : final.Idle) (served : final.threads ≠ []) :
    final.output = text final.counter.toInt ∧
      ∀ buffer, readOutput buffer (some final.output) = final.counter := by
  have saved : final.Saved :=
    invariant_of_run
      (fun _ _ _ saved fresh taken => Saved.step saved fresh taken)
      (Saved.untouched rfl) fresh reached
  have persisted := saved.output idle served
  refine ⟨persisted, fun buffer => ?_⟩
  rw [persisted]
  exact readOutput_text buffer final.counter

/-- All the steps of a request that never has to wait. -/
def alone (action : Operation) (index : Nat) : List ServerAction :=
  .arrive action ::
    List.replicate (if action = .write then 14 else 11) (.advance index none)

/-- A writer and then a reader. -/
theorem output_persisted_alone :
    ∃ final : Server,
      run (step ⟨.write, 1⟩) (initial 9 [])
          (alone .write 0 ++ alone .read 1) =
        some final ∧
        final.output = text final.counter.toInt ∧
        ∀ buffer, readOutput buffer (some final.output) = final.counter := by
  have evaluated :
      ((run (step ⟨.write, 1⟩) (initial 9 [])
        (alone .write 0 ++ alone .read 1)).map
        Server.threads) =
          some
            [⟨.write, true, .finished 10⟩, ⟨.read, false, .finished 10⟩] := by
    decide
  obtain ⟨final, reached, threads⟩ := Option.map_eq_some_iff.mp evaluated
  refine ⟨final, reached, ?_⟩
  apply output_persisted ⟨.write, 1⟩ 9 [] (by decide) reached
  · intro thread listed
    rw [threads] at listed
    simp only [List.mem_cons, List.not_mem_nil, or_false] at listed
    rcases listed with rfl | rfl
    · exact ⟨10, rfl⟩
    · exact ⟨10, rfl⟩
  · rw [threads]
    exact List.cons_ne_nil _ _

/-- A reader formats 9 and closes its stream when a writer has written 10. -/
theorem output_mixed :
    ¬ ∀ (options : Options) (counter : BitVec 32) (output : List Char)
        (actions : List ServerAction) (final : Server),
        run (step options) (initial counter output) actions = some final →
          final.Idle → final.threads ≠ [] →
            final.output = text final.counter.toInt := by
  intro persisted
  have evaluated :
      ((run (step ⟨.write, 1⟩) (initial 9 [])
        (.arrive .read :: List.replicate 6 (.advance 0 none) ++
          alone .write 1 ++ List.replicate 5 (.advance 0 none))).map
        (fun final => (final.threads, final.output, final.counter))) =
          some
            ([⟨.read, false, .finished 10⟩, ⟨.write, true, .finished 10⟩],
              ['9', '0'], 10) := by
    decide
  obtain ⟨final, reached, state⟩ := Option.map_eq_some_iff.mp evaluated
  simp only [Prod.mk.injEq] at state
  obtain ⟨threads, output, counter⟩ := state
  have idle : final.Idle := by
    intro thread listed
    rw [threads] at listed
    simp only [List.mem_cons, List.not_mem_nil, or_false] at listed
    rcases listed with rfl | rfl
    · exact ⟨10, rfl⟩
    · exact ⟨10, rfl⟩
  have served : final.threads ≠ [] := by
    rw [threads]
    exact List.cons_ne_nil _ _
  have text_eq := persisted _ _ _ _ final reached idle served
  rw [output, counter] at text_eq
  exact absurd text_eq (by decide)

end Server

end SistemasDistribuidos.Practica3
