import SistemasDistribuidos.Practica4.Network

/-!
# One connection

What the broker's thread of a connection, its client and the bytes on their way
to the client must have to do with each other, and that it stays so whatever
one of them does.
-/

namespace SistemasDistribuidos.Practica4

open SistemasDistribuidos

/-- If the client is stored, its id is this one. -/
def Phase.Answers (phase : Phase) (id : Int) : Prop :=
  ∀ member, phase.present = some member → member.id = id

/-- The broker's thread, the client and what it can read agree. -/
structure Agrees (options : Options) (fd : Fd) (phase : Phase)
    (quit : Bool) (process : Process) (inbox : List Word) : Prop where
  owner : ∀ member, phase.present = some member →
    member.kind = options.clientType ∧ member.topic = options.clientTopic
  early : phase.unanswered = true →
    process.place = .registering ∧ inbox = []
  registering : process.place = .registering →
    phase.unanswered = true ∨
      ∃ word rest, inbox = word :: rest ∧ phase.Answers word.id ∧
        ∀ later ∈ rest, later.origin ≠ .registration
  responded : ∀ responseStatus id,
    process.place = .responded responseStatus id → phase.Answers id
  identified : process.place ≠ .registering →
    (∀ responseStatus id,
      process.place ≠ .responded responseStatus id) →
        phase.Answers process.clientId
  read : process.place ≠ .registering →
    ∀ word ∈ inbox, word.origin ≠ .registration
  quitting : quit = true →
    process.place = .waiting ∨ process.place = .reported
  replied : ∀ word ∈ inbox, word.origin = .unregistration →
    phase.removed = true
  reported : process.place = .reported → phase.removed = true
  target : ∀ member topicId fdToDel,
    phase = .shifted member topicId fdToDel → fdToDel = fd

namespace Agrees

variable {options : Options} {fd : Fd} {phase next : Phase}
  {quit : Bool} {process : Process} {inbox : List Word}

theorem initial (options : Options) (fd : Fd) :
    Agrees options fd .accepted false ⟨0, .registering⟩ [] where
  owner := fun _ impossible => nomatch impossible
  early := fun _ => ⟨rfl, rfl⟩
  registering := fun _ => Or.inl rfl
  responded := fun _ _ impossible => nomatch impossible
  identified := fun impossible _ => absurd rfl impossible
  read := fun impossible => absurd rfl impossible
  quitting := fun impossible => nomatch impossible
  replied := fun _ impossible => nomatch impossible
  reported := fun impossible => nomatch impossible
  target := fun _ _ _ impossible => nomatch impossible

/-- A client that has sent its `UNREGISTER` is waiting or done. -/
theorem notQuit
    (agrees : Agrees options fd phase quit process inbox)
    (early : process.place = .registering) : quit = false := by
  cases quit with
  | false => rfl
  | true =>
      rcases agrees.quitting rfl with waits | done
      · rw [early] at waits
        cases waits
      · rw [early] at done
        cases done

/-- The thread goes on before its response. -/
theorem unanswered
    (agrees : Agrees options fd phase quit process inbox)
    (before : phase.unanswered = true) (after : next.unanswered = true)
    (owner : ∀ member, next.present = some member →
      member.kind = options.clientType ∧
        member.topic = options.clientTopic)
    (target : ∀ member topicId fdToDel,
      next ≠ .shifted member topicId fdToDel) :
    Agrees options fd next quit process inbox := by
  obtain ⟨place, empty⟩ := agrees.early before
  have unquit := agrees.notQuit place
  subst empty unquit
  refine
    { owner := owner
      early := fun _ => ⟨place, rfl⟩
      registering := fun _ => Or.inl after
      responded := ?_
      identified := fun impossible => absurd place impossible
      read := fun impossible => absurd place impossible
      quitting := fun impossible => nomatch impossible
      replied := fun _ impossible => nomatch impossible
      reported := ?_
      target := fun member topicId fdToDel shifted =>
        absurd shifted (target member topicId fdToDel) }
  · intro _ _ impossible
    rw [place] at impossible
    cases impossible
  · intro impossible
    rw [place] at impossible
    cases impossible

theorem respond
    (agrees : Agrees options fd phase quit process inbox)
    (before : phase.unanswered = true) (after : next.unanswered = false)
    (present : next.present = phase.present)
    (word : Word) (origin : word.origin = .registration)
    (answers : phase.Answers word.id)
    (target : ∀ member topicId fdToDel,
      next ≠ .shifted member topicId fdToDel) :
    Agrees options fd next quit process (inbox ++ [word]) := by
  obtain ⟨place, empty⟩ := agrees.early before
  have unquit := agrees.notQuit place
  subst empty unquit
  refine
    { owner := fun member here => agrees.owner member (present ▸ here)
      early := fun impossible => ?_
      registering := fun _ =>
        Or.inr
          ⟨word, [], rfl, fun member here =>
            answers member (present ▸ here), fun _ impossible =>
              nomatch impossible⟩
      responded := ?_
      identified := fun impossible => absurd place impossible
      read := fun impossible => absurd place impossible
      quitting := fun impossible => nomatch impossible
      replied := ?_
      reported := ?_
      target := fun member topicId fdToDel shifted =>
        absurd shifted (target member topicId fdToDel) }
  · rw [after] at impossible
    cases impossible
  · intro _ _ impossible
    rw [place] at impossible
    cases impossible
  · intro other listed unregistration
    rw [List.mem_singleton.mp listed, origin] at unregistration
    cases unregistration
  · intro impossible
    rw [place] at impossible
    cases impossible

/-- The thread goes on after its response. -/
theorem move
    (agrees : Agrees options fd phase quit process inbox)
    (before : phase.unanswered = false)
    (after : next.unanswered = false)
    (present : ∀ member, next.present = some member →
      phase.present = some member)
    (removed : phase.removed = true → next.removed = true)
    (target : ∀ member topicId fdToDel,
      next = .shifted member topicId fdToDel → fdToDel = fd) :
    Agrees options fd next quit process inbox where
  owner := fun member here => agrees.owner member (present member here)
  early := by
    intro impossible
    rw [after] at impossible
    cases impossible
  registering := by
    intro place
    rcases agrees.registering place with
      impossible | ⟨word, rest, here, answers, later⟩
    · rw [before] at impossible
      cases impossible
    · exact
        Or.inr
          ⟨word, rest, here, fun member there =>
            answers member (present member there), later⟩
  responded := fun responseStatus id place member here =>
    agrees.responded responseStatus id place member (present member here)
  identified := fun notRegistering notResponded member here =>
    agrees.identified notRegistering notResponded member
      (present member here)
  read := agrees.read
  quitting := agrees.quitting
  replied := fun word listed origin =>
    removed (agrees.replied word listed origin)
  reported := fun place => removed (agrees.reported place)
  target := target

/-- More bytes arrive that are not a response to `REGISTER`. -/
theorem deliver
    (agrees : Agrees options fd phase quit process inbox)
    (answered : phase.unanswered = false)
    {words : List Word}
    (origin : ∀ word ∈ words, word.origin ≠ .registration)
    (removed : ∀ word ∈ words, word.origin = .unregistration →
      phase.removed = true) :
    Agrees options fd phase quit process (inbox ++ words) where
  owner := agrees.owner
  early := by
    intro impossible
    rw [answered] at impossible
    cases impossible
  registering := by
    intro place
    rcases agrees.registering place with
      impossible | ⟨word, rest, here, answers, later⟩
    · exact Or.inl impossible
    · refine
        Or.inr ⟨word, rest ++ words, by rw [here]; rfl, answers, ?_⟩
      intro other listed
      rcases List.mem_append.mp listed with old | new
      · exact later other old
      · exact origin other new
  responded := agrees.responded
  identified := agrees.identified
  read := by
    intro notRegistering word listed
    rcases List.mem_append.mp listed with old | new
    · exact agrees.read notRegistering word old
    · exact origin word new
  quitting := agrees.quitting
  replied := by
    intro word listed unregistration
    rcases List.mem_append.mp listed with old | new
    · exact agrees.replied word old unregistration
    · exact removed word new unregistration
  reported := agrees.reported
  target := agrees.target

theorem receive
    (agrees : Agrees options fd phase quit process inbox)
    (place : process.place = .registering)
    {word : Word} {rest : List Word} (here : inbox = word :: rest) :
    Agrees options fd phase quit
      { process with place := .responded word.responseStatus word.id }
      rest := by
  have unquit := agrees.notQuit place
  subst unquit
  obtain ⟨answers, later⟩ :
      phase.Answers word.id ∧
        ∀ later ∈ rest, later.origin ≠ .registration := by
    rcases agrees.registering place with
      unanswered | ⟨first, others, same, answers, later⟩
    · have empty := (agrees.early unanswered).2
      rw [here] at empty
      cases empty
    · rw [here] at same
      cases same
      exact ⟨answers, later⟩
  refine
    { owner := agrees.owner
      early := ?_
      registering := fun impossible => nomatch impossible
      responded := ?_
      identified := fun _ impossible => absurd rfl (impossible _ _)
      read := fun _ => later
      quitting := fun impossible => nomatch impossible
      replied := ?_
      reported := fun impossible => nomatch impossible
      target := agrees.target }
  · intro unanswered
    have empty := (agrees.early unanswered).2
    rw [here] at empty
    cases empty
  · intro _ _ same
    cases same
    exact answers
  · intro other listed
    exact
      agrees.replied other (by rw [here]; exact List.mem_cons_of_mem _ listed)

/-- A client that has read the response goes on, and may read more. -/
theorem advance
    (agrees : Agrees options fd phase quit process inbox)
    (notRegistering : process.place ≠ .registering)
    {nextQuit : Bool} {after : Process} {rest : List Word}
    (answers : phase.Answers after.clientId)
    (stillNotRegistering : after.place ≠ .registering)
    (notResponded : ∀ responseStatus id,
      after.place ≠ .responded responseStatus id)
    (fewer : ∀ word ∈ rest, word ∈ inbox)
    (quitting : nextQuit = true →
      after.place = .waiting ∨ after.place = .reported)
    (reported : after.place = .reported → phase.removed = true) :
    Agrees options fd phase nextQuit after rest where
  owner := agrees.owner
  early := fun unanswered =>
    absurd (agrees.early unanswered).1 notRegistering
  registering := fun impossible => absurd impossible stillNotRegistering
  responded := fun responseStatus id impossible =>
    absurd impossible (notResponded responseStatus id)
  identified := fun _ _ => answers
  read := fun _ word listed =>
    agrees.read notRegistering word (fewer word listed)
  quitting := quitting
  replied := fun word listed => agrees.replied word (fewer word listed)
  reported := reported
  target := agrees.target

end Agrees

end SistemasDistribuidos.Practica4
