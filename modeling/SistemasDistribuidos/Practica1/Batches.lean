import Mathlib.Data.List.Range
import SistemasDistribuidos.Practica1.MultiHilo

/-!
# The batches of the multithreaded server

A batch begins with the first slot and ends when `NUMBER_OF_THREADS` clients
have been accepted.  What carries the proof is that the threads of the batches
before are done: a thread of the present batch has the slot of its place in
the batch, and nothing writes to that slot until all threads have been joined.
-/

namespace SistemasDistribuidos.Practica1.MultiHilo

open SistemasDistribuidos Machine Pool

namespace MainPhase

/-- The thread of this slot has been joined. -/
def hasJoined (main : MainPhase) (slot : Nat) : Bool :=
  match main with
  | .joining i => slot < i
  | .closing _ => true
  | _ => false

/-- How many descriptors of the present batch have been closed. -/
def closes : MainPhase → Nat
  | .closing i => i
  | _ => 0

/-- How many clients of the present batch have been accepted. -/
def Allows (currentThread : Nat) : MainPhase → Prop
  | .looping => currentThread ≤ numberOfThreads
  | .joining i => currentThread = numberOfThreads ∧ i ≤ numberOfThreads
  | .closing i => currentThread = numberOfThreads ∧ i ≤ numberOfThreads
  | .accepting => currentThread < numberOfThreads
  | .creating _ => currentThread < numberOfThreads

end MainPhase

/-- What holds of every thread, of this batch or of one before. -/
structure Thread.Serves (thread : Thread) (index : Nat) : Prop where
  inside : thread.slot < numberOfThreads
  socket : ∀ clientSocket,
    thread.phase = .receiving clientSocket ∨
        thread.phase = .sending clientSocket →
      clientSocket = thread.accepted
  used : ∀ connection ∈ thread.used, connection = some index
  isDone : thread.joined = true → thread.phase = .finished

/-- The thread of the present batch that has this slot. -/
structure Thread.Present (thread : Thread) (slot : Nat)
    (server : Server) (base : Nat) : Prop where
  place : thread.slot = slot
  fd : server.fds slot = thread.accepted
  named : server.threads slot = base + slot
  joined : thread.joined = server.main.hasJoined slot
  isOpen : server.main.closes ≤ slot →
    server.descriptors thread.accepted = some (base + slot)

theorem Thread.Present.stillOpen
    {server : Server} {base : Nat} {thread : Thread} {slot : Nat}
    (present : thread.Present slot server base)
    (notJoined : thread.joined = false) :
    server.descriptors thread.accepted = some (base + slot) := by
  apply present.isOpen
  have joined := present.joined
  rw [notJoined] at joined
  cases here : server.main with
  | closing i =>
      rw [here] at joined
      cases joined
  | _ => exact Nat.zero_le slot

theorem Thread.Present.keep
    {server next : Server} {base : Nat} {thread : Thread} {slot : Nat}
    (present : thread.Present slot server base)
    (sameFd : next.fds slot = server.fds slot)
    (sameNamed : next.threads slot = server.threads slot)
    (sameJoined :
      next.main.hasJoined slot = server.main.hasJoined slot)
    (isOpen : next.main.closes ≤ slot →
      next.descriptors thread.accepted = some (base + slot)) :
    thread.Present slot next base where
  place := present.place
  fd := sameFd.trans present.fd
  named := sameNamed.trans present.named
  joined := present.joined.trans sameJoined.symm
  isOpen := isOpen

/-- The present batch begins with the thread `base`. -/
structure Server.Batch (server : Server) (base : Nat) : Prop where
  whole : numberOfThreads ∣ base
  length : server.pool.length = base + server.currentThread
  allows : server.main.Allows server.currentThread
  serves : ∀ (index : Nat) (thread : Thread),
    server.pool[index]? = some thread → thread.Serves index
  past : ∀ (index : Nat) (thread : Thread),
    index < base → server.pool[index]? = some thread →
      thread.joined = true
  present : ∀ (slot : Nat) (thread : Thread),
    server.pool[base + slot]? = some thread →
      thread.Present slot server base
  chosen : ∀ clientSocket, server.main = .creating clientSocket →
    server.fds server.currentThread = clientSocket ∧
      server.descriptors clientSocket = some server.pool.length
  closed : server.closed = (List.range (base + server.main.closes)).map some

namespace Server

section Steps

variable {server next : Server} {base : Nat}

theorem batch_initial (fds : Nat → Int) (threads : Nat → Nat) :
    (initial fds threads).Batch 0 where
  whole := Nat.dvd_zero _
  length := rfl
  allows := Nat.zero_le _
  serves := nofun
  past := nofun
  present := by
    intro slot thread impossible
    cases impossible
  chosen := nofun
  closed := rfl

/-- A thread that has not finished is of the present batch. -/
theorem Batch.unfinished
    (batch : server.Batch base) {index : Nat} {thread : Thread}
    (here : server.pool[index]? = some thread)
    (runs : thread.phase ≠ .finished) :
    ∃ slot,
      index = base + slot ∧ slot < server.currentThread ∧
        thread.joined = false ∧ thread.Present slot server base := by
  have notJoined : thread.joined = false := by
    rw [Bool.eq_false_iff]
    intro joined
    exact runs ((batch.serves index thread here).isDone joined)
  have notPast : base ≤ index := by
    by_contra earlier
    have joined := batch.past index thread (not_le.mp earlier) here
    rw [notJoined] at joined
    cases joined
  obtain ⟨slot, rfl⟩ := Nat.exists_eq_add_of_le notPast
  have inPool := (List.getElem?_eq_some_iff.mp here).1
  rw [batch.length] at inPool
  exact
    ⟨slot, rfl, by omega, notJoined, batch.present slot thread here⟩

theorem Batch.move
    (batch : server.Batch base) {index : Nat} {before after : Thread}
    (here : server.pool[index]? = some before)
    (sameSlot : after.slot = before.slot)
    (sameAccepted : after.accepted = before.accepted)
    (sameJoined : after.joined = before.joined)
    (serves : after.Serves index) :
    { server with pool := server.pool.set index after }.Batch base where
  whole := batch.whole
  length := by
    rw [List.length_set]
    exact batch.length
  allows := batch.allows
  serves := by
    intro other thread otherHere
    rcases getElem?_set_cases otherHere with ⟨rfl, rfl⟩ | ⟨_, unmoved⟩
    · exact serves
    · exact batch.serves other thread unmoved
  past := by
    intro other thread earlier otherHere
    rcases getElem?_set_cases otherHere with ⟨rfl, rfl⟩ | ⟨_, unmoved⟩
    · rw [sameJoined]
      exact batch.past other before earlier here
    · exact batch.past other thread earlier unmoved
  present := by
    intro slot thread otherHere
    rcases getElem?_set_cases otherHere with ⟨rfl, rfl⟩ | ⟨_, unmoved⟩
    · have present := batch.present slot before here
      exact
        { place := sameSlot.trans present.place
          fd := present.fd.trans sameAccepted.symm
          named := present.named
          joined := sameJoined.trans present.joined
          isOpen := by
            rw [sameAccepted]
            exact present.isOpen }
    · have present := batch.present slot thread unmoved
      exact present.keep rfl rfl rfl present.isOpen
  chosen := by
    intro clientSocket creating
    rw [List.length_set]
    exact batch.chosen clientSocket creating
  closed := batch.closed

theorem Batch.threadStep
    (batch : server.Batch base) {index : Nat} {thread : Thread}
    (here : server.pool[index]? = some thread)
    (taken : server.ThreadStep next index thread) : next.Batch base := by
  have runs : thread.phase ≠ .finished := by
    intro isDone
    cases taken with
    | read isHere moved => cases isDone.symm.trans isHere
    | receive clientSocket isHere moved => cases isDone.symm.trans isHere
    | send clientSocket isHere moved => cases isDone.symm.trans isHere
  obtain ⟨slot, rfl, inside, notJoined, present⟩ :=
    batch.unfinished here runs
  have serves := batch.serves (base + slot) thread here
  have isOpen := present.stillOpen notJoined
  have uses : ∀ clientSocket,
      thread.phase = .receiving clientSocket ∨
          thread.phase = .sending clientSocket →
        ∀ connection ∈ thread.used ++ [server.descriptors clientSocket],
          connection = some (base + slot) := by
    intro clientSocket talks connection listed
    rcases List.mem_append.mp listed with before | now
    · exact serves.used connection before
    · rw [List.mem_singleton.mp now, serves.socket clientSocket talks]
      exact isOpen
  cases taken with
  | read isHere moved =>
      subst moved
      refine batch.move here rfl rfl rfl ?_
      refine ⟨serves.inside, ?_, serves.used, ?_⟩
      · intro clientSocket talks
        rcases talks with reads | sends
        · cases reads
          rw [present.place]
          exact present.fd
        · cases sends
      · intro joined
        cases notJoined.symm.trans joined
  | receive clientSocket isHere moved =>
      subst moved
      refine batch.move here rfl rfl rfl ?_
      refine ⟨serves.inside, ?_, uses clientSocket (Or.inl isHere), ?_⟩
      · intro other talks
        rcases talks with reads | sends
        · cases reads
        · cases sends
          exact serves.socket clientSocket (Or.inl isHere)
      · intro joined
        cases notJoined.symm.trans joined
  | send clientSocket isHere moved =>
      subst moved
      refine batch.move here rfl rfl rfl ?_
      refine
        ⟨serves.inside, ?_, uses clientSocket (Or.inr isHere), fun _ => rfl⟩
      intro other talks
      rcases talks with reads | sends
      · cases reads
      · cases sends

theorem Batch.exit (batch : server.Batch base) :
    { server with exited := true }.Batch base where
  whole := batch.whole
  length := batch.length
  allows := batch.allows
  serves := batch.serves
  past := batch.past
  present := by
    intro slot thread here
    have present := batch.present slot thread here
    exact present.keep rfl rfl rfl present.isOpen
  chosen := batch.chosen
  closed := batch.closed

/-- The main thread goes on, and nothing else changes. -/
theorem Batch.proceed
    (batch : server.Batch base) {main : MainPhase}
    (allows : main.Allows server.currentThread)
    (sameJoined : ∀ slot < server.currentThread,
      main.hasJoined slot = server.main.hasJoined slot)
    (sameCloses : main.closes = server.main.closes)
    (notCreating : ∀ clientSocket, main ≠ .creating clientSocket) :
    { server with main := main }.Batch base where
  whole := batch.whole
  length := batch.length
  allows := allows
  serves := batch.serves
  past := batch.past
  present := by
    intro slot thread here
    have present := batch.present slot thread here
    have inPool := (List.getElem?_eq_some_iff.mp here).1
    rw [batch.length] at inPool
    refine present.keep rfl rfl (sameJoined slot (by omega)) ?_
    rw [sameCloses]
    exact present.isOpen
  chosen := by
    intro clientSocket creating
    exact absurd creating (notCreating clientSocket)
  closed := by
    rw [sameCloses]
    exact batch.closed

theorem Batch.exists_thread
    (batch : server.Batch base) {slot : Nat}
    (inside : slot < server.currentThread) :
    ∃ thread,
      server.pool[base + slot]? = some thread ∧
        thread.Present slot server base := by
  have inPool : base + slot < server.pool.length := by
    rw [batch.length]
    omega
  exact
    ⟨server.pool[base + slot], List.getElem?_eq_getElem inPool,
      batch.present slot _ (List.getElem?_eq_getElem inPool)⟩

theorem Batch.joins
    (batch : server.Batch base) {i : Nat}
    (here : server.main = .joining i) (inside : i < numberOfThreads) :
    ∃ thread,
      server.threads i = base + i ∧
        server.pool[base + i]? = some thread ∧ thread.joined = false := by
  have allows := batch.allows
  rw [here] at allows
  obtain ⟨thread, there, present⟩ :=
    batch.exists_thread (lt_of_lt_of_eq inside allows.1.symm)
  refine ⟨thread, present.named, there, ?_⟩
  have joined := present.joined
  rw [here] at joined
  exact joined.trans (decide_eq_false (lt_irrefl i))

theorem Batch.join
    (batch : server.Batch base) {i : Nat} {thread : Thread}
    (here : server.main = .joining i) (inside : i < numberOfThreads)
    (there : server.pool[base + i]? = some thread)
    (isDone : thread.phase = .finished) :
    { server with
      main := .joining (i + 1)
      pool :=
        server.pool.set (base + i)
          { thread with joined := true } }.Batch base where
  whole := batch.whole
  length := by
    rw [List.length_set]
    exact batch.length
  allows := by
    have allows := batch.allows
    rw [here] at allows
    exact ⟨allows.1, inside⟩
  serves := by
    intro other otherThread otherHere
    rcases getElem?_set_cases otherHere with ⟨rfl, rfl⟩ | ⟨_, unmoved⟩
    · have serves := batch.serves _ thread there
      exact ⟨serves.inside, serves.socket, serves.used, fun _ => isDone⟩
    · exact batch.serves other otherThread unmoved
  past := by
    intro other otherThread earlier otherHere
    rcases getElem?_set_cases otherHere with ⟨rfl, rfl⟩ | ⟨_, unmoved⟩
    · rfl
    · exact batch.past other otherThread earlier unmoved
  present := by
    intro slot otherThread otherHere
    rcases getElem?_set_cases otherHere with
      ⟨same, rfl⟩ | ⟨other, unmoved⟩
    · obtain rfl := Nat.add_left_cancel same
      have present := batch.present slot thread there
      have isOpen := present.isOpen
      rw [here] at isOpen
      exact
        ⟨present.place, present.fd, present.named,
          (decide_eq_true (Nat.lt_succ_self slot)).symm, isOpen⟩
    · have present := batch.present slot otherThread unmoved
      have joined := present.joined
      have isOpen := present.isOpen
      rw [here] at joined isOpen
      refine ⟨present.place, present.fd, present.named, ?_, isOpen⟩
      rw [joined]
      exact decide_eq_decide.mpr (by omega)
  chosen := nofun
  closed := by
    have closed := batch.closed
    rw [here] at closed
    exact closed

theorem Batch.close
    (batch : server.Batch base) {i : Nat}
    (here : server.main = .closing i) (inside : i < numberOfThreads) :
    server.descriptors (server.fds i) = some (base + i) ∧
      { server with
        main := .closing (i + 1)
        descriptors :=
          Function.update server.descriptors (server.fds i) none
        closed := server.closed ++ [some (base + i)] }.Batch base := by
  have allows := batch.allows
  have closed := batch.closed
  rw [here] at allows closed
  obtain ⟨thread, _, present⟩ :=
    batch.exists_thread (lt_of_lt_of_eq inside allows.1.symm)
  have isOpen := present.isOpen
  rw [here, ← present.fd] at isOpen
  refine ⟨isOpen (le_refl i), ?_⟩
  exact
    { whole := batch.whole
      length := batch.length
      allows := ⟨allows.1, inside⟩
      serves := batch.serves
      past := batch.past
      present := by
        intro slot other otherHere
        have otherPresent := batch.present slot other otherHere
        have otherOpen := otherPresent.isOpen
        rw [here] at otherOpen
        refine otherPresent.keep rfl rfl ?_ ?_
        · rw [here]
          rfl
        · intro later
          have unmoved := otherOpen (Nat.le_of_succ_le later)
          have different : other.accepted ≠ server.fds i := by
            intro same
            rw [same, isOpen (le_refl i), Option.some.injEq] at unmoved
            have moved : i + 1 ≤ slot := later
            omega
          exact
            (Function.update_of_ne different none server.descriptors).trans
              unmoved
      chosen := nofun
      closed := by
        have next := List.range_succ (n := base + i)
        show server.closed ++ [some (base + i)] =
          (List.range (base + i + 1)).map some
        rw [next, List.map_append, closed]
        rfl }

/-- All threads have been joined and all descriptors are closed: the next
batch begins. -/
theorem Batch.reset
    (batch : server.Batch base) {i : Nat}
    (here : server.main = .closing i) (all : numberOfThreads ≤ i) :
    { server with
      main := .accepting
      currentThread := 0 }.Batch (base + numberOfThreads) := by
  have allows := batch.allows
  have closed := batch.closed
  have length := batch.length
  rw [here] at allows closed
  obtain ⟨full, small⟩ := allows
  obtain rfl : i = numberOfThreads := le_antisymm small all
  rw [full] at length
  exact
    { whole := Nat.dvd_add batch.whole (dvd_refl _)
      length := length
      allows := by
        show 0 < numberOfThreads
        decide
      serves := batch.serves
      past := by
        intro index thread earlier threadHere
        by_cases before : index < base
        · exact batch.past index thread before threadHere
        · obtain ⟨slot, rfl⟩ := Nat.exists_eq_add_of_le (not_lt.mp before)
          have joined := (batch.present slot thread threadHere).joined
          rw [here] at joined
          exact joined
      present := by
        intro slot thread threadHere
        have inPool := (List.getElem?_eq_some_iff.mp threadHere).1
        have outside :
            ¬ base + numberOfThreads + slot < server.pool.length := by
          omega
        exact absurd inPool outside
      chosen := nofun
      closed := closed }

theorem Batch.create
    (batch : server.Batch base) {clientSocket : Int}
    (here : server.main = .creating clientSocket) :
    { server with
      main := .looping
      threads :=
        Function.update server.threads server.currentThread
          server.pool.length
      pool :=
        server.pool ++
          [Thread.mk server.currentThread clientSocket .created [] false]
      currentThread := server.currentThread + 1 }.Batch base := by
  have allows := batch.allows
  have closed := batch.closed
  rw [here] at allows closed
  obtain ⟨stored, isOpen⟩ := batch.chosen clientSocket here
  exact
    { whole := batch.whole
      length := by
        rw [List.length_append, batch.length]
        rfl
      allows := allows
      serves := by
        intro index thread threadHere
        rcases getElem?_append_cases threadHere with ⟨rfl, rfl⟩ | old
        · exact
            { inside := allows
              socket := by
                intro socket talks
                rcases talks with reads | sends
                · cases reads
                · cases sends
              used := by
                intro connection impossible
                cases impossible
              isDone := by
                intro impossible
                cases impossible }
        · exact batch.serves index thread old
      past := by
        intro index thread earlier threadHere
        rcases getElem?_append_cases threadHere with ⟨rfl, rfl⟩ | old
        · rw [batch.length] at earlier
          omega
        · exact batch.past index thread earlier old
      present := by
        intro slot thread threadHere
        rcases getElem?_append_cases threadHere with ⟨same, rfl⟩ | old
        · rw [batch.length] at same
          obtain rfl := Nat.add_left_cancel same
          refine ⟨rfl, stored, ?_, rfl, fun _ => ?_⟩
          · exact (Function.update_self _ _ _).trans batch.length
          · exact isOpen.trans (congrArg some batch.length)
        · have present := batch.present slot thread old
          have stillOpen := present.isOpen
          have inPool := (List.getElem?_eq_some_iff.mp old).1
          rw [batch.length] at inPool
          have different : slot ≠ server.currentThread := by
            omega
          rw [here] at stillOpen
          refine
            present.keep rfl (Function.update_of_ne different _ _) ?_
              stillOpen
          rw [here]
          rfl
      chosen := nofun
      closed := closed }

theorem Batch.mainStep
    (batch : server.Batch base) (taken : server.MainStep next) :
    ∃ nextBase, next.Batch nextBase := by
  have allows := batch.allows
  cases taken with
  | full here test moved =>
      subst moved
      rw [here] at allows
      have full : server.currentThread = numberOfThreads :=
        le_antisymm allows test
      refine ⟨base, batch.proceed ⟨full, Nat.zero_le _⟩ ?_ ?_ nofun⟩
      · intro slot _
        rw [here]
        rfl
      · rw [here]
        rfl
  | room here test moved =>
      subst moved
      refine ⟨base, batch.proceed test ?_ ?_ nofun⟩
      · intro slot _
        rw [here]
        rfl
      · rw [here]
        rfl
  | join i thread here inside named isDone moved =>
      subst moved
      obtain ⟨other, isThere, there, _⟩ := batch.joins here inside
      rw [isThere] at named
      rw [isThere]
      exact ⟨base, batch.join here inside named isDone⟩
  | joined i here all moved =>
      subst moved
      rw [here] at allows
      have full : server.currentThread = numberOfThreads := allows.1
      refine ⟨base, batch.proceed ⟨full, Nat.zero_le _⟩ ?_ ?_ nofun⟩
      · intro slot inside
        rw [here]
        exact (decide_eq_true (by omega)).symm
      · rw [here]
        rfl
  | close i connection here inside isOpen moved =>
      subst moved
      obtain ⟨isThis, closed⟩ := batch.close here inside
      cases isOpen.symm.trans isThis
      exact ⟨base, closed⟩
  | closeFails i here inside isClosed moved =>
      obtain ⟨isThis, _⟩ := batch.close here inside
      cases isClosed.symm.trans isThis
  | reset i here all moved =>
      subst moved
      exact ⟨base + numberOfThreads, batch.reset here all⟩
  | create clientSocket here moved =>
      subst moved
      exact ⟨base, batch.create here⟩

theorem Batch.store
    (batch : server.Batch base) (here : server.main = .accepting)
    (result : Int) :
    { server with
      fds :=
        Function.update server.fds server.currentThread result }.Batch
      base where
  whole := batch.whole
  length := batch.length
  allows := batch.allows
  serves := batch.serves
  past := batch.past
  present := by
    intro slot thread threadHere
    have present := batch.present slot thread threadHere
    have inPool := (List.getElem?_eq_some_iff.mp threadHere).1
    rw [batch.length] at inPool
    have different : slot ≠ server.currentThread := by
      omega
    exact
      present.keep (Function.update_of_ne different _ _) rfl rfl
        present.isOpen
  chosen := by
    intro clientSocket creating
    cases here.symm.trans creating
  closed := batch.closed

theorem Batch.acceptStep
    (batch : server.Batch base) {result : Int}
    (taken : server.AcceptStep next result) : next.Batch base := by
  cases taken with
  | failed here moved =>
      subst moved
      exact (batch.store here result).exit
  | accepted here isNew moved =>
      subst moved
      have stored := batch.store here result
      have allows := batch.allows
      have closed := batch.closed
      rw [here] at allows closed
      exact
        { whole := batch.whole
          length := batch.length
          allows := allows
          serves := batch.serves
          past := batch.past
          present := by
            intro slot thread threadHere
            have present := stored.present slot thread threadHere
            have isOpen : server.descriptors thread.accepted =
                some (base + slot) := by
              apply present.isOpen
              show server.main.closes ≤ slot
              rw [here]
              exact Nat.zero_le slot
            have different : thread.accepted ≠ result := by
              intro same
              rw [same, isNew] at isOpen
              cases isOpen
            refine present.keep rfl rfl ?_ fun _ => ?_
            · show _ = server.main.hasJoined slot
              rw [here]
              rfl
            · exact (Function.update_of_ne different _ _).trans isOpen
          chosen := by
            intro clientSocket creating
            cases creating
            exact ⟨Function.update_self _ _ _, Function.update_self _ _ _⟩
          closed := closed }

theorem Batch.step
    (batch : server.Batch base) {action : Action}
    (taken : server.step action = some next) :
    ∃ nextBase, next.Batch nextBase := by
  cases step_cases taken with
  | main moves => exact batch.mainStep moves
  | accept result accepts => exact ⟨base, batch.acceptStep accepts⟩
  | thread index thread here goes =>
      exact ⟨base, batch.threadStep here goes⟩
  | exit moved =>
      subst moved
      exact ⟨base, batch.exit⟩

/-- Where the main thread stores next, no thread is left. -/
theorem Batch.apart
    (batch : server.Batch base) {index : Nat} {thread : Thread}
    (here : server.pool[index]? = some thread)
    (runs : thread.phase ≠ .finished) :
    thread.slot ≠ server.currentThread := by
  obtain ⟨slot, _, inside, _, present⟩ := batch.unfinished here runs
  rw [present.place]
  omega

/-- A connection that has been closed is that of a thread that has been
joined. -/
theorem Batch.joined_of_closed
    (batch : server.Batch base) {index : Nat}
    (inRange : index ∈ List.range (base + server.main.closes)) :
    ∃ thread, server.pool[index]? = some thread ∧ thread.joined = true := by
  have closes := List.mem_range.mp inRange
  by_cases earlier : index < base
  · have inPool : index < server.pool.length := by
      rw [batch.length]
      omega
    exact
      ⟨server.pool[index], List.getElem?_eq_getElem inPool,
        batch.past index _ earlier (List.getElem?_eq_getElem inPool)⟩
  · obtain ⟨slot, rfl⟩ := Nat.exists_eq_add_of_le (not_lt.mp earlier)
    have fewer : slot < server.main.closes := by
      omega
    cases here : server.main with
    | closing i =>
        have allows := batch.allows
        rw [here] at allows fewer
        have full : server.currentThread = numberOfThreads := allows.1
        obtain ⟨thread, there, present⟩ :=
          batch.exists_thread
            (lt_of_lt_of_le fewer (allows.2.trans_eq full.symm))
        have joined := present.joined
        rw [here] at joined
        exact ⟨thread, there, joined⟩
    | _ =>
        rw [here] at fewer
        exact absurd fewer (Nat.not_lt_zero slot)

/-- Before `accept`, the batches before the present one are the completed
ones. -/
theorem Batch.completed
    (batch : server.Batch base) (here : server.main = .accepting) :
    numberOfThreads * (server.pool.length / numberOfThreads) = base := by
  obtain ⟨count, rfl⟩ := batch.whole
  have allows := batch.allows
  rw [here] at allows
  have few : server.currentThread < numberOfThreads := allows
  rw [batch.length, Nat.mul_add_div (Nat.zero_lt_of_lt few),
    Nat.div_eq_of_lt few, Nat.add_zero]

end Steps

/-- The main thread is about to write to the slot `current_thread`. -/
def Stores (server : Server) : Prop :=
  server.main = .accepting ∨
    ∃ clientSocket, server.main = .creating clientSocket

/-- What the clients and the main thread may rely on. -/
structure Handled (server : Server) : Prop where
  /-- A thread has read the socket that was accepted for it, and has used
  that connection only. -/
  serves : ∀ (index : Nat) (thread : Thread),
    server.pool[index]? = some thread →
      (∀ clientSocket,
        thread.phase = .receiving clientSocket ∨
            thread.phase = .sending clientSocket →
          clientSocket = thread.accepted) ∧
        ∀ connection ∈ thread.used, connection = some index
  /-- The slot of a thread stays as it is until the thread has finished. -/
  kept : ∀ (index : Nat) (thread : Thread),
    server.pool[index]? = some thread → thread.phase ≠ .finished →
      server.fds thread.slot = thread.accepted ∧
        (server.Stores → thread.slot ≠ server.currentThread) ∧
        server.threads thread.slot = index
  inside : (∀ thread ∈ server.pool, thread.slot < numberOfThreads) ∧
    (server.Stores → server.currentThread < numberOfThreads)
  /-- `pthread_join` gets a thread that has not been joined. -/
  joins : ∀ i, server.main = .joining i → i < numberOfThreads →
    ∃ thread,
      server.pool[server.threads i]? = some thread ∧ thread.joined = false
  closedOnce : server.closed.Nodup
  closedJoined : ∀ closed ∈ server.closed,
    ∃ (index : Nat) (thread : Thread),
      closed = some index ∧ server.pool[index]? = some thread ∧
        thread.phase = .finished ∧ thread.joined = true
  /-- Before `accept`, all connections of the completed batches have been
  closed. -/
  complete : server.main = .accepting →
    ∀ index < numberOfThreads * (server.pool.length / numberOfThreads),
      some index ∈ server.closed

theorem Batch.handled
    {server : Server} {base : Nat} (batch : server.Batch base) :
    server.Handled where
  serves := by
    intro index thread here
    have serves := batch.serves index thread here
    exact ⟨serves.socket, serves.used⟩
  kept := by
    intro index thread here runs
    obtain ⟨slot, rfl, _, _, present⟩ := batch.unfinished here runs
    refine ⟨?_, fun _ => batch.apart here runs, ?_⟩
    · rw [present.place]
      exact present.fd
    · rw [present.place]
      exact present.named
  inside := by
    constructor
    · intro thread listed
      obtain ⟨index, here⟩ := List.mem_iff_getElem?.mp listed
      exact (batch.serves index thread here).inside
    · intro stores
      have allows := batch.allows
      rcases stores with accepting | ⟨clientSocket, creating⟩
      · rw [accepting] at allows
        exact allows
      · rw [creating] at allows
        exact allows
  joins := by
    intro i here inside
    obtain ⟨thread, named, there, notJoined⟩ := batch.joins here inside
    rw [named]
    exact ⟨thread, there, notJoined⟩
  closedOnce := by
    rw [batch.closed]
    exact List.nodup_range.map (Option.some_injective Nat)
  closedJoined := by
    intro closed listed
    rw [batch.closed] at listed
    obtain ⟨index, inRange, rfl⟩ := List.mem_map.mp listed
    obtain ⟨thread, here, joined⟩ := batch.joined_of_closed inRange
    exact
      ⟨index, thread, rfl, here,
        (batch.serves index thread here).isDone joined, joined⟩
  complete := by
    intro here index inside
    rw [batch.completed here] at inside
    rw [batch.closed]
    refine List.mem_map_of_mem (List.mem_range.mpr ?_)
    omega

end Server

end SistemasDistribuidos.Practica1.MultiHilo
