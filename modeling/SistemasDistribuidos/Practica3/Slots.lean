import Mathlib.Data.List.Perm.Subperm
import SistemasDistribuidos.Practica3.Accepting

/-!
# The slots of the clients

`current_threads` and the occupied slots change at different moments, and
`get_free_fd` does not test `current_threads` again when it is woken.  What
carries the proof is that a client is counted out only after it has released
its slot, and signals before it lets the main thread count again: when the
main thread searches, fewer than `MAX_THREADS` clients have not been counted
out, so a slot is free.
-/

namespace SistemasDistribuidos.Practica3

open SistemasDistribuidos Machine Pool SlotArray

namespace Client

def holdsSlot (client : Client) : Bool := client.phase.holdsSlot

def isCounted (client : Client) : Bool := client.phase.isCounted

def holdsThreads (client : Client) : Bool := client.phase.holdsThreads

/-- Counted out, with its signal still to come. -/
def isPending (client : Client) : Bool := client.phase = .decremented

end Client

/-! ## How many clients there are -/

/-- A client has been created and not counted yet. -/
def MainPhase.uncounted : MainPhase → Int
  | .counting => 1
  | _ => 0

/-- How many clients there may be, for the main thread to find a slot. -/
def Room (counted pending : Nat) : MainPhase → Prop
  | .woken _ => counted < maxThreads
  | .searching _ => counted < maxThreads
  | .returning _ _ => counted < maxThreads
  | .storing _ _ => counted < maxThreads
  | .creating _ _ => counted < maxThreads
  | .counting => counted ≤ maxThreads
  | _ => counted + pending ≤ maxThreads

/-- What the mutexes and `current_threads` say about the clients. -/
structure Tallies (main : MainPhase) (clients : List Client)
    (currentThreads : Int) (freeFdMutex : Bool)
    (currentThreadsMutex : Option Nat) : Prop where
  count : Counts (currentThreads + main.uncounted) Client.isCounted clients
  threads : Owns currentThreadsMutex Client.holdsThreads clients
  free : freeFdMutex = main.holdsFree
  room :
    Room (clients.countP Client.isCounted) (clients.countP Client.isPending)
      main

namespace Acceptor

def Tallies (acceptor : Acceptor) : Prop :=
  Practica3.Tallies acceptor.main acceptor.clients acceptor.currentThreads
    acceptor.freeFdMutex acceptor.currentThreadsMutex

end Acceptor

section Tallies

variable {main nextMain : MainPhase} {clients : List Client}
  {currentThreads : Int} {freeFdMutex nextFree : Bool}
  {currentThreadsMutex : Option Nat} {index : Nat} {before after : Client}

/-- There is room for fewer clients, too. -/
theorem Room.mono
    {counted fewer pending : Nat} {main : MainPhase}
    (room : Room counted pending main) {more : Nat}
    (less : fewer ≤ counted) (sum : fewer + more ≤ counted + pending) :
    Room fewer more main := by
  cases main <;> simp only [Room] at room ⊢ <;> omega

/-- A client moves on that stays counted, or uncounted. -/
theorem Room.set
    (room :
      Room (clients.countP Client.isCounted)
        (clients.countP Client.isPending) main)
    (here : clients[index]? = some before)
    (sameCounted : after.isCounted = before.isCounted)
    (notPending : after.isPending = false) :
    Room ((clients.set index after).countP Client.isCounted)
      ((clients.set index after).countP Client.isPending) main := by
  have counted := countP_set_add here after Client.isCounted
  have pending := countP_set_add here after Client.isPending
  rw [sameCounted, Nat.add_right_cancel_iff] at counted
  rw [notPending, if_neg Bool.false_ne_true] at pending
  apply room.mono
  · omega
  · omega

/-- A client moves on, and keeps `current_threads_mutex` if it has it. -/
theorem Tallies.set
    (tallies :
      Tallies main clients currentThreads freeFdMutex currentThreadsMutex)
    (here : clients[index]? = some before)
    (sameCounted : after.isCounted = before.isCounted)
    (sameThreads : after.holdsThreads = before.holdsThreads)
    (notPending : after.isPending = false) :
    Tallies main (clients.set index after) currentThreads freeFdMutex
      currentThreadsMutex where
  count := by
    apply tallies.count.set here
    rw [sameCounted]
  threads := tallies.threads.set here sameThreads
  free := tallies.free
  room := tallies.room.set here sameCounted notPending

/-- The main thread moves on, and the clients stay as they are. -/
theorem Tallies.proceed
    (tallies :
      Tallies main clients currentThreads freeFdMutex currentThreadsMutex)
    (sameUncounted : nextMain.uncounted = main.uncounted)
    (free : nextFree = nextMain.holdsFree)
    (room :
      Room (clients.countP Client.isCounted)
        (clients.countP Client.isPending) nextMain) :
    Tallies nextMain clients currentThreads nextFree
      currentThreadsMutex where
  count := by
    rw [sameUncounted]
    exact tallies.count
  threads := tallies.threads
  free := free
  room := room

/-- A client counts itself out, and keeps `current_threads_mutex`. -/
theorem Tallies.decrement
    (tallies : Tallies main clients currentThreads freeFdMutex none)
    (here : clients[index]? = some before)
    (wasCounted : before.isCounted = true)
    (isOut : after.isCounted = false) (holds : after.holdsThreads = true) :
    Tallies main (clients.set index after) (currentThreads + -1) freeFdMutex
      (some index) where
  count := by
    apply tallies.count.set here
    rw [wasCounted, isOut, if_pos rfl, if_neg Bool.false_ne_true]
    omega
  threads := tallies.threads.acquire here holds
  free := tallies.free
  room := by
    have counted := countP_set_add here after Client.isCounted
    have pending := countP_set_add here after Client.isPending
    rw [wasCounted, isOut, if_pos rfl, if_neg Bool.false_ne_true] at counted
    apply tallies.room.mono
    · omega
    · split at pending <;> split at pending <;> omega

/-- A client has signalled, and unlocks `current_threads_mutex`. -/
theorem Tallies.unlock
    (tallies :
      Tallies main clients currentThreads freeFdMutex currentThreadsMutex)
    (here : clients[index]? = some before)
    (sameCounted : after.isCounted = before.isCounted)
    (held : before.holdsThreads = true)
    (released : after.holdsThreads = false)
    (notPending : after.isPending = false) :
    Tallies main (clients.set index after) currentThreads freeFdMutex
      none where
  count := by
    apply tallies.count.set here
    rw [sameCounted]
  threads := tallies.threads.release here held released
  free := tallies.free
  room := tallies.room.set here sameCounted notPending

/-- Nobody has counted itself out and not signalled while the mutex is
free. -/
theorem Tallies.no_pending
    (tallies : Tallies main clients currentThreads freeFdMutex none) :
    clients.countP Client.isPending = 0 := by
  rw [List.countP_eq_zero]
  intro client listed
  have notHolder := tallies.threads.free listed
  obtain ⟨id, clientSocket, phase, closed⟩ := client
  cases phase
  case decremented => cases notHolder
  all_goals exact Bool.false_ne_true

end Tallies

namespace Acceptor

section Steps

variable {acceptor next : Acceptor}

theorem tallies_initial : initial.Tallies where
  count := counts_nil
  threads := owns_nil
  free := rfl
  room := Nat.zero_le _

theorem Tallies.mainStep
    (tallies : acceptor.Tallies) (taken : acceptor.MainStep next) :
    next.Tallies := by
  rw [Tallies] at tallies
  cases taken with
  | lock fd here moved =>
      subst moved
      rw [here] at tallies
      exact tallies.proceed rfl rfl tallies.room
  | full fd here test moved =>
      subst moved
      rw [here] at tallies
      exact tallies.proceed rfl tallies.free tallies.room
  | room fd here test moved =>
      subst moved
      rw [here] at tallies
      refine tallies.proceed rfl tallies.free ?_
      have count := tallies.count
      simp only [Counts, MainPhase.uncounted] at count
      simp only [Room]
      omega
  | wait fd here moved =>
      subst moved
      rw [here] at tallies
      exact tallies.proceed rfl rfl tallies.room
  | relock fd here moved =>
      subst moved
      rw [here] at tallies
      exact tallies.proceed rfl rfl tallies.room
  | found fd here inside moved =>
      subst moved
      rw [here] at tallies
      exact tallies.proceed rfl tallies.free tallies.room
  | failed fd here outside moved =>
      subst moved
      rw [here] at tallies
      exact tallies.proceed rfl tallies.free tallies.room
  | leave fd id here moved =>
      subst moved
      rw [here] at tallies
      exact tallies.proceed rfl rfl tallies.room
  | store fd id here moved =>
      subst moved
      rw [here] at tallies
      exact tallies.proceed rfl tallies.free tallies.room
  | create fd id here moved =>
      subst moved
      rw [here] at tallies
      have room := tallies.room
      have count := tallies.count.append ⟨id, fd, .serving, []⟩
      simp only [MainPhase.uncounted, add_zero] at count
      refine ⟨count, tallies.threads.append rfl, tallies.free, ?_⟩
      simp only [Room] at room
      simp only [Room, List.countP_append]
      exact room
  | count here unlocked moved =>
      subst moved
      rw [here, unlocked] at tallies
      have room := tallies.room
      have count := tallies.count
      simp only [MainPhase.uncounted] at count
      refine ⟨?_, ?_, tallies.free, ?_⟩
      · simp only [MainPhase.uncounted, add_zero]
        exact count
      · rw [unlocked]
        exact tallies.threads
      · simp only [Room] at room ⊢
        rw [tallies.no_pending]
        exact room

theorem Tallies.clientStep
    (tallies : acceptor.Tallies) {index : Nat} {client : Client}
    (here : acceptor.clients[index]? = some client)
    (taken : acceptor.ClientStep next index client) : next.Tallies := by
  rw [Tallies] at tallies
  obtain ⟨id, clientSocket, phase, closed⟩ := client
  cases taken with
  | close isHere moved =>
      cases isHere
      subst moved
      exact tallies.set here rfl rfl rfl
  | release isHere free moved =>
      cases isHere
      subst moved
      exact tallies.set here rfl rfl rfl
  | decrement isHere free moved =>
      cases isHere
      subst moved
      rw [free] at tallies
      exact tallies.decrement here rfl rfl rfl
  | signal fd isHere waits moved =>
      cases isHere
      subst moved
      rw [waits] at tallies
      have someone : 0 < acceptor.clients.countP Client.isPending :=
        List.countP_pos_iff.mpr ⟨_, List.mem_of_getElem? here, rfl⟩
      have room := tallies.room
      simp only [Room] at room
      have isWoken :
          Practica3.Tallies (.woken fd) acceptor.clients
            acceptor.currentThreads acceptor.freeFdMutex
            acceptor.currentThreadsMutex := by
        refine tallies.proceed rfl tallies.free ?_
        simp only [Room]
        omega
      exact isWoken.set here rfl rfl rfl
  | lose isHere awake moved =>
      cases isHere
      subst moved
      exact tallies.set here rfl rfl rfl
  | unlock isHere moved =>
      cases isHere
      subst moved
      exact tallies.unlock here rfl rfl rfl rfl

end Steps

end Acceptor

/-! ## Where the clients are -/

/-- The socket that the main thread is busy with. -/
def MainPhase.clientSocket : MainPhase → Option Int
  | .locking clientSocket => some clientSocket
  | .testing clientSocket => some clientSocket
  | .starting clientSocket => some clientSocket
  | .waiting clientSocket => some clientSocket
  | .woken clientSocket => some clientSocket
  | .searching clientSocket => some clientSocket
  | .returning clientSocket _ => some clientSocket
  | .storing clientSocket _ => some clientSocket
  | .creating clientSocket _ => some clientSocket
  | _ => none

/-- What a client should have closed. -/
def Client.closes (client : Client) : List Int :=
  if client.phase = .serving then [] else [client.clientSocket]

/-- Each slot in use belongs to one client, or to the main thread. -/
structure Placed (main : MainPhase) (clients : List Client)
    (sockets : Nat → Int) : Prop where
  positive : ∀ clientSocket ∈ main.clientSocket, 0 < clientSocket
  inTable : ∀ client ∈ clients, client.holdsSlot = true →
    client.id < maxThreads ∧ sockets client.id = client.clientSocket ∧
      0 < client.clientSocket
  apart : ∀ (first second : Nat) (client other : Client),
    clients[first]? = some client → clients[second]? = some other →
      client.holdsSlot = true → other.holdsSlot = true →
        client.id = other.id → first = second
  used : ∀ id, id < maxThreads → sockets id ≠ 0 →
    main.slot = some id ∨
      ∃ client ∈ clients, client.holdsSlot = true ∧ client.id = id
  chosen : ∀ id, main.slot = some id →
    id < maxThreads ∧
      ∀ client ∈ clients, client.holdsSlot = true → client.id ≠ id
  stored : ∀ clientSocket id, main = .creating clientSocket id →
    sockets id = clientSocket
  closes : ∀ client ∈ clients, client.closed = client.closes

namespace Acceptor

def Placed (acceptor : Acceptor) : Prop :=
  Practica3.Placed acceptor.main acceptor.clients acceptor.clientSockets

end Acceptor

section Placed

variable {main nextMain : MainPhase} {clients : List Client}
  {sockets : Nat → Int} {index : Nat} {before after : Client}

/-- The main thread moves on, and the slots stay as they are. -/
theorem Placed.proceed
    (placed : Placed main clients sockets)
    (sameSlot : nextMain.slot = main.slot)
    (positive : ∀ clientSocket ∈ nextMain.clientSocket, 0 < clientSocket)
    (stored : ∀ clientSocket id, nextMain = .creating clientSocket id →
      sockets id = clientSocket) :
    Placed nextMain clients sockets where
  positive := positive
  inTable := placed.inTable
  apart := placed.apart
  used := by
    rw [sameSlot]
    exact placed.used
  chosen := by
    rw [sameSlot]
    exact placed.chosen
  stored := stored
  closes := placed.closes

/-- A client of the pool after a move that holds a slot held it before. -/
theorem holdsSlot_of_set
    (here : clients[index]? = some before)
    (sameId : after.id = before.id)
    (holds : after.holdsSlot = true → before.holdsSlot = true)
    {other : Nat} {client : Client}
    (otherHere : (clients.set index after)[other]? = some client)
    (otherHolds : client.holdsSlot = true) :
    ∃ old,
      clients[other]? = some old ∧ old.holdsSlot = true ∧
        old.id = client.id := by
  rcases getElem?_set_cases otherHere with ⟨rfl, rfl⟩ | ⟨_, unmoved⟩
  · exact ⟨before, here, holds otherHolds, sameId.symm⟩
  · exact ⟨client, unmoved, otherHolds, rfl⟩

/-- Whoever is at another place is still there after a move. -/
theorem mem_set_of_ne
    (after : Client) {other : Nat} {client : Client}
    (otherHere : clients[other]? = some client) (different : other ≠ index) :
    client ∈ clients.set index after := by
  apply List.mem_of_getElem?
  rw [List.getElem?_set_ne (Ne.symm different)]
  exact otherHere

theorem Placed.apart_set
    (placed : Placed main clients sockets)
    (here : clients[index]? = some before)
    (sameId : after.id = before.id)
    (holds : after.holdsSlot = true → before.holdsSlot = true)
    (first second : Nat) (client other : Client)
    (firstHere : (clients.set index after)[first]? = some client)
    (secondHere : (clients.set index after)[second]? = some other)
    (clientHolds : client.holdsSlot = true)
    (otherHolds : other.holdsSlot = true)
    (sameSlot : client.id = other.id) : first = second := by
  obtain ⟨old, oldHere, oldHolds, oldId⟩ :=
    holdsSlot_of_set here sameId holds firstHere clientHolds
  obtain ⟨another, anotherHere, anotherHolds, anotherId⟩ :=
    holdsSlot_of_set here sameId holds secondHere otherHolds
  rw [← oldId, ← anotherId] at sameSlot
  exact
    placed.apart first second old another oldHere anotherHere oldHolds
      anotherHolds sameSlot

theorem Placed.chosen_set
    (placed : Placed main clients sockets)
    (here : clients[index]? = some before)
    (sameId : after.id = before.id)
    (holds : after.holdsSlot = true → before.holdsSlot = true)
    (id : Nat) (slot : main.slot = some id) :
    id < maxThreads ∧
      ∀ client ∈ clients.set index after,
        client.holdsSlot = true → client.id ≠ id := by
  obtain ⟨inside, others⟩ := placed.chosen id slot
  refine ⟨inside, ?_⟩
  intro client listed clientHolds
  obtain ⟨other, otherHere⟩ := List.mem_iff_getElem?.mp listed
  obtain ⟨old, oldHere, oldHolds, oldId⟩ :=
    holdsSlot_of_set here sameId holds otherHere clientHolds
  rw [← oldId]
  exact others old (List.mem_of_getElem? oldHere) oldHolds

theorem Placed.closes_set
    (placed : Placed main clients sockets)
    (closes : after.closed = after.closes) :
    ∀ client ∈ clients.set index after, client.closed = client.closes := by
  intro client listed
  rcases List.mem_or_eq_of_mem_set listed with old | rfl
  · exact placed.closes client old
  · exact closes

/-- A client moves on, and keeps its slot if it has one. -/
theorem Placed.set
    (placed : Placed main clients sockets)
    (here : clients[index]? = some before)
    (sameId : after.id = before.id)
    (sameSocket : after.clientSocket = before.clientSocket)
    (sameHolds : after.holdsSlot = before.holdsSlot)
    (closes : after.closed = after.closes) :
    Placed main (clients.set index after) sockets where
  positive := placed.positive
  inTable := by
    intro client listed holds
    rcases List.mem_or_eq_of_mem_set listed with old | rfl
    · exact placed.inTable client old holds
    · rw [sameId, sameSocket]
      rw [sameHolds] at holds
      exact placed.inTable before (List.mem_of_getElem? here) holds
  apart := placed.apart_set here sameId (fun held => sameHolds ▸ held)
  used := by
    intro id inside inUse
    rcases placed.used id inside inUse with
      slot | ⟨client, listed, holds, hasId⟩
    · exact Or.inl slot
    · obtain ⟨other, otherHere⟩ := List.mem_iff_getElem?.mp listed
      by_cases same : other = index
      · subst same
        cases here.symm.trans otherHere
        exact
          Or.inr
            ⟨after, List.mem_of_getElem? (getElem?_set_here here),
              sameHolds.trans holds, sameId.trans hasId⟩
      · exact
          Or.inr
            ⟨client, mem_set_of_ne after otherHere same, holds, hasId⟩
  chosen := placed.chosen_set here sameId (fun held => sameHolds ▸ held)
  stored := placed.stored
  closes := placed.closes_set closes

/-- A client releases its slot. -/
theorem Placed.release
    (placed : Placed main clients sockets)
    (here : clients[index]? = some before)
    (sameId : after.id = before.id)
    (held : before.holdsSlot = true) (released : after.holdsSlot = false)
    (closes : after.closed = after.closes) :
    Placed main (clients.set index after)
      (Function.update sockets before.id 0) where
  positive := placed.positive
  inTable := by
    intro client listed holds
    obtain ⟨other, otherHere⟩ := List.mem_iff_getElem?.mp listed
    rcases getElem?_set_cases otherHere with ⟨_, rfl⟩ | ⟨different, old⟩
    · rw [released] at holds
      cases holds
    · have otherSlot : client.id ≠ before.id := by
        intro same
        exact different (placed.apart _ _ _ _ old here holds held same)
      rw [Function.update_of_ne otherSlot]
      exact placed.inTable client (List.mem_of_getElem? old) holds
  apart := placed.apart_set here sameId (fun _ => held)
  used := by
    intro id inside inUse
    by_cases own : id = before.id
    · subst own
      rw [Function.update_self] at inUse
      exact absurd rfl inUse
    · rw [Function.update_of_ne own] at inUse
      rcases placed.used id inside inUse with
        slot | ⟨client, listed, holds, hasId⟩
      · exact Or.inl slot
      · obtain ⟨other, otherHere⟩ := List.mem_iff_getElem?.mp listed
        have different : other ≠ index := by
          rintro rfl
          cases here.symm.trans otherHere
          exact own hasId.symm
        exact
          Or.inr
            ⟨client, mem_set_of_ne after otherHere different, holds, hasId⟩
  chosen := placed.chosen_set here sameId (fun _ => held)
  stored := by
    intro clientSocket id isCreating
    have slot : main.slot = some id := by
      rw [isCreating]
      rfl
    have notOwn : id ≠ before.id :=
      Ne.symm
        ((placed.chosen id slot).2 before (List.mem_of_getElem? here) held)
    rw [Function.update_of_ne notOwn]
    exact placed.stored clientSocket id isCreating
  closes := placed.closes_set closes

/-- The main thread puts a value that is not zero into the slot it has
chosen, or chooses it. -/
theorem Placed.fill
    (placed : Placed main clients sockets) {id : Nat} {value : Int}
    (slot : nextMain.slot = some id)
    (others : ∀ other, main.slot = some other → other = id)
    (inside : id < maxThreads)
    (nobody : ∀ client ∈ clients, client.holdsSlot = true → client.id ≠ id)
    (positive : ∀ clientSocket ∈ nextMain.clientSocket, 0 < clientSocket)
    (stored : ∀ clientSocket another,
      nextMain = .creating clientSocket another → value = clientSocket) :
    Placed nextMain clients (Function.update sockets id value) where
  positive := positive
  inTable := by
    intro client listed holds
    rw [Function.update_of_ne (nobody client listed holds)]
    exact placed.inTable client listed holds
  apart := placed.apart
  used := by
    intro other otherInside inUse
    by_cases same : other = id
    · subst same
      exact Or.inl slot
    · rw [Function.update_of_ne same] at inUse
      rcases placed.used other otherInside inUse with mine | theirs
      · exact absurd (others other mine) same
      · exact Or.inr theirs
  chosen := by
    intro other otherSlot
    cases slot.symm.trans otherSlot
    exact ⟨inside, nobody⟩
  stored := by
    intro clientSocket another isCreating
    have sameSlot : nextMain.slot = some another := by
      rw [isCreating]
      rfl
    cases slot.symm.trans sameSlot
    rw [Function.update_self]
    exact stored clientSocket id isCreating
  closes := placed.closes

/-- The thread is there that the slot was chosen for. -/
theorem Placed.create
    {clientSocket : Int} {id : Nat}
    (placed : Placed (.creating clientSocket id) clients sockets) :
    Placed .counting (clients ++ [⟨id, clientSocket, .serving, []⟩])
      sockets where
  positive := by
    intro other impossible
    cases impossible
  inTable := by
    intro client listed holds
    rcases List.mem_append.mp listed with old | new
    · exact placed.inTable client old holds
    · rw [List.mem_singleton.mp new]
      exact
        ⟨(placed.chosen id rfl).1, placed.stored clientSocket id rfl,
          placed.positive clientSocket rfl⟩
  apart := by
    have nobody := (placed.chosen id rfl).2
    intro first second client other firstHere secondHere holds otherHolds
      sameSlot
    rcases getElem?_append_cases firstHere with ⟨rfl, rfl⟩ | firstOld
    · rcases getElem?_append_cases secondHere with ⟨rfl, _⟩ | secondOld
      · rfl
      · exact
          absurd sameSlot.symm
            (nobody other (List.mem_of_getElem? secondOld) otherHolds)
    · rcases getElem?_append_cases secondHere with ⟨rfl, rfl⟩ | secondOld
      · exact
          absurd sameSlot
            (nobody client (List.mem_of_getElem? firstOld) holds)
      · exact
          placed.apart first second client other firstOld secondOld holds
            otherHolds sameSlot
  used := by
    intro other inside inUse
    rcases placed.used other inside inUse with
      mine | ⟨client, listed, holds, hasId⟩
    · cases mine
      exact
        Or.inr
          ⟨_, List.mem_append_right _ (List.mem_singleton_self _), rfl, rfl⟩
    · exact
        Or.inr ⟨client, List.mem_append_left _ listed, holds, hasId⟩
  chosen := by
    intro other impossible
    cases impossible
  stored := by
    intro other another impossible
    cases impossible
  closes := by
    intro client listed
    rcases List.mem_append.mp listed with old | new
    · exact placed.closes client old
    · rw [List.mem_singleton.mp new]
      rfl

/-- While not all slots can be taken by clients, one of them is free. -/
theorem Placed.exists_free
    (placed : Placed main clients sockets) (noSlot : main.slot = none)
    (few : clients.countP Client.isCounted < maxThreads) :
    ∃ id, id < maxThreads ∧ sockets id = 0 := by
  by_contra full
  push Not at full
  have taken :
      ∀ id ∈ List.range maxThreads,
        id ∈ (clients.filter Client.holdsSlot).map Client.id := by
    intro id inside
    rw [List.mem_range] at inside
    rcases placed.used id inside (full id inside) with
      mine | ⟨client, listed, holds, hasId⟩
    · rw [noSlot] at mine
      cases mine
    · exact
        List.mem_map.mpr
          ⟨client, List.mem_filter.mpr ⟨listed, holds⟩, hasId⟩
  have enough := (List.subperm_of_subset List.nodup_range taken).length_le
  rw [List.length_range, List.length_map, ← List.countP_eq_length_filter]
    at enough
  have fewer :
      clients.countP Client.holdsSlot ≤ clients.countP Client.isCounted := by
    apply List.countP_mono_left
    intro client _ holds
    obtain ⟨id, clientSocket, phase, closed⟩ := client
    cases phase <;> first | rfl | cases holds
  omega

end Placed

namespace Acceptor

section Steps

variable {acceptor next : Acceptor}

theorem placed_initial : initial.Placed where
  positive := by
    intro clientSocket impossible
    cases impossible
  inTable := by
    intro client impossible
    cases impossible
  apart := by
    intro first second client other impossible
    cases impossible
  used := fun _ _ inUse => absurd rfl inUse
  chosen := by
    intro id impossible
    cases impossible
  stored := by
    intro clientSocket id impossible
    cases impossible
  closes := by
    intro client impossible
    cases impossible

/-- The search ends at a slot that no client holds. -/
theorem freeFd_spec
    {fd : Int} (tallies : acceptor.Tallies) (placed : acceptor.Placed)
    (here : acceptor.main = .searching fd) :
    acceptor.freeFd < maxThreads ∧
      ∀ client ∈ acceptor.clients,
        client.holdsSlot = true → client.id ≠ acceptor.freeFd := by
  have room := tallies.room
  have noSlot : acceptor.main.slot = none := by
    rw [here]
    rfl
  simp only [here, Room] at room
  obtain ⟨id, inside, isFree⟩ := placed.exists_free noSlot room
  have found : acceptor.freeFd < maxThreads :=
    search_lt_iff.mpr ⟨id, inside, decide_eq_true isFree⟩
  refine ⟨found, ?_⟩
  intro client listed holds same
  obtain ⟨_, stored, positive⟩ := placed.inTable client listed holds
  have empty : acceptor.clientSockets acceptor.freeFd = 0 :=
    of_decide_eq_true (search_hit found)
  rw [same, empty] at stored
  omega

theorem Placed.mainStep
    (placed : acceptor.Placed) (tallies : acceptor.Tallies)
    (taken : acceptor.MainStep next) : next.Placed := by
  have kept := placed
  rw [Placed] at kept
  cases taken with
  | lock fd here moved =>
      subst moved
      rw [here] at kept
      exact kept.proceed rfl kept.positive nofun
  | full fd here test moved =>
      subst moved
      rw [here] at kept
      exact kept.proceed rfl kept.positive nofun
  | room fd here test moved =>
      subst moved
      rw [here] at kept
      exact kept.proceed rfl kept.positive nofun
  | wait fd here moved =>
      subst moved
      rw [here] at kept
      exact kept.proceed rfl kept.positive nofun
  | relock fd here moved =>
      subst moved
      rw [here] at kept
      exact kept.proceed rfl kept.positive nofun
  | found fd here inside moved =>
      subst moved
      obtain ⟨_, nobody⟩ := freeFd_spec tallies placed here
      rw [here] at kept
      exact kept.fill rfl nofun inside nobody kept.positive nofun
  | failed fd here outside moved =>
      have inside := (freeFd_spec tallies placed here).1
      omega
  | leave fd id here moved =>
      subst moved
      rw [here] at kept
      exact kept.proceed rfl kept.positive nofun
  | store fd id here moved =>
      subst moved
      rw [here] at kept
      obtain ⟨inside, nobody⟩ := kept.chosen id rfl
      refine kept.fill rfl ?_ inside nobody kept.positive ?_
      · intro other slot
        cases slot
        rfl
      · intro clientSocket another same
        cases same
        rfl
  | create fd id here moved =>
      subst moved
      rw [here] at kept
      exact kept.create
  | count here unlocked moved =>
      subst moved
      rw [here] at kept
      exact kept.proceed rfl kept.positive nofun

theorem Placed.clientStep
    (placed : acceptor.Placed) {index : Nat} {client : Client}
    (here : acceptor.clients[index]? = some client)
    (taken : acceptor.ClientStep next index client) : next.Placed := by
  rw [Placed] at placed
  have closes := placed.closes client (List.mem_of_getElem? here)
  have inTable := placed.inTable client (List.mem_of_getElem? here)
  obtain ⟨id, clientSocket, phase, closed⟩ := client
  cases taken with
  | close isHere moved =>
      cases isHere
      subst moved
      have socket : acceptor.clientSockets id = clientSocket :=
        (inTable rfl).2.1
      have nothing : closed = [] := closes
      refine placed.set here rfl rfl rfl ?_
      show closed ++ [acceptor.clientSockets id] = [clientSocket]
      rw [nothing, socket]
      rfl
  | release isHere free moved =>
      cases isHere
      subst moved
      exact placed.release here rfl rfl rfl closes
  | decrement isHere free moved =>
      cases isHere
      subst moved
      exact placed.set here rfl rfl rfl closes
  | signal fd isHere waits moved =>
      cases isHere
      subst moved
      rw [waits] at placed
      have isWoken :
          Practica3.Placed (.woken fd) acceptor.clients
            acceptor.clientSockets :=
        placed.proceed rfl placed.positive nofun
      exact isWoken.set here rfl rfl rfl closes
  | lose isHere awake moved =>
      cases isHere
      subst moved
      exact placed.set here rfl rfl rfl closes
  | unlock isHere moved =>
      cases isHere
      subst moved
      exact placed.set here rfl rfl rfl closes

/-- `accept` gives a positive descriptor. -/
def Positive (_ : Acceptor) : AcceptorAction → Prop
  | .accept clientSocket => 0 < clientSocket
  | _ => True

instance (acceptor : Acceptor) :
    ∀ action, Decidable (acceptor.Positive action)
  | .accept clientSocket => inferInstanceAs (Decidable (0 < clientSocket))
  | .main => isTrue trivial
  | .client _ => isTrue trivial

theorem Tallies.step
    (tallies : acceptor.Tallies) {action : AcceptorAction}
    (taken : acceptor.step action = some next) : next.Tallies := by
  cases action with
  | accept clientSocket =>
      obtain ⟨here, rfl⟩ := step_accept taken
      rw [Tallies, here] at tallies
      exact tallies.proceed rfl tallies.free tallies.room
  | main => exact tallies.mainStep (mainStep_cases taken)
  | client index =>
      obtain ⟨client, here, advanced⟩ := step_client taken
      exact tallies.clientStep here (clientStep_cases advanced)

theorem Placed.step
    (placed : acceptor.Placed) (tallies : acceptor.Tallies)
    {action : AcceptorAction} (positive : acceptor.Positive action)
    (taken : acceptor.step action = some next) : next.Placed := by
  cases action with
  | accept clientSocket =>
      obtain ⟨here, rfl⟩ := step_accept taken
      rw [Placed, here] at placed
      refine placed.proceed rfl ?_ nofun
      intro other same
      cases same
      exact positive
  | main => exact placed.mainStep tallies (mainStep_cases taken)
  | client index =>
      obtain ⟨client, here, advanced⟩ := step_client taken
      exact placed.clientStep here (clientStep_cases advanced)

end Steps

/-- What the clients may rely on. -/
structure SlotsSafe (acceptor : Acceptor) : Prop where
  /-- What `get_free_fd` returns is a slot that no client holds. -/
  returned : ∀ id, acceptor.main.slot = some id →
    id < maxThreads ∧
      ∀ client ∈ acceptor.clients, client.holdsSlot = true → client.id ≠ id
  apart : ∀ (first second : Nat) (client other : Client),
    acceptor.clients[first]? = some client →
      acceptor.clients[second]? = some other →
        client.holdsSlot = true → other.holdsSlot = true →
          client.id = other.id → first = second
  /-- A client closes the socket that was accepted for it, once. -/
  closes : ∀ client ∈ acceptor.clients,
    client.closed =
      if client.phase = .serving then [] else [client.clientSocket]

/-- However the main thread and the clients are interleaved, no two clients
share a slot. -/
theorem slots_safe
    {actions : List AcceptorAction} {final : Acceptor}
    (positive : Obeys step Positive initial actions)
    (reached : run step initial actions = some final) :
    final.SlotsSafe := by
  have preserved :
      ∀ state action next, state.Tallies ∧ state.Placed →
        Positive state action → step state action = some next →
          next.Tallies ∧ next.Placed := by
    rintro state action next ⟨tallies, placed⟩ positive taken
    exact ⟨tallies.step taken, placed.step tallies positive taken⟩
  obtain ⟨_, placed⟩ :=
    invariant_of_run preserved ⟨tallies_initial, placed_initial⟩ positive
      reached
  exact ⟨placed.chosen, placed.apart, placed.closes⟩

/-- A client that is done before it has been counted, and a second one in the
slot that it has released. -/
def beforeCounted : List AcceptorAction :=
  .accept 4 :: List.replicate 6 .main ++
    List.replicate 5 (.client 0) ++ [.main, .accept 5] ++
    List.replicate 6 .main

theorem slots_safe_beforeCounted :
    ∃ final : Acceptor,
      run step initial beforeCounted = some final ∧
        final.clients = [⟨0, 4, .finished, [4]⟩, ⟨0, 5, .serving, []⟩] ∧
        final.SlotsSafe := by
  have evaluated :
      (run step initial beforeCounted).map Acceptor.clients =
        some [⟨0, 4, .finished, [4]⟩, ⟨0, 5, .serving, []⟩] := by
    decide
  obtain ⟨final, reached, clients⟩ := Option.map_eq_some_iff.mp evaluated
  exact ⟨final, reached, clients, slots_safe (by decide) reached⟩

end Acceptor

end SistemasDistribuidos.Practica3
