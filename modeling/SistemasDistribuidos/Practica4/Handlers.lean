import SistemasDistribuidos.Library.Machine
import SistemasDistribuidos.Practica4.Arrays

/-!
# The broker's client handlers

One thread runs `talk_to_client` for each connection.  A connection is named
by its descriptor, which `accept` never gives twice.  The threads interleave
at the points where one of them can see what another has done:

* a registration stores the client, sends the response and counts the client,
  all under `mutex3`;
* an `UNREGISTER` finds the client's position, shifts the array, sends `OK`
  and lowers the counter, under no mutex.

`roster` and `leaving` are not in the code.  They record which clients have
been stored and not shifted out, in the order of the stores, and which have
been shifted out and are still counted.
-/

namespace SistemasDistribuidos.Practica4

open SistemasDistribuidos

/-- A client that was answered `OK`. -/
structure Member where
  kind : Kind
  topic : TopicName
  id : Int
  fd : Fd
  deriving DecidableEq

/-- The entry of a member in its topic's array. -/
def Member.client (member : Member) : Client :=
  ⟨member.topic, member.id, member.fd⟩

/-- Where the thread of a connection stands. -/
inductive Phase where
  | accepted
  | stored (member : Member)
  | answered (member : Member)
  | refusing (status : Status)
  | refused
  | serving (member : Member)
  | found (member : Member) (topicId clientPos : Nat) (fdToDel : Fd)
  | shifted (member : Member) (topicId : Nat) (fdToDel : Fd)
  | replied (member : Member) (topicId : Nat)
  | finished
  deriving DecidableEq

namespace Phase

/-- The handler has looked a position up and not shifted yet. -/
def isFound : Phase → Bool
  | .found _ _ _ _ => true
  | _ => false

/-- The member whose entry is in the array. -/
def present : Phase → Option Member
  | .stored member => some member
  | .answered member => some member
  | .serving member => some member
  | .found member _ _ _ => some member
  | _ => none

/-- The member whose entry is gone but still counted. -/
def departing : Phase → Option Member
  | .shifted member _ _ => some member
  | .replied member _ => some member
  | _ => none

/-- The member whose entry is stored and not yet counted. -/
def entering : Phase → Option Member
  | .stored member => some member
  | .answered member => some member
  | _ => none

/-- The member whose messages the thread waits for. -/
def served : Phase → Option Member
  | .serving member => some member
  | _ => none

@[simp]
theorem mem_served {phase : Phase} {member : Member} :
    member ∈ phase.served ↔ phase = .serving member := by
  cases phase <;> simp [served, eq_comm]

/-- The phases inside the critical section of `mutex3`. -/
def registering : Phase → Bool
  | .stored _ => true
  | .answered _ => true
  | .refusing _ => true
  | .refused => true
  | _ => false

end Phase

/-- The registry and the threads of all connections. -/
structure Handlers where
  registry : Registry
  mutex3 : Option Fd
  phase : Fd → Phase
  /-- The client of the connection has sent its `UNREGISTER`. -/
  quit : Fd → Bool
  roster : List Member
  leaving : List Member

inductive HandlerAction where
  /-- `talk_to_client` up to the response, on a `REGISTER` message. -/
  | store (fd : Fd) (kind : Kind) (topic : TopicName) (stack : Topic)
  | respond (fd : Fd)
  | count (fd : Fd)
  /-- The client sends an `UNREGISTER`. -/
  | quit (fd : Fd)
  /-- `unregister` up to the first loop of `shift_client_list`; `stackFd` is
  what the uninitialised `fd_to_del` holds. -/
  | find (fd : Fd) (topic : TopicName) (id : Int) (stackFd : Fd)
  | shift (fd : Fd) (beyond : Client)
  | reply (fd : Fd)
  | decrement (fd : Fd)

/-- The connection whose handler, or client, takes the step. -/
def HandlerAction.fd : HandlerAction → Fd
  | .store fd _ _ _ => fd
  | .respond fd => fd
  | .count fd => fd
  | .quit fd => fd
  | .find fd _ _ _ => fd
  | .shift fd _ => fd
  | .reply fd => fd
  | .decrement fd => fd

namespace Handlers

def setPhase (handlers : Handlers) (fd : Fd) (phase : Phase) : Handlers :=
  { handlers with phase := Function.update handlers.phase fd phase }

/-- A client has been stored; its thread holds `mutex3`. -/
def addClient (handlers : Handlers) (member : Member) (registry : Registry) :
    Handlers :=
  { handlers.setPhase member.fd (.stored member) with
    registry := registry
    mutex3 := some member.fd
    roster := handlers.roster ++ [member] }

/-- The critical section of `mutex3` up to the response. -/
def store
    (handlers : Handlers) (fd : Fd) (kind : Kind) (topic : TopicName)
    (stack : Topic) : Handlers :=
  let registered := handlers.registry.register kind topic fd stack
  if registered.2.id = -1 then
    { handlers.setPhase fd (.refusing registered.2.responseStatus) with
      registry := registered.1
      mutex3 := some fd }
  else
    handlers.addClient ⟨kind, topic, registered.2.id, fd⟩ registered.1

/-- The end of the critical section of `mutex3`, on a registered client. -/
def count (handlers : Handlers) (fd : Fd) (member : Member) : Handlers :=
  { handlers.setPhase fd (.serving member) with
    registry := handlers.registry.countClient member.kind member.topic
    mutex3 := none }

/-- Lookup of the topic and of the client's position; `fd_to_del` is set only
when the position is found. -/
def find
    (handlers : Handlers) (fd : Fd) (member : Member) (topic : TopicName)
    (id : Int) (stackFd : Fd) : Handlers :=
  let topicId := handlers.registry.getTopicId topic
  let clientPos :=
    (handlers.registry.allTopics topicId).clientPos member.kind id
  let fdToDel :=
    if clientPos < capacity member.kind then
      ((handlers.registry.allTopics topicId).clients member.kind
        clientPos).fd
    else
      stackFd
  handlers.setPhase fd (.found member topicId clientPos fdToDel)

/-- The second loop of `shift_client_list`. -/
def shift
    (handlers : Handlers) (fd : Fd) (member : Member)
    (topicId clientPos : Nat) (fdToDel : Fd) (beyond : Client) :
    Handlers :=
  { handlers.setPhase fd (.shifted member topicId fdToDel) with
    registry :=
      handlers.registry.updateTopic topicId
        (fun topic => topic.shiftClients member.kind clientPos beyond)
    roster := handlers.roster.filter (fun other => other.fd ≠ fd)
    leaving := handlers.leaving ++ [member] }

/-- The counter of `unregister`, after which its thread exits. -/
def decrement
    (handlers : Handlers) (fd : Fd) (member : Member) (topicId : Nat) :
    Handlers :=
  { handlers.setPhase fd .finished with
    registry :=
      handlers.registry.updateTopic topicId
        (fun topic => topic.addCount member.kind (-1))
    leaving := handlers.leaving.filter (fun other => other.fd ≠ fd) }

/-- One step of one handler.  A handler that would write outside the table of
topics takes no step: a registration whose counter names no slot of the topic,
an `UNREGISTER` of an unknown topic when the table is full. -/
def step (handlers : Handlers) : HandlerAction → Option Handlers
  | .store fd kind topic stack =>
      if handlers.phase fd = .accepted ∧ handlers.mutex3 = none ∧
          handlers.registry.StoresInside kind topic fd stack then
        some (handlers.store fd kind topic stack)
      else
        none
  | .respond fd =>
      match handlers.phase fd with
      | .stored member => some (handlers.setPhase fd (.answered member))
      | .refusing _ => some (handlers.setPhase fd .refused)
      | _ => none
  | .count fd =>
      match handlers.phase fd with
      | .answered member => some (handlers.count fd member)
      | .refused =>
          some { handlers.setPhase fd .finished with mutex3 := none }
      | _ => none
  | .quit fd =>
      some { handlers with quit := Function.update handlers.quit fd true }
  | .find fd topic id stackFd =>
      match handlers.phase fd with
      | .serving member =>
          if handlers.quit fd ∧
              handlers.registry.getTopicId topic < maxTopics then
            some (handlers.find fd member topic id stackFd)
          else
            none
      | _ => none
  | .shift fd beyond =>
      match handlers.phase fd with
      | .found member topicId clientPos fdToDel =>
          some (handlers.shift fd member topicId clientPos fdToDel beyond)
      | _ => none
  | .reply fd =>
      match handlers.phase fd with
      | .shifted member topicId _ =>
          some (handlers.setPhase fd (.replied member topicId))
      | _ => none
  | .decrement fd =>
      match handlers.phase fd with
      | .replied member topicId =>
          some (handlers.decrement fd member topicId)
      | _ => none

/-- No connection has sent anything yet. -/
def initial : Handlers where
  registry := Registry.initial
  mutex3 := none
  phase := fun _ => .accepted
  quit := fun _ => false
  roster := []
  leaving := []

/-! ## What one step does -/

section Inversion

variable {handlers next : Handlers} {fd : Fd}

@[simp]
theorem phase_setPhase_self
    (handlers : Handlers) (fd : Fd) (phase : Phase) :
    (handlers.setPhase fd phase).phase fd = phase :=
  Function.update_self _ _ _

theorem phase_setPhase_of_ne
    (handlers : Handlers) {other : Fd} (different : other ≠ fd)
    (phase : Phase) :
    (handlers.setPhase fd phase).phase other = handlers.phase other :=
  Function.update_of_ne different _ _

theorem step_store
    {kind : Kind} {topic : TopicName} {stack : Topic}
    (taken : handlers.step (.store fd kind topic stack) = some next) :
    handlers.phase fd = .accepted ∧ handlers.mutex3 = none ∧
      next = handlers.store fd kind topic stack := by
  simp only [step, Option.ite_none_right_eq_some, Option.some.injEq] at taken
  exact ⟨taken.1.1, taken.1.2.1, taken.2.symm⟩

theorem step_respond
    (taken : handlers.step (.respond fd) = some next) :
    (∃ member, handlers.phase fd = .stored member ∧
        next = handlers.setPhase fd (.answered member)) ∨
      (∃ status, handlers.phase fd = .refusing status ∧
        next = handlers.setPhase fd .refused) := by
  simp only [step] at taken
  split at taken
  · rename_i member here
    exact Or.inl ⟨member, here, (Option.some.inj taken).symm⟩
  · rename_i status here
    exact Or.inr ⟨status, here, (Option.some.inj taken).symm⟩
  · cases taken

theorem step_count
    (taken : handlers.step (.count fd) = some next) :
    (∃ member, handlers.phase fd = .answered member ∧
        next = handlers.count fd member) ∨
      (handlers.phase fd = .refused ∧
        next =
          { handlers.setPhase fd .finished with mutex3 := none }) := by
  simp only [step] at taken
  split at taken
  · rename_i member here
    exact Or.inl ⟨member, here, (Option.some.inj taken).symm⟩
  · rename_i here
    exact Or.inr ⟨here, (Option.some.inj taken).symm⟩
  · cases taken

theorem step_find
    {topic : TopicName} {id : Int} {stackFd : Fd}
    (taken : handlers.step (.find fd topic id stackFd) = some next) :
    ∃ member, handlers.phase fd = .serving member ∧
      handlers.quit fd = true ∧
      next = handlers.find fd member topic id stackFd := by
  simp only [step] at taken
  split at taken
  · rename_i member here
    simp only [Option.ite_none_right_eq_some, Option.some.injEq] at taken
    exact ⟨member, here, taken.1.1, taken.2.symm⟩
  · cases taken

theorem step_shift
    {beyond : Client}
    (taken : handlers.step (.shift fd beyond) = some next) :
    ∃ member topicId clientPos fdToDel,
      handlers.phase fd = .found member topicId clientPos fdToDel ∧
        next =
          handlers.shift fd member topicId clientPos fdToDel beyond := by
  simp only [step] at taken
  split at taken
  · rename_i member topicId clientPos fdToDel here
    exact
      ⟨member, topicId, clientPos, fdToDel, here,
        (Option.some.inj taken).symm⟩
  · cases taken

theorem step_reply
    (taken : handlers.step (.reply fd) = some next) :
    ∃ member topicId fdToDel,
      handlers.phase fd = .shifted member topicId fdToDel ∧
        next = handlers.setPhase fd (.replied member topicId) := by
  simp only [step] at taken
  split at taken
  · rename_i member topicId fdToDel here
    exact
      ⟨member, topicId, fdToDel, here, (Option.some.inj taken).symm⟩
  · cases taken

theorem step_decrement
    (taken : handlers.step (.decrement fd) = some next) :
    ∃ member topicId,
      handlers.phase fd = .replied member topicId ∧
        next = handlers.decrement fd member topicId := by
  simp only [step] at taken
  split at taken
  · rename_i member topicId here
    exact ⟨member, topicId, here, (Option.some.inj taken).symm⟩
  · cases taken

theorem phase_store_of_ne
    (handlers : Handlers) {fd other : Fd} (different : other ≠ fd)
    (kind : Kind) (topic : TopicName) (stack : Topic) :
    (handlers.store fd kind topic stack).phase other =
      handlers.phase other := by
  simp only [store]
  split <;> exact phase_setPhase_of_ne handlers different _

/-- A step of one connection leaves the phase of every other one alone. -/
theorem phase_step_of_ne
    {action : HandlerAction} {other : Fd}
    (different : other ≠ action.fd)
    (taken : handlers.step action = some next) :
    next.phase other = handlers.phase other := by
  cases action with
  | store fd kind topic stack =>
      obtain ⟨_, _, rfl⟩ := step_store taken
      exact phase_store_of_ne handlers different kind topic stack
  | respond fd =>
      rcases step_respond taken with ⟨_, _, rfl⟩ | ⟨_, _, rfl⟩ <;>
        exact phase_setPhase_of_ne handlers different _
  | count fd =>
      rcases step_count taken with ⟨_, _, rfl⟩ | ⟨_, rfl⟩ <;>
        exact phase_setPhase_of_ne handlers different _
  | quit fd =>
      cases taken
      rfl
  | find fd topic id stackFd =>
      obtain ⟨_, _, _, rfl⟩ := step_find taken
      exact phase_setPhase_of_ne handlers different _
  | shift fd beyond =>
      obtain ⟨_, _, _, _, _, rfl⟩ := step_shift taken
      exact phase_setPhase_of_ne handlers different _
  | reply fd =>
      obtain ⟨_, _, _, _, rfl⟩ := step_reply taken
      exact phase_setPhase_of_ne handlers different _
  | decrement fd =>
      obtain ⟨_, _, _, rfl⟩ := step_decrement taken
      exact phase_setPhase_of_ne handlers different _

/-- It also leaves what every other client has sent. -/
theorem quit_step_of_ne
    {action : HandlerAction} {other : Fd}
    (different : other ≠ action.fd)
    (taken : handlers.step action = some next) :
    next.quit other = handlers.quit other := by
  cases action with
  | store fd kind topic stack =>
      obtain ⟨_, _, rfl⟩ := step_store taken
      simp only [store]
      split <;> rfl
  | respond fd =>
      rcases step_respond taken with ⟨_, _, rfl⟩ | ⟨_, _, rfl⟩ <;> rfl
  | count fd =>
      rcases step_count taken with ⟨_, _, rfl⟩ | ⟨_, rfl⟩ <;> rfl
  | quit fd =>
      cases taken
      exact Function.update_of_ne different _ _
  | find fd topic id stackFd =>
      obtain ⟨_, _, _, rfl⟩ := step_find taken
      rfl
  | shift fd beyond =>
      obtain ⟨_, _, _, _, _, rfl⟩ := step_shift taken
      rfl
  | reply fd =>
      obtain ⟨_, _, _, _, rfl⟩ := step_reply taken
      rfl
  | decrement fd =>
      obtain ⟨_, _, _, rfl⟩ := step_decrement taken
      rfl

/-- A run of the steps of some connections leaves the phase of every other one
alone. -/
theorem phase_run_of_ne
    {actions : List HandlerAction} {final : Handlers} {other : Fd}
    (different : ∀ action ∈ actions, other ≠ action.fd)
    (reached : Machine.run step handlers actions = some final) :
    final.phase other = handlers.phase other := by
  induction actions generalizing handlers with
  | nil =>
      cases reached
      rfl
  | cons action rest inductionHypothesis =>
      obtain ⟨middle, taken, onwards⟩ :=
        Machine.run_cons_eq_some.mp reached
      rw [inductionHypothesis
          (fun later listed =>
            different later (List.mem_cons_of_mem _ listed)) onwards,
        phase_step_of_ne (different action List.mem_cons_self) taken]

end Inversion

end Handlers

end SistemasDistribuidos.Practica4
