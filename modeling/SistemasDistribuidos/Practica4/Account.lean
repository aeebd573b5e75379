import SistemasDistribuidos.Practica4.Handlers

/-!
# The broker as an account of its clients

What the broker is for, without arrays or counters: a table of topics, and
the clients that were answered `OK` and have not been removed, in the order of
their registrations.  Every step of a handler either leaves the account alone
or does to it what one client message asks for.
-/

namespace SistemasDistribuidos.Practica4

open SistemasDistribuidos Machine

/-- A client message that changes the account. -/
inductive RegistryMessage where
  | register (fd : Fd) (kind : Kind) (topic : TopicName)
  | unregister (fd : Fd) (topic : TopicName) (id : Int)
  deriving DecidableEq

structure Account where
  table : Table
  members : List Member

namespace Account

def register (account : Account) (fd : Fd) (kind : Kind)
    (topic : TopicName) : Account :=
  let registered := account.table.register kind topic
  if registered.2.responseStatus = .ok then
    ⟨registered.1, account.members ++ [⟨kind, topic, registered.2.id, fd⟩]⟩
  else
    ⟨registered.1, account.members⟩

def unregister (account : Account) (fd : Fd) : Account :=
  { account with
    members := account.members.filter (fun other => other.fd ≠ fd) }

def receive (account : Account) : RegistryMessage → Account
  | .register fd kind topic => account.register fd kind topic
  | .unregister fd _ _ => account.unregister fd

/-- A client is stored when it is registered and gone once it is shifted
out. -/
def follow (account : Account) : HandlerAction → Account
  | .store fd kind topic _ => account.register fd kind topic
  | .shift fd _ => account.unregister fd
  | _ => account

def empty : Account where
  table := ⟨[], 0, 1⟩
  members := []

/-- Only clients that asked to be registered are members. -/
theorem registered_of_mem
    (messages : List RegistryMessage) (account : Account)
    {member : Member}
    (enrolled : member ∈ (messages.foldl receive account).members) :
    member ∈ account.members ∨
      RegistryMessage.register member.fd member.kind member.topic ∈
        messages := by
  induction messages generalizing account with
  | nil =>
      exact Or.inl enrolled
  | cons message rest inductionHypothesis =>
      rcases inductionHypothesis (account.receive message) enrolled with
        before | later
      · cases message with
        | register fd kind topic =>
            simp only [receive, register] at before
            split at before
            · rcases List.mem_append.mp before with old | new
              · exact Or.inl old
              · cases List.mem_singleton.mp new
                exact Or.inr List.mem_cons_self
            · exact Or.inl before
        | unregister fd topic id =>
            exact Or.inl (List.mem_filter.mp before).1
      · exact Or.inr (List.mem_cons_of_mem _ later)

theorem names_follow (account : Account) (action : HandlerAction) :
    account.table.names <+: (account.follow action).table.names := by
  cases action with
  | store fd kind topic stack =>
      simp only [follow, register]
      split
      · exact Table.names_register _ _ _
      · exact Table.names_register _ _ _
  | _ => exact List.prefix_rfl

theorem names_foldl_follow
    (actions : List HandlerAction) (account : Account) :
    account.table.names <+:
      (actions.foldl follow account).table.names := by
  induction actions generalizing account with
  | nil =>
      exact List.prefix_rfl
  | cons action rest inductionHypothesis =>
      exact (names_follow account action).trans (inductionHypothesis _)

end Account

namespace Handlers

/-- The account that the broker keeps. -/
def account (handlers : Handlers) : Account :=
  ⟨handlers.registry.table, handlers.roster⟩

/-- The globals that no interleaving can upset: `current_subscribers` is
never raised, and ids are not negative. -/
structure Generators (handlers : Handlers) : Prop where
  noneCounted : handlers.registry.currentSubscribers = 0
  generated : ∀ kind, 0 ≤ handlers.registry.nextId kind

theorem generators_initial : initial.Generators where
  noneCounted := rfl
  generated := by
    intro kind
    cases kind <;> decide

section Steps

variable {handlers : Handlers}

/-- Up to the response, a registration does what the account does. -/
theorem account_store
    (generators : handlers.Generators)
    (fd : Fd) (kind : Kind) (topic : TopicName) (stack : Topic) :
    (handlers.store fd kind topic stack).Generators ∧
      (handlers.store fd kind topic stack).account =
        handlers.account.register fd kind topic := by
  obtain ⟨table, answer, noneCounted⟩ :=
    Registry.register_table generators.noneCounted kind topic fd stack
  have generated :
      ∀ other,
        0 ≤ (handlers.registry.register kind topic fd stack).1.nextId
          other := by
    intro other
    rw [← Registry.nextId_table, table]
    exact
      Table.generated_register
        (fun other => (Registry.nextId_table _ other).symm ▸
          generators.generated other) other
  by_cases refused :
      (handlers.registry.register kind topic fd stack).2.id = -1
  · have notOk :
        (handlers.account.table.register kind topic).2.responseStatus ≠
          .ok :=
      (Table.register_refused
        ((Registry.nextId_table _ _).symm ▸ generators.generated kind)
        (answer ▸ refused)).2
    simp only [store, if_pos refused, Account.register, if_neg notOk]
    exact ⟨⟨noneCounted, generated⟩, by rw [account, table]; rfl⟩
  · have ok :
        (handlers.account.table.register kind topic).2.responseStatus =
          .ok :=
      congrArg Response.responseStatus
        (Table.register_granted (answer ▸ refused)).1
    simp only [store, if_neg refused, Account.register, if_pos ok]
    refine ⟨⟨noneCounted, generated⟩, ?_⟩
    simp only [account, addClient, answer, table]

/-- Every step does to the account what it stands for, on any
interleaving. -/
theorem step_account
    {next : Handlers} {action : HandlerAction}
    (generators : handlers.Generators)
    (taken : handlers.step action = some next) :
    next.Generators ∧ next.account = handlers.account.follow action := by
  cases action with
  | store fd kind topic stack =>
      obtain ⟨_, _, rfl⟩ := step_store taken
      exact account_store generators fd kind topic stack
  | respond fd =>
      rcases step_respond taken with ⟨_, _, rfl⟩ | ⟨_, _, rfl⟩
      · exact ⟨⟨generators.noneCounted, generators.generated⟩, rfl⟩
      · exact ⟨⟨generators.noneCounted, generators.generated⟩, rfl⟩
  | count fd =>
      rcases step_count taken with ⟨_, _, rfl⟩ | ⟨_, rfl⟩
      · refine ⟨⟨generators.noneCounted, ?_⟩, ?_⟩
        · exact generators.generated
        · rw [account, count, Registry.table_countClient]
          rfl
      · exact ⟨⟨generators.noneCounted, generators.generated⟩, rfl⟩
  | quit fd =>
      cases taken
      exact ⟨⟨generators.noneCounted, generators.generated⟩, rfl⟩
  | find fd topic id stackFd =>
      obtain ⟨_, _, _, rfl⟩ := step_find taken
      exact ⟨⟨generators.noneCounted, generators.generated⟩, rfl⟩
  | shift fd beyond =>
      obtain ⟨_, _, _, _, _, rfl⟩ := step_shift taken
      refine ⟨⟨generators.noneCounted, generators.generated⟩, ?_⟩
      rw [account, shift, Registry.table_shiftClients]
      rfl
  | reply fd =>
      obtain ⟨_, _, _, _, rfl⟩ := step_reply taken
      exact ⟨⟨generators.noneCounted, generators.generated⟩, rfl⟩
  | decrement fd =>
      obtain ⟨_, _, _, rfl⟩ := step_decrement taken
      refine ⟨⟨generators.noneCounted, generators.generated⟩, ?_⟩
      rw [account, decrement, Registry.table_addCount]
      rfl

/-- So does every run. -/
theorem account_of_run
    {final : Handlers} {actions : List HandlerAction}
    (generators : handlers.Generators)
    (reached : run step handlers actions = some final) :
    final.account = actions.foldl Account.follow handlers.account :=
  view_of_run
    (fun _ _ _ kept _ taken => step_account kept taken)
    generators (obeys_true handlers actions) reached

/-- The names of the topics are never changed or removed. -/
theorem names_of_run
    {final : Handlers} {actions : List HandlerAction}
    (generators : handlers.Generators)
    (reached : run step handlers actions = some final) :
    handlers.registry.table.names <+: final.registry.table.names := by
  have followed := account_of_run generators reached
  have names :
      final.registry.table.names =
        (actions.foldl Account.follow handlers.account).table.names := by
    rw [← followed]
    rfl
  rw [names]
  exact Account.names_foldl_follow actions handlers.account

end Steps

end Handlers

end SistemasDistribuidos.Practica4
