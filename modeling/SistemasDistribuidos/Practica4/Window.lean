import Mathlib.Data.List.InsertIdx
import SistemasDistribuidos.Practica4.Blocking
import SistemasDistribuidos.Practica4.Calm

/-!
# Who gets a message while clients come and go

A call reads the number of subscribers once and then goes through the array by
index.  While it does so the clients before that number must stay where they
are: `Window` says that they are the ones that were there when the number was
read, and that all subscribers to whom the message is owed are among them.

The code ensures neither half: a subscriber is answered before it is counted,
and an `UNREGISTER` shifts the array under the loop.  Nor does it ensure that
the threads of a call serve clients that are still there, or, in JUSTO, that
they get out of their barrier.  `Timely` asks for all of it.
-/

namespace SistemasDistribuidos.Practica4

open SistemasDistribuidos SlotArray Machine

namespace Call

/-- The topic index, the count and the next index of a call that has indices
left to read.  What SECUENCIAL looks up first it does not use. -/
def reading (mode : Mode) (call : Call) : Option (Nat × Nat × Nat) :=
  match call.stage with
  | .looked topicId count =>
      if mode = .secuencial then none else some (topicId, count, 0)
  | .loop topicId count index =>
      if index < count then some (topicId, count, index) else none
  | _ => none

def Over (call : Call) : Prop :=
  call.stage = .returned ∨
    ∃ topicId count index,
      call.stage = .loop topicId count index ∧ ¬ index < count

end Call

namespace Broker

/-- The action at which a call reads the count that its loop uses. -/
def Counts (mode : Mode) (id : CallId) : PublishAction → Prop
  | .look other => mode ≠ .secuencial ∧ other = id
  | .enter other => mode = .secuencial ∧ other = id
  | _ => False

/-- The conditions under which every message reaches whom it is owed to, and
nobody else: clients are stored inside the array and not while another is
leaving it; a count is read when no subscriber of the topic is leaving and all
to whom the message is owed have been counted; no subscriber is shifted out
below the count of a call that is still reading the array, nor while a thread
that was started for its descriptor has still to send; and in JUSTO the last
thread of a call does not arrive to wait for ever. -/
def Timely (mode : Mode) (messages : CallId → Message)
    (broker : Broker) : BrokerAction → Prop
  | .store fd kind topic stack =>
      broker.handlers.Room (.store fd kind topic stack) ∧
        broker.handlers.Separate (.store fd kind topic stack)
  | .shiftClientList fd _ _ =>
      ∀ member, broker.handlers.phase fd = .serving member →
        member.kind = .subscriber →
          (∀ id topicId count index,
            (broker.publishing.call id).reading mode =
                some (topicId, count, index) →
              (messages id).topic = member.topic →
                count ≤
                  (broker.handlers.registry.allTopics
                    (broker.handlers.registry.getTopicId
                      member.topic)).clientPos .subscriber member.id) ∧
            ∀ id, ∀ sender ∈ (broker.publishing.call id).senders,
              sender.fd = fd → sender.phase = .done
  | .publish action =>
      (mode = .justo → broker.Released messages (.publish action)) ∧
        ∀ id, Counts mode id action →
          (∀ fd member,
            (broker.handlers.phase fd).departing = some member →
              ¬ (member.topic = (messages id).topic ∧
                  member.kind = .subscriber)) ∧
            ∀ fd member, broker.owed id fd = true →
              broker.handlers.quit fd = false →
                broker.handlers.phase fd ≠ .answered member
  | _ => True

/-- The first `count` subscribers of the topic are served by a call: all of
them have been answered, and those to whom the message is owed are among
them. -/
structure Window (broker : Broker) (id : CallId) (topic : TopicName)
    (topicId count : Nat) : Prop where
  named : broker.handlers.registry.table.names[topicId]? = some topic
  enough : count ≤ (broker.handlers.subscribers topic).length
  told : ∀ client ∈ (broker.handlers.subscribers topic).take count,
    (broker.handlers.phase client.fd).told =
      some ⟨.subscriber, topic, client.id, client.fd⟩
  owed : ∀ fd, broker.owed id fd = true →
    broker.handlers.quit fd = false →
      fd ∈ ((broker.handlers.subscribers topic).take count).map Client.fd

/-- How far a call has come with its subscribers. -/
structure OnTrack (mode : Mode) (topic : TopicName) (broker : Broker)
    (id : CallId) (call : Call) : Prop where
  unsent : broker.sent id.publisher ≤ id.index → call.stage = .idle
  known : call.stage ≠ .idle →
    topic ∈ broker.handlers.registry.table.names
  early :
    (call.stage = .idle ∨
        ∃ topicId count, call.stage = .looked topicId count) →
      call.senders.map Sender.fd = []
  window : ∀ topicId count index,
    call.reading mode = some (topicId, count, index) →
      broker.Window id topic topicId count ∧
        call.senders.map Sender.fd =
          ((broker.handlers.subscribers topic).take index).map Client.fd
  ended : call.Over →
    (call.senders.map Sender.fd).Nodup ∧
      ∀ fd, broker.owed id fd = true → broker.handlers.quit fd = false →
        fd ∈ call.senders.map Sender.fd

/-- Every call is on track, and the clients are where their messages say. -/
structure Delivers (mode : Mode) (messages : CallId → Message)
    (broker : Broker) : Prop where
  consistent : broker.handlers.Consistent
  unfound : broker.handlers.Unfound
  sending : ∀ id : CallId,
    broker.publishing.returned id.publisher ≤ id.index →
      id.index < broker.sent id.publisher →
        ∃ member,
          (broker.handlers.phase id.publisher).told = some member ∧
            member.kind = .publisher ∧
            member.topic = (messages id).topic
  owed : ∀ id fd, broker.owed id fd = true →
    broker.handlers.quit fd = false →
      ∃ subscriberId,
        (broker.handlers.phase fd).told =
          some ⟨.subscriber, (messages id).topic, subscriberId, fd⟩
  calls : ∀ id,
    broker.OnTrack mode (messages id).topic id (broker.publishing.call id)

section Steps

variable {mode : Mode} {messages : CallId → Message} {broker : Broker}
  {id : CallId} {topic : TopicName} {call : Call}

theorem OnTrack.of_same
    (onTrack : broker.OnTrack mode topic id call) {other : Call}
    (stage : other.stage = call.stage)
    (fds : other.senders.map Sender.fd = call.senders.map Sender.fd) :
    broker.OnTrack mode topic id other := by
  have reading : other.reading mode = call.reading mode := by
    rw [Call.reading, Call.reading, stage]
  have ended : other.Over ↔ call.Over := by
    rw [Call.Over, Call.Over, stage]
  refine ⟨?_, ?_, ?_, ?_, ?_⟩
  · rw [stage]
    exact onTrack.unsent
  · rw [stage]
    exact onTrack.known
  · rw [stage, fds]
    exact onTrack.early
  · intro topicId count index reads
    rw [reading] at reads
    rw [fds]
    exact onTrack.window topicId count index reads
  · rw [ended, fds]
    exact onTrack.ended

/-- The handlers have moved, and the clients that a call is reading are still
where they were. -/
theorem OnTrack.of_handlers
    (onTrack : broker.OnTrack mode topic id call)
    {handlers : Handlers}
    (names :
      broker.handlers.registry.table.names <+:
        handlers.registry.table.names)
    (quit : ∀ fd, handlers.quit fd = false →
      broker.handlers.quit fd = false)
    (stay : ∀ topicId count index,
      call.reading mode = some (topicId, count, index) →
        count ≤ (handlers.subscribers topic).length ∧
          (handlers.subscribers topic).take count =
            (broker.handlers.subscribers topic).take count ∧
          ∀ client ∈ (broker.handlers.subscribers topic).take count,
            ∀ member,
              (broker.handlers.phase client.fd).told = some member →
                (handlers.phase client.fd).told = some member) :
    Broker.OnTrack mode topic { broker with handlers := handlers } id
      call where
  unsent := onTrack.unsent
  known := fun started => names.subset (onTrack.known started)
  early := onTrack.early
  window := by
    intro topicId count index reads
    obtain ⟨window, fds⟩ := onTrack.window topicId count index reads
    obtain ⟨enough, same, told⟩ := stay topicId count index reads
    have inside : index ≤ count := by
      unfold Call.reading at reads
      split at reads
      · split at reads
        · cases reads
        · cases reads
          exact Nat.zero_le _
      · split at reads
        · cases reads
          omega
        · cases reads
      · cases reads
    refine ⟨⟨?_, enough, ?_, ?_⟩, ?_⟩
    · exact getElem?_of_isPrefix names window.named
    · intro client listed
      simp only [same] at listed
      exact told client listed _ (window.told client listed)
    · intro fd owed unquit
      simp only [same]
      exact window.owed fd owed (quit fd unquit)
    · rw [fds]
      have shorter := congrArg (List.take index) same
      rw [List.take_take, List.take_take, Nat.min_eq_left inside] at shorter
      simp only [shorter]
  ended := by
    intro isOver
    obtain ⟨distinct, served⟩ := onTrack.ended isOver
    exact
      ⟨distinct, fun fd owed unquit => served fd owed (quit fd unquit)⟩

/-- The handlers have moved, and nobody who is owed a message or has one on
its way has been forgotten. -/
theorem Delivers.of_handlers
    (delivers : broker.Delivers mode messages)
    {handlers : Handlers}
    (consistent : handlers.Consistent) (unfound : handlers.Unfound)
    (quit : ∀ fd, handlers.quit fd = false →
      broker.handlers.quit fd = false)
    (told : ∀ fd member,
      (broker.handlers.phase fd).told = some member →
        (handlers.phase fd).told = some member ∨
          (handlers.quit fd = true ∧
            broker.sent fd = broker.publishing.returned fd))
    (calls : ∀ id,
      Broker.OnTrack mode (messages id).topic
        { broker with handlers := handlers } id
        (broker.publishing.call id)) :
    Broker.Delivers mode messages { broker with handlers := handlers } where
  consistent := consistent
  unfound := unfound
  sending := by
    intro id started unread
    have started :
        broker.publishing.returned id.publisher ≤ id.index := started
    have unread : id.index < broker.sent id.publisher := unread
    obtain ⟨member, before, kind, topic⟩ :=
      delivers.sending id started unread
    rcases told _ _ before with after | ⟨_, allRead⟩
    · exact ⟨member, after, kind, topic⟩
    · omega
  owed := by
    intro id fd owed unquit
    obtain ⟨subscriberId, before⟩ := delivers.owed id fd owed (quit fd unquit)
    rcases told _ _ before with after | ⟨hasQuit, _⟩
    · exact ⟨subscriberId, after⟩
    · have unquit : handlers.quit fd = false := unquit
      rw [unquit] at hasQuit
      cases hasQuit
  calls := calls

theorem Delivers.of_calm
    (delivers : broker.Delivers mode messages)
    {handlers : Handlers} {action : HandlerAction}
    (taken : broker.handlers.step action = some handlers)
    (consistent : handlers.Consistent)
    (calm : broker.handlers.Calm handlers) :
    Broker.Delivers mode messages { broker with handlers := handlers } := by
  have names :=
    Handlers.names_of_run delivers.consistent.toGenerators
      ((run_singleton broker.handlers action).trans taken)
  refine
    delivers.of_handlers consistent (calm.unfound delivers.unfound) calm.quit
      (fun fd member before => Or.inl (calm.told fd member before))
      (fun id => (delivers.calls id).of_handlers names calm.quit ?_)
  intro topicId count index reads
  obtain ⟨window, _⟩ := (delivers.calls id).window topicId count index reads
  have grows := calm.subscribers (messages id).topic
  obtain ⟨more, grown⟩ := grows
  rw [← grown]
  refine ⟨?_, ?_, fun client _ member => calm.told client.fd member⟩
  · rw [List.length_append]
    have enough := window.enough
    omega
  · exact List.take_append_of_le_length window.enough

/-- A client is shifted out behind the clients that are being read. -/
theorem Delivers.shiftClientList
    (delivers : broker.Delivers mode messages)
    {fd stackFd : Fd} {beyond : Client} {next : Broker}
    (timely :
      broker.Timely mode messages (.shiftClientList fd stackFd beyond))
    (taken :
      broker.step mode messages (.shiftClientList fd stackFd beyond) =
        some next) :
    next.Delivers mode messages := by
  obtain ⟨member, handlers, here, allRead, reached, rfl⟩ :=
    step_shiftClientList taken
  obtain ⟨hasQuit, sameQuit, ⟨repliedId, replied⟩, others, roster, keeps⟩ :=
    Handlers.run_shiftClientList here reached
  have consistent := delivers.consistent
  have names :=
    Handlers.names_of_run consistent.toGenerators reached
  obtain ⟨enrolled, ownFd⟩ :=
    (consistent.present fd member).mp (by rw [here]; rfl)
  have quit :
      ∀ other, handlers.quit other = false →
        broker.handlers.quit other = false := by
    intro other unquit
    rw [sameQuit] at unquit
    exact unquit
  refine
    delivers.of_handlers (keeps consistent delivers.unfound) ?_ quit ?_
      (fun id => (delivers.calls id).of_handlers names quit ?_)
  · intro other
    by_cases same : other = fd
    · subst same
      rw [replied]
      exact fun _ _ _ _ => Phase.noConfusion
    · rw [others other same]
      exact delivers.unfound other
  · intro other otherMember before
    by_cases same : other = fd
    · subst same
      rw [sameQuit]
      exact Or.inr ⟨hasQuit, allRead⟩
    · rw [others other same]
      exact Or.inl before
  · intro topicId count index reads
    obtain ⟨window, _⟩ := (delivers.calls id).window topicId count index reads
    have enough := window.enough
    have sameOthers :
        ∀ client ∈ (broker.handlers.subscribers (messages id).topic).take
            count,
          client.fd ≠ fd →
            ∀ told,
              (broker.handlers.phase client.fd).told = some told →
                (handlers.phase client.fd).told = some told := by
      intro client _ different told before
      rw [others client.fd different]
      exact before
    obtain ⟨_, position, atPosition, _, found, _⟩ :=
      consistent.clientPos_eq enrolled
    have lists :
        handlers.subscribers (messages id).topic =
          (membersOf broker.handlers.roster).erase member.topic member.kind
            position (messages id).topic .subscriber := by
      rw [Handlers.subscribers, roster, ← ownFd,
        membersOf_filter consistent.rosterFds enrolled atPosition]
    rw [lists, Lists.erase]
    by_cases own :
        (messages id).topic = member.topic ∧ .subscriber = member.kind
    · obtain ⟨sameTopic, sameKind⟩ := own
      have behind : count ≤ position := by
        have asked :=
          (timely member here sameKind.symm).1 id topicId count index reads
            sameTopic
        rw [sameKind, found] at asked
        exact asked
      rw [← sameTopic, ← sameKind] at atPosition
      obtain ⟨inside, value⟩ := List.getElem?_eq_some_iff.mp atPosition
      rw [if_pos ⟨sameTopic, sameKind⟩]
      refine ⟨?_, List.take_eraseIdx_eq_take_of_le _ _ _ behind, ?_⟩
      · rw [List.length_eraseIdx_of_lt inside]
        omega
      · intro client listed
        apply sameOthers client listed
        -- the client that leaves stands behind all that are being read
        have distinct :=
          fds_membersOf_nodup consistent.rosterFds (messages id).topic
            .subscriber
        rw [← ownFd]
        exact fd_ne_of_mem_take distinct atPosition behind listed
    · rw [if_neg own]
      refine ⟨enough, rfl, ?_⟩
      intro client listed
      apply sameOthers client listed
      intro sameFd
      have told := window.told client listed
      rw [sameFd, here] at told
      cases told
      exact own ⟨rfl, rfl⟩

theorem Delivers.send
    (delivers : broker.Delivers mode messages)
    {publisher : Fd} {next : Broker}
    (taken :
      broker.step mode messages (.send publisher) = some next) :
    next.Delivers mode messages := by
  obtain ⟨member, told, unquit, kind, topic, rfl⟩ := step_send taken
  have sentSelf :
      (broker.send messages publisher).sent publisher =
        broker.sent publisher + 1 :=
    Function.update_self _ _ _
  have sentOther :
      ∀ other, other ≠ publisher →
        (broker.send messages publisher).sent other = broker.sent other :=
    fun other different => Function.update_of_ne different _ _
  have owedOther :
      ∀ id, id ≠ ⟨publisher, broker.sent publisher⟩ →
        (broker.send messages publisher).owed id = broker.owed id :=
    fun id different => Function.update_of_ne different _ _
  have grows :
      ∀ other,
        broker.sent other ≤ (broker.send messages publisher).sent other := by
    intro other
    by_cases same : other = publisher
    · rw [same, sentSelf]
      exact Nat.le_succ _
    · rw [sentOther other same]
  refine ⟨delivers.consistent, delivers.unfound, ?_, ?_, ?_⟩
  · intro id started unread
    by_cases new : id = ⟨publisher, broker.sent publisher⟩
    · rw [new]
      exact ⟨member, told, kind, topic⟩
    · apply delivers.sending id started
      by_cases same : id.publisher = publisher
      · rw [same, sentSelf] at unread
        have different : id.index ≠ broker.sent publisher := by
          intro sameIndex
          exact new (CallId.ext same sameIndex)
        rw [same]
        omega
      · rw [sentOther _ same] at unread
        exact unread
  · intro id fd owed unquitFd
    by_cases new : id = ⟨publisher, broker.sent publisher⟩
    · subst new
      simp only [Broker.send, Function.update_self] at owed
      split at owed
      · rename_i subscriber subscriberTold
        obtain ⟨sameKind, sameTopic⟩ := of_decide_eq_true owed
        obtain ⟨_, ownFd⟩ :=
          delivers.consistent.enrolled_of_told subscriberTold
        have same :
            subscriber =
              ⟨.subscriber,
                (messages ⟨publisher, broker.sent publisher⟩).topic,
                subscriber.id, fd⟩ := by
          rw [← sameKind, ← sameTopic, ← ownFd]
        exact
          ⟨subscriber.id, subscriberTold.trans (congrArg some same)⟩
      · cases owed
    · rw [owedOther id new] at owed
      exact delivers.owed id fd owed unquitFd
  · intro id
    have before := delivers.calls id
    by_cases new : id = ⟨publisher, broker.sent publisher⟩
    · have idle : (broker.publishing.call id).stage = .idle :=
        before.unsent (by rw [new])
      refine ⟨fun _ => idle, before.known, before.early, ?_, ?_⟩
      · intro _ _ _ reads
        have reads :
            (broker.publishing.call id).reading mode = some _ := reads
        rw [Call.reading, idle] at reads
        cases reads
      · rintro (impossible | ⟨_, _, _, impossible, _⟩)
        · cases idle.symm.trans impossible
        · cases idle.symm.trans impossible
    · refine
        ⟨fun unsent => before.unsent ((grows _).trans unsent),
          before.known, before.early, ?_, ?_⟩
      · intro topicId count index reads
        obtain ⟨window, fds⟩ := before.window topicId count index reads
        refine ⟨⟨window.named, window.enough, window.told, ?_⟩, fds⟩
        rw [owedOther id new]
        exact window.owed
      · rw [owedOther id new]
        exact before.ended

/-- What a call reads at an index of its window. -/
theorem Window.subscriberAt
    {topicId count index : Nat}
    (window : broker.Window id topic topicId count)
    (consistent : broker.handlers.Consistent) (inside : index < count) :
    (broker.handlers.subscribers topic)[index]? =
      some
        ((broker.handlers.registry.allTopics topicId).subscriberAt
          index) := by
  obtain ⟨existing, name⟩ :=
    Registry.getElem?_names_eq_some.mp window.named
  have slots := consistent.holds.slots topicId existing .subscriber
  have fits := consistent.holds.fits topic .subscriber
  have enough := window.enough
  rw [name] at slots
  rw [Handlers.subscribers] at enough ⊢
  rw [← slots, getElem?_occupied, if_pos (by omega), Topic.subscriberAt,
    if_pos (by simp only [capacity] at fits; omega)]
  rfl

theorem Delivers.of_publishing
    (delivers : broker.Delivers mode messages)
    {publishing : Publishing}
    (returned : ∀ publisher,
      broker.publishing.returned publisher ≤
        publishing.returned publisher)
    (calls : ∀ id,
      broker.OnTrack mode (messages id).topic id (publishing.call id)) :
    (broker.publish publishing).Delivers mode messages where
  consistent := delivers.consistent
  unfound := delivers.unfound
  sending := fun id started unread =>
    delivers.sending id ((returned _).trans started) unread
  owed := delivers.owed
  calls := fun id =>
    { unsent := (calls id).unsent
      known := (calls id).known
      early := (calls id).early
      window := fun topicId count index reads =>
        ⟨⟨((calls id).window topicId count index reads).1.named,
            ((calls id).window topicId count index reads).1.enough,
            ((calls id).window topicId count index reads).1.told,
            ((calls id).window topicId count index reads).1.owed⟩,
          ((calls id).window topicId count index reads).2⟩
      ended := (calls id).ended }

end Steps

end Broker

end SistemasDistribuidos.Practica4
