import SistemasDistribuidos.Practica4.Window

/-!
# Whom the threads of a call still have to serve

A send goes to the descriptor that its call reads at a loop index, or to one
for which the call has started a thread before.  In a run whose steps are
`Timely`, whoever has that descriptor is still a subscriber of the topic when
the message is sent.
-/

namespace SistemasDistribuidos.Practica4

open SistemasDistribuidos Machine

namespace Publishing

/-- The call is at a loop index and reads this descriptor there. -/
def Reads (registry : Registry) (publishing : Publishing) (id : CallId)
    (fd : Fd) : Prop :=
  ∃ topicId count index,
    (publishing.call id).stage = .loop topicId count index ∧
      index < count ∧
      fd = ((registry.allTopics topicId).subscriberAt index).fd

/-- The call has started a sender for this descriptor that is not done. -/
def Owes (publishing : Publishing) (id : CallId) (fd : Fd) : Prop :=
  ∃ sender ∈ (publishing.call id).senders,
    sender.fd = fd ∧ sender.phase ≠ .done

section Owes

variable {mode : Mode} {messages : CallId → Message}
  {registry : Registry} {publishing next : Publishing} {id : CallId}
  {fd : Fd}

theorem Owes.of_senders
    (owes : next.Owes id fd)
    (same : (next.call id).senders = (publishing.call id).senders) :
    publishing.Owes id fd := by
  rw [Owes, same] at owes
  exact owes

theorem Owes.of_call
    {other : CallId} {call : Call}
    (owes : next.Owes id fd)
    (moved : next.call = Function.update publishing.call other call)
    (same : call.senders = (publishing.call other).senders) :
    publishing.Owes id fd := by
  apply owes.of_senders
  rw [moved]
  by_cases here : id = other
  · rw [here, Function.update_self, same]
  · rw [Function.update_of_ne here]

theorem Owes.of_setPhase
    {other : CallId} {thread : Nat} {sender : Sender}
    {before phase : SenderPhase}
    (here : (publishing.call other).senders[thread]? = some sender)
    (stood : sender.phase = before) (notDone : before ≠ .done)
    (owes : (publishing.setPhase other thread sender phase).Owes id fd) :
    publishing.Owes id fd := by
  by_cases same : id = other
  · subst same
    obtain ⟨owing, listed, own, owingNotDone⟩ := owes
    simp only [Publishing.setPhase, setCall, Function.update_self]
      at listed
    rcases List.mem_or_eq_of_mem_set listed with earlier | moved
    · exact ⟨owing, earlier, own, owingNotDone⟩
    · rw [moved] at own
      rw [← stood] at notDone
      exact ⟨sender, List.mem_of_getElem? here, own, notDone⟩
  · exact owes.of_senders (by
      simp only [Publishing.setPhase, setCall,
        Function.update_of_ne same])

/-- The broadcast wakes those that wait; none of them is done. -/
theorem Owes.of_wake
    (owes : next.Owes id fd)
    (woken : next.call id = (publishing.call id).wake) :
    publishing.Owes id fd := by
  obtain ⟨owing, listed, own, notDone⟩ := owes
  rw [woken] at listed
  obtain ⟨sender, before, rfl⟩ := List.mem_map.mp listed
  refine ⟨sender, before, own, ?_⟩
  intro done
  exact notDone (by rw [Sender.wake, done]; rfl)

/-- A sender that is not done was so before, or has just been started for the
descriptor that its call read. -/
theorem owes_step
    {action : PublishAction}
    (taken :
      publishing.step mode messages registry action = some next)
    (owes : next.Owes id fd) :
    publishing.Owes id fd ∨ publishing.Reads registry id fd := by
  cases action with
  | look other =>
      obtain ⟨_, _, rfl⟩ := step_look taken
      exact Or.inl (owes.of_call rfl rfl)
  | enter other =>
      obtain ⟨_, _, _, ⟨_, rfl⟩ | ⟨_, _, rfl⟩⟩ := step_enter taken
      · exact Or.inl (owes.of_call rfl rfl)
      · exact Or.inl (owes.of_call rfl rfl)
  | next other stack =>
      obtain ⟨topicId, count, index, loops, inside, rfl⟩ :=
        step_next taken
      by_cases same : id = other
      · subst same
        obtain ⟨owing, listed, own, notDone⟩ := owes
        simp only [Publishing.next, setCall, Function.update_self,
          List.mem_append, List.mem_singleton] at listed
        rcases listed with before | new
        · exact Or.inl ⟨owing, before, own, notDone⟩
        · rw [new] at own
          exact
            Or.inr ⟨topicId, count, index, loops, inside, own.symm⟩
      · exact
          Or.inl
            (owes.of_senders (by
              simp only [Publishing.next, setCall,
                Function.update_of_ne same]))
  | finish other =>
      obtain ⟨_, _, _, _, _, _, rfl⟩ := step_finish taken
      exact Or.inl (owes.of_call rfl rfl)
  | arrive other thread =>
      obtain ⟨sender, here, started, _, outcome⟩ := step_arrive taken
      left
      rcases outcome with ⟨_, rfl⟩ | ⟨_, rfl⟩
      · exact Owes.of_setPhase here started SenderPhase.noConfusion owes
      · exact Owes.of_setPhase here started SenderPhase.noConfusion owes
  | reacquire other thread =>
      obtain ⟨sender, here, woken, _, rfl⟩ := step_reacquire taken
      left
      exact Owes.of_setPhase here woken SenderPhase.noConfusion owes
  | leave other thread =>
      obtain ⟨sender, here, leaving, rfl⟩ := step_leave taken
      have moved :
          (publishing.setPhase other thread sender .sending).Owes id fd :=
        owes.of_wake rfl
      left
      exact Owes.of_setPhase here leaving SenderPhase.noConfusion moved
  | transmit other thread stack =>
      obtain ⟨sender, here, sending, rfl⟩ := step_transmit taken
      left
      exact Owes.of_setPhase here sending SenderPhase.noConfusion owes

/-- Whatever a step sends goes to a descriptor that its call reads, or for
which it has started a sender. -/
theorem log_step
    {action : PublishAction}
    (taken :
      publishing.step mode messages registry action = some next) :
    ∃ sends,
      next.log = publishing.log ++ sends ∧
        ∀ sent ∈ sends,
          publishing.Owes sent.call sent.fd ∨
            publishing.Reads registry sent.call sent.fd := by
  -- most steps send nothing
  have silent : ∀ other : Publishing, other.log = publishing.log →
      ∃ sends,
        other.log = publishing.log ++ sends ∧
          ∀ sent ∈ sends,
            publishing.Owes sent.call sent.fd ∨
              publishing.Reads registry sent.call sent.fd :=
    fun other same => ⟨[], by rw [same, List.append_nil], nofun⟩
  cases action with
  | look other =>
      obtain ⟨_, _, rfl⟩ := step_look taken
      exact silent _ rfl
  | enter other =>
      obtain ⟨_, _, _, ⟨_, rfl⟩ | ⟨_, _, rfl⟩⟩ := step_enter taken
      · exact silent _ rfl
      · exact silent _ rfl
  | next other stack =>
      obtain ⟨topicId, count, index, loops, inside, rfl⟩ :=
        step_next taken
      by_cases sequential : mode = .secuencial
      · refine
          ⟨[⟨other, ((registry.allTopics topicId).subscriberAt index).fd,
              (messages other).publish stack⟩],
            by simp only [Publishing.next, sequential, if_true], ?_⟩
        intro sent listed
        rw [List.mem_singleton.mp listed]
        exact Or.inr ⟨topicId, count, index, loops, inside, rfl⟩
      · exact
          silent _ (by simp only [Publishing.next, if_neg sequential])
  | finish other =>
      obtain ⟨_, _, _, _, _, _, rfl⟩ := step_finish taken
      exact silent _ rfl
  | arrive other thread =>
      obtain ⟨_, _, _, _, ⟨_, rfl⟩ | ⟨_, rfl⟩⟩ := step_arrive taken
      · exact silent _ rfl
      · exact silent _ rfl
  | reacquire other thread =>
      obtain ⟨_, _, _, _, rfl⟩ := step_reacquire taken
      exact silent _ rfl
  | leave other thread =>
      obtain ⟨_, _, _, rfl⟩ := step_leave taken
      exact silent _ rfl
  | transmit other thread stack =>
      obtain ⟨sender, here, sending, rfl⟩ := step_transmit taken
      refine
        ⟨[⟨other, sender.fd, (messages other).publish stack⟩], rfl, ?_⟩
      intro sent listed
      rw [List.mem_singleton.mp listed]
      refine
        Or.inl ⟨sender, List.mem_of_getElem? here, rfl, ?_⟩
      rw [sending]
      exact SenderPhase.noConfusion

end Owes

end Publishing

namespace Broker

/-- The client on this descriptor is a subscriber of the topic that was
answered `OK` and whose `UNREGISTER` has not been handled. -/
def Subscribed (broker : Broker) (topic : TopicName) (fd : Fd) : Prop :=
  ∃ subscriberId,
    (broker.handlers.phase fd).told =
      some ⟨.subscriber, topic, subscriberId, fd⟩

/-- Every sender that is not done serves a client that is still there. -/
def Attended (messages : CallId → Message) (broker : Broker) : Prop :=
  ∀ id fd, broker.publishing.Owes id fd →
    broker.Subscribed (messages id).topic fd

section Attended

variable {mode : Mode} {messages : CallId → Message}
  {broker next : Broker} {id : CallId} {fd : Fd}

/-- What a call reads belongs to a client that is still there. -/
theorem Delivers.subscribed
    (delivers : broker.Delivers mode messages)
    (reads :
      broker.publishing.Reads broker.handlers.registry id fd) :
    broker.Subscribed (messages id).topic fd := by
  obtain ⟨topicId, count, index, looping, inside, rfl⟩ := reads
  obtain ⟨window, _⟩ :=
    (delivers.calls id).window topicId count index
      (by rw [Call.reading, looping]; exact if_pos inside)
  have next :=
    (List.getElem?_take_of_lt inside).trans
      (window.subscriberAt delivers.consistent inside)
  exact ⟨_, window.told _ (List.mem_of_getElem? next)⟩

theorem Attended.of_told
    (attended : broker.Attended messages) {handlers : Handlers}
    (told : ∀ fd member,
      (broker.handlers.phase fd).told = some member →
        (handlers.phase fd).told = some member) :
    Attended messages { broker with handlers := handlers } := by
  intro id fd owes
  obtain ⟨subscriberId, before⟩ := attended id fd owes
  exact ⟨subscriberId, told fd _ before⟩

/-- No sender has still to serve the subscriber that is shifted out. -/
theorem Attended.shiftClientList
    (attended : broker.Attended messages)
    {fd stackFd : Fd} {beyond : Client}
    (timely :
      broker.Timely mode messages (.shiftClientList fd stackFd beyond))
    (taken :
      broker.step mode messages (.shiftClientList fd stackFd beyond) =
        some next) :
    next.Attended messages := by
  obtain ⟨member, handlers, here, _, reached, rfl⟩ :=
    step_shiftClientList taken
  obtain ⟨_, _, _, others, _⟩ := Handlers.run_shiftClientList here reached
  intro id other owes
  obtain ⟨subscriberId, before⟩ := attended id other owes
  have different : other ≠ fd := by
    intro same
    subst same
    rw [here] at before
    cases before
    obtain ⟨sender, listed, own, notDone⟩ := owes
    exact notDone ((timely _ here rfl).2 id sender listed own)
  refine ⟨subscriberId, ?_⟩
  rw [others other different]
  exact before

/-- Every step that is timely keeps the clients that are still to be
served. -/
theorem Attended.step
    (delivers : broker.Delivers mode messages)
    (attended : broker.Attended messages)
    {action : BrokerAction}
    (timely : broker.Timely mode messages action)
    (taken : broker.step mode messages action = some next) :
    next.Attended messages := by
  cases action with
  | store fd kind topic stack =>
      obtain ⟨handlers, stored, rfl⟩ := handle_singleton taken
      obtain ⟨here, _, rfl⟩ := Handlers.step_store stored
      exact attended.of_told (Handlers.calm_store here kind topic stack).told
  | respond fd =>
      obtain ⟨handlers, responded, rfl⟩ := handle_singleton taken
      exact attended.of_told (Handlers.calm_respond responded).told
  | count fd =>
      obtain ⟨handlers, counted, rfl⟩ := handle_singleton taken
      exact attended.of_told (Handlers.calm_count counted).told
  | quit fd =>
      obtain ⟨handlers, quits, rfl⟩ := handle_singleton taken
      exact attended.of_told (Handlers.calm_quit quits).told
  | shiftClientList fd stackFd beyond =>
      exact attended.shiftClientList timely taken
  | decrement fd =>
      obtain ⟨handlers, decremented, rfl⟩ := handle_singleton taken
      exact attended.of_told (Handlers.calm_decrement decremented).told
  | send publisher =>
      obtain ⟨_, _, _, _, _, rfl⟩ := step_send taken
      exact attended
  | publish publishAction =>
      obtain ⟨publishing, published, rfl, _⟩ := step_publish taken
      intro id fd owes
      rcases Publishing.owes_step published owes with before | reads
      · exact attended id fd before
      · exact delivers.subscribed reads

/-- What a step sends goes to subscribers of the topic. -/
theorem Attended.sends
    (delivers : broker.Delivers mode messages)
    (attended : broker.Attended messages)
    {action : BrokerAction}
    (taken : broker.step mode messages action = some next) :
    ∃ sends,
      next.publishing.log = broker.publishing.log ++ sends ∧
        ∀ sent ∈ sends,
          broker.Subscribed (messages sent.call).topic sent.fd := by
  rcases step_cases taken with
    ⟨handlers, rfl⟩ | ⟨publisher, rfl⟩ |
      ⟨publishAction, publishing, rfl, published, rfl⟩
  · exact ⟨[], (List.append_nil _).symm, nofun⟩
  · exact ⟨[], (List.append_nil _).symm, nofun⟩
  · obtain ⟨sends, appended, served⟩ := Publishing.log_step published
    refine ⟨sends, appended, fun sent listed => ?_⟩
    rcases served sent listed with owes | reads
    · exact attended sent.call sent.fd owes
    · exact delivers.subscribed reads

end Attended

end Broker

end SistemasDistribuidos.Practica4
