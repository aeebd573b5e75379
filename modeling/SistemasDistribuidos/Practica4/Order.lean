import SistemasDistribuidos.Practica4.Modes

/-!
# The order of a publisher's messages

In SECUENCIAL and JUSTO a call returns only after all its senders have sent,
so the log of one publisher and one subscriber is `0, 1, 2, …` without gaps.
PARALELO starts its senders and goes on: every message is sent once, in an
order that the threads decide.
-/

namespace SistemasDistribuidos.Practica4

open SistemasDistribuidos SlotArray Machine

namespace Publishing

/-- Which messages of a publisher have been sent to a descriptor, in the order
of the sends. -/
def order (publisher : Fd) (fd : Fd) (log : List Sent) : List Nat :=
  (log.filter
    (fun sent => sent.call.publisher = publisher ∧ sent.fd = fd)).map
    (fun sent => sent.call.index)

section Logs

variable {publisher fd : Fd}

theorem order_append (log : List Sent) (sent : Sent) :
    order publisher fd (log ++ [sent]) =
      order publisher fd log ++
        (if sent.call.publisher = publisher ∧ sent.fd = fd then
          [sent.call.index]
        else
          []) := by
  rw [order, List.filter_append, List.map_append, ← order]
  by_cases own : sent.call.publisher = publisher ∧ sent.fd = fd
  · rw [if_pos own, List.filter_cons_of_pos (by simpa using own)]
    rfl
  · rw [if_neg own, List.filter_cons_of_neg (by simpa using own)]
    rfl

theorem count_order (log : List Sent) (index : Nat) :
    (order publisher fd log).count index =
      log.countP
        (fun sent =>
          sent.call = ⟨publisher, index⟩ ∧ sent.fd = fd) := by
  rw [order, List.count, List.countP_map, List.countP_filter]
  apply List.countP_congr
  intro sent _
  simp only [Function.comp_apply, beq_iff_eq, Bool.and_eq_true,
    decide_eq_true_eq, CallId.ext_iff]
  tauto

end Logs

section Steps

variable {mode : Mode} {messages : CallId → Message}
  {registry : Registry} {publishing after : Publishing}

/-- Calls that join their senders send only while they are in progress. -/
theorem step_log
    (regular : publishing.Regular mode messages registry)
    (joins : mode ≠ .paralelo) {action : PublishAction}
    (taken :
      publishing.step mode messages registry action = some after) :
    (after.returned = publishing.returned ∧
        (after.log = publishing.log ∨
          ∃ sent,
            after.log = publishing.log ++ [sent] ∧
              sent.call.index =
                publishing.returned sent.call.publisher)) ∨
      ∃ id : CallId,
        id.index = publishing.returned id.publisher ∧
          after.log = publishing.log ∧
          after.returned =
            Function.update publishing.returned id.publisher
              (publishing.returned id.publisher + 1) := by
  cases action with
  | look id =>
      obtain ⟨_, _, rfl⟩ := step_look taken
      exact Or.inl ⟨rfl, Or.inl rfl⟩
  | enter id =>
      obtain ⟨_, _, _, ⟨_, rfl⟩ | ⟨_, _, rfl⟩⟩ := step_enter taken
      · exact Or.inl ⟨rfl, Or.inl rfl⟩
      · exact Or.inl ⟨rfl, Or.inl rfl⟩
  | next id stack =>
      obtain ⟨topicId, count, index, looping, _, rfl⟩ := step_next taken
      refine Or.inl ⟨rfl, ?_⟩
      simp only [Publishing.next]
      split
      · refine Or.inr ⟨_, rfl, ?_⟩
        exact
          regular.index_eq (by rw [looping]; exact Stage.noConfusion)
            (by rw [looping]; exact Stage.noConfusion)
      · exact Or.inl rfl
  | finish id =>
      obtain ⟨_, _, _, looping, _, _, rfl⟩ := step_finish taken
      refine Or.inr ⟨id, ?_, rfl, rfl⟩
      exact
        regular.index_eq (by rw [looping]; exact Stage.noConfusion)
          (by rw [looping]; exact Stage.noConfusion)
  | arrive id thread =>
      obtain ⟨_, _, _, _, ⟨_, rfl⟩ | ⟨_, rfl⟩⟩ := step_arrive taken
      · exact Or.inl ⟨rfl, Or.inl rfl⟩
      · exact Or.inl ⟨rfl, Or.inl rfl⟩
  | reacquire id thread =>
      obtain ⟨_, _, _, _, rfl⟩ := step_reacquire taken
      exact Or.inl ⟨rfl, Or.inl rfl⟩
  | leave id thread =>
      obtain ⟨_, _, _, rfl⟩ := step_leave taken
      exact Or.inl ⟨rfl, Or.inl rfl⟩
  | transmit id thread stack =>
      obtain ⟨sender, here, sending, rfl⟩ := step_transmit taken
      refine Or.inl ⟨rfl, Or.inr ⟨_, rfl, ?_⟩⟩
      have listed := List.mem_of_getElem? here
      apply regular.index_eq
      · intro idle
        rw [(regular.calls id).issued.senders_nil (Or.inl idle)] at listed
        cases listed
      · intro returned
        have done := (regular.calls id).joined joins returned sender listed
        rw [sending] at done
        cases done

/-- The messages of one publisher have reached one subscriber in order: those
of the calls that have returned, and perhaps that of the call in progress. -/
def InOrder (publishing : Publishing) (publisher fd : Fd) : Prop :=
  order publisher fd publishing.log =
    List.range (publishing.returned publisher) ++
      List.replicate
        (publishing.sentTo ⟨publisher, publishing.returned publisher⟩ fd)
        (publishing.returned publisher)

theorem InOrder.step
    (regular : publishing.Regular mode messages registry)
    (joins : mode ≠ .paralelo)
    {publisher fd : Fd}
    (once : ∀ index,
      (registry.receivers (messages ⟨publisher, index⟩).topic).count fd =
        1)
    (inOrder : publishing.InOrder publisher fd)
    {action : PublishAction}
    (taken :
      publishing.step mode messages registry action = some after) :
    after.InOrder publisher fd := by
  have afterRegular := regular.step taken
  rcases step_log regular joins taken with
    ⟨sameReturned, sameLog | ⟨sent, longer, inProgress⟩⟩ |
      ⟨id, here, sameLog, oneMore⟩
  · rw [InOrder, sentTo, sameLog, sameReturned]
    exact inOrder
  · rw [InOrder, sentTo, longer, sameReturned, order_append, sentTo_append,
      ← sentTo]
    rw [InOrder] at inOrder
    by_cases own : sent.call.publisher = publisher ∧ sent.fd = fd
    · obtain ⟨rfl, rfl⟩ := own
      rw [if_pos ⟨rfl, rfl⟩, if_pos ⟨CallId.ext rfl inProgress, rfl⟩,
        inOrder, inProgress, List.replicate_succ', List.append_assoc]
    · rw [if_neg own, if_neg ?_]
      · simpa using inOrder
      · intro given
        rcases given with ⟨sameCall, sameFd⟩
        exact own ⟨by rw [sameCall], sameFd⟩
  · by_cases same : id.publisher = publisher
    · subst same
      rw [InOrder] at inOrder
      -- the call that returns has served every receiver, the next one none
      have served :
          publishing.sentTo
            ⟨id.publisher, publishing.returned id.publisher⟩ fd = 1 := by
        rw [← once (publishing.returned id.publisher), sentTo, ← sameLog,
          ← sentTo]
        have returned :=
          (afterRegular.before
            ⟨id.publisher, publishing.returned id.publisher⟩).mp
            (by rw [oneMore, Function.update_self]; exact Nat.lt_succ_self _)
        exact
          afterRegular.sentTo_finished
            ⟨returned, (afterRegular.calls _).joined joins returned⟩ fd
      have fresh :
          after.sentTo
            ⟨id.publisher, publishing.returned id.publisher + 1⟩ fd =
            0 := by
        have before :
            after.sentTo
                ⟨id.publisher, publishing.returned id.publisher + 1⟩ fd =
              publishing.sentTo
                ⟨id.publisher, publishing.returned id.publisher + 1⟩ fd := by
          rw [sentTo, sameLog, ← sentTo]
        rw [before, regular.logged, Call.doneFor,
          (regular.calls _).issued.senders_nil
            (Or.inl (regular.beyond _ (Nat.lt_succ_self _)))]
        rfl
      rw [InOrder, oneMore, Function.update_self, fresh, sameLog, inOrder,
        served, List.range_succ]
      simp
    · have unchanged :
          after.returned publisher = publishing.returned publisher := by
        rw [oneMore, Function.update_of_ne (Ne.symm same)]
      rw [InOrder, sentTo, sameLog, unchanged]
      exact inOrder

end Steps

end Publishing

namespace Handlers

open Publishing in
/-- While no client comes or goes, a publisher's messages on one topic reach
every subscriber of it in the order they were published, unless the mode is
PARALELO; in all modes each of them is sent at most once, and exactly once
when its call is finished. -/
theorem publisher_order
    {requests : List Request} {handlers : Handlers}
    (admissible : Obeys Request.step Admissible initial requests)
    (reached : run Request.step initial requests = some handlers)
    (mode : Mode) (messages : CallId → Message)
    {publisher fd : Fd} {topic : TopicName} {subscriberId : Int}
    (oneTopic : ∀ index, (messages ⟨publisher, index⟩).topic = topic)
    (subscribed :
      handlers.phase fd =
        .serving ⟨.subscriber, topic, subscriberId, fd⟩)
    {actions : List PublishAction} {final : Publishing}
    (published :
      run (Publishing.step mode messages handlers.registry)
        Publishing.initial actions = some final) :
    (mode ≠ .paralelo →
        ∃ sent,
          order publisher fd final.log = List.range sent ∧
            final.returned publisher ≤ sent ∧
            sent ≤ final.returned publisher + 1) ∧
      ∀ index,
        (order publisher fd final.log).count index ≤ 1 ∧
          (final.Finished ⟨publisher, index⟩ →
            (order publisher fd final.log).count index = 1) := by
  have settled := settled_of_run admissible reached
  have regular := regular_of_run published
  have known : topic ∈ handlers.registry.table.names := by
    apply settled.consistent.holds.known topic .subscriber
    apply List.ne_nil_of_mem
    exact
      mem_membersOf.mpr
        ⟨_, (settled.mem_roster ⟨.subscriber, topic, subscriberId, fd⟩).mpr
          subscribed, rfl, rfl, rfl⟩
  have once :
      ∀ index,
        (handlers.registry.receivers
          (messages ⟨publisher, index⟩).topic).count fd = 1 := by
    intro index
    rw [oneTopic]
    exact
      List.count_eq_one_of_mem (settled.receivers_nodup known)
        ((settled.mem_receivers known).mpr ⟨subscriberId, subscribed⟩)
  constructor
  · intro joins
    have preserved :
        ∀ (state : Publishing) (action : PublishAction)
          (next : Publishing),
          state.Regular mode messages handlers.registry ∧
              state.InOrder publisher fd →
            state.step mode messages handlers.registry action =
                some next →
              next.Regular mode messages handlers.registry ∧
                next.InOrder publisher fd :=
      fun _ _ _ holds taken =>
        ⟨holds.1.step taken, InOrder.step holds.1 joins once holds.2 taken⟩
    obtain ⟨_, inOrder⟩ :=
      invariant_of_any_run preserved ⟨regular_initial, rfl⟩ published
    have atMost :=
      regular.sentTo_le ⟨publisher, final.returned publisher⟩ fd
    rw [once] at atMost
    rw [InOrder] at inOrder
    rcases Nat.le_one_iff_eq_zero_or_eq_one.mp atMost with none | one
    · exact
        ⟨final.returned publisher, by rw [inOrder, none]; simp,
          Nat.le_refl _, Nat.le_succ _⟩
    · exact
        ⟨final.returned publisher + 1,
          by rw [inOrder, one, List.range_succ]; rfl,
          Nat.le_succ _, Nat.le_refl _⟩
  · intro index
    rw [count_order, ← sentTo]
    constructor
    · rw [← once index]
      exact regular.sentTo_le _ fd
    · intro finished
      rw [regular.sentTo_finished finished, once index]

/-- A subscriber and a publisher of one topic. -/
def twoClients : List Request :=
  [.register 4 .subscriber topicT (Registry.initial.allTopics 0),
    .register 5 .publisher topicT (Registry.initial.allTopics 0)]

/-- Messages that carry their number as their time. -/
def numbered (id : CallId) : Message :=
  { blankMessage with data := ⟨⟨id.index, 0⟩, default⟩ }

/-- Two messages in JUSTO. -/
theorem publisher_order_two :
    ∃ handlers final,
      run Request.step initial twoRemain = some handlers ∧
        run (Publishing.step .justo numbered handlers.registry)
            Publishing.initial (justSteps ⟨5, 0⟩ ++ justSteps ⟨5, 1⟩) =
          some final ∧
        final.returned 5 = 2 ∧
        ∃ sent,
          Publishing.order 5 6 final.log = List.range sent ∧
            final.returned 5 ≤ sent ∧ sent ≤ final.returned 5 + 1 := by
  have wellBehaved :
      Obeys Request.step Request.WellBehaved initial twoRemain := by
    decide +kernel
  have seen :
      (run Request.step initial twoRemain).map
        (fun handlers =>
          (handlers.phase 6,
            (run (Publishing.step .justo numbered handlers.registry)
              Publishing.initial
              (justSteps ⟨5, 0⟩ ++ justSteps ⟨5, 1⟩)).map
                (fun final => final.returned 5))) =
        some (.serving ⟨.subscriber, topicT, 2, 6⟩, some 2) := by
    decide +kernel
  obtain ⟨handlers, reached, views⟩ := Option.map_eq_some_iff.mp seen
  simp only [Prod.mk.injEq, Option.map_eq_some_iff] at views
  obtain ⟨subscribed, final, published, returned⟩ := views
  exact
    ⟨handlers, final, reached, published, returned,
      (publisher_order (admissible_of_few wellBehaved (by decide)) reached
        .justo numbered (fun _ => rfl) subscribed published).1
        (by decide)⟩

/-- In PARALELO the second message may overtake the first. -/
theorem paralelo_reorders :
    ∃ handlers final,
      run Request.step initial twoClients = some handlers ∧
        handlers.phase 4 = .serving ⟨.subscriber, topicT, 1, 4⟩ ∧
        run (Publishing.step .paralelo numbered handlers.registry)
            Publishing.initial
            [.look ⟨5, 0⟩, .next ⟨5, 0⟩ default, .finish ⟨5, 0⟩,
              .look ⟨5, 1⟩, .next ⟨5, 1⟩ default, .finish ⟨5, 1⟩,
              .transmit ⟨5, 1⟩ 0 default,
              .transmit ⟨5, 0⟩ 0 default] = some final ∧
        final.log.map (fun sent => (sent.fd, sent.publish)) =
          [(4, (numbered ⟨5, 1⟩).publish default),
            (4, (numbered ⟨5, 0⟩).publish default)] ∧
        Publishing.order 5 4 final.log = [1, 0] := by
  have seen :
      (run Request.step initial twoClients).map
        (fun handlers =>
          (handlers.phase 4,
            (run (Publishing.step .paralelo numbered handlers.registry)
              Publishing.initial
              [.look ⟨5, 0⟩, .next ⟨5, 0⟩ default, .finish ⟨5, 0⟩,
                .look ⟨5, 1⟩, .next ⟨5, 1⟩ default, .finish ⟨5, 1⟩,
                .transmit ⟨5, 1⟩ 0 default,
                .transmit ⟨5, 0⟩ 0 default]).map
              (fun final =>
                (final.log.map (fun sent => (sent.fd, sent.publish)),
                  Publishing.order 5 4 final.log)))) =
        some
          (.serving ⟨.subscriber, topicT, 1, 4⟩,
            some
              ([(4, (numbered ⟨5, 1⟩).publish default),
                (4, (numbered ⟨5, 0⟩).publish default)],
              [1, 0])) := by
    decide +kernel
  obtain ⟨handlers, reached, views⟩ := Option.map_eq_some_iff.mp seen
  obtain ⟨subscribed, finalView⟩ := Prod.mk.inj views
  obtain ⟨final, published, logs⟩ := Option.map_eq_some_iff.mp finalView
  obtain ⟨log, order⟩ := Prod.mk.inj logs
  exact ⟨handlers, final, reached, subscribed, published, log, order⟩

end Handlers

end SistemasDistribuidos.Practica4
