import SistemasDistribuidos.Practica4.Screens
import SistemasDistribuidos.Practica4.Serialisability

/-!
# How interrupted clients end

`sighandler` and the handler of its client are enough for the client to come to
its end: whatever they do, there is less left to do, and they come to rest only
when `sighandler` has read `OK`.  This is said of clients whose registration was
answered with `OK`: after a refusal there is no handler left to answer.
-/

namespace SistemasDistribuidos.Practica4

open SistemasDistribuidos Machine

def TrafficAction.IsOwn (fd : Fd) : TrafficAction → Prop
  | .handle other _ => other = fd
  | .poll other _ _ => other = fd
  | _ => False

/-- While a client is served the answer to its `UNREGISTER` is still to
come. -/
def Phase.owes : Phase → Nat
  | .serving _ => publishWords
  | _ => 0

namespace Exchange

theorem exists_message
    {exchange : Exchange} {fd : Fd} {member : Member}
    (settled : exchange.handlers.Settled)
    (serving : exchange.handlers.phase fd = .serving member)
    (goesOn : exchange.ended fd = false) {message : ClientMessage}
    (ownTopic : message.topic = member.topic) (memory : Memory) :
    ∃ next, exchange.step (.message fd message memory) = some next := by
  obtain ⟨later, moved⟩ :
      ∃ later,
        Request.step exchange.handlers
          (message.request member.kind fd memory) = some later := by
    rw [ClientMessage.request]
    split
    · rw [ownTopic]
      exact
        Handlers.unregister_enabled serving
          (settled.getTopicId_lt serving) _ _ _
    · exact ⟨_, rfl⟩
  simp only [step, serving, goesOn, moved, Option.map_some]
  exact ⟨_, rfl⟩

end Exchange

namespace Traffic

section Rank

variable {options : Fd → Options} {traffic next : Traffic} {fd : Fd}

/-- What a client has still to read, in units of eight bytes. -/
def owed (traffic : Traffic) (fd : Fd) : Nat :=
  publishWords * (traffic.unread fd).length - traffic.words fd

/-- Each `recv` of `sighandler` may be followed by a `send`. -/
def remaining (traffic : Traffic) (fd : Fd) : Nat :=
  (traffic.outgoing fd).length +
    2 * (traffic.owed fd + (traffic.exchange.handlers.phase fd).owes)

theorem unread_consume (traffic : Traffic) (fd : Fd) :
    (traffic.consume fd).unread fd = (traffic.unread fd).tail := by
  rw [unread, unread, List.tail_drop]
  simp only [consume, Function.update_self]

theorem owed_consume
    (words : traffic.words fd < publishWords) {packet : Packet}
    {rest : List Packet} (unread : traffic.unread fd = packet :: rest) :
    (traffic.consume fd).owed fd < traffic.owed fd := by
  rw [owed, owed, unread_consume, unread, List.tail_cons, List.length_cons]
  simp only [consume, Function.update_self]
  rw [Nat.mul_succ]
  omega

theorem owed_advance
    (words : traffic.words fd < publishWords) {packet : Packet}
    {rest : List Packet} (unread : traffic.unread fd = packet :: rest) :
    (traffic.advance fd).owed fd < traffic.owed fd := by
  rw [advance]
  split
  · have same : ∀ words, Traffic.unread { traffic with words := words } fd =
        traffic.unread fd := fun _ => rfl
    rw [owed, owed, same, unread, List.length_cons, Nat.mul_succ]
    simp only [Function.update_self]
    omega
  · exact owed_consume words unread

theorem remaining_of_owed
    {later : Traffic} (exchange : later.exchange = traffic.exchange)
    (outgoing :
      (later.outgoing fd).length ≤ (traffic.outgoing fd).length + 1)
    (owes : later.owed fd < traffic.owed fd) :
    later.remaining fd < traffic.remaining fd := by
  rw [remaining, remaining, exchange]
  omega

/-- The answer to the `UNREGISTER` has been counted beforehand. -/
theorem remaining_of_finished
    {later : Traffic} {member : Member} {packet : Packet}
    (serving : traffic.exchange.handlers.phase fd = .serving member)
    (finished : later.exchange.handlers.phase fd = .finished)
    (answered :
      later.exchange.inbox fd = traffic.exchange.inbox fd ++ [packet])
    (received : later.received fd = traffic.received fd)
    (words : later.words fd = traffic.words fd)
    (outgoing :
      (later.outgoing fd).length < (traffic.outgoing fd).length) :
    later.remaining fd < traffic.remaining fd := by
  have longer :
      (later.unread fd).length ≤ (traffic.unread fd).length + 1 := by
    rw [unread, unread, answered, received, List.length_drop,
      List.length_drop, List.length_append, List.length_singleton]
    omega
  have more := Nat.mul_le_mul_left publishWords longer
  rw [Nat.mul_succ] at more
  simp only [remaining, owed, serving, finished, words, Phase.owes]
  omega

theorem Linked.remaining_handle
    (linked : traffic.Linked options) {memory : Memory}
    (taken : traffic.step options (.handle fd memory) = some next) :
    next.remaining fd < traffic.remaining fd := by
  simp only [Traffic.step] at taken
  split at taken
  · rename_i message rest outgoing
    obtain ⟨exchange, moved, rfl⟩ := take_eq_some taken
    obtain ⟨member, serving⟩ :
        ∃ member,
          traffic.exchange.handlers.phase fd = .serving member :=
      Exchange.serving_of_message moved
    obtain ⟨isMember, sends, id⟩ := linked.conduct outgoing serving
    rcases sends.2 with ⟨isPublisher, publishes⟩ | leaves
    · obtain ⟨handlers, _, heard⟩ :=
        Exchange.publish_effect linked.settled serving
          (by rw [isMember, isPublisher]) publishes
          (by rw [sends.1, isMember]) moved
      have same : exchange.inbox fd = traffic.exchange.inbox fd := by
        rcases heard fd with
          same | ⟨subscriber, _, isServing, isSubscriber, _⟩
        · exact same
        · cases serving.symm.trans isServing
          rw [isMember, isPublisher] at isSubscriber
          cases isSubscriber
      simp only [remaining, owed, unread, same, handlers, outgoing,
        Function.update_self, List.length_cons]
      omega
    · obtain ⟨finished, answered, _, _⟩ :=
        Exchange.unregister_effect linked.settled serving
          (by rw [leaves, isMember]) (by rw [sends.1, isMember])
          (by rw [id leaves, isMember]) moved
      refine remaining_of_finished serving finished answered rfl rfl ?_
      rw [outgoing, List.length_cons]
      simp only [Function.update_self]
      exact Nat.lt_succ_self _
  · cases taken

/-- A `recv` of `sighandler` leaves less to do, also when `UNREGISTER` is sent
again. -/
theorem Linked.remaining_poll
    (linked : traffic.Linked options) {stack : Publish} {seen : Int × Int}
    (taken : traffic.step options (.poll fd stack seen) = some next) :
    next.remaining fd < traffic.remaining fd := by
  simp only [Traffic.step] at taken
  split at taken
  · obtain ⟨read, received, rfl⟩ := Option.map_eq_some_iff.mp taken
    have words := linked.words fd
    rcases recvResponse_cases received with
      ⟨response, rest, unread, rfl⟩ | ⟨time, text, rest, unread, rfl⟩
    · have owes := owed_consume words unread
      split
      · exact remaining_of_owed rfl (Nat.le_succ _) owes
      · refine remaining_of_owed rfl ?_ owes
        simp [Traffic.send, consume]
    · have owes := owed_advance words unread
      have advanced := ClientMove.advance options traffic fd
      have same := advanced.outgoing
      rw [List.append_nil] at same
      split
      · refine remaining_of_owed advanced.exchange ?_ owes
        simp [setProcess, same]
      · refine remaining_of_owed advanced.exchange ?_ owes
        simp [Traffic.send, same]
  · cases taken

end Rank

/-! ## The end -/

section Ending

variable {options : Fd → Options} {actions more : List TrafficAction}
  {traffic next final last : Traffic} {fd : Fd} {id : Int}

/-- `SIGINT` has come to a client whose registration was answered with `OK`,
and it has perhaps reported. -/
structure Ending (options : Fd → Options) (fd : Fd) (id : Int)
    (traffic : Traffic) : Prop where
  linked : traffic.Linked options
  place :
    (traffic.process fd).place = .waiting ∨
      (traffic.process fd).place = .reported
  admitted :
    (traffic.exchange.inbox fd).head? = some (.response ⟨.ok, id⟩)

theorem place_of_poll
    {stack : Publish} {seen : Int × Int}
    (taken : traffic.step options (.poll fd stack seen) = some next) :
    next.exchange = traffic.exchange ∧
      ((next.process fd).place = .waiting ∨
        (next.process fd).place = .reported) := by
  simp only [step] at taken
  split at taken
  · rename_i waits
    obtain ⟨read, received, rfl⟩ := Option.map_eq_some_iff.mp taken
    obtain ⟨process, exchange⟩ :
        read.1.process = traffic.process ∧
          read.1.exchange = traffic.exchange := by
      rcases recvResponse_cases received with
        ⟨_, _, _, rfl⟩ | ⟨_, _, _, _, rfl⟩
      · exact ⟨rfl, rfl⟩
      · exact
          ⟨advance_process traffic fd,
            (ClientMove.advance options traffic fd).exchange⟩
    split
    · exact ⟨exchange, Or.inr (by simp [setProcess])⟩
    · exact ⟨exchange, Or.inl (by simp [Traffic.send, process, waits])⟩
  · cases taken

/-- Neither `sighandler` nor the handler goes back. -/
theorem Ending.step
    {action : TrafficAction} (ending : traffic.Ending options fd id)
    (allowed : traffic.Proper options action) (own : action.IsOwn fd)
    (taken : traffic.step options action = some next) :
    next.Ending options fd id ∧
      next.remaining fd < traffic.remaining fd := by
  have linked := ending.linked.step allowed taken
  cases action with
  | handle other memory =>
      cases own
      refine ⟨?_, ending.linked.remaining_handle taken⟩
      simp only [Traffic.step] at taken
      split at taken
      · obtain ⟨exchange, moved, rfl⟩ := take_eq_some taken
        obtain ⟨more, longer⟩ :
            traffic.exchange.inbox fd <+: exchange.inbox fd :=
          Exchange.inbox_prefix moved fd
        refine ⟨linked, ending.place, ?_⟩
        simp only
        rw [← longer, List.head?_append, ending.admitted]
        rfl
      · cases taken
  | poll other stack seen =>
      cases own
      obtain ⟨exchange, place⟩ := place_of_poll taken
      refine
        ⟨⟨linked, place, ?_⟩, ending.linked.remaining_poll taken⟩
      rw [exchange]
      exact ending.admitted
  | _ => cases own

theorem Ending.exists_step
    (ending : traffic.Ending options fd id)
    (waits : (traffic.process fd).place = .waiting) :
    ∃ action,
      traffic.Proper options action ∧ action.IsOwn fd ∧
        traffic.step options action ≠ none := by
  have standing := ending.linked.stands_at waits
  rcases standing.pending ending.admitted with
    ⟨member, message, rest, serving, outgoing⟩ | ⟨packet, rest, unread⟩
  · have goesOn : traffic.exchange.ended fd = false := by
      cases ended : traffic.exchange.ended fd with
      | false => rfl
      | true =>
          have finished := ending.linked.ended fd ended
          rw [serving] at finished
          cases finished
    have ownTopic : message.topic = member.topic := by
      obtain ⟨isMember, sends, _⟩ :=
        ending.linked.conduct outgoing serving
      rw [sends.1, isMember]
    obtain ⟨exchange, moved⟩ :=
      Exchange.exists_message ending.linked.settled serving goesOn ownTopic
        ⟨0, ⟨topicT, 0, 0⟩⟩
    refine ⟨.handle fd ⟨0, ⟨topicT, 0, 0⟩⟩, trivial, rfl, ?_⟩
    simp [Traffic.step, outgoing, take, moved]
  · have notOk : Status.ok.code + 1 ≠ Status.ok.code := by decide
    refine
      ⟨.poll fd blankMessage.data (Status.ok.code + 1, 0),
        fun _ _ _ => notOk, rfl, ?_⟩
    cases packet with
    | response response =>
        simp [Traffic.step, waits, recvResponse, Traffic.unread, unread]
    | publish time text =>
        simp [Traffic.step, waits, recvResponse, Traffic.unread, unread]

/-- `SIGINT` has come to a client whose registration was answered with `OK`.
However its process and its handler go on, together they take a bounded number
of steps, and when they can take no more the client has reported and is no
longer registered. -/
theorem interrupted_client_finishes
    (proper : Obeys (step options) (Proper options) initial actions)
    (reached : run (step options) initial actions = some final)
    (interrupted : (final.process fd).place = .waiting)
    (admitted :
      (final.exchange.inbox fd).head? = some (.response ⟨.ok, id⟩))
    (properOn :
      Obeys (step options)
        (fun state action => state.Proper options action ∧ action.IsOwn fd)
        final more)
    (goesOn : run (step options) final more = some last) :
    more.length ≤ final.remaining fd ∧
      ((∀ action, last.Proper options action → action.IsOwn fd →
          last.step options action = none) →
        (last.process fd).place = .reported ∧
          last.exchange.handlers.account.client fd = none) := by
  have ending : final.Ending options fd id :=
    ⟨linked_of_run proper reached, Or.inl interrupted, admitted⟩
  obtain ⟨lastEnding, bounded⟩ :=
    length_add_rank_le
      (fun _ _ _ holds allowed taken => holds.step allowed.1 allowed.2 taken)
      ending properOn goesOn
  refine ⟨by omega, ?_⟩
  intro rests
  have reported : (last.process fd).place = .reported := by
    rcases lastEnding.place with waits | reported
    · obtain ⟨action, allowed, own, moves⟩ := lastEnding.exists_step waits
      exact absurd (rests action allowed own) moves
    · exact reported
  exact ⟨reported, lastEnding.linked.not_registered (Or.inr reported)⟩

end Ending

/-- The subscriber of `oneLine` is interrupted, and its `UNREGISTER` is received
and answered. -/
theorem interrupted_client_finishes_oneLine :
    ∃ final last,
      run (step Network.clientsOfT) initial
            (oneLine ++ [.sigint 4 blankMessage.data]) =
          some final ∧
        run (step Network.clientsOfT) final
            [.handle 4 ⟨0, ⟨topicT, 0, 0⟩⟩,
              .poll 4 blankMessage.data (1, 0)] =
          some last ∧
        2 ≤ final.remaining 4 ∧
          (last.process 4).place = .reported ∧
            last.exchange.handlers.account.client 4 = none := by
  have seen :
      (run (step Network.clientsOfT) initial
          (oneLine ++ [.sigint 4 blankMessage.data])).map
        (fun final =>
          ((final.process 4).place, (final.exchange.inbox 4).head?,
            (run (step Network.clientsOfT) final
              [.handle 4 ⟨0, ⟨topicT, 0, 0⟩⟩,
                .poll 4 blankMessage.data (1, 0)]).map
              (fun last =>
                ((last.process 4).place, (last.outgoing 4).length)))) =
        some
          (.waiting, some (.response ⟨.ok, 1⟩), some (.reported, 0)) := by
    decide +kernel
  have transfers :
      (run (step Network.clientsOfT) initial oneLine).map
        (fun traffic => (traffic.process 4).place) = some .transferring := by
    decide +kernel
  have proper :
      Obeys (step Network.clientsOfT) (Proper Network.clientsOfT) initial
        (oneLine ++ [.sigint 4 blankMessage.data]) := by
    refine obeys_append.mpr ⟨oneLine_proper, ?_⟩
    intro middle reached
    rw [reached] at transfers
    have place : (middle.process 4).place = .transferring :=
      Option.some.inj transfers
    exact ⟨congrArg Place.stored place, fun _ _ => trivial⟩
  obtain ⟨final, reached, views⟩ := Option.map_eq_some_iff.mp seen
  simp only [Prod.mk.injEq] at views
  obtain ⟨interrupted, admitted, lastView⟩ := views
  obtain ⟨last, goesOn, ended⟩ := Option.map_eq_some_iff.mp lastView
  simp only [Prod.mk.injEq] at ended
  obtain ⟨reported, noneLeft⟩ := ended
  have outgoing : last.outgoing 4 = [] := List.length_eq_zero_iff.mp noneLeft
  have properOn :
      Obeys (step Network.clientsOfT)
        (fun state action =>
          state.Proper Network.clientsOfT action ∧ action.IsOwn 4)
        final
        [.handle 4 ⟨0, ⟨topicT, 0, 0⟩⟩,
          .poll 4 blankMessage.data (1, 0)] := by
    apply obeys_of_always
    intro action listed other
    rcases List.mem_cons.mp listed with rfl | isLast
    · exact ⟨trivial, rfl⟩
    · cases List.mem_singleton.mp isLast
      exact ⟨fun _ _ _ => by decide, rfl⟩
  obtain ⟨bounded, finishes⟩ :=
    interrupted_client_finishes proper reached interrupted admitted properOn
      goesOn
  refine ⟨final, last, reached, goesOn, bounded, finishes ?_⟩
  intro action _ own
  cases action with
  | handle other memory =>
      cases own
      simp only [step, outgoing]
  | poll other stack sight =>
      cases own
      simp only [step, reported]
  | _ => cases own

end Traffic

end SistemasDistribuidos.Practica4
