import SistemasDistribuidos.Practica4.Conduct

/-!
# Clients that behave

Each step of the clients and of the broker keeps what links them: the broker
has handled what its clients have sent, in the order in which they have sent
it, every client stands to its handler as it should, and whatever is on its way
to a client has been published on its topic.
-/

namespace SistemasDistribuidos.Practica4

open SistemasDistribuidos Machine

namespace Traffic

/-- How a client and its handler stand to each other. -/
def Stands (options : Fd → Options) (traffic : Traffic) (fd : Fd) : Prop :=
  Standing (options fd) fd (traffic.exchange.inbox fd) (traffic.received fd)
    (traffic.screen fd) (traffic.exchange.handlers.phase fd)
    (traffic.process fd).clientId (traffic.process fd).place
    (traffic.outgoing fd)

/-- The message is what a publisher of this topic has sent. -/
structure Published (options : Fd → Options) (sent : Fd → List ClientMessage)
    (topic : TopicName) (time : Timespec) (text : List UInt8)
    (publisher : Fd) (message : ClientMessage) : Prop where
  isPublisher : (options publisher).clientType = .publisher
  isSent : message ∈ sent publisher
  action : message.action = .publishData
  topic : message.topic = topic
  time : message.data.timeGeneratedData = time
  text : message.data.text = text

structure Linked (options : Fd → Options) (traffic : Traffic) : Prop where
  conducted :
    Obeys Exchange.step Exchange.Conducted Exchange.initial traffic.turns
  replays :
    run Exchange.step Exchange.initial traffic.turns = some traffic.exchange
  within : traffic.exchange.handlers.Within
  ended : ∀ fd, traffic.exchange.ended fd = true →
    traffic.exchange.handlers.phase fd = .finished
  stands : ∀ fd, traffic.Stands options fd
  words : ∀ fd, traffic.words fd < publishWords
  queued : ∀ fd,
    traffic.turns.filterMap (Turn.messageOf fd) ++ traffic.outgoing fd =
      traffic.sent fd
  sends : ∀ fd, ∀ message ∈ traffic.sent fd, (options fd).Sends message
  origins : ∀ fd time text, .publish time text ∈ traffic.exchange.inbox fd →
    ∃ publisher message,
      Published options traffic.sent (options fd).clientTopic time text
        publisher message

theorem linked_initial (options : Fd → Options) : initial.Linked options where
  conducted := trivial
  replays := rfl
  within := Handlers.within_initial
  ended := nofun
  stands := fun _ => .applying rfl rfl rfl
  words := fun _ => Nat.succ_pos 14
  queued := fun _ => rfl
  sends := fun _ _ listed => absurd listed List.not_mem_nil
  origins := fun _ _ _ listed => absurd listed List.not_mem_nil

/-- A step of a client, which sends these messages.  The broker and the other
clients are not concerned. -/
structure ClientMove (options : Fd → Options) (traffic next : Traffic)
    (fd : Fd) (messages : List ClientMessage) : Prop where
  exchange : next.exchange = traffic.exchange
  turns : next.turns = traffic.turns
  outgoing : next.outgoing fd = traffic.outgoing fd ++ messages
  sent : next.sent fd = traffic.sent fd ++ messages
  sends : ∀ message ∈ messages, (options fd).Sends message
  words : next.words fd < publishWords
  others : ∀ other, other ≠ fd →
    next.process other = traffic.process other ∧
      next.outgoing other = traffic.outgoing other ∧
      next.received other = traffic.received other ∧
      next.words other = traffic.words other ∧
      next.sent other = traffic.sent other ∧
      next.screen other = traffic.screen other

section Steps

variable {options : Fd → Options} {traffic next : Traffic} {fd : Fd}

theorem Linked.admissible
    (linked : traffic.Linked options) :
    Obeys Exchange.step Exchange.Admissible Exchange.initial
      traffic.turns :=
  linked.conducted.mono (fun _ _ => And.left)

theorem Linked.settled
    (linked : traffic.Linked options) : traffic.exchange.handlers.Settled :=
  (Exchange.refines_of_run Handlers.settled_initial linked.admissible
    linked.replays).1

/-- What has been published stays published. -/
theorem Published.mono
    {sent later : Fd → List ClientMessage} {topic : TopicName}
    {time : Timespec} {text : List UInt8} {publisher : Fd}
    {message : ClientMessage}
    (published : Published options sent topic time text publisher message)
    (more : message ∈ sent publisher → message ∈ later publisher) :
    Published options later topic time text publisher message :=
  { published with isSent := more published.isSent }

/-- How a client stands to its handler, for the place at which it is. -/
theorem Linked.stands_at
    (linked : traffic.Linked options) {place : Place}
    (isThere : (traffic.process fd).place = place) :
    Standing (options fd) fd (traffic.exchange.inbox fd)
      (traffic.received fd) (traffic.screen fd)
      (traffic.exchange.handlers.phase fd) (traffic.process fd).clientId
      place (traffic.outgoing fd) := by
  rw [← isThere]
  exact linked.stands fd

/-! ### Steps of the clients -/

theorem Linked.of_client
    (linked : traffic.Linked options) {messages : List ClientMessage}
    (move : traffic.ClientMove options next fd messages)
    (stands : next.Stands options fd) : next.Linked options where
  conducted := by
    rw [move.turns]
    exact linked.conducted
  replays := by
    rw [move.turns, move.exchange]
    exact linked.replays
  within := by
    rw [move.exchange]
    exact linked.within
  ended := by
    rw [move.exchange]
    exact linked.ended
  stands := by
    intro other
    by_cases same : other = fd
    · rw [same]
      exact stands
    · obtain ⟨process, outgoing, received, _, _, screen⟩ :=
        move.others other same
      rw [Stands, move.exchange, process, outgoing, received, screen]
      exact linked.stands other
  words := by
    intro other
    by_cases same : other = fd
    · rw [same]
      exact move.words
    · rw [(move.others other same).2.2.2.1]
      exact linked.words other
  queued := by
    intro other
    rw [move.turns]
    by_cases same : other = fd
    · rw [same, move.outgoing, move.sent, ← linked.queued fd,
        List.append_assoc]
    · obtain ⟨_, outgoing, _, _, sent, _⟩ := move.others other same
      rw [outgoing, sent]
      exact linked.queued other
  sends := by
    intro other message listed
    by_cases same : other = fd
    · rw [same, move.sent] at listed
      rw [same]
      rcases List.mem_append.mp listed with earlier | last
      · exact linked.sends fd message earlier
      · exact move.sends message last
    · rw [(move.others other same).2.2.2.2.1] at listed
      exact linked.sends other message listed
  origins := by
    intro other time text listed
    rw [move.exchange] at listed
    obtain ⟨publisher, message, published⟩ :=
      linked.origins other time text listed
    refine ⟨publisher, message, published.mono ?_⟩
    intro isSent
    by_cases same : publisher = fd
    · rw [same] at isSent ⊢
      rw [move.sent]
      exact List.mem_append_left _ isSent
    · rw [(move.others publisher same).2.2.2.2.1]
      exact isSent

namespace ClientMove

variable {first second : List ClientMessage} {middle : Traffic}

theorem trans
    (earlier : traffic.ClientMove options middle fd first)
    (later : middle.ClientMove options next fd second) :
    traffic.ClientMove options next fd (first ++ second) where
  exchange := later.exchange.trans earlier.exchange
  turns := later.turns.trans earlier.turns
  outgoing := by rw [later.outgoing, earlier.outgoing, List.append_assoc]
  sent := by rw [later.sent, earlier.sent, List.append_assoc]
  sends := by
    intro message listed
    rcases List.mem_append.mp listed with here | there
    · exact earlier.sends message here
    · exact later.sends message there
  words := later.words
  others := by
    intro other different
    obtain ⟨process, outgoing, received, words, sent, screen⟩ :=
      earlier.others other different
    obtain ⟨process', outgoing', received', words', sent', screen'⟩ :=
      later.others other different
    exact
      ⟨process'.trans process, outgoing'.trans outgoing,
        received'.trans received, words'.trans words, sent'.trans sent,
        screen'.trans screen⟩

theorem setProcess
    (words : traffic.words fd < publishWords) (process : Process) :
    traffic.ClientMove options (traffic.setProcess fd process) fd [] where
  exchange := rfl
  turns := rfl
  outgoing := (List.append_nil _).symm
  sent := (List.append_nil _).symm
  sends := nofun
  words := words
  others := fun _ different =>
    ⟨Function.update_of_ne different _ _, rfl, rfl, rfl, rfl, rfl⟩

theorem send
    (words : traffic.words fd < publishWords) {message : ClientMessage}
    (sends : (options fd).Sends message) :
    traffic.ClientMove options (traffic.send fd message) fd [message] where
  exchange := rfl
  turns := rfl
  outgoing := Function.update_self _ _ _
  sent := Function.update_self _ _ _
  sends := by
    intro other listed
    cases List.mem_singleton.mp listed
    exact sends
  words := words
  others := fun _ different =>
    ⟨rfl, Function.update_of_ne different _ _, rfl, rfl,
      Function.update_of_ne different _ _, rfl⟩

theorem consume (options : Fd → Options) (traffic : Traffic) (fd : Fd) :
    traffic.ClientMove options (traffic.consume fd) fd [] where
  exchange := rfl
  turns := rfl
  outgoing := (List.append_nil _).symm
  sent := (List.append_nil _).symm
  sends := nofun
  words := by
    have none : (traffic.consume fd).words fd = 0 :=
      Function.update_self _ _ _
    rw [none]
    decide
  others := fun _ different =>
    ⟨rfl, rfl, Function.update_of_ne different _ _,
      Function.update_of_ne different _ _, rfl, rfl⟩

theorem advance (options : Fd → Options) (traffic : Traffic) (fd : Fd) :
    traffic.ClientMove options (traffic.advance fd) fd [] := by
  rw [Traffic.advance]
  split
  · rename_i within
    exact
      { exchange := rfl
        turns := rfl
        outgoing := (List.append_nil _).symm
        sent := (List.append_nil _).symm
        sends := nofun
        words := by
          simp only [Function.update_self]
          exact within
        others := fun _ different =>
          ⟨rfl, rfl, rfl, Function.update_of_ne different _ _, rfl, rfl⟩ }
  · exact consume options traffic fd

theorem print
    (words : traffic.words fd < publishWords) (packet : Packet) :
    traffic.ClientMove options (traffic.print fd packet) fd [] where
  exchange := rfl
  turns := rfl
  outgoing := (List.append_nil _).symm
  sent := (List.append_nil _).symm
  sends := nofun
  words := words
  others := fun _ different =>
    ⟨rfl, rfl, rfl, rfl, rfl, Function.update_of_ne different _ _⟩

end ClientMove

/-- A `recv` of a `struct response` takes a response, or eight bytes of a
copy. -/
theorem recvResponse_cases
    {seen : Int × Int} {read : Traffic × (Int × Int)}
    (taken : traffic.recvResponse fd seen = some read) :
    (∃ response rest,
        traffic.unread fd = .response response :: rest ∧
          read =
            (traffic.consume fd, response.responseStatus.code,
              response.id)) ∨
      ∃ time text rest,
        traffic.unread fd = .publish time text :: rest ∧
          read = (traffic.advance fd, seen) := by
  simp only [recvResponse] at taken
  split at taken
  · cases taken
  · rename_i response rest unread
    exact Or.inl ⟨response, rest, unread, (Option.some.inj taken).symm⟩
  · rename_i time text rest unread
    exact Or.inr ⟨time, text, rest, unread, (Option.some.inj taken).symm⟩

theorem advance_process (traffic : Traffic) (fd : Fd) :
    (traffic.advance fd).process = traffic.process := by
  rw [advance]
  split <;> rfl

theorem advance_screen (traffic : Traffic) (fd : Fd) :
    (traffic.advance fd).screen = traffic.screen := by
  rw [advance]
  split <;> rfl

/-- What `sighandler` sends a client may send. -/
theorem sends_unregistration
    (options : Fd → Options) (traffic : Traffic) (fd : Fd)
    (stack : Publish) :
    (options fd).Sends (traffic.unregistration options fd stack) :=
  ⟨rfl, Or.inr rfl⟩

/-- `talk_to_server` receives the answer. -/
theorem Linked.receive
    (linked : traffic.Linked options) {seen : Int × Int}
    (taken : traffic.step options (.receive fd seen) = some next) :
    next.Linked options := by
  simp only [step] at taken
  split at taken
  · rename_i place
    have standing := linked.stands_at place
    obtain ⟨read, received, rfl⟩ := Option.map_eq_some_iff.mp taken
    rcases recvResponse_cases received with
      ⟨response, rest, unread, rfl⟩ | ⟨time, text, rest, unread, rfl⟩
    · obtain ⟨other, isResponse, stands⟩ := standing.receive unread
      cases isResponse
      apply
        linked.of_client
          ((ClientMove.consume options traffic fd).trans
            (.setProcess (ClientMove.consume options traffic fd).words _))
      simpa [Stands, setProcess, consume] using stands
    · obtain ⟨response, impossible, _⟩ := standing.receive unread
      cases impossible
  · cases taken

theorem Linked.identify
    (linked : traffic.Linked options)
    (taken : traffic.step options (.identify fd) = some next) :
    next.Linked options := by
  simp only [step] at taken
  split at taken
  · rename_i responseStatus id place
    have standing := linked.stands_at place
    cases taken
    apply linked.of_client (.setProcess (linked.words fd) _)
    simpa [Stands, setProcess] using standing.identify
  · cases taken

theorem Linked.start
    (linked : traffic.Linked options)
    (taken : traffic.step options (.start fd) = some next) :
    next.Linked options := by
  simp only [step] at taken
  split at taken
  · rename_i responseStatus place
    have standing := linked.stands_at place
    cases taken
    apply linked.of_client (.setProcess (linked.words fd) _)
    simpa [Stands, setProcess] using standing.start
  · cases taken

theorem Linked.publish
    (linked : traffic.Linked options) {id : Int} {data : Publish}
    (taken : traffic.step options (.publish fd id data) = some next) :
    next.Linked options := by
  simp only [step, Option.ite_none_right_eq_some] at taken
  obtain ⟨⟨place, isPublisher⟩, moved⟩ := taken
  cases moved
  have standing := linked.stands_at place
  apply
    linked.of_client
      (.send (linked.words fd) ⟨rfl, Or.inl ⟨isPublisher, rfl⟩⟩)
  have stands := standing.publish isPublisher id data
  rw [Stands]
  simpa [Traffic.send, place] using stands

theorem Linked.transfer
    (linked : traffic.Linked options)
    (taken : traffic.step options (.transfer fd) = some next) :
    next.Linked options := by
  simp only [step, Option.ite_none_right_eq_some] at taken
  obtain ⟨⟨place, _, _⟩, moved⟩ := taken
  have standing := linked.stands_at place
  split at moved
  · rename_i time text rest unread
    cases moved
    apply
      linked.of_client
        ((ClientMove.consume options traffic fd).trans
          (.print (ClientMove.consume options traffic fd).words _))
    simpa [Stands, Traffic.print, consume, place]
      using standing.transfer unread
  · cases moved

theorem Linked.sigint
    (linked : traffic.Linked options) {stack : Publish}
    (proper : traffic.Proper options (.sigint fd stack))
    (taken : traffic.step options (.sigint fd stack) = some next) :
    next.Linked options := by
  have standing := linked.stands fd
  simp only [step, Option.ite_none_right_eq_some] at taken
  obtain ⟨_, moved⟩ := taken
  cases moved
  have sends := sends_unregistration options traffic fd stack
  have sent := ClientMove.send (linked.words fd) sends
  apply linked.of_client (sent.trans (.setProcess sent.words _))
  have leaves :
      (traffic.unregistration options fd stack).action =
        (options fd).clientType.unregisters := rfl
  have stands := standing.sigint proper leaves rfl rfl
  simpa [Stands, Traffic.send, setProcess] using stands

/-- `sighandler` receives eight bytes. -/
theorem Linked.poll
    (linked : traffic.Linked options) {stack : Publish} {seen : Int × Int}
    (proper : traffic.Proper options (.poll fd stack seen))
    (taken : traffic.step options (.poll fd stack seen) = some next) :
    next.Linked options := by
  simp only [step] at taken
  split at taken
  · rename_i place
    have standing := linked.stands_at place
    obtain ⟨read, received, rfl⟩ := Option.map_eq_some_iff.mp taken
    have sends := sends_unregistration options traffic fd stack
    rcases recvResponse_cases received with
      ⟨response, rest, unread, rfl⟩ | ⟨time, text, rest, unread, rfl⟩
    · have consumed := ClientMove.consume options traffic fd
      split
      · apply linked.of_client (consumed.trans (.setProcess consumed.words _))
        simpa [Stands, setProcess, consume] using standing.report unread
      · rename_i notOk
        apply linked.of_client (consumed.trans (.send consumed.words sends))
        have stands :=
          standing.poll unread (Or.inr rfl)
            (by
              rintro id isOk
              cases isOk
              exact notOk rfl)
            sends rfl
        simpa [Stands, Traffic.send, consume, place] using stands
    · have advanced := ClientMove.advance options traffic fd
      rw [if_neg (proper time text (by rw [unread]; rfl))]
      apply linked.of_client (advanced.trans (.send advanced.words sends))
      have reads :
          (traffic.advance fd).received fd = traffic.received fd ∨
            (traffic.advance fd).received fd = traffic.received fd + 1 := by
        rw [advance]
        split
        · exact Or.inl rfl
        · exact Or.inr (Function.update_self _ _ _)
      have stands := standing.poll unread reads nofun sends rfl
      have same := advanced.outgoing
      rw [List.append_nil] at same
      simpa [Stands, Traffic.send, same, advance_process, advance_screen,
        advanced.exchange, place] using stands
  · cases taken

/-! ### Steps of the broker -/

theorem take_eq_some
    {turn : Turn} (taken : traffic.take turn = some next) :
    ∃ exchange,
      traffic.exchange.step turn = some exchange ∧
        next =
          { traffic with
            exchange := exchange, turns := traffic.turns ++ [turn] } := by
  obtain ⟨exchange, moved, same⟩ := Option.map_eq_some_iff.mp taken
  exact ⟨exchange, moved, same.symm⟩

/-- One more message that the broker can rely on. -/
theorem Linked.extend
    (linked : traffic.Linked options) {turn : Turn} {exchange : Exchange}
    (conducted : traffic.exchange.Conducted turn)
    (moved : traffic.exchange.step turn = some exchange) :
    Obeys Exchange.step Exchange.Conducted Exchange.initial
        (traffic.turns ++ [turn]) ∧
      run Exchange.step Exchange.initial (traffic.turns ++ [turn]) =
        some exchange := by
  constructor
  · exact
      linked.conducted.append linked.replays
        ⟨conducted, fun _ _ => trivial⟩
  · refine run_append_eq_some.mpr ⟨traffic.exchange, linked.replays, ?_⟩
    rw [run_singleton]
    exact moved

theorem filterMap_messageOf_append
    (turns : List Turn) (turn : Turn) (other : Fd) :
    (turns ++ [turn]).filterMap (Turn.messageOf other) =
      turns.filterMap (Turn.messageOf other) ++
        (turn.messageOf other).toList := by
  rw [List.filterMap_append]
  cases here : turn.messageOf other with
  | none => rw [List.filterMap_cons_none here]; rfl
  | some message => rw [List.filterMap_cons_some here]; rfl

/-- No answer of the broker is taken for a copy. -/
theorem Linked.origins_of_answer
    (linked : traffic.Linked options) {exchange : Exchange}
    {response : Response}
    (answered :
      exchange.inbox fd = traffic.exchange.inbox fd ++ [.response response])
    (others : ∀ other, other ≠ fd →
      exchange.inbox other = traffic.exchange.inbox other)
    (other : Fd) (time : Timespec) (text : List UInt8)
    (listed : .publish time text ∈ exchange.inbox other) :
    ∃ publisher message,
      Published options traffic.sent (options other).clientTopic time text
        publisher message := by
  by_cases same : other = fd
  · rw [same, answered] at listed
    rw [same]
    rcases List.mem_append.mp listed with earlier | last
    · exact linked.origins fd time text earlier
    · cases List.mem_singleton.mp last
  · rw [others other same] at listed
    exact linked.origins other time text listed

/-- A registration. -/
theorem Linked.register
    (linked : traffic.Linked options) {stack : Topic}
    (proper : traffic.Proper options (.register fd stack))
    (taken : traffic.step options (.register fd stack) = some next) :
    next.Linked options := by
  obtain ⟨exchange, moved, rfl⟩ := take_eq_some taken
  have admitted :
      traffic.exchange.Admissible
        (.register fd (options fd).clientType (options fd).clientTopic
          stack) := proper
  obtain ⟨conducted, replays⟩ :=
    linked.extend ⟨admitted, fun _ _ _ _ impossible => nomatch impossible⟩
      moved
  obtain ⟨accepted, ended, others, answered, answers⟩ :=
    Exchange.register_effect linked.settled moved
  obtain ⟨stepped, _, _⟩ := Exchange.refines_register linked.settled moved
  exact
    { conducted := conducted
      replays := replays
      within := admitted.2 _ stepped
      ended := by
        intro other hasEnded
        rw [ended] at hasEnded
        have finished := linked.ended other hasEnded
        by_cases same : other = fd
        · rw [same, accepted] at finished
          cases finished
        · rw [(others other same).1]
          exact finished
      stands := by
        intro other
        have standing := linked.stands other
        by_cases same : other = fd
        · subst same
          rw [Stands, accepted] at standing
          rw [Stands, answered]
          exact standing.enroll answers
        · rw [Stands, (others other same).1, (others other same).2]
          exact standing
      words := linked.words
      queued := by
        intro other
        rw [filterMap_messageOf_append, Turn.messageOf, Option.toList_none,
          List.append_nil]
        exact linked.queued other
      sends := linked.sends
      origins :=
        linked.origins_of_answer answered
          (fun other different => (others other different).2) }

/-- A handler serves its client as what it was started as. -/
theorem Linked.serves
    (linked : traffic.Linked options) {member : Member}
    (serving : traffic.exchange.handlers.phase fd = .serving member) :
    member.kind = (options fd).clientType ∧
      member.topic = (options fd).clientTopic ∧ member.fd = fd := by
  have standing := linked.stands fd
  rw [Stands, serving] at standing
  exact standing.serves

section Handled

variable {member : Member} {message : ClientMessage}
  {rest : List ClientMessage} {memory : Memory} {exchange : Exchange}

/-- What a client has sent is of its own topic, and its `UNREGISTER` has the id
that it was given. -/
theorem Linked.conduct
    (linked : traffic.Linked options)
    (outgoing : traffic.outgoing fd = message :: rest)
    (serving : traffic.exchange.handlers.phase fd = .serving member) :
    member =
        ⟨(options fd).clientType, (options fd).clientTopic,
          (traffic.process fd).clientId, fd⟩ ∧
      (options fd).Sends message ∧
        (message.action = (options fd).clientType.unregisters →
          message.id = (traffic.process fd).clientId) := by
  have standing := linked.stands fd
  rw [Stands, serving, outgoing] at standing
  exact standing.conduct

/-- The broker can rely on what its clients send. -/
theorem Linked.admits
    (linked : traffic.Linked options)
    (outgoing : traffic.outgoing fd = message :: rest)
    (serving : traffic.exchange.handlers.phase fd = .serving member)
    (memory : Memory) :
    traffic.exchange.Conducted (.message fd message memory) := by
  obtain ⟨isMember, sends, id⟩ := linked.conduct outgoing serving
  constructor
  · intro other otherServing
    cases serving.symm.trans otherServing
    subst isMember
    refine ⟨fun _ _ => sends.1, ?_⟩
    rw [ClientMessage.request]
    split
    · rename_i leaves
      constructor
      · intro client clientServing
        cases serving.symm.trans clientServing
        exact ⟨sends.1, id leaves⟩
      · intro later stepped
        obtain ⟨_, _, _, _, _, enrolled⟩ := Handlers.run_unregister stepped
        exact linked.within.of_filter enrolled
    · refine ⟨trivial, ?_⟩
      intro later stepped
      cases stepped
      exact linked.within
  · intro other content _ known isMessage publishes otherServing
    cases isMessage
    cases serving.symm.trans otherServing
    rw [isMember]
    exact sends.isPublisher publishes

/-- A message that a handler receives was the next of its client. -/
theorem Linked.queued_handle
    (linked : traffic.Linked options)
    (outgoing : traffic.outgoing fd = message :: rest) (memory : Memory)
    (other : Fd) :
    (traffic.turns ++ [Turn.message fd message memory]).filterMap
          (Turn.messageOf other) ++
        Function.update traffic.outgoing fd rest other =
      traffic.sent other := by
  rw [filterMap_messageOf_append, Turn.messageOf, ← linked.queued other]
  by_cases same : other = fd
  · subst same
    rw [if_pos rfl, Function.update_self, outgoing, List.append_assoc]
    rfl
  · rw [if_neg (Ne.symm same), Function.update_of_ne same,
      Option.toList_none, List.append_nil]

/-- A handler receives the `UNREGISTER` of its client. -/
theorem Linked.handle_unregister
    (linked : traffic.Linked options)
    (outgoing : traffic.outgoing fd = message :: rest)
    (serving : traffic.exchange.handlers.phase fd = .serving member)
    (leaves : message.action = (options fd).clientType.unregisters)
    (moved :
      traffic.exchange.step (.message fd message memory) = some exchange) :
    Linked options
      { traffic with
        outgoing := Function.update traffic.outgoing fd rest
        exchange := exchange
        turns := traffic.turns ++ [.message fd message memory] } := by
  obtain ⟨conducted, replays⟩ :=
    linked.extend (linked.admits outgoing serving memory) moved
  obtain ⟨isMember, ⟨topic, _⟩, id⟩ := linked.conduct outgoing serving
  have sameKind : member.kind = (options fd).clientType := by
    rw [isMember]
  obtain ⟨finished, answered, enrolled, others⟩ :=
    Exchange.unregister_effect linked.settled serving
      (by rw [leaves, sameKind]) (by rw [topic, isMember])
      (by rw [id leaves, isMember]) moved
  exact
    { conducted := conducted
      replays := replays
      within := linked.within.of_filter enrolled
      ended := by
        intro other hasEnded
        by_cases same : other = fd
        · rw [same]
          exact finished
        · obtain ⟨phase, _, ended⟩ := others other same
          rw [ended] at hasEnded
          rw [phase]
          exact linked.ended other hasEnded
      stands := by
        intro other
        have standing := linked.stands other
        by_cases same : other = fd
        · subst same
          rw [Stands, serving, outgoing] at standing
          have stands := standing.unregistered leaves member.id
          rw [Stands, answered, finished]
          simpa using stands
        · obtain ⟨phase, inbox, _⟩ := others other same
          rw [Stands] at standing
          rw [Stands, inbox, phase]
          simpa [same] using standing
      words := linked.words
      queued := linked.queued_handle outgoing memory
      sends := linked.sends
      origins :=
        linked.origins_of_answer answered
          (fun other different => (others other different).2.1) }

/-- A handler receives a `PUBLISH_DATA` of its client. -/
theorem Linked.handle_publish
    (linked : traffic.Linked options)
    (outgoing : traffic.outgoing fd = message :: rest)
    (serving : traffic.exchange.handlers.phase fd = .serving member)
    (isPublisher : (options fd).clientType = .publisher)
    (publishes : message.action = .publishData)
    (moved :
      traffic.exchange.step (.message fd message memory) = some exchange) :
    Linked options
      { traffic with
        outgoing := Function.update traffic.outgoing fd rest
        exchange := exchange
        turns := traffic.turns ++ [.message fd message memory] } := by
  obtain ⟨conducted, replays⟩ :=
    linked.extend (linked.admits outgoing serving memory) moved
  obtain ⟨isMember, ⟨topic, _⟩, _⟩ := linked.conduct outgoing serving
  have isSent : message ∈ traffic.sent fd := by
    rw [← linked.queued fd, outgoing]
    exact List.mem_append_right _ List.mem_cons_self
  obtain ⟨handlers, ended, heard⟩ :=
    Exchange.publish_effect linked.settled serving
      (by rw [isMember, isPublisher]) publishes (by rw [topic, isMember])
      moved
  have handled (other : Fd) :
      Standing (options other) other (traffic.exchange.inbox other)
        (traffic.received other) (traffic.screen other)
        (traffic.exchange.handlers.phase other)
        (traffic.process other).clientId (traffic.process other).place
        (Function.update traffic.outgoing fd rest other) := by
    have standing := linked.stands other
    by_cases same : other = fd
    · subst same
      rw [Stands, serving, outgoing] at standing
      rw [serving, Function.update_self]
      apply standing.handled
      rw [publishes, isPublisher]
      decide
    · rw [Function.update_of_ne same]
      exact standing
  exact
    { conducted := conducted
      replays := replays
      within := by
        simp only [handlers]
        exact linked.within
      ended := by
        intro other hasEnded
        simp only [handlers]
        exact linked.ended other (ended other hasEnded)
      stands := by
        intro other
        have standing := handled other
        simp only [Stands, handlers]
        rcases heard other with
          same | ⟨subscriber, count, isServing, _, _, more⟩
        · rw [same]
          exact standing
        · rw [isServing] at standing ⊢
          rw [more]
          exact standing.hear count _ _
      words := linked.words
      queued := linked.queued_handle outgoing memory
      sends := linked.sends
      origins := by
        intro other time text listed
        rcases heard other with
          same | ⟨subscriber, count, isServing, _, itsTopic, more⟩
        · rw [same] at listed
          exact linked.origins other time text listed
        · rw [more] at listed
          rcases List.mem_append.mp listed with earlier | last
          · exact linked.origins other time text earlier
          · obtain ⟨rfl, rfl⟩ :=
              Packet.publish.inj (List.eq_of_mem_replicate last)
            have theirs := (linked.serves isServing).2.1
            exact
              ⟨fd, message,
                { isPublisher := isPublisher
                  isSent := isSent
                  action := publishes
                  topic := by rw [← itsTopic, theirs]
                  time := rfl
                  text := rfl }⟩ }

end Handled

/-- A message of a registered client. -/
theorem Linked.handle
    (linked : traffic.Linked options) {memory : Memory}
    (taken : traffic.step options (.handle fd memory) = some next) :
    next.Linked options := by
  simp only [step] at taken
  split at taken
  · rename_i message rest outgoing
    obtain ⟨exchange, moved, rfl⟩ := take_eq_some taken
    obtain ⟨member, serving⟩ := Exchange.serving_of_message moved
    obtain ⟨_, ⟨_, kinds⟩, _⟩ := linked.conduct outgoing serving
    rcases kinds with ⟨isPublisher, publishes⟩ | leaves
    · exact
        linked.handle_publish outgoing serving isPublisher publishes moved
    · exact linked.handle_unregister outgoing serving leaves moved
  · cases taken

theorem Linked.step
    (linked : traffic.Linked options) {action : TrafficAction}
    (proper : traffic.Proper options action)
    (taken : traffic.step options action = some next) :
    next.Linked options := by
  cases action with
  | register fd stack => exact linked.register proper taken
  | handle fd memory => exact linked.handle taken
  | receive fd seen => exact linked.receive taken
  | identify fd => exact linked.identify taken
  | start fd => exact linked.start taken
  | publish fd id data => exact linked.publish taken
  | transfer fd => exact linked.transfer taken
  | sigint fd stack => exact linked.sigint proper taken
  | poll fd stack seen => exact linked.poll proper taken

end Steps

end Traffic

end SistemasDistribuidos.Practica4
