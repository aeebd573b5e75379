import SistemasDistribuidos.Library.Layout
import SistemasDistribuidos.Practica4.Network
import SistemasDistribuidos.Practica4.Messages

/-!
# The structs of the protocol as bytes

Clients and broker send `struct message`, `struct publish` and
`struct response` as they lie in memory, without a format of their own.  What
a program writes to a field, on top of whatever its stack held, is what the
other one reads there; the fields it does not write, the rest of a
`char[100]` and the padding are sent as they are and read by nobody.
-/

namespace SistemasDistribuidos.Practica4

open SistemasDistribuidos Framing Layout

/-- A `struct response` as it lies in memory. -/
abbrev StructResponse := Frame UInt8 8

def Operation.ofCode : Nat → Option Operation
  | 0 => some .registerPublisher
  | 1 => some .unregisterPublisher
  | 2 => some .registerSubscriber
  | 3 => some .unregisterSubscriber
  | 4 => some .publishData
  | _ => none

@[simp]
theorem Operation.ofCode_code (operation : Operation) :
    ofCode operation.code = some operation := by
  cases operation <;> rfl

def Status.ofCode : Int → Option Status
  | 0 => some .error
  | 1 => some .limit
  | 2 => some .ok
  | _ => none

/-- The message with which a client of each kind registers. -/
def Kind.registers : Kind → Operation
  | .publisher => .registerPublisher
  | .subscriber => .registerSubscriber

/-- The message with which a client of each kind leaves. -/
def Kind.unregisters : Kind → Operation
  | .publisher => .unregisterPublisher
  | .subscriber => .unregisterSubscriber

/-! ## `struct response` -/

namespace StructResponse

def statusField : Field 8 4 := ⟨0, by decide⟩

def idField : Field 8 4 := ⟨4, by decide⟩

/-- The broker fills its local `response`. -/
def store (stack : StructResponse) (response : Response) : StructResponse :=
  statusField.write
    (idField.write stack (ofSigned 4 response.id))
    (ofSigned 4 response.responseStatus.code)

/-- What a client reads. -/
def response (bytes : StructResponse) : Option Response :=
  (Status.ofCode (signed (statusField.read bytes))).map
    (fun status => ⟨status, signed (idField.read bytes)⟩)

/-- A response whose id is an `int` is read as it was filled. -/
theorem response_store
    (stack : StructResponse) {response : Response}
    (fits : signed (ofSigned 4 response.id) = response.id) :
    StructResponse.response (store stack response) = some response := by
  have id :
      idField.read (store stack response) = ofSigned 4 response.id := by
    rw [store, Field.read_write_apart _ _ (by decide), Field.read_write]
  have status :
      Status.ofCode
          (signed (statusField.read (store stack response))) =
        some response.responseStatus := by
    rw [store, Field.read_write]
    cases response.responseStatus <;> rfl
  rw [StructResponse.response, status, id, fits]
  rfl

end StructResponse

/-! ## `struct publish` -/

/-- A `char[100]`. -/
def Buffer.ofFrame (frame : Frame UInt8 100) : Buffer :=
  ⟨frame.bytes, frame.length_bytes⟩

namespace StructPublish

def secField : Field 120 8 := ⟨0, by decide⟩

def nsecField : Field 120 8 := ⟨8, by decide⟩

def dataField : Field 120 100 := ⟨16, by decide⟩

/-- `time_generated_data`. -/
def time (bytes : StructPublish) : Timespec where
  sec := signed (secField.read bytes)
  nsec := signed (nsecField.read bytes)

def data (bytes : StructPublish) : Buffer :=
  .ofFrame (dataField.read bytes)

/-- What a program finds in it. -/
def publish (bytes : StructPublish) : Publish where
  timeGeneratedData := time bytes
  data := data bytes

/-- `publish.time_generated_data = time`. -/
def setTime (bytes : StructPublish) (sec nsec : Frame UInt8 8) :
    StructPublish :=
  secField.write (nsecField.write bytes nsec) sec

theorem publish_setTime
    (bytes : StructPublish) (sec nsec : Frame UInt8 8) :
    publish (setTime bytes sec nsec) =
      ⟨⟨signed sec, signed nsec⟩, data bytes⟩ := by
  have readData :
      dataField.read (setTime bytes sec nsec) = dataField.read bytes := by
    rw [setTime, Field.read_write_apart _ _ (by decide),
      Field.read_write_apart _ _ (by decide)]
  have readNsec : nsecField.read (setTime bytes sec nsec) = nsec := by
    rw [setTime, Field.read_write_apart _ _ (by decide), Field.read_write]
  have readSec : secField.read (setTime bytes sec nsec) = sec := by
    rw [setTime, Field.read_write]
  rw [publish, time, data, readData, readNsec, readSec]
  rfl

/-- The local `publish` of a sender: the string of the message is copied, and
its time. -/
def fill (stack : StructPublish) (text : CString 100)
    (source : StructPublish) : StructPublish :=
  setTime
    (dataField.write stack (strcpy (dataField.read stack) text))
    (secField.read source) (nsecField.read source)

/-- A subscriber reads the time and the string of the message. -/
theorem publish_fill
    (stack source : StructPublish) (text : CString 100) :
    time (fill stack text source) = time source ∧
      (publish (fill stack text source)).text = text.bytes := by
  have filled := publish_setTime
    (dataField.write stack (strcpy (dataField.read stack) text))
    (secField.read source) (nsecField.read source)
  constructor
  · exact congrArg Publish.timeGeneratedData filled
  · rw [fill, filled, Publish.text, data, Field.read_write]
    exact ofBuffer_strcpy _ _

end StructPublish

/-! ## `struct message` -/

namespace StructMessage

def actionField : Field 232 4 := ⟨0, by decide⟩

def topicField : Field 232 100 := ⟨4, by decide⟩

def idField : Field 232 4 := ⟨104, by decide⟩

def dataField : Field 232 120 := ⟨112, by decide⟩

/-- The topic, if it is a string. -/
def topic (message : StructMessage) : Option TopicName :=
  string (topicField.read message)

def id (message : StructMessage) : Int :=
  signed (idField.read message)

def data (message : StructMessage) : StructPublish :=
  dataField.read message

/-- What a handler reads of a message whose action is one of
`enum operations`. -/
def message (bytes : StructMessage) : Option ClientMessage :=
  match Operation.ofCode (StructMessage.action bytes), topic bytes with
  | some operation, some name =>
      some
        ⟨operation, name, StructMessage.id bytes,
          StructPublish.publish (data bytes)⟩
  | _, _ => none

theorem message_eq_some
    {bytes : StructMessage} {read : ClientMessage}
    (isMessage : message bytes = some read) :
    StructMessage.action bytes = read.action.code ∧
      topic bytes = some read.topic ∧
      StructMessage.id bytes = read.id ∧
      StructPublish.publish (data bytes) = read.data := by
  rw [message] at isMessage
  split at isMessage
  · rename_i operation name decoded isTopic
    cases isMessage
    refine ⟨?_, isTopic, rfl, rfl⟩
    generalize StructMessage.action bytes = code at decoded
    match code, decoded with
    | 0, decoded => cases decoded; rfl
    | 1, decoded => cases decoded; rfl
    | 2, decoded => cases decoded; rfl
    | 3, decoded => cases decoded; rfl
    | 4, decoded => cases decoded; rfl
  · cases isMessage

/-- `message.action = operation`. -/
def setAction (bytes : StructMessage) (operation : Operation) :
    StructMessage :=
  actionField.write bytes (integer 4 (BitVec.ofNat _ operation.code))

/-- `strcpy(message.topic, name)`. -/
def setTopic (bytes : StructMessage) (name : TopicName) : StructMessage :=
  topicField.write bytes (strcpy (topicField.read bytes) name)

def setId (bytes : StructMessage) (value : Int) : StructMessage :=
  idField.write bytes (ofSigned 4 value)

def setData (bytes : StructMessage) (publish : StructPublish) :
    StructMessage :=
  dataField.write bytes publish

theorem action_eq_read (bytes : StructMessage) :
    StructMessage.action bytes = number (actionField.read bytes).bytes :=
  rfl

@[simp]
theorem action_setAction (bytes : StructMessage) (operation : Operation) :
    StructMessage.action (setAction bytes operation) = operation.code := by
  rw [action_eq_read, setAction, Field.read_write]
  cases operation <;> rfl

@[simp]
theorem action_setTopic (bytes : StructMessage) (name : TopicName) :
    StructMessage.action (setTopic bytes name) =
      StructMessage.action bytes := by
  rw [action_eq_read, setTopic, Field.read_write_apart _ _ (by decide)]
  rfl

@[simp]
theorem action_setId (bytes : StructMessage) (value : Int) :
    StructMessage.action (setId bytes value) =
      StructMessage.action bytes := by
  rw [action_eq_read, setId, Field.read_write_apart _ _ (by decide)]
  rfl

@[simp]
theorem action_setData (bytes : StructMessage) (publish : StructPublish) :
    StructMessage.action (setData bytes publish) =
      StructMessage.action bytes := by
  rw [action_eq_read, setData, Field.read_write_apart _ _ (by decide)]
  rfl

@[simp]
theorem topic_setTopic (bytes : StructMessage) (name : TopicName) :
    topic (setTopic bytes name) = some name := by
  rw [topic, setTopic, Field.read_write, string_strcpy]

@[simp]
theorem topic_setAction (bytes : StructMessage) (operation : Operation) :
    topic (setAction bytes operation) = topic bytes := by
  rw [topic, setAction, Field.read_write_apart _ _ (by decide)]
  rfl

@[simp]
theorem topic_setId (bytes : StructMessage) (value : Int) :
    topic (setId bytes value) = topic bytes := by
  rw [topic, setId, Field.read_write_apart _ _ (by decide)]
  rfl

@[simp]
theorem topic_setData (bytes : StructMessage) (publish : StructPublish) :
    topic (setData bytes publish) = topic bytes := by
  rw [topic, setData, Field.read_write_apart _ _ (by decide)]
  rfl

@[simp]
theorem id_setId
    (bytes : StructMessage) {value : Int}
    (fits : signed (ofSigned 4 value) = value) :
    StructMessage.id (setId bytes value) = value := by
  rw [StructMessage.id, setId, Field.read_write, fits]

@[simp]
theorem data_setData (bytes : StructMessage) (publish : StructPublish) :
    data (setData bytes publish) = publish := by
  rw [data, setData, Field.read_write]

@[simp]
theorem data_setTopic (bytes : StructMessage) (name : TopicName) :
    data (setTopic bytes name) = data bytes := by
  rw [data, setTopic, Field.read_write_apart _ _ (by decide)]
  rfl

/-- The first message of `talk_to_server`. -/
def registration (stack : StructMessage) (kind : Kind)
    (clientTopic : TopicName) : StructMessage :=
  setAction (setTopic stack clientTopic) kind.registers

/-- The message of `sighandler`. -/
def unregistration (stack : StructMessage) (kind : Kind)
    (clientTopic : TopicName) (clientId : Int) : StructMessage :=
  setId (setTopic (setAction stack kind.unregisters) clientTopic) clientId

end StructMessage

end SistemasDistribuidos.Practica4
