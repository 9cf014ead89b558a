import ImageBuild.Json.Printer
import ImageBuild.Json.Record

/-!
# Progress messages

The response to a build request is a sequence of frames. A frame is one JSON
object and a newline, and holds one message: a line of output, a status, an
auxiliary payload, or an error. The payload with the member `ID` ends a
successful build, an error ends a failed one, and every other message is
progress.
-/

namespace ImageBuild

/-- The octets of one message on the response stream. -/
abbrev Frame := Octets

namespace Message

/-- How much of a transfer is done. -/
structure Transfer where
  current : UInt64
  total : Option UInt64 := none
  deriving DecidableEq

structure ErrorDetail where
  code : Option UInt16 := none
  message : String
  deriving DecidableEq

/-- What a message tells about the build. -/
inductive Kind where
  | progress
  /-- the build succeeded with this image identifier -/
  | success (id : String)
  /-- the build failed with this message -/
  | error (message : String)
  deriving DecidableEq

end Message

/-- One message on the response stream. -/
structure Message where
  stream : Option String := none
  status : Option String := none
  id : Option String := none
  progressDetail : Option Message.Transfer := none
  progress : Option String := none
  errorDetail : Option Message.ErrorDetail := none
  error : Option String := none
  aux : Option Json.Value := none

namespace Message

def line (text : String) : Message := { stream := some text }

/-- A status, of a transfer if an id is given. -/
def ofStatus (id : Option String) (text : String) : Message := { status := some text, id }

def payload (v : Json.Value) : Message := { aux := some v }

def imageId (id : String) : Message := payload (.object [("ID", .string id)])

/-- The message that ends a failed build. The text is given twice, for
readers of the detail and for those of the plain member. -/
def failure (text : String) : Message :=
  { errorDetail := some { message := text }, error := some text }

def kind (m : Message) : Kind :=
  match m.errorDetail, m.error with
  | some d, _ => .error d.message
  | none, some e => .error e
  | none, none =>
    match (m.aux.bind (·.get? "ID")).bind (·.asString?) with
    | some id => .success id
    | none => .progress

def Transfer.print (t : Transfer) : Octets :=
  Json.Print.object
    (("current", Json.Print.nat t.current.toNat) ::
      Json.Print.field? "total" (fun n => Json.Print.nat n.toNat) t.total)

def ErrorDetail.print (d : ErrorDetail) : Octets :=
  Json.Print.object
    (Json.Print.field? "code" (fun n => Json.Print.nat n.toNat) d.code ++
      [("message", Json.Print.string d.message)])

def print (m : Message) : Octets :=
  Json.Print.object
    (Json.Print.field? "stream" Json.Print.string m.stream ++
      Json.Print.field? "status" Json.Print.string m.status ++
      Json.Print.field? "id" Json.Print.string m.id ++
      Json.Print.field? "progressDetail" Transfer.print m.progressDetail ++
      Json.Print.field? "progress" Json.Print.string m.progress ++
      Json.Print.field? "errorDetail" ErrorDetail.print m.errorDetail ++
      Json.Print.field? "error" Json.Print.string m.error ++
      Json.Print.field? "aux" Json.Value.print m.aux)

/-- The frame of a message: its JSON text and a newline. -/
def frame (m : Message) : Frame := m.print ++ [0x0A]

open Json (Field Shape Reader)

def Transfer.shape : Shape Transfer where
  name := "JsonProgress"
  initial := { current := 0 }
  fields :=
    [.of "current" .always .u64 fun t n => { t with current := n },
      .of "total" .never (.option .u64) fun t n => { t with total := n }]

def ErrorDetail.shape : Shape ErrorDetail where
  name := "JsonError"
  initial := { message := "" }
  fields :=
    [.of "code" .never (.option .u16) fun d n => { d with code := n },
      .of "message" .always .string fun d s => { d with message := s }]

/-- How many brackets of a payload may be open at once. The brackets of a
frame may be nested to depth 127, and the message itself has one. -/
def payloadDepth : Nat := 126

def shape : Shape Message where
  name := "JsonMessage"
  initial := {}
  fields :=
    [.of "stream" .never (.option .string) fun m s => { m with stream := s },
      .of "status" .never (.option .string) fun m s => { m with status := s },
      .of "id" .never (.option .string) fun m s => { m with id := s },
      .of "progressDetail" .never (.option Transfer.shape.reader)
        fun m t => { m with progressDetail := t },
      .of "progress" .never (.option .string) fun m s => { m with progress := s },
      .of "errorDetail" .never (.option ErrorDetail.shape.reader)
        fun m d => { m with errorDetail := d },
      .of "error" .never (.option .string) fun m s => { m with error := s },
      .of "aux" .never (.option (.value payloadDepth)) fun m v => { m with aux := v }]

/-- The messages of concatenated frames. Blanks between the frames, newlines
included, may be missing. -/
def ofFrames? (s : Octets) : Except Json.Fault (List Message) :=
  shape.reader.stream s

def ofFrame? (f : Frame) : Option Message :=
  (shape.reader.parse f).toOption

/-- The id of a status. A message that also carries output, an error or a
payload is no status. -/
def statusId? (m : Message) : Option (Option String) :=
  if m.status.isSome ∧ m.stream.isNone ∧ m.error.isNone ∧ m.errorDetail.isNone ∧ m.aux.isNone then
    some m.id
  else none

end Message
end ImageBuild
