import ImageBuild.Json.Value
import ImageBuild.Text.Octets
import ImageBuild.Text.Quoted

/-!
# Faults in JSON texts

A fault has a cause and a place. The place is the number of octets that were
still unread, so a reader need not know how far it has come; `Fault.message`
turns it into a line and a column of the whole text.
-/

namespace ImageBuild.Json

/-- What stands in a text instead of a value of the expected type. -/
inductive Found where
  | null
  | bool (b : Bool)
  | number (n : Number)
  | string (s : String)
  | sequence
  | map
  deriving DecidableEq

/-- Why a text is not the JSON text of the expected value. -/
inductive Cause where
  | endOfValue
  | endOfList
  | endOfObject
  | endOfString
  | expectedValue
  | expectedIdent
  | expectedColon
  | expectedListEnd
  | expectedObjectEnd
  | expectedKey
  | trailingComma
  | trailingCharacters
  | tooDeep
  | invalidEscape
  | controlCharacter
  | invalidNumber
  | numberOutOfRange
  | invalidText
  | loneSurrogate
  | endOfHexEscape
  | wrongType (found : Found) (expected : String)
  | wrongValue (n : Int) (expected : String)
  | wrongLength (n : Nat) (expected : String)
  | missingField (name : String)
  | duplicateField (name : String)
  | unknownVariant (name : String) (known : List String)
  deriving DecidableEq

/-- The name of what was found, as it stands in a message. -/
def Found.text : Found → String
  | .null => "null"
  | .bool true => "boolean `true`"
  | .bool false => "boolean `false`"
  | .number (.whole n) => "integer `" ++ Text.Decimal.intText n.toInt ++ "`"
  | .number (.real x) =>
    "floating point `" ++ String.ofList (Text.DoubleFormat.wire.chars x) ++ "`"
  | .string s => "string " ++ Text.quote s
  | .sequence => "sequence"
  | .map => "map"

/-- The names of an enumeration, joined as alternatives. -/
def alternatives (names : List String) : String :=
  " or ".intercalate (names.map fun n => "`" ++ n ++ "`")

def Cause.text : Cause → String
  | .endOfValue => "EOF while parsing a value"
  | .endOfList => "EOF while parsing a list"
  | .endOfObject => "EOF while parsing an object"
  | .endOfString => "EOF while parsing a string"
  | .expectedValue => "expected value"
  | .expectedIdent => "expected ident"
  | .expectedColon => "expected `:`"
  | .expectedListEnd => "expected `,` or `]`"
  | .expectedObjectEnd => "expected `,` or `\x7d`"
  | .expectedKey => "key must be a string"
  | .trailingComma => "trailing comma"
  | .trailingCharacters => "trailing characters"
  | .tooDeep => "recursion limit exceeded"
  | .invalidEscape => "invalid escape"
  | .controlCharacter =>
    "control character (\\u0000-\\u001F) found while parsing a string"
  | .invalidNumber => "invalid number"
  | .numberOutOfRange => "number out of range"
  | .invalidText => "invalid unicode code point"
  | .loneSurrogate => "lone leading surrogate in hex escape"
  | .endOfHexEscape => "unexpected end of hex escape"
  | .wrongType found expected => "invalid type: " ++ found.text ++ ", expected " ++ expected
  | .wrongValue n expected =>
    "invalid value: integer `" ++ Text.Decimal.intText n ++ "`, expected " ++ expected
  | .wrongLength n expected =>
    "invalid length " ++ Text.Decimal.text n ++ ", expected " ++ expected
  | .missingField name => "missing field `" ++ name ++ "`"
  | .duplicateField name => "duplicate field `" ++ name ++ "`"
  | .unknownVariant name known =>
    "unknown variant `" ++ name ++ "`, expected " ++ alternatives known

/-- A cause with the number of octets that were unread when it arose. -/
structure Fault where
  cause : Cause
  unread : Nat
  deriving DecidableEq

namespace Fault

def here (cause : Cause) (rest : Octets) : Fault := ⟨cause, rest.length⟩

/-- A fault that counts the next octet as read, if there is one. -/
def next (cause : Cause) (rest : Octets) : Fault := ⟨cause, rest.length - 1⟩

def advance (place : Nat × Nat) (b : UInt8) : Nat × Nat :=
  if b = 0x0A then (place.1 + 1, 0) else (place.1, place.2 + 1)

/-- The line and column reached after some octets. -/
def placeAfter (read : Octets) : Nat × Nat :=
  read.foldl advance (1, 0)

def message (input : Octets) (f : Fault) : String :=
  let (line, column) := placeAfter (input.take (input.length - f.unread))
  f.cause.text ++ " at line " ++ Text.Decimal.text line ++ " column " ++ Text.Decimal.text column

end Fault
end ImageBuild.Json
