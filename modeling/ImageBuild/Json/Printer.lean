import ImageBuild.Json.Value
import ImageBuild.Text.Octets

/-!
# Writing JSON

JSON is written without blanks. A string is escaped octet by octet: a quote,
a backslash and the control characters are escaped, and every other octet
stands for itself, so what is written is UTF-8 and has no octet below a space.
-/

namespace ImageBuild.Json

namespace Print

def octet (c : Char) : UInt8 := c.toUInt8

def ascii (cs : List Char) : Octets := cs.map octet

def escape (b : UInt8) : Octets :=
  if b = 0x22 then [0x5C, 0x22]
  else if b = 0x5C then [0x5C, 0x5C]
  else if b = 0x08 then [0x5C, octet 'b']
  else if b = 0x0C then [0x5C, octet 'f']
  else if b = 0x0A then [0x5C, octet 'n']
  else if b = 0x0D then [0x5C, octet 'r']
  else if b = 0x09 then [0x5C, octet 't']
  else if b < 0x20 then
    [0x5C, octet 'u', octet '0', octet '0',
      octet (Text.Decimal.hexChar (b.toNat / 16)), octet (Text.Decimal.hexChar (b.toNat % 16))]
  else [b]

def string (s : String) : Octets :=
  0x22 :: (Text.encode s).flatMap escape ++ [0x22]

def nat (n : Nat) : Octets := ascii (Text.Decimal.chars n)

def int : Int → Octets
  | .ofNat n => nat n
  | .negSucc n => octet '-' :: nat (n + 1)

def bool : Bool → Octets
  | true => ascii ['t', 'r', 'u', 'e']
  | false => ascii ['f', 'a', 'l', 's', 'e']

def null : Octets := ascii ['n', 'u', 'l', 'l']

def number : Number → Octets
  | .whole n => int n.toInt
  | .real x => ascii (Text.DoubleFormat.wire.chars x)

def commas : List Octets → Octets
  | [] => []
  | [x] => x
  | x :: rest => x ++ octet ',' :: commas rest

def array (items : List Octets) : Octets :=
  octet '[' :: commas items ++ [octet ']']

def member (name : String) (value : Octets) : Octets :=
  string name ++ octet ':' :: value

def object (members : List (String × Octets)) : Octets :=
  octet '\x7b' :: commas (members.map fun m => member m.1 m.2) ++ [octet '\x7d']

def option {α : Type} (write : α → Octets) : Option α → Octets
  | none => null
  | some a => write a

/-- A member that is left out when it has no value. -/
def field? {α : Type} (name : String) (write : α → Octets) (a : Option α) :
    List (String × Octets) :=
  match a with
  | none => []
  | some a => [(name, write a)]

end Print

mutual

def Value.print : Value → Octets
  | .null => Print.null
  | .bool b => Print.bool b
  | .number n => Print.number n
  | .string s => Print.string s
  | .array items => Print.array (Value.printItems items)
  | .object members => Print.object (Value.printMembers members)

def Value.printItems : List Value → List Octets
  | [] => []
  | v :: rest => v.print :: Value.printItems rest

/-- The members of an object with their JSON texts. -/
def Value.printMembers : List (String × Value) → List (String × Octets)
  | [] => []
  | (name, v) :: rest => (name, v.print) :: Value.printMembers rest

end

end ImageBuild.Json
