import ImageBuild.Text.Shortest

/-!
# JSON values

The payload of an auxiliary message can be any JSON value. A number is an
integer of 64 bits, signed or not, or a floating-point number. The members
of an object stand in ascending order of their names.
-/

namespace ImageBuild.Json

/-- An integer that fits 64 bits, with or without a sign. -/
structure Whole where
  toInt : Int
  lower : -0x8000000000000000 ≤ toInt := by omega
  upper : toInt ≤ 0xFFFFFFFFFFFFFFFF := by omega
  deriving DecidableEq

inductive Number where
  | whole (n : Whole)
  | real (x : Text.Double)
  deriving DecidableEq

inductive Value where
  | null
  | bool (b : Bool)
  | number (n : Number)
  | string (s : String)
  | array (items : List Value)
  | object (members : List (String × Value))

namespace Value

instance : Inhabited Value := ⟨.null⟩

def get? (name : String) : Value → Option Value
  | .object members => (members.find? (·.1 == name)).map (·.2)
  | _ => none

def asString? : Value → Option String
  | .string s => some s
  | _ => none

end Value
end ImageBuild.Json
