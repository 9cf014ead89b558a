/-!
# Values of a configuration file

A configuration file is a table of named values. An integer has 64 bits. Of points
in time and of numbers with a fraction only the kind is kept, since no setting holds
one.
-/

namespace ImageBuild.Toml

/-- A value of a configuration file. -/
inductive Value where
  | string (s : String)
  | integer (i : Int64)
  | bool (b : Bool)
  /-- a number with a fraction or an exponent -/
  | real
  /-- a date, a time of day, or both -/
  | moment
  | array (items : List Value)
  | table (entries : List (String × Value))

namespace Value

instance : Inhabited Value := ⟨.real⟩

def lookup (name : String) (entries : List (String × Value)) : Option Value :=
  (entries.find? (·.1 == name)).map (·.2)

/-- The fields of a record with these names. A record is a table, or an array
of its fields in order; a point in time has none of them. -/
def fields? (names : List String) : Value → Option (List (Option Value))
  | .table entries => some (names.map (lookup · entries))
  | .array items => some (names.mapIdx fun i _ => items[i]?)
  | .moment => some (names.map fun _ => none)
  | _ => none

def string? : Value → Option String
  | .string s => some s
  | _ => none

def bool? : Value → Option Bool
  | .bool b => some b
  | _ => none

def natural? : Value → Option Nat
  | .integer i => if 0 ≤ i.toInt then some i.toInt.toNat else none
  | _ => none

end Value
end ImageBuild.Toml
