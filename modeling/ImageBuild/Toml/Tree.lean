import ImageBuild.Toml.Value

/-!
# Assembling tables

A file names the same table in several ways: by a header, by the header of a
table inside it, or by the dots of a key. `Node` remembers which one made a
table, because a table may be completed only in the way it was begun.
-/

namespace ImageBuild.Toml

/-- A value, a table, or a series of tables with one name. -/
inductive Node where
  | leaf (v : Value)
  /-- A table. It is implied if no header has named it, and dotted if the dots
  of a key made it. -/
  | branch (implied dotted : Bool) (entries : List (String × Node))
  /-- The tables of a series, the last one first. -/
  | series (tables : List (List (String × Node)))

/-- The entries of a table under construction. -/
abbrev Entries := List (String × Node)

namespace Entries

def lookup (name : String) (es : Entries) : Option Node :=
  (es.find? (·.1 == name)).map (·.2)

def remove (name : String) (es : Entries) : Entries :=
  es.filter (·.1 != name)

/-- The entries with this node under a name, new or instead of another. -/
def put (name : String) (n : Node) (es : Entries) : Entries :=
  match es with
  | [] => [(name, n)]
  | e :: rest => if e.1 == name then (name, n) :: rest else e :: put name n rest

/-- Changes the table at the end of a path. Missing tables are made, and the
last table of a series stands for the series. A dotted path may not enter a
table that a header has named. -/
def descend {β : Type} (dotted : Bool) (f : Bool → Entries → Option (Entries × β)) :
    List String → Bool → Entries → Option (Entries × β)
  | [], isDotted, es => f isDotted es
  | name :: path, _, es =>
    match lookup name es with
    | none =>
      (descend dotted f path dotted []).map fun (sub, b) =>
        (put name (.branch true dotted sub) es, b)
    | some (.leaf _) => none
    | some (.series []) => none
    | some (.series (t :: ts)) =>
      (descend dotted f path false t).map fun (sub, b) => (put name (.series (sub :: ts)) es, b)
    | some (.branch implied isDotted sub) =>
      if dotted && !implied then none
      else
        (descend dotted f path isDotted sub).map fun (sub, b) =>
          (put name (.branch implied isDotted sub) es, b)

/-- Adds a value under a dotted key whose last part is `name`. The table that
takes it has to be the current one, or one that dots have made. -/
def insertPair (path : List String) (name : String) (v : Value) (es : Entries) :
    Option Entries :=
  (descend true (fun isDotted sub =>
    if isDotted == path.isEmpty then none
    else if (lookup name sub).isSome then none
    else some (sub ++ [(name, .leaf v)], ())) path false es).map (·.1)

end Entries

mutual

def Node.value : Node → Value
  | .leaf v => v
  | .branch _ _ entries => .table (Node.entries entries)
  | .series tables => .array (Node.tables tables).reverse

def Node.entries : List (String × Node) → List (String × Value)
  | [] => []
  | (name, n) :: rest => (name, n.value) :: Node.entries rest

def Node.tables : List (List (String × Node)) → List Value
  | [] => []
  | t :: rest => .table (Node.entries t) :: Node.tables rest

end

/-- A statement of a file: a value under a dotted key, or the header of a
table or of the next table of a series. The last part of a path stands apart. -/
inductive Statement where
  | pair (path : List String) (name : String) (v : Value)
  | header (path : List String) (name : String)
  | seriesHeader (path : List String) (name : String)

/-- The tables that are complete, and the one that statements are added to,
with its path unless it is the root. -/
structure Draft where
  root : Entries := []
  place : Option (List String × String × Bool) := none
  current : Entries := []

namespace Draft

/-- Puts the current table in its place. -/
def close (d : Draft) : Option Entries :=
  match d.place with
  | none => some d.current
  | some (path, name, true) =>
    (Entries.descend false (fun _ es =>
      match es.lookup name with
      | none => some (es.put name (.series [d.current]), ())
      | some (.series ts) => some (es.put name (.series (d.current :: ts)), ())
      | some _ => none) path false d.root).map (·.1)
  | some (path, name, false) =>
    (Entries.descend false (fun _ es =>
      match es.lookup name with
      | none => some (es.put name (.branch false false d.current), ())
      | some _ => none) path false d.root).map (·.1)

def push (d : Draft) : Statement → Option Draft
  | .pair path name v => (d.current.insertPair path name v).map fun es => { d with current := es }
  | .header path name => do
    let root ← d.close
    let (root, current) ← Entries.descend false (fun _ es =>
      match es.lookup name with
      | none => some (es, [])
      | some (.branch true false sub) => some (es.remove name, sub)
      | some _ => none) path false root
    return ⟨root, some (path, name, false), current⟩
  | .seriesHeader path name => do
    let root ← d.close
    let (root, _) ← Entries.descend false (fun _ es =>
      match es.lookup name with
      | none => some (es, ())
      | some (.series _) => some (es, ())
      | some _ => none) path false root
    return ⟨root, some (path, name, true), []⟩

end Draft

/-- The table that statements describe, if they do not contradict each other. -/
def assemble? (ss : List Statement) : Option (List (String × Value)) := do
  let d ← ss.foldlM Draft.push {}
  let root ← d.close
  return Node.entries root

end ImageBuild.Toml
