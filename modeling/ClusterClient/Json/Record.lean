import ClusterClient.Json.Value
/-!
# Records

A record with named fields is written either as an object, members in any order and members of
other names passed over, or as an array of its fields in order, from which fields at the end may be
left out.
-/

namespace ClusterClient.Json

inductive Form where
  | named
  | positional
  deriving DecidableEq, Repr

/-- The members of an object under the texts of their names. -/
def namedMembers? (members : List (List Nat × Json)) : Option (List (String × Json)) :=
  members.mapM fun (name, value) => (unitsText? name).map (·, value)

def valuesOf (name : String) (members : List (String × Json)) : List Json :=
  (members.filter (·.1 == name)).map (·.2)

/-- The value of a field that is written at most once. -/
def field? (members : List (String × Json)) (name : String) : Option (Option Json) :=
  match valuesOf name members with
  | [] => some none
  | [value] => some (some value)
  | _ => none

/-- The fields of a record in the order of `names`, with `none` for those that are left out. -/
def record? (names : List String) : Json → Option (Form × List (Option Json))
  | object members => do
    let named ← namedMembers? members
    let fields ← names.mapM (field? named)
    some (.named, fields)
  | array items =>
    if items.length ≤ names.length then
      some (.positional, items.map some ++ List.replicate (names.length - items.length) none)
    else none
  | _ => none

/-- A field that takes a default where it is left out. -/
def orDefault? {α : Type} (default : α) (read : Json → Option α) : Option Json → Option α
  | none => some default
  | some j => read j

/-- A field that may not be left out. -/
def required? {α : Type} (read : Json → Option α) (field : Option Json) : Option α :=
  field.bind read

end ClusterClient.Json
