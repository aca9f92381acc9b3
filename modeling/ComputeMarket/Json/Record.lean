import ComputeMarket.Json

/-
This file looks up the fields of a record in a JSON value.
-/

namespace ComputeMarket.Json

/-- The fields of a record in their order, each with its value if there is one. -/
structure Record where
  fields : List (String × Option Json)
  /-- Whether the record is an object, whose fields have names. -/
  isNamed : Bool

namespace Record

/-- The value of the only member with a name; no value if there is none, and no answer if
there are two. -/
def member? (name : String) (members : List (Option String × Json)) : Option (Option Json) :=
  match members.filter (·.1 = some name) with
  | [] => some none
  | [member] => some (some member.2)
  | _ => none

/-- A record is an object, whose members may stand in any order beside unknown ones, or an
array of the first fields in order. No field may be given twice. -/
def ofJson? (names : List String) : Json → Option Record
  | object members =>
    if members.all (·.1.isSome) then do
      let fields ← names.mapM fun name => (member? name members).map fun value => (name, value)
      return ⟨fields, true⟩
    else none
  | array items =>
    if items.length ≤ names.length then
      let values := items.map some ++ List.replicate (names.length - items.length) none
      some ⟨names.zip values, false⟩
    else none
  | _ => none

/-- The value of a field, if it is there. -/
def field (record : Record) (name : String) : Option Json :=
  (record.fields.lookup name).join

/-- A field that has to be there. -/
def required {α : Type} (record : Record) (name : String) (read : Json → Option α) : Option α := do
  read (← record.field name)

/-- A field that may be null, and that an object may leave out. -/
def optional {α : Type} (record : Record) (name : String) (read : Json → Option α) :
    Option (Option α) :=
  match record.field name with
  | none => if record.isNamed then some none else none
  | some null => some none
  | some value => (read value).map some

/-- A field that stands for `absent` when it is left out. -/
def withDefault {α : Type} (record : Record) (name : String) (absent : α)
    (read : Json → Option α) : Option α :=
  match record.field name with
  | none => some absent
  | some value => read value

end Record

/-- An object with one member that names its case, or an array that starts with the name.
Gives the name and the fields of the case. The other members are read only after the case is
known, so they have to be plain. -/
def tagged? (tag : String) : Json → Option (String × Json)
  | object members => do
    let .string (some name) ← (← Record.member? tag members) | none
    let others := members.filter (·.1 ≠ some tag)
    if membersArePlain 126 others then some (name, object others) else none
  | array (string (some name) :: items) =>
    if arePlain 126 items then some (name, array items) else none
  | _ => none

/-- A case without fields is its name, or an object of the name with null. -/
def case? : Json → Option String
  | string text => text
  | object [(name, null)] => name
  | _ => none

def text? : Json → Option String
  | string text => text
  | _ => none

def boolean? : Json → Option Bool
  | boolean value => some value
  | _ => none

def natural? : Json → Option Nat
  | integer value => if 0 ≤ value then some value.toNat else none
  | _ => none

def list? {α : Type} (read : Json → Option α) : Json → Option (List α)
  | array items => items.mapM read
  | _ => none

end ComputeMarket.Json
