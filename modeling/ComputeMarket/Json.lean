import ComputeMarket.Json.Range

/-
This file defines JSON values as far as the forms of the ledger tell them apart.
-/

namespace ComputeMarket

/-- A JSON value. A string or member name whose escapes leave a surrogate without its partner
spells no text. -/
inductive Json where
  | null
  | boolean (value : Bool)
  | integer (value : Int)
  /-- A number with a point, an exponent or a signed zero. The ledger holds none, so only
  whether a 64-bit float could hold it is kept. -/
  | real (inRange : Bool)
  | string (text : Option String)
  | array (items : List Json)
  | object (members : List (Option String × Json))

namespace Json

instance : Inhabited Json := ⟨null⟩

mutual

/-- Whether a value can be set aside before its type is known: every string spells a text, every
number is in range, and containers nest at most `room` deep. -/
def isPlain : (room : Nat) → Json → Bool
  | _, null => true
  | _, boolean _ => true
  | _, integer value => isIntegerFinite value.natAbs
  | _, real inRange => inRange
  | _, string text => text.isSome
  | 0, array _ => false
  | room + 1, array items => arePlain room items
  | 0, object _ => false
  | room + 1, object members => membersArePlain room members

/-- Whether all items are plain. -/
def arePlain : (room : Nat) → List Json → Bool
  | _, [] => true
  | room, first :: rest => isPlain room first && arePlain room rest

/-- Whether all members have a name and a plain value. -/
def membersArePlain : (room : Nat) → List (Option String × Json) → Bool
  | _, [] => true
  | room, (name, value) :: rest =>
    name.isSome && isPlain room value && membersArePlain room rest

end

end Json

end ComputeMarket
