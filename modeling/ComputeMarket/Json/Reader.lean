import ComputeMarket.Json.Token

/-
This file reads JSON values from their tokens.
-/

namespace ComputeMarket.Json

/-- A container that has not been closed, with what came before, last first. -/
inductive Frame where
  | array (before : List Json)
  /-- The name belongs to the member that comes next. -/
  | object (before : List (Option String × Json)) (name : Option String)

/-- What a reader waits for inside the open containers, innermost first. -/
inductive Reader where
  | atValue (frames : List Frame)
  | atFirstItem (frames : List Frame)
  | atFirstName (frames : List Frame)
  | atName (before : List (Option String × Json)) (frames : List Frame)
  | atColon (before : List (Option String × Json)) (name : Option String) (frames : List Frame)
  /-- A value is finished, and a comma or the end of its container comes next. -/
  | finished (value : Json) (frames : List Frame)

namespace Reader

/-- Reads the first token of a value. -/
def beginValue (frames : List Frame) : Token → Option Reader
  | .openArray => some (atFirstItem frames)
  | .openObject => some (atFirstName frames)
  | .null => some (finished .null frames)
  | .boolean value => some (finished (.boolean value) frames)
  | .integer value => some (finished (.integer value) frames)
  | .real inRange => some (finished (.real inRange) frames)
  | .string text => some (finished (.string text) frames)
  | _ => none

/-- Reads the token after a finished value. -/
def afterValue (value : Json) : List Frame → Token → Option Reader
  | .array before :: frames, .comma => some (atValue (.array (value :: before) :: frames))
  | .array before :: frames, .closeArray =>
    some (finished (.array (value :: before).reverse) frames)
  | .object before name :: frames, .comma => some (atName ((name, value) :: before) frames)
  | .object before name :: frames, .closeObject =>
    some (finished (.object ((name, value) :: before).reverse) frames)
  | _, _ => none

/-- The reader after one more token, if it can stand there. -/
def step : Reader → Token → Option Reader
  | atValue frames, token => beginValue frames token
  | atFirstItem frames, .closeArray => some (finished (.array []) frames)
  | atFirstItem frames, token => beginValue (.array [] :: frames) token
  | atFirstName frames, .closeObject => some (finished (.object []) frames)
  | atFirstName frames, .string text => some (atColon [] text frames)
  | atName before frames, .string text => some (atColon before text frames)
  | atColon before name frames, .colon => some (atValue (.object before name :: frames))
  | finished value frames, token => afterValue value frames token
  | _, _ => none

end Reader

/-- The value that the tokens spell, if it is one value. -/
def ofTokens? (tokens : List Token) : Option Json := do
  match ← tokens.foldlM Reader.step (Reader.atValue []) with
  | .finished value [] => some value
  | _ => none

/-- The value that the whole text spells. -/
def ofChars? (text : List Char) : Option Json := do
  ofTokens? (← tokens? text)

/-- The value that a text stands for, if it does for one. -/
def ofText? (text : String) : Option Json := ofChars? text.toList

end ComputeMarket.Json
