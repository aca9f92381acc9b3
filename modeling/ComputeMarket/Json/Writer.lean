import ComputeMarket.Json

/-
This file writes JSON values, on one line or indented.
-/

namespace ComputeMarket.Json

/-- Whether a text is written on one line or indented. -/
inductive Layout where
  | compact
  /-- A line for every item and member, two blanks deeper than their container. -/
  | indented
  deriving DecidableEq

namespace Layout

/-- What stands before an item at a depth. -/
def lineBreak : Layout → (depth : Nat) → List Char
  | compact, _ => []
  | indented, depth => '\n' :: List.replicate (2 * depth) ' '

/-- What stands between a member's name and its value. -/
def separator : Layout → List Char
  | compact => [':']
  | indented => [':', ' ']

end Layout

def hexLetter (digit : Nat) : Char := "0123456789abcdef".toList.getD digit '0'

/-- A character inside a string. Only quotes, backslashes and control characters are escaped. -/
def escape (character : Char) : List Char :=
  match character with
  | '"' => ['\\', '"']
  | '\\' => ['\\', '\\']
  | '\n' => ['\\', 'n']
  | '\r' => ['\\', 'r']
  | '\t' => ['\\', 't']
  | '\x08' => ['\\', 'b']
  | '\x0c' => ['\\', 'f']
  | _ =>
    let code := character.toNat
    if code < 0x20 then ['\\', 'u', '0', '0', hexLetter (code / 16), hexLetter (code % 16)]
    else [character]

/-- A string without a text is written as a surrogate that stands alone. -/
def stringChars : Option String → List Char
  | some text => '"' :: text.toList.flatMap escape ++ ['"']
  | none => "\"\\ud800\"".toList

/-- An integer with its sign, if it is negative. -/
def integerChars (value : Int) : List Char :=
  if value < 0 then '-' :: Nat.toDigits 10 value.natAbs else Nat.toDigits 10 value.natAbs

mutual

/-- The written form of a value that stands `depth` containers deep, in front of `rest`. -/
def charsOnto (layout : Layout) : (depth : Nat) → Json → (rest : List Char) → List Char
  | _, null, rest => 'n' :: 'u' :: 'l' :: 'l' :: rest
  | _, boolean true, rest => 't' :: 'r' :: 'u' :: 'e' :: rest
  | _, boolean false, rest => 'f' :: 'a' :: 'l' :: 's' :: 'e' :: rest
  | _, integer value, rest => integerChars value ++ rest
  | _, real true, rest => '-' :: '0' :: rest
  | _, real false, rest => '1' :: 'e' :: '9' :: '9' :: '9' :: rest
  | _, string text, rest => stringChars text ++ rest
  | _, array [], rest => '[' :: ']' :: rest
  | depth, array (first :: items), rest =>
    '[' :: (layout.lineBreak (depth + 1) ++
      charsOnto layout (depth + 1) first
        (itemsOnto layout (depth + 1) items (layout.lineBreak depth ++ ']' :: rest)))
  | _, object [], rest => '{' :: '}' :: rest
  | depth, object ((name, value) :: members), rest =>
    '{' :: (layout.lineBreak (depth + 1) ++
      (stringChars name ++ (layout.separator ++
        charsOnto layout (depth + 1) value
          (membersOnto layout (depth + 1) members (layout.lineBreak depth ++ '}' :: rest)))))

/-- The items after the first one, each after a comma. -/
def itemsOnto (layout : Layout) : (depth : Nat) → List Json → (rest : List Char) → List Char
  | _, [], rest => rest
  | depth, item :: items, rest =>
    ',' :: (layout.lineBreak depth ++
      charsOnto layout depth item (itemsOnto layout depth items rest))

/-- The members after the first one, each after a comma. -/
def membersOnto (layout : Layout) :
    (depth : Nat) → List (Option String × Json) → (rest : List Char) → List Char
  | _, [], rest => rest
  | depth, (name, value) :: members, rest =>
    ',' :: (layout.lineBreak depth ++ (stringChars name ++ (layout.separator ++
      charsOnto layout depth value (membersOnto layout depth members rest))))

end

def chars (layout : Layout) (json : Json) : List Char := charsOnto layout 0 json []

def text (layout : Layout) (json : Json) : String := String.ofList (json.chars layout)

end ComputeMarket.Json
