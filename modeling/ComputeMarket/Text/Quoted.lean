/-
This file writes a single character between quotes, as error messages show it.
-/

namespace ComputeMarket.Text

/-- The letter that follows the backslash for a character with a short escape. -/
def shortEscape? (character : Char) : Option Char :=
  match character.toNat with
  | 0x00 => some '0'
  | 0x09 => some 't'
  | 0x0a => some 'n'
  | 0x0d => some 'r'
  | 0x22 => some '"'
  | 0x27 => some '\x27'
  | 0x5c => some '\\'
  | _ => none

/-- The characters below 256 that leave no mark of their own: control characters,
the no-break space and the soft hyphen. -/
def isInvisible (character : Char) : Bool :=
  let code := character.toNat
  code < 0x20 || (0x7f ≤ code && code ≤ 0xa0) || code == 0xad

/-- A character below 256 between single quotes. Inside single quotes the double quote
stands for itself. -/
def quoted (character : Char) : String :=
  let body :=
    if character = '"' then "\""
    else match shortEscape? character with
      | some letter => "\\" ++ letter.toString
      | none =>
        if isInvisible character then
          "\\u\x7b" ++ String.ofList (Nat.toDigits 16 character.toNat) ++ "\x7d"
        else character.toString
  "'" ++ body ++ "'"

end ComputeMarket.Text
