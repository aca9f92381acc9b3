import ComputeMarket.Amount
import ComputeMarket.Text.Numeral

/-
This file writes amounts as decimal numbers of whole tokens and reads them back.
-/

namespace ComputeMarket

namespace Text

/-- The characters with the Unicode property White_Space. -/
def isBlank (character : Char) : Bool :=
  let code := character.toNat
  (0x09 ≤ code && code ≤ 0x0d) || code == 0x20 || code == 0x85 || code == 0xa0 ||
  code == 0x1680 || (0x2000 ≤ code && code ≤ 0x200a) || code == 0x2028 || code == 0x2029 ||
  code == 0x202f || code == 0x205f || code == 0x3000

/-- The text without the white space at its two ends. -/
def trim (text : List Char) : List Char :=
  ((text.dropWhile isBlank).reverse.dropWhile isBlank).reverse

end Text

namespace Amount

/-- Why a text is not an amount. The texts in it carry no white space at their ends. -/
inductive TextError where
  | negative
  | malformed (text : String)
  | tooPrecise
  | wholePart (text : String)
  | fractionalPart (text : String)
  | overflow
  deriving DecidableEq

/-- The text before the first point and the text after it. -/
def splitAtPoint (text : List Char) : List Char × List Char :=
  (text.takeWhile (· ≠ '.'), (text.dropWhile (· ≠ '.')).drop 1)

/-- The number of bytes of a text in UTF-8. -/
def byteLength (text : List Char) : Nat := (String.ofList text).utf8ByteSize

/-- The fractional part in base units, filled up with zeros on the right to six characters. -/
def fraction? (text : List Char) : Option Nat :=
  if text.isEmpty then some 0
  else Text.unsigned? (text ++ List.replicate (6 - text.length) '0')

/-- Reads the part before the point, which may be empty. -/
def whole? (text : List Char) : Option Nat :=
  if text.isEmpty then some 0
  else (Text.unsigned? text).filter (· < 0x10000000000000000)

/-- Reads a decimal number of whole tokens with at most six places. Either part may be empty. -/
def ofChars (given : List Char) : Except TextError Amount := do
  let text := Text.trim given
  if text.head? = some '-' then throw .negative
  let (whole, fraction) := splitAtPoint text
  if fraction.contains '.' then throw (.malformed (String.ofList text))
  if byteLength fraction > 6 then throw .tooPrecise
  let some tokens := whole? whole | throw (.wholePart (String.ofList text))
  let some rest := fraction? fraction | throw (.fractionalPart (String.ofList text))
  let some amount := ofBase? (tokens * 1000000 + rest) | throw .overflow
  return amount

/-- Reads an amount from its text. -/
def ofText (text : String) : Except TextError Amount := ofChars text.toList

/-- The amount in whole tokens with all six places. -/
def decimal (amount : Amount) : List Char :=
  Nat.toDigits 10 amount.tokens ++ '.' :: Text.paddedNumeral 6 (amount.base % 1000000)

/-- The amount with its unit. -/
def text (amount : Amount) : String := String.ofList amount.decimal ++ " HYPER"

instance : ToString Amount := ⟨text⟩

/-- The wording for a text that is no amount. -/
def TextError.message : TextError → String
  | .negative => "invalid amount: negative values not allowed"
  | .malformed text => s!"invalid amount: invalid format: {text}"
  | .tooPrecise => "invalid amount: too many decimal places"
  | .wholePart text => s!"invalid amount: invalid whole part: {text}"
  | .fractionalPart text => s!"invalid amount: invalid fractional part: {text}"
  | .overflow => "invalid amount: overflow"

end Amount

end ComputeMarket
