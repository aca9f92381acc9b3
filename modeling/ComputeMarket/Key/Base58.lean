import ComputeMarket.Key
import ComputeMarket.Text.Quoted

/-
This file writes keys in base 58 and reads them back.
-/

namespace ComputeMarket

namespace Base58

/-- The digits of base 58: no zero, no capital I or O, no small l. -/
def alphabet : List Char :=
  "123456789ABCDEFGHJKLMNPQRSTUVWXYZabcdefghijkmnopqrstuvwxyz".toList

def letter (digit : Nat) : Char := alphabet.getD digit '1'

def digit? (character : Char) : Option Nat := alphabet.idxOf? character

/-- Each leading zero byte is written as a leading `1`; the rest is the number in base 58.
Two digits of base 58 exceed a byte, so twice the length is wide enough. -/
def encode (octets : List Nat) : List Char :=
  let zeros := (octets.takeWhile (· == 0)).length
  List.replicate zeros '1' ++
    (Radix.numeral 58 (2 * octets.length) (Radix.value 256 octets)).map letter

/-- Each leading `1` is a zero byte; the rest is the number without leading zero bytes. -/
def decode (digits : List Nat) : List Nat :=
  let zeros := (digits.takeWhile (· == 0)).length
  List.replicate zeros 0 ++ Radix.numeral 256 digits.length (Radix.value 58 digits)

end Base58

namespace Key

/-- Why a text is not a key. -/
inductive TextError where
  | invalidCharacter (character : Char) (position : Nat)
  | nonAsciiCharacter (position : Nat)
  | wrongLength (length : Nat)
  deriving DecidableEq

/-- The digits of a text from `position` on, or the first character that is no digit. -/
def digitsOfText : (position : Nat) → List Char → Except TextError (List Nat)
  | _, [] => .ok []
  | position, character :: rest =>
    match Base58.digit? character with
    | some digit => (digitsOfText (position + 1) rest).map (digit :: ·)
    | none =>
      if character.toNat < 128 then .error (.invalidCharacter character position)
      else .error (.nonAsciiCharacter position)

/-- Reads a key from characters. -/
def ofChars (text : List Char) : Except TextError Key := do
  let digits ← digitsOfText 0 text
  let octets := Base58.decode digits
  if octets.length = 32 then
    return ⟨Word.ofNumber (Radix.value 256 octets)⟩
  else
    throw (.wrongLength octets.length)

/-- Reads a key from its text. -/
def ofText (text : String) : Except TextError Key := ofChars text.toList

def chars (key : Key) : List Char := Base58.encode key.word.octets

def text (key : Key) : String := String.ofList key.chars

/-- The first eight characters of the written key. -/
def shortText (key : Key) : String := String.ofList (key.chars.take 8)

instance : ToString Key := ⟨text⟩

/-- The wording for a text that is no key. -/
def TextError.message : TextError → String
  | .invalidCharacter character position =>
    "invalid pubkey: provided string contained invalid character " ++ Text.quoted character ++
      " at byte " ++ toString position
  | .nonAsciiCharacter position =>
    s!"invalid pubkey: provided string contained non-ascii character starting at byte {position}"
  | .wrongLength length => s!"invalid pubkey: expected 32 bytes, got {length}"

end Key

end ComputeMarket
