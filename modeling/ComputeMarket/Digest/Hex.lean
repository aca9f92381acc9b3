import ComputeMarket.Digest
import ComputeMarket.Text.Quoted

/-
This file writes digests in hexadecimal and reads them back.
-/

namespace ComputeMarket

namespace Hex

def letter (digit : Nat) : Char := "0123456789abcdef".toList.getD digit '0'

def digit? (character : Char) : Option Nat :=
  if '0' ≤ character ∧ character ≤ '9' then some (character.toNat - 48)
  else if 'a' ≤ character ∧ character ≤ 'f' then some (character.toNat - 87)
  else if 'A' ≤ character ∧ character ≤ 'F' then some (character.toNat - 55)
  else none

/-- The first byte of the UTF-8 form of a character. -/
def leadByte (character : Char) : Nat :=
  let code := character.toNat
  if code < 0x80 then code
  else if code < 0x800 then 0xc0 + code / 0x40
  else if code < 0x10000 then 0xe0 + code / 0x1000
  else 0xf0 + code / 0x40000

end Hex

namespace Digest

/-- Why a text is not a digest. -/
inductive TextError where
  | wrongLength (length : Nat)
  | invalidByte (byte : Nat) (position : Nat) (text : String)
  deriving DecidableEq

/-- The digits of a text from `position` on, or the first byte that is no digit. -/
def digitsOfText (text : String) :
    (position : Nat) → List Char → Except TextError (List Nat)
  | _, [] => .ok []
  | position, character :: rest =>
    match Hex.digit? character with
    | some digit => (digitsOfText text (position + 1) rest).map (digit :: ·)
    | none => .error (.invalidByte (Hex.leadByte character) position text)

/-- A digest is written as 64 bytes, each a hexadecimal digit of either case. -/
def ofText (text : String) : Except TextError Digest := do
  if text.utf8ByteSize ≠ 64 then throw (.wrongLength text.utf8ByteSize)
  let digits ← digitsOfText text 0 text.toList
  return ⟨Word.ofNumber (Radix.value 16 digits)⟩

def chars (digest : Digest) : List Char :=
  (Radix.digits 16 64 digest.word.number).map Hex.letter

def text (digest : Digest) : String := String.ofList digest.chars

instance : ToString Digest := ⟨text⟩

/-- An offending byte is shown as the character of the same number. -/
def TextError.message : TextError → String
  | .wrongLength length => s!"invalid content hash: expected 64 hex characters, got {length}"
  | .invalidByte byte position text =>
    "invalid content hash: Invalid character " ++ Text.quoted (Char.ofNat byte) ++
      " at position " ++ toString position ++ ": " ++ text

end Digest

end ComputeMarket
