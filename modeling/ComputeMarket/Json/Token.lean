import ComputeMarket.Json

/-
This file cuts a text into the tokens of JSON.
-/

namespace ComputeMarket.Json

/-- What the text of a value is cut into. -/
inductive Token where
  | openArray
  | closeArray
  | openObject
  | closeObject
  | comma
  | colon
  | null
  | boolean (value : Bool)
  | integer (value : Int)
  | real (inRange : Bool)
  | string (text : Option String)
  deriving DecidableEq

/-- JSON allows four characters between tokens. -/
def isBlank (character : Char) : Bool :=
  character == ' ' || character == '\t' || character == '\n' || character == '\r'

namespace Numeral

/-- The values of decimal digits. -/
def values (digits : List Char) : List Nat := digits.map fun digit => digit.toNat - 48

def digitsValue (digits : List Char) : Nat := Radix.value 10 (values digits)

/-- The digits after a point, none without a point. -/
def fraction? : List Char → Option (List Char × List Char)
  | '.' :: rest =>
    let digits := rest.takeWhile Char.isDigit
    if digits.isEmpty then none else some (digits, rest.dropWhile Char.isDigit)
  | rest => some ([], rest)

/-- The exponent that makes up the rest of a numeral, zero for an empty rest. -/
def exponent? : List Char → Option Int
  | [] => some 0
  | mark :: rest =>
    if mark = 'e' ∨ mark = 'E' then
      let (negative, digits) :=
        match rest with
        | '+' :: digits => (false, digits)
        | '-' :: digits => (true, digits)
        | digits => (false, digits)
      if digits.isEmpty || !digits.all Char.isDigit then none
      else some (if negative then -(digitsValue digits : Int) else digitsValue digits)
    else none

/-- Reads a numeral. Only one without point, exponent and signed zero is an integer. -/
def token? (text : List Char) : Option Token := do
  let (negative, unsigned) :=
    match text with
    | '-' :: rest => (true, rest)
    | rest => (false, rest)
  let whole := unsigned.takeWhile Char.isDigit
  let rest := unsigned.dropWhile Char.isDigit
  if whole.isEmpty || (whole.head? == some '0' && whole.length ≠ 1) then none
  else if rest.isEmpty then
    let magnitude := digitsValue whole
    if negative then
      some (if magnitude = 0 then .real true else .integer (-(magnitude : Int)))
    else some (.integer magnitude)
  else
    let (fraction, rest) ← fraction? rest
    let exponent ← exponent? rest
    some (.real (isDecimalFinite (values whole) (values fraction) exponent))

end Numeral

/-- Where an escape inside a string has got to. -/
inductive Escape where
  | outside
  | begun
  /-- Some digits of a character code have been read. -/
  | code (digits value : Nat)
  deriving DecidableEq

/-- A string that has not been closed. -/
structure OpenString where
  /-- The characters so far, last one first, unless a surrogate stood alone. -/
  text : Option (List Char)
  /-- A high surrogate that waits for its partner. -/
  high : Option Nat
  escape : Escape
  deriving DecidableEq

namespace OpenString

def empty : OpenString := ⟨some [], none, .outside⟩

/-- Adds a character. A surrogate that waited has then been left alone. -/
def push (state : OpenString) (character : Char) : OpenString :=
  ⟨if state.high.isSome then none else state.text.map (character :: ·), none, .outside⟩

/-- Adds a code unit of UTF-16. -/
def pushUnit (state : OpenString) (unit : Nat) : OpenString :=
  match state.high with
  | some high =>
    if 0xdc00 ≤ unit ∧ unit ≤ 0xdfff then
      let character := Char.ofNat (0x10000 + (high - 0xd800) * 0x400 + (unit - 0xdc00))
      ⟨state.text.map (character :: ·), none, .outside⟩
    else ⟨none, none, .outside⟩
  | none =>
    if 0xd800 ≤ unit ∧ unit ≤ 0xdbff then ⟨state.text, some unit, .outside⟩
    else if 0xdc00 ≤ unit ∧ unit ≤ 0xdfff then ⟨none, none, .outside⟩
    else state.push (Char.ofNat unit)

/-- The text of the finished string. -/
def finish (state : OpenString) : Option String :=
  if state.high.isSome then none
  else state.text.map fun characters => String.ofList characters.reverse

end OpenString

def hexDigit? (character : Char) : Option Nat :=
  if '0' ≤ character ∧ character ≤ '9' then some (character.toNat - 48)
  else if 'a' ≤ character ∧ character ≤ 'f' then some (character.toNat - 87)
  else if 'A' ≤ character ∧ character ≤ 'F' then some (character.toNat - 55)
  else none

/-- The character that a letter after a backslash stands for. -/
def escaped? (letter : Char) : Option Char :=
  match letter with
  | '"' => some '"'
  | '\\' => some '\\'
  | '/' => some '/'
  | 'b' => some '\x08'
  | 'f' => some '\x0c'
  | 'n' => some '\n'
  | 'r' => some '\r'
  | 't' => some '\t'
  | _ => none

/-- What a lexer is in the middle of. -/
inductive Mode where
  | between
  /-- A word or a numeral, last character first. -/
  | word (characters : List Char)
  | string (state : OpenString)
  deriving DecidableEq

/-- The tokens so far, the last one first, and what is being read. -/
structure Lexer where
  /-- The finished tokens, last one first. -/
  tokens : List Token
  mode : Mode
  deriving DecidableEq

/-- The characters of words and numerals. -/
def isWordCharacter (character : Char) : Bool :=
  character.isAlphanum || character == '+' || character == '-' || character == '.'

/-- The token that a word stands for, if it is one. -/
def wordToken? (word : List Char) : Option Token :=
  if word = ['n', 'u', 'l', 'l'] then some .null
  else if word = ['t', 'r', 'u', 'e'] then some (.boolean true)
  else if word = ['f', 'a', 'l', 's', 'e'] then some (.boolean false)
  else Numeral.token? word

namespace Lexer

def start : Lexer := ⟨[], .between⟩

/-- Reads a character between two tokens. -/
def begin (tokens : List Token) (character : Char) : Option Lexer :=
  match character with
  | '[' => some ⟨.openArray :: tokens, .between⟩
  | ']' => some ⟨.closeArray :: tokens, .between⟩
  | '{' => some ⟨.openObject :: tokens, .between⟩
  | '}' => some ⟨.closeObject :: tokens, .between⟩
  | ',' => some ⟨.comma :: tokens, .between⟩
  | ':' => some ⟨.colon :: tokens, .between⟩
  | '"' => some ⟨tokens, .string .empty⟩
  | _ =>
    if isBlank character then some ⟨tokens, .between⟩
    else if isWordCharacter character then some ⟨tokens, .word [character]⟩
    else none

/-- Reads a character inside a string. -/
def continueString (tokens : List Token) (state : OpenString) (character : Char) :
    Option Lexer :=
  match state.escape with
  | .outside =>
    if character = '"' then some ⟨.string state.finish :: tokens, .between⟩
    else if character = '\\' then some ⟨tokens, .string { state with escape := .begun }⟩
    else if character.toNat < 0x20 then none
    else some ⟨tokens, .string (state.push character)⟩
  | .begun =>
    if character = 'u' then some ⟨tokens, .string { state with escape := .code 0 0 }⟩
    else (escaped? character).map fun meant => ⟨tokens, .string (state.push meant)⟩
  | .code digits value =>
    (hexDigit? character).map fun digit =>
      let value := value * 16 + digit
      if digits = 3 then ⟨tokens, .string (state.pushUnit value)⟩
      else ⟨tokens, .string { state with escape := .code (digits + 1) value }⟩

/-- The lexer after one more character, if it can stand there. -/
def step (lexer : Lexer) (character : Char) : Option Lexer :=
  match lexer.mode with
  | .between => begin lexer.tokens character
  | .word characters =>
    if isWordCharacter character then
      some ⟨lexer.tokens, .word (character :: characters)⟩
    else do
      let token ← wordToken? characters.reverse
      begin (token :: lexer.tokens) character
  | .string state => continueString lexer.tokens state character

/-- The tokens at the end of the text. -/
def finish (lexer : Lexer) : Option (List Token) :=
  match lexer.mode with
  | .between => some lexer.tokens.reverse
  | .word characters =>
    (wordToken? characters.reverse).map fun token => (token :: lexer.tokens).reverse
  | .string _ => none

end Lexer

/-- The tokens of a text. -/
def tokens? (text : List Char) : Option (List Token) := do
  (← text.foldlM Lexer.step Lexer.start).finish

end ComputeMarket.Json
