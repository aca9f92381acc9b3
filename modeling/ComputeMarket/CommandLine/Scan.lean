import ComputeMarket.CommandLine.Field

/-
This file reads the arguments of one level of a command line, up to the name of a command
of the next level.
-/

namespace ComputeMarket.CommandLine

/-- What an argument looks like. -/
inductive Form where
  /-- Two dashes alone, after which no argument is an option. -/
  | separator
  /-- A name after two dashes, with a value if an equals sign follows it. -/
  | long (name : String) (value : Option String)
  /-- A letter after one dash, with the text that follows it. -/
  | short (letter : Char) (attached : String)
  | word
  deriving DecidableEq

/-- The form of an argument, by its first characters. -/
def Form.ofChars : List Char → Form
  | ['-', '-'] => .separator
  | '-' :: '-' :: body =>
    let name := String.ofList (body.takeWhile (· ≠ '='))
    match body.dropWhile (· ≠ '=') with
    | [] => .long name none
    | _ :: value => .long name (some (String.ofList value))
  | '-' :: letter :: attached => .short letter (String.ofList attached)
  | _ => .word

/-- What one level of a command line accepts. -/
structure Level where
  /-- The options by their long names. -/
  options : List (String × Field) := []
  /-- The options that have a letter. -/
  letters : List (Char × Field) := []
  /-- The fields of the words that are no options, in order. -/
  words : List Field := []
  /-- The names of the commands of the next level. -/
  commands : List String := []
  /-- Whether the version can be asked for here. -/
  hasVersion : Bool := false

/-- How far the reading of a level has come. -/
structure Reading where
  draft : Draft := {}
  /-- The last field named, with its text if that has come. Its text is not yet looked at. -/
  pending : Option (Field × Option String) := none
  /-- The fields that words are still to come for. -/
  words : List Field
  /-- Whether the separator has come. -/
  onlyWords : Bool := false
  deriving DecidableEq

namespace Reading

def start (level : Level) : Reading where
  words := level.words

/-- Gives the pending field its text. -/
def settle (reading : Reading) : Except Refusal Reading :=
  match reading.pending with
  | none => .ok reading
  | some (field, text) =>
    (field.give text reading.draft).map fun draft => { reading with draft, pending := none }

/-- Whether the next word belongs to an option. -/
def isAwaiting (reading : Reading) : Bool :=
  match reading.pending with
  | some (_, none) => true
  | _ => false

/-- Takes an option. A value written in the same argument is looked at at once. -/
def takeOption (reading : Reading) (field : Field) (value : Option String) :
    Except Refusal Reading := do
  let settled ← reading.settle
  match value with
  | none => return { settled with pending := some (field, none) }
  | some _ => return { settled with draft := ← field.give value settled.draft }

/-- Stops for a request, unless the pending field has a fault. -/
def takeRequest (reading : Reading) (request : Refusal) : Except Refusal Reading := do
  let _ ← reading.settle
  throw request

/-- Takes an option with a long name. -/
def takeLong (level : Level) (name : String) (value : Option String) (reading : Reading) :
    Except Refusal Reading :=
  let request? : Option Refusal :=
    if name = "help" then some .help
    else if name = "version" ∧ level.hasVersion then some .version
    else none
  match request?, value with
  | some _, some _ => .error (.unexpectedValue name)
  | some request, none => reading.takeRequest request
  | none, _ =>
    match level.options.lookup name with
    | some field => reading.takeOption field value
    | none => .error (.unknownArgument ("--" ++ name))

/-- The value in the same argument as a letter. An equals sign before it is not part of it. -/
def attachedValue (attached : String) : Option String :=
  match attached.toList with
  | [] => none
  | '=' :: value => some (String.ofList value)
  | _ => some attached

def takeShort (level : Level) (letter : Char) (attached : String) (reading : Reading) :
    Except Refusal Reading :=
  if letter = 'h' then reading.takeRequest .help
  else if letter = 'V' ∧ level.hasVersion then reading.takeRequest .version
  else
    match level.letters.lookup letter with
    | some field => reading.takeOption field (attachedValue attached)
    | none => .error (.unknownArgument ("-" ++ letter.toString))

/-- Takes a word that belongs to no option. -/
def takeWord (level : Level) (word : String) (reading : Reading) : Except Refusal Reading :=
  match reading.words with
  | field :: words =>
    reading.settle.map fun settled => { settled with pending := some (field, some word), words }
  | [] =>
    if level.commands.isEmpty ∨ (reading.onlyWords ∧ word ∈ level.commands) then
      .error (.unknownArgument word)
    else .error (.unknownCommand word)

/-- Takes one argument that names no command. -/
def take (level : Level) (argument : String) (reading : Reading) : Except Refusal Reading :=
  if reading.onlyWords then reading.takeWord level argument
  else
    match Form.ofChars argument.toList with
    | .separator => .ok { reading with onlyWords := true }
    | .long name value => reading.takeLong level name value
    | .short letter attached => reading.takeShort level letter attached
    | .word =>
      match reading.pending with
      | some (field, none) => .ok { reading with pending := some (field, some argument) }
      | _ => reading.takeWord level argument

/-- Whether an argument names a command here. -/
def meetsCommand (level : Level) (argument : String) (reading : Reading) : Bool :=
  !reading.onlyWords && !reading.isAwaiting && level.commands.contains argument

/-- Reads arguments up to the first that names a command, and reports the command with the
arguments after it. -/
def scan (level : Level) :
    List String → Reading → Except Refusal (Reading × Option (String × List String))
  | [], reading => .ok (reading, none)
  | argument :: rest, reading =>
    if reading.meetsCommand level argument then .ok (reading, some (argument, rest))
    else
      match reading.take level argument with
      | .ok next => scan level rest next
      | .error refusal => .error refusal

end Reading

end ComputeMarket.CommandLine
