import ComputeMarket.CommandLine

/-
This file writes what is shown in place of the output of a command that does not run.
-/

namespace ComputeMarket.CommandLine

def optionText (option : String × Field) : String := s!"[--{option.1} <{option.2}>]"

def wordText (field : Field) : String := s!"<{field}>"

/-- One command with the values that it takes. -/
def Leaf.summary (name : String) (leaf : Leaf) : String :=
  " ".intercalate (name :: leaf.words.map wordText ++ leaf.options.map optionText)

/-- The summaries of a command or of a group of commands. -/
def Entry.summaries (name : String) : Entry → List String
  | .leaf command => [command.summary name]
  | .group members => members.map fun member => member.2.summary s!"{name} {member.1}"

/-- Every command with the values that it takes, after the options of all commands. -/
def helpText : String :=
  let options := " ".intercalate (topLevel.options.map optionText)
  let commands := entries.flatMap fun entry => entry.2.summaries entry.1
  "\n".intercalate (s!"Usage: hypernode {options} <command>" :: "" :: "Commands:" ::
    commands.map ("  " ++ ·))

def versionText : String := "hypernode 0.1.0"

namespace Refusal

/-- What the user is told. -/
def text : Refusal → String
  | help | nothingGiven => helpText
  | version => versionText
  | missingCommand => "error: a command is required"
  | unknownCommand name => s!"error: unknown command '{name}'"
  | unknownArgument argument => s!"error: unexpected argument '{argument}'"
  | missingArgument => "error: a required argument is missing"
  | missingValue field => s!"error: a value is required for '{field}'"
  | invalidValue field text | rejectedValue field text =>
    s!"error: invalid value '{text}' for '{field}'"
  | givenTwice field => s!"error: '{field}' is given more than once"
  | unexpectedValue option => s!"error: '{option}' takes no value"

end Refusal

end ComputeMarket.CommandLine
