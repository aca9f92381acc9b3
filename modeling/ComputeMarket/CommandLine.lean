import ComputeMarket.Command
import ComputeMarket.CommandLine.Scan

/-
This file defines the grammar of command lines and reads invocations from their arguments.
-/

namespace ComputeMarket

namespace CommandLine

/-- A command that takes values and no further command. -/
structure Leaf where
  options : List (String × Field) := []
  words : List Field := []
  /-- The command, if every value it requires is there. -/
  build? : Draft → Option Command

/-- What a name at the top level stands for. -/
inductive Entry where
  | leaf (leaf : Leaf)
  | group (members : List (String × Leaf))

def keygen : Leaf where
  build? _ := some .keygen

def deposit : Leaf where
  words := [.account, .amount]
  build? draft := do return .deposit (← draft.account) (← draft.amount)

def balance : Leaf where
  words := [.account]
  build? draft := do return .balance (← draft.account)

def createMarket : Leaf where
  options :=
    [("authority", .authority), ("price", .price), ("timeout", .timeout),
      ("min-stake", .minimumStake)]
  build? draft := do
    return .createMarket (← draft.authority)
      { price := ← draft.price
        timeout := draft.timeout.getD 3600
        minimumStake := draft.minimumStake.getD .zero }

def showMarket : Leaf where
  words := [.id]
  build? draft := do return .showMarket (← draft.id)

def listMarkets : Leaf where
  build? _ := some .listMarkets

def createJob : Leaf where
  options :=
    [("market", .market), ("client", .client), ("ipfs", .definition), ("min-vram", .vram),
      ("gpu", .gpu), ("id", .id)]
  build? draft := do
    return .createJob
      { market := ← draft.market
        client := ← draft.client
        definition := ← draft.definition
        vram := draft.vram.getD 0
        gpu := draft.gpu.getD .any
        id := draft.id }

def showJob : Leaf where
  words := [.id]
  build? draft := do return .showJob (← draft.id)

def listJobs : Leaf where
  words := [.market]
  build? draft := do return .listJobs (← draft.market)

def finishJob : Leaf where
  options := [("node", .node), ("result", .result)]
  words := [.id]
  build? draft := do return .finishJob (← draft.id) (← draft.node) (← draft.result)

def cancelJob : Leaf where
  options := [("client", .client)]
  words := [.id]
  build? draft := do return .cancelJob (← draft.id) (← draft.client)

def timeoutJob : Leaf where
  words := [.id]
  build? draft := do return .timeoutJob (← draft.id)

def listNode : Leaf where
  options := [("node", .node), ("stake", .stake)]
  words := [.market]
  build? draft := do
    return .listNode (← draft.market) (← draft.node) (draft.stake.getD .zero)

def delistNode : Leaf where
  options := [("node", .node)]
  words := [.market]
  build? draft := do return .delistNode (← draft.market) (← draft.node)

def showNode : Leaf where
  words := [.node]
  build? draft := do return .showNode (← draft.node)

def sweep : Leaf where
  words := [.market]
  build? draft := do return .sweep (← draft.market)

/-- The commands by name. -/
def entries : List (String × Entry) :=
  [("keygen", .leaf keygen),
    ("deposit", .leaf deposit),
    ("balance", .leaf balance),
    ("market", .group [("create", createMarket), ("show", showMarket), ("list", listMarkets)]),
    ("job", .group
      [("create", createJob), ("show", showJob), ("list", listJobs), ("finish", finishJob),
        ("cancel", cancelJob), ("timeout", timeoutJob)]),
    ("node", .group [("list", listNode), ("delist", delistNode), ("show", showNode)]),
    ("sweep", .leaf sweep)]

/-- Every level with commands has one more, which tells about the others. -/
def helpName : String := "help"

namespace Leaf

/-- What the reader of a command line has to know of the options and words of a command. -/
def level (leaf : Leaf) : Level where
  options := leaf.options
  words := leaf.words

/-- Reads the arguments after the name of the command. -/
def read (leaf : Leaf) (arguments : List String) : Except Refusal Command := do
  let (reading, _) ← (Reading.start leaf.level).scan leaf.level arguments
  let settled ← reading.settle
  match leaf.build? settled.draft with
  | some command => return command
  | none => throw .missingArgument

end Leaf

/-- What comes of asking for help on a command of a group. -/
def groupHelp (members : List (String × Leaf)) : List String → Refusal
  | [] => .help
  | [name] => if name = helpName ∨ (members.lookup name).isSome then .help else .unknownCommand name
  | name :: next :: _ =>
    if name = helpName ∨ (members.lookup name).isSome then .unknownCommand next
    else .unknownCommand name

/-- Reads the arguments after the name of a group. -/
def readGroup (members : List (String × Leaf)) (arguments : List String) :
    Except Refusal Command := do
  let level : Level := { commands := members.map Prod.fst ++ [helpName] }
  let (_, found) ← (Reading.start level).scan level arguments
  match found with
  | none => throw .nothingGiven
  | some (name, rest) =>
    match members.lookup name with
    | some leaf => leaf.read rest
    | none => throw (groupHelp members rest)

namespace Entry

def read (entry : Entry) (arguments : List String) : Except Refusal Command :=
  match entry with
  | .leaf command => command.read arguments
  | .group commands => readGroup commands arguments

end Entry

/-- What comes of asking for help at the top level. -/
def topHelp : List String → Refusal
  | [] => .help
  | name :: rest =>
    match entries.lookup name with
    | some (.group members) => groupHelp members rest
    | some (.leaf _) =>
      match rest with
      | [] => .help
      | next :: _ => .unknownCommand next
    | none =>
      if name = helpName then
        match rest with
        | [] => .help
        | next :: _ => .unknownCommand next
      else .unknownCommand name

/-- The options before the command, and the names of the commands. -/
def topLevel : Level where
  options := [("state", .state), ("config", .config), ("format", .format), ("now", .now)]
  letters := [('s', .state), ('c', .config), ('f', .format)]
  commands := entries.map Prod.fst ++ [helpName]
  hasVersion := true

def readCommand (name : String) (rest : List String) : Except Refusal Command :=
  match entries.lookup name with
  | some entry => entry.read rest
  | none => throw (topHelp rest)

/-- Takes the path of the ledger from the environment if the arguments do not give it. -/
def useEnvironment (ledger : Option String) (draft : Draft) : Except Refusal Draft :=
  match ledger with
  | some path => if draft.state.isSome then .ok draft else Field.state.give (some path) draft
  | none => .ok draft

end CommandLine

open CommandLine

/-- Reads an invocation from its arguments, and from the path that the environment gives for the
ledger. The options come before the command, and what is wrong after its name is found first. -/
def Invocation.ofArguments (ledger : Option String) (arguments : List String) :
    Except Refusal Invocation := do
  let (reading, found) ← (Reading.start topLevel).scan topLevel arguments
  let command ← found.mapM fun (name, rest) => readCommand name rest
  let settled ← reading.settle
  let draft ← useEnvironment ledger settled.draft
  match command with
  | none => throw (if draft = {} then .nothingGiven else .missingCommand)
  | some command =>
    return {
      ledger := draft.state.getD standardLedger
      config := draft.config
      style := draft.format.getD .table
      now := draft.now
      command }

end ComputeMarket
