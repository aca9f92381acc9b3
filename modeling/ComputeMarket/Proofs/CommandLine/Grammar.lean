import ComputeMarket.CommandLine
import ComputeMarket.Proofs.CommandLine.Scan

/-
This file proves that a command line that stands for an invocation is read as this invocation, and
that there is such a command line for each.
-/

namespace ComputeMarket

open CommandLine

/-- An option that is left out has its standard value. -/
theorem CommandLine.getD_of_standard {A : Type} {given : Option A} {value standard : A}
    (known : given = some value ∨ given = none ∧ standard = value) :
    given.getD standard = value := by
  obtain rfl | ⟨rfl, rfl⟩ := known <;> rfl

namespace Command

/-- How the values of a command are read. -/
def leaf : Command → Leaf
  | keygen => CommandLine.keygen
  | deposit .. => CommandLine.deposit
  | balance _ => CommandLine.balance
  | createMarket .. => CommandLine.createMarket
  | showMarket _ => CommandLine.showMarket
  | listMarkets => CommandLine.listMarkets
  | createJob _ => CommandLine.createJob
  | showJob _ => CommandLine.showJob
  | listJobs _ => CommandLine.listJobs
  | finishJob .. => CommandLine.finishJob
  | cancelJob .. => CommandLine.cancelJob
  | timeoutJob _ => CommandLine.timeoutJob
  | listNode .. => CommandLine.listNode
  | delistNode .. => CommandLine.delistNode
  | showNode _ => CommandLine.showNode
  | sweep _ => CommandLine.sweep

/-- The names of a command lead to what reads its values. -/
theorem readCommand_names (command : Command) (arguments : List String) :
    ∃ name rest, command.names ++ arguments = name :: rest ∧ name ∈ topLevel.commands ∧
      readCommand name rest = command.leaf.read arguments := by
  cases command <;> exact ⟨_, _, rfl, by decide +kernel, rfl⟩

/-- No option of a command has an equals sign or the name of a request. -/
theorem isPlain_level (command : Command) : command.leaf.level.IsPlain where
  options := by cases command <;> simp only [leaf] <;> decide +kernel
  commands := by cases command <;> exact List.forall_mem_nil _

/-- The words of a command are taken by the fields that they stand for. -/
theorem takes_words (command : Command) :
    List.Forall₂ (fun field value => field.Takes value ∧ value.IsWord) command.leaf.words
      command.words := by
  cases command with
  | keygen | createMarket | listMarkets | createJob => exact .nil
  | deposit account amount => exact .cons ⟨.account _, trivial⟩ (.cons ⟨.amount _, trivial⟩ .nil)
  | balance account => exact .cons ⟨.account _, trivial⟩ .nil
  | showMarket id | showJob id | finishJob id | cancelJob id | timeoutJob id =>
      exact .cons ⟨.id _, trivial⟩ .nil
  | listJobs market | listNode market | delistNode market | sweep market =>
      exact .cons ⟨.market _, trivial⟩ .nil
  | showNode node => exact .cons ⟨.node _, trivial⟩ .nil

/-- The options of a command are taken by the fields that they name. -/
theorem takes_options (command : Command) :
    ∀ choice ∈ command.choices, ∃ field,
      command.leaf.level.options.lookup choice.name = some field ∧ field.Takes choice.value := by
  cases command with
  | createMarket authority params =>
      simp only [choices, List.forall_mem_cons]
      exact ⟨⟨_, rfl, .authority _⟩, ⟨_, rfl, .price _⟩, ⟨_, rfl, .timeout _⟩,
        ⟨_, rfl, .minimumStake _⟩, List.forall_mem_nil _⟩
  | createJob order =>
      simp only [choices, List.forall_mem_append, List.forall_mem_cons, List.forall_mem_map]
      exact ⟨⟨⟨_, rfl, .market _⟩, ⟨_, rfl, .client _⟩, ⟨_, rfl, .definition _⟩,
        ⟨_, rfl, .vram _⟩, ⟨_, rfl, .gpu _⟩, List.forall_mem_nil _⟩, fun id _ => ⟨_, rfl, .id _⟩⟩
  | finishJob id node result =>
      simp only [choices, List.forall_mem_cons]
      exact ⟨⟨_, rfl, .node _⟩, ⟨_, rfl, .result _⟩, List.forall_mem_nil _⟩
  | cancelJob id client =>
      simp only [choices, List.forall_mem_cons]
      exact ⟨⟨_, rfl, .client _⟩, List.forall_mem_nil _⟩
  | listNode market node stake =>
      simp only [choices, List.forall_mem_cons]
      exact ⟨⟨_, rfl, .node _⟩, ⟨_, rfl, .stake _⟩, List.forall_mem_nil _⟩
  | delistNode market node =>
      simp only [choices, List.forall_mem_cons]
      exact ⟨⟨_, rfl, .node _⟩, List.forall_mem_nil _⟩
  | _ => exact List.forall_mem_nil _

/-- No two words or options of a command are for one field. -/
theorem nodup_targets (command : Command) :
    (command.leaf.level.targets command.leaf.words command.choices).Nodup := by
  cases command with
  | createMarket authority params =>
      change [Field.authority, .price, .timeout, .minimumStake].Nodup
      decide
  | createJob order =>
      obtain ⟨market, client, definition, vram, gpu, _ | id⟩ := order
      · change [Field.market, .client, .definition, .vram, .gpu].Nodup
        decide
      · change [Field.market, .client, .definition, .vram, .gpu, .id].Nodup
        decide
  | finishJob id node result =>
      change [Field.id, .node, .result].Nodup
      decide
  | cancelJob id client =>
      change [Field.id, .client].Nodup
      decide
  | listNode market node stake =>
      change [Field.market, .node, .stake].Nodup
      decide
  | delistNode market node =>
      change [Field.market, .node].Nodup
      decide
  | deposit account amount =>
      change [Field.account, .amount].Nodup
      decide
  | keygen | listMarkets => exact List.nodup_nil
  | _ => exact List.nodup_singleton _

/-- The values of a command fit the level that reads them. -/
theorem fits (command : Command) :
    command.leaf.level.Fits (fun _ => none) command.leaf.words command.words command.choices where
  words := command.takes_words
  options := command.takes_options
  distinct := command.nodup_targets
  absent _ _ := rfl

/-- A draft holds what command lines for the command give. -/
def GivenBy (command : Command) (draft : Draft) : Prop :=
  command.leaf.level.Gives (fun _ => none) draft.value? command.leaf.words command.words
    command.choices

variable {command : Command} {draft : Draft}

/-- A market is created on terms of which two have standard values. -/
theorem build?_createMarket {authority : Key} {params : MarketParams}
    (given : (createMarket authority params).GivenBy draft) :
    CommandLine.createMarket.build? draft = some (createMarket authority params) := by
  obtain ⟨givenAuthority, price, timeout, minimumStake⟩ :
      draft.authority = some authority ∧ draft.price = some params.price ∧
      (draft.timeout = some params.timeout ∨ draft.timeout = none ∧ 3600 = params.timeout) ∧
      (draft.minimumStake = some params.minimumStake ∨
        draft.minimumStake = none ∧ Stake.zero = params.minimumStake) := by
    simpa [leaf, CommandLine.createMarket, Leaf.level, choices, List.lookup_cons, Draft.value?]
      using given.options
  simp [CommandLine.createMarket, givenAuthority, price, getD_of_standard timeout,
    getD_of_standard minimumStake]

/-- The id of a new job is the one option that has no standard value and may be left out. -/
theorem id_of_createJob {order : JobOrder} (given : (createJob order).GivenBy draft) :
    draft.id = order.id := by
  have same : draft.id.map Value.key = order.id.map Value.key := by
    refine given.of_optional .id "id" rfl (fun id same => ?_) fun none => ?_
    · simp [choices, same]
    · simp [Level.targets, leaf, CommandLine.createJob, Leaf.level, choices, none,
        List.lookup_cons]
  exact Option.map_injective (fun _ _ => Value.key.inj) same

/-- A job is ordered with its definition and what it needs of a node. -/
theorem build?_createJob {order : JobOrder} (given : (createJob order).GivenBy draft) :
    CommandLine.createJob.build? draft = some (createJob order) := by
  obtain ⟨market, client, definition, vram, gpu, -⟩ :
      draft.market = some order.market ∧ draft.client = some order.client ∧
      draft.definition = some order.definition ∧
      (draft.vram = some order.vram ∨ draft.vram = none ∧ 0 = order.vram) ∧
      (draft.gpu = some order.gpu ∨ draft.gpu = none ∧ Gpu.any = order.gpu) ∧
      ∀ id, order.id = some id → draft.id = some id := by
    simpa [leaf, CommandLine.createJob, Leaf.level, choices, List.lookup_cons, Draft.value?]
      using given.options
  simp [CommandLine.createJob, market, client, definition, getD_of_standard vram,
    getD_of_standard gpu, id_of_createJob given]

/-- A result is handed in with the job as its word. -/
theorem build?_finishJob {id node : Key} {result : Digest}
    (given : (finishJob id node result).GivenBy draft) :
    CommandLine.finishJob.build? draft = some (finishJob id node result) := by
  have job : draft.id = some id := by
    simpa [leaf, CommandLine.finishJob, Command.words, Draft.value?] using given.words
  have chosen : draft.node = some node ∧ draft.result = some result := by
    simpa [leaf, CommandLine.finishJob, Leaf.level, choices, List.lookup_cons, Draft.value?]
      using given.options
  simp [CommandLine.finishJob, job, chosen]

/-- A job is cancelled with the job as its word. -/
theorem build?_cancelJob {id client : Key} (given : (cancelJob id client).GivenBy draft) :
    CommandLine.cancelJob.build? draft = some (cancelJob id client) := by
  have job : draft.id = some id := by
    simpa [leaf, CommandLine.cancelJob, Command.words, Draft.value?] using given.words
  have chosen : draft.client = some client := by
    simpa [leaf, CommandLine.cancelJob, Leaf.level, choices, List.lookup_cons, Draft.value?]
      using given.options
  simp [CommandLine.cancelJob, job, chosen]

/-- A node is listed with the market as its word, and with a stake that is zero by standard. -/
theorem build?_listNode {market node : Key} {stake : Stake}
    (given : (listNode market node stake).GivenBy draft) :
    CommandLine.listNode.build? draft = some (listNode market node stake) := by
  have host : draft.market = some market := by
    simpa [leaf, CommandLine.listNode, Command.words, Draft.value?] using given.words
  obtain ⟨chosen, held⟩ : draft.node = some node ∧
      (draft.stake = some stake ∨ draft.stake = none ∧ Stake.zero = stake) := by
    simpa [leaf, CommandLine.listNode, Leaf.level, choices, List.lookup_cons, Draft.value?]
      using given.options
  simp [CommandLine.listNode, host, chosen, getD_of_standard held]

/-- A node is delisted with the market as its word. -/
theorem build?_delistNode {market node : Key} (given : (delistNode market node).GivenBy draft) :
    CommandLine.delistNode.build? draft = some (delistNode market node) := by
  have host : draft.market = some market := by
    simpa [leaf, CommandLine.delistNode, Command.words, Draft.value?] using given.words
  have chosen : draft.node = some node := by
    simpa [leaf, CommandLine.delistNode, Leaf.level, choices, List.lookup_cons, Draft.value?]
      using given.options
  simp [CommandLine.delistNode, host, chosen]

/-- What a command line for a command gives is made into this command. -/
theorem build?_of_given (given : command.GivenBy draft) :
    command.leaf.build? draft = some command := by
  have words := given.words
  cases command with
  | keygen | listMarkets => rfl
  | createMarket authority params => exact build?_createMarket given
  | createJob order => exact build?_createJob given
  | finishJob id node result => exact build?_finishJob given
  | cancelJob id client => exact build?_cancelJob given
  | listNode market node stake => exact build?_listNode given
  | delistNode market node => exact build?_delistNode given
  -- The others have nothing but words.
  | deposit account amount =>
      have paid : draft.account = some account ∧ draft.amount = some amount := by
        simpa [leaf, CommandLine.deposit, Command.words, Draft.value?] using words
      simp [leaf, CommandLine.deposit, paid]
  | balance account =>
      have asked : draft.account = some account := by
        simpa [leaf, CommandLine.balance, Command.words, Draft.value?] using words
      simp [leaf, CommandLine.balance, asked]
  | showMarket id | showJob id | timeoutJob id =>
      have named : draft.id = some id := by
        simpa [leaf, CommandLine.showMarket, CommandLine.showJob, CommandLine.timeoutJob,
          Command.words, Draft.value?] using words
      simp [leaf, CommandLine.showMarket, CommandLine.showJob, CommandLine.timeoutJob, named]
  | listJobs market | sweep market =>
      have host : draft.market = some market := by
        simpa [leaf, CommandLine.listJobs, CommandLine.sweep, Command.words, Draft.value?]
          using words
      simp [leaf, CommandLine.listJobs, CommandLine.sweep, host]
  | showNode node =>
      have asked : draft.node = some node := by
        simpa [leaf, CommandLine.showNode, Command.words, Draft.value?] using words
      simp [leaf, CommandLine.showNode, asked]

/-- Written values are read as the command that they are the values of. -/
theorem read_written {arguments : List String}
    (written : Written command.words command.choices arguments) :
    command.leaf.read arguments = .ok command := by
  obtain ⟨next, after, scanned, shows, gives⟩ :=
    Reading.scan_written command.isPlain_level written (.inr rfl) command.fits
      (Reading.shows_start command.leaf.level) []
  obtain ⟨draft, settled, rfl⟩ := shows.settle
  rw [List.append_nil] at scanned
  simp only [Leaf.read, scanned, Reading.scan, settled, build?_of_given gives, bind, Except.bind]
  rfl

end Command

namespace Invocation

/-- No option before the commands has an equals sign or the name of a request, and no command begins
with a dash. -/
theorem isPlain_topLevel : topLevel.IsPlain where
  options := by decide +kernel
  commands := by decide +kernel

/-- The options before the command fit the level that reads them. -/
theorem fits (invocation : Invocation) :
    topLevel.Fits (fun _ => none) [] [] invocation.choices where
  words := .nil
  options := by
    simp only [choices, List.forall_mem_append, List.forall_mem_cons, List.forall_mem_map]
    exact ⟨⟨⟨⟨_, rfl, .state _⟩, ⟨_, rfl, .format _⟩, List.forall_mem_nil _⟩,
      fun path _ => ⟨_, rfl, .config _⟩⟩, fun now _ => ⟨_, rfl, .now _⟩⟩
  distinct := by
    obtain ⟨ledger, _ | path, style, _ | now, command⟩ := invocation
    · change [Field.state, .format].Nodup
      decide
    · change [Field.state, .format, .now].Nodup
      decide
    · change [Field.state, .format, .config].Nodup
      decide
    · change [Field.state, .format, .config, .now].Nodup
      decide
  absent _ _ := rfl

variable {invocation : Invocation} {draft : Draft} {arguments : List String}

/-- What the options before the command give is what the invocation has. -/
theorem draft_of_gives (gives : topLevel.Gives (fun _ => none) draft.value? [] []
    invocation.choices) :
    draft.state.getD standardLedger = invocation.ledger ∧ draft.config = invocation.config ∧
      draft.format.getD .table = invocation.style ∧ draft.now = invocation.now := by
  have state : draft.state = some invocation.ledger ∨
      draft.state = none ∧ standardLedger = invocation.ledger := by
    simpa [Draft.value?] using gives.options
      { name := "state", value := .path invocation.ledger, standard := some (.path standardLedger) }
      (by simp [choices, standardLedger]) .state rfl
  have style : draft.format = some invocation.style ∨
      draft.format = none ∧ Style.table = invocation.style := by
    simpa [Draft.value?] using gives.options
      { name := "format", value := .style invocation.style, standard := some (.style .table) }
      (by simp [choices]) .format rfl
  have config : draft.config.map Value.path = invocation.config.map Value.path := by
    refine gives.of_optional .config "config" rfl (fun path same => ?_) fun none => ?_
    · simp [choices, same]
    · simp [Level.targets, choices, none, topLevel, List.lookup_cons]
  have now : draft.now.map Value.seconds = invocation.now.map Value.seconds := by
    refine gives.of_optional .now "now" rfl (fun time same => ?_) fun none => ?_
    · simp [choices, same]
    · simp [Level.targets, choices, none, topLevel, List.lookup_cons]
  exact ⟨getD_of_standard state, Option.map_injective (fun _ _ => Value.path.inj) config,
    getD_of_standard style, Option.map_injective (fun _ _ => Value.seconds.inj) now⟩

/-- Written arguments are read as the invocation that they stand for. -/
theorem ofArguments_of_writtenAs (written : invocation.WrittenAs arguments) :
    ofArguments none arguments = .ok invocation := by
  obtain ⟨options, rest, rfl, writtenOptions, writtenRest⟩ := written
  obtain ⟨name, others, named, known, read⟩ := invocation.command.readCommand_names rest
  rw [Command.read_written writtenRest] at read
  obtain ⟨next, after, scanned, shows, gives⟩ :=
    Reading.scan_written isPlain_topLevel writtenOptions (.inl rfl) invocation.fits
      (Reading.shows_start topLevel) (name :: others)
  obtain ⟨draft, settled, rfl⟩ := shows.settle
  have met : next.meetsCommand topLevel name = true := by
    simp [Reading.meetsCommand, shows.onlyWords, shows.isAwaiting, known]
  rw [List.append_assoc, named, ofArguments, scanned, Reading.scan, if_pos met]
  obtain ⟨ledger, config, style, now⟩ := draft_of_gives gives
  simp only [bind, Except.bind, Option.mapM_some, read, settled, useEnvironment, ledger, config,
    style, now]
  rfl

/-- Every invocation with paths that are not empty is written by some arguments. -/
theorem exists_writtenAs (ledger : invocation.ledger ≠ "") (config : invocation.config ≠ some "") :
    ∃ arguments, invocation.WrittenAs arguments := by
  obtain ⟨options, writtenOptions⟩ : ∃ options, Written [] invocation.choices options := by
    refine exists_written (List.forall_mem_nil _) fun choice member => ?_
    simp only [choices, List.mem_append, List.mem_cons, List.not_mem_nil, or_false, List.mem_map,
      Option.mem_toList] at member
    obtain ((rfl | rfl) | ⟨path, given, rfl⟩) | ⟨now, -, rfl⟩ := member
    · exact fun empty => ledger (Value.path.inj empty)
    · exact Value.noConfusion
    · exact fun empty => config (given.trans (congrArg some (Value.path.inj empty)))
    · exact Value.noConfusion
  obtain ⟨rest, writtenRest⟩ :=
    exists_written (invocation.command.words_ne_path "") (invocation.command.choices_ne_path "")
  exact ⟨_, options, rest, rfl, writtenOptions, writtenRest⟩

/-- An invocation is read from each of the command lines that stand for it, whatever the order of
its options, however its values are spelled and whichever options are left out that hold without
it. Unless one of its paths is empty there is such a command line. -/
theorem read_as_written :
    (∀ (invocation : Invocation) (arguments : List String), invocation.WrittenAs arguments →
      ofArguments none arguments = .ok invocation) ∧
    ∀ invocation : Invocation, invocation.ledger ≠ "" → invocation.config ≠ some "" →
      ∃ arguments, invocation.WrittenAs arguments :=
  ⟨fun _ _ => ofArguments_of_writtenAs, fun _ => exists_writtenAs⟩

/-- A negative time, an option before the word and one behind it, digits of either case, and no path
of a ledger. -/
theorem read_as_written_mixed :
    let result : Digest := ⟨Word.ofBytes (List.replicate 32 0xab)⟩
    let invocation : Invocation :=
      { style := .json
        now := some (-5)
        command := .finishJob (Key.ofBytes [1]) (Key.ofBytes [2]) result }
    let digits := String.ofList (List.replicate 32 ['A', 'b']).flatten
    let arguments := ["--now=-5", "--format=json", "job", "finish", "--result=" ++ digits,
      "11111111111111111111111111111112", "--node=11111111111111111111111111111113"]
    invocation.WrittenAs arguments ∧ ofArguments none arguments = .ok invocation ∧
      invocation.ledger ≠ "" ∧ invocation.config ≠ some "" ∧
      ∃ others, invocation.WrittenAs others := by
  intro result invocation digits arguments
  have options : Written [] invocation.choices ["--now=-5", "--format=json"] := by
    refine .option [_, _] _ "-5" rfl ?_
    refine .option [_] _ "json" rfl (.done ?_)
    simp [invocation, standardLedger]
  have spelled : digits.toLower = result.text := by decide +kernel
  have first : (Value.key (Key.ofBytes [1])).SpelledBy "11111111111111111111111111111112" := by
    change "11111111111111111111111111111112" = (Key.ofBytes [1]).text
    decide +kernel
  have second : (Value.key (Key.ofBytes [2])).SpelledBy "11111111111111111111111111111113" := by
    change "11111111111111111111111111111113" = (Key.ofBytes [2]).text
    decide +kernel
  have rest : Written invocation.command.words invocation.command.choices ["--result=" ++ digits,
      "11111111111111111111111111111112", "--node=11111111111111111111111111111113"] :=
    .option [_] _ digits spelled <| .word first <|
      .option [] _ "11111111111111111111111111111113" second <| .done (List.forall_mem_nil _)
  have written : invocation.WrittenAs arguments := ⟨_, _, rfl, options, rest⟩
  exact ⟨written, read_as_written.1 _ _ written, by decide, by decide,
    read_as_written.2 invocation (by decide) (by decide)⟩

end Invocation

end ComputeMarket
