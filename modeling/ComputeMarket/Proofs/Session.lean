import ComputeMarket.Proofs.Command
import ComputeMarket.Proofs.Directory

/-
This file proves that command lines, each of which reads the ledger file and writes it again, do
together what the calls behind them do on one store that stays in memory.
-/

namespace ComputeMarket

/-- What a program ends with. Zero stands for success. -/
def Outcome.exitCode : Outcome → UInt8
  | .refused refusal => refusal.exitCode
  | .failed _ => 1
  | .done .. => 0

/-- A command line of a session that begins with given files: it leads to the ledger file and to
the configuration of the session, it gives the time, and it leaves no key to be made up. -/
structure Launch (start : Directory) (name : String) (config : Config) where
  surroundings : Surroundings
  arguments : List String
  invocation : Invocation
  now : Int64
  spelled : Invocation.ofArguments surroundings.ledger arguments = .ok invocation
  located : start.locate invocation.ledger = .ok (.file name)
  configured : Config.load start.read invocation.config = .ok config
  timed : invocation.now = some now
  determined : invocation.command.NeedsNoKey

/-- A store that stays in memory, and its snapshot after the last operation that succeeded. -/
structure Memory where
  store : Store
  saved : Option Snapshot := none

variable {start files : Directory} {name path : String} {config : Config} {store : Store}
  {memory : Memory}

namespace Memory

/-- Makes the call behind a command. -/
def serve (memory : Memory) (now : Int64) (command : Command) : Memory :=
  let after := (memory.store.consult now command).2
  { store := after
    saved :=
      if command.operation?.isSome && memory.store.grants now command then some after.snapshot
      else memory.saved }

end Memory

namespace Launch

def command (launch : Launch start name config) : Command := launch.invocation.command

/-- The outcome of the program and the files that it leaves. -/
def run (launch : Launch start name config) (files : Directory) : Outcome × Directory :=
  files.run launch.surroundings launch.arguments

/-- The files after some command lines. -/
def filesAfter (launches : List (Launch start name config)) : Directory :=
  launches.foldl (fun files launch => (launch.run files).2) start

/-- The memory after the calls behind some command lines. -/
def memoryAfter (store : Store) (launches : List (Launch start name config)) : Memory :=
  launches.foldl (fun memory launch => memory.serve launch.now launch.command) { store }

end Launch

/-- What an invocation writes comes to stand in the file that its path leads to. -/
theorem Directory.perform_of_locate {invocation : Invocation} {time : Int64} {fresh : Key}
    {effect : Effect} (located : files.locate invocation.ledger = .ok (.file name))
    (performed : invocation.perform files.read time fresh = .ok effect) :
    files.perform invocation time fresh =
      .ok (effect.output, effect.ledger.elim files (files.insert name)) := by
  obtain ⟨output, ledger⟩ := effect
  unfold perform
  rw [performed]
  cases ledger with
  | none => rfl
  | some text =>
      dsimp only [bind, Except.bind]
      rw [write_of_locate located]
      rfl

/-- A store is read back from the text of its snapshot, all but the events that wait. -/
theorem Store.load_of_snapshot {read : Reader} (sound : store.Sound)
    (configured : store.config = config) (written : read path = .ok store.snapshot.text) :
    Store.load read config path = .ok { store with events := [] } := by
  have restored := Store.restore_snapshot sound
  unfold Store.load
  rw [written, ← configured]
  dsimp only
  rw [Snapshot.ofText?_text]
  dsimp only
  rw [restored]
  rfl

/-- A configuration is found as before where its file is read as before. -/
theorem Config.load_of_kept {before after : Reader} {choice : Option String}
    (kept : ∀ path text, choice = some path → before path = .ok text → after path = .ok text)
    (configured : Config.load before choice = .ok config) :
    Config.load after choice = .ok config := by
  cases choice with
  | none => exact configured
  | some path =>
      unfold Config.load at configured ⊢
      dsimp only at configured ⊢
      cases read : before path with
      | error fault =>
          rw [read] at configured
          cases configured
      | ok text =>
          rw [read] at configured
          rw [kept path text rfl read]
          exact configured

/-- The files of a session hold what the memory holds: the ledger file is the last snapshot, which
is still what the store looks like, and no other file has changed. -/
structure Mirrors (start : Directory) (name : String) (config : Config) (files : Directory)
    (memory : Memory) : Prop where
  sound : memory.store.Sound
  configured : memory.store.config = config
  ledger : files.get? name = memory.saved.map Snapshot.text
  current : ∀ snapshot, memory.saved = some snapshot → snapshot = memory.store.snapshot
  unsaved : memory.saved = none → memory.store = Store.empty config
  others : ∀ other, other ≠ name → files.get? other = start.get? other

namespace Mirrors

variable (mirrors : Mirrors start name config files memory)

include mirrors

/-- The store is read back from the ledger file, all but the events that wait. -/
theorem load (located : start.locate path = .ok (.file name)) :
    Store.load files.read config path = .ok { memory.store with events := [] } := by
  have valid : config.validate = .ok () := by
    rw [← mirrors.configured]
    exact mirrors.sound.valid
  have there := Directory.locate_same located files
  cases saved : memory.saved with
  | none =>
      have read := Directory.read_of_locate there
      rw [mirrors.ledger, saved] at read
      have missing : files.read path = .error .missing := read
      have absence : FileFault.missing.isAbsence = true := rfl
      unfold Store.load
      rw [missing, mirrors.unsaved saved]
      dsimp only
      rw [if_pos absence]
      unfold Store.new
      rw [valid]
      rfl
  | some snapshot =>
      apply Store.load_of_snapshot mirrors.sound mirrors.configured
      rw [Directory.read_of_locate there, mirrors.ledger, saved, mirrors.current snapshot saved]
      rfl

/-- The configuration is found as at the start: its file is not the ledger file, which was not
there. -/
theorem loadConfig (absent : start.get? name = none) {choice : Option String}
    (configured : Config.load start.read choice = .ok config) :
    Config.load files.read choice = .ok config := by
  refine Config.load_of_kept ?_ configured
  intro path text _ read
  obtain ⟨other, located, found⟩ := Directory.read_eq_ok.1 read
  have different : other ≠ name := by
    intro same
    rw [same, absent] at found
    cases found
  apply Directory.read_eq_ok.2
  exact ⟨other, Directory.locate_same located files, (mirrors.others other different).trans found⟩

/-- The command is carried out on the store that stays in memory, but for the events that wait. -/
theorem perform (absent : start.get? name = none) (launch : Launch start name config)
    (time : Int64) (fresh : Key) :
    launch.invocation.perform files.read time fresh =
      match launch.command.perform launch.now fresh { memory.store with events := [] } with
      | .ok report after =>
        .ok ⟨report.render launch.invocation.style,
          if launch.command.mutates then some after.snapshot.text else none⟩
      | .error failure _ => .error failure := by
  have acts : launch.invocation.command ≠ .keygen := by
    intro same
    have determined := launch.determined
    rw [same] at determined
    exact determined
  unfold Invocation.perform
  dsimp only
  rw [if_neg acts, mirrors.loadConfig absent launch.configured]
  change (do
    let store ← Store.load files.read config launch.invocation.ledger
    match launch.command.perform (launch.invocation.now.getD time) fresh store with
    | .ok report after =>
      return ⟨report.render launch.invocation.style,
        if launch.command.mutates then some after.snapshot.text else none⟩
    | .error failure _ => throw failure : Except Failure Effect) = _
  rw [mirrors.load launch.located, launch.timed]
  rfl

/-- A command line reports what the call behind its command has to report, and it writes the
snapshot after an operation. Where the call has nothing to report it fails. -/
theorem run (absent : start.get? name = none) (launch : Launch start name config) :
    match memory.store.consult launch.now launch.command with
    | (some report, after) =>
      launch.run files =
        (.done launch.command (report.render launch.invocation.style),
          if launch.command.mutates then files.insert name after.snapshot.text else files)
    | (none, _) => ∃ failure, launch.run files = (.failed failure, files) := by
  -- the store that was read back is the one in memory without its events, which no call looks at
  have whole : Store.withPast memory.store.events { memory.store with events := [] } =
      memory.store := by
    unfold Store.withPast
    rw [List.append_nil]
  have called := Store.consult_withPast memory.store.events { memory.store with events := [] }
    launch.now launch.command
  rw [whole] at called
  rw [called]
  have determined : launch.command.NeedsNoKey := launch.determined
  have matched := Command.perform_matches mirrors.sound.forgetEvents determined launch.now
    launch.surroundings.fresh
  have performed := mirrors.perform absent launch launch.surroundings.time launch.surroundings.fresh
  have located := Directory.locate_same launch.located files
  unfold Launch.run Directory.run
  rw [launch.spelled]
  dsimp only
  generalize Store.consult _ launch.now launch.command = call at matched
  obtain ⟨report, after⟩ := call
  unfold Run.Matches EStateM.run at matched
  cases report with
  | none =>
      obtain ⟨failure, failed⟩ := matched
      rw [failed] at performed
      refine ⟨failure, ?_⟩
      unfold Directory.perform
      rw [performed]
      rfl
  | some report =>
      dsimp only at matched
      rw [matched] at performed
      rw [Directory.perform_of_locate located performed]
      cases launch.command.mutates <;> rfl

/-- A command line ends with the report of the call, or without success where there is none. -/
theorem outcome (absent : start.get? name = none) (launch : Launch start name config) :
    (∃ report, (memory.store.consult launch.now launch.command).1 = some report ∧
      (launch.run files).1 = .done launch.command (report.render launch.invocation.style)) ∨
      ((memory.store.consult launch.now launch.command).1 = none ∧
        (launch.run files).1.exitCode ≠ 0) := by
  have ran := mirrors.run absent launch
  generalize memory.store.consult launch.now launch.command = call at ran
  obtain ⟨report, after⟩ := call
  cases report with
  | some report => exact .inl ⟨report, rfl, congrArg Prod.fst ran⟩
  | none =>
      obtain ⟨failure, failed⟩ := ran
      have positive : (1 : UInt8) ≠ 0 := by decide
      rw [failed]
      exact .inr ⟨rfl, positive⟩

/-- What one command line can do: it changes neither the files nor the memory, or it writes the
snapshot that the store in memory has after the operation. -/
theorem run_cases (absent : start.get? name = none) (launch : Launch start name config) :
    ((launch.run files).2 = files ∧ memory.serve launch.now launch.command = memory) ∨
      ∃ report after, memory.store.consult launch.now launch.command = (some report, after) ∧
        launch.command.mutates = true ∧
        (launch.run files).2 = files.insert name after.snapshot.text ∧
        memory.serve launch.now launch.command = ⟨after, some after.snapshot⟩ := by
  have ran := mirrors.run absent launch
  have determined : launch.command.NeedsNoKey := launch.determined
  have operates := Command.mutates_eq determined
  have kept (idle : launch.command.operation? = none ∨
      (memory.store.consult launch.now launch.command).1 = none) := mirrors.sound.consult_kept idle
  unfold Memory.serve
  rw [← operates, ← mirrors.sound.isSome_consult determined]
  generalize memory.store.consult launch.now launch.command = call at ran kept
  obtain ⟨report, after⟩ := call
  cases report with
  | none =>
      obtain ⟨failure, failed⟩ := ran
      have same : after = memory.store := kept (.inr rfl)
      refine .inl ⟨by rw [failed], ?_⟩
      dsimp only
      rw [same, Option.isSome_none, Bool.and_false]
      rfl
  | some report =>
      dsimp only at ran ⊢
      rw [ran, Option.isSome_some, Bool.and_true]
      cases mutates : launch.command.mutates with
      | true => exact .inr ⟨report, after, rfl, rfl, rfl, rfl⟩
      | false =>
          rw [mutates] at operates
          have asked : launch.command.operation? = none :=
            Option.not_isSome_iff_eq_none.1 (Bool.eq_false_iff.1 operates.symm)
          have same : after = memory.store := kept (.inl asked)
          rw [same]
          exact .inl ⟨rfl, rfl⟩

/-- Every command line keeps the files and the memory alike. -/
theorem serve (absent : start.get? name = none) (launch : Launch start name config) :
    Mirrors start name config (launch.run files).2 (memory.serve launch.now launch.command) := by
  obtain ⟨sameFiles, sameMemory⟩ | ⟨report, after, called, -, written, served⟩ :=
    mirrors.run_cases absent launch
  · rw [sameFiles, sameMemory]
    exact mirrors
  · have sound := mirrors.sound.consult launch.now launch.command
    have configured := mirrors.sound.config_consult launch.now launch.command
    rw [called] at sound configured
    rw [written, served]
    refine ⟨sound, configured.trans mirrors.configured, ?_, ?_, ?_, ?_⟩
    · rw [Directory.get?_insert, if_pos rfl]
      rfl
    · intro snapshot saved
      exact (Option.some.inj saved).symm
    · intro unsaved
      cases unsaved
    · intro other different
      rw [Directory.get?_insert, if_neg (Ne.symm different)]
      exact mirrors.others other different

/-- Whatever command lines a session has, the files and the memory stay alike. -/
theorem after (absent : start.get? name = none) (launches : List (Launch start name config)) :
    Mirrors start name config
      (launches.foldl (fun files launch => (launch.run files).2) files)
      (launches.foldl (fun memory launch => memory.serve launch.now launch.command) memory) := by
  induction launches generalizing files memory with
  | nil => exact mirrors
  | cons launch rest inductionHypothesis => exact inductionHypothesis (mirrors.serve absent launch)

end Mirrors

/-- At the start nothing is saved, and the store is empty. -/
theorem Mirrors.initial (opened : Store.new config = .ok store) (absent : start.get? name = none) :
    Mirrors start name config start { store } := by
  have sound := Store.sound_of_new opened
  obtain ⟨-, same⟩ := Guard.unit_bind_eq_ok.1 opened
  cases same
  exact ⟨sound, rfl, absent, fun _ saved => (nomatch saved), fun _ => rfl, fun _ _ => rfl⟩

/-- A command line on files does as the call behind its command does on a store in memory. -/
structure Launch.Refines (launch : Launch start name config) (files : Directory)
    (memory : Memory) : Prop where
  /-- The program ends with success exactly when the call succeeds. -/
  exits : (launch.run files).1.exitCode = 0 ↔ memory.store.grants launch.now launch.command = true
  /-- Then it prints what the call has to report. -/
  prints : memory.store.grants launch.now launch.command = true →
    ∃ report, (memory.store.consult launch.now launch.command).1 = some report ∧
      (launch.run files).1 =
        .done launch.command (report.render launch.invocation.style)
  /-- The ledger file is the snapshot after the last operation that succeeded, if one did. -/
  ledger : (launch.run files).2.get? name =
    (memory.serve launch.now launch.command).saved.map Snapshot.text
  /-- That is also what the store looks like now. -/
  current : ∀ snapshot, (memory.serve launch.now launch.command).saved = some snapshot →
    snapshot = (memory.serve launch.now launch.command).store.snapshot
  /-- A question changes nothing, and neither does a command that fails. -/
  keeps : launch.command.mutates = false ∨ (launch.run files).1.exitCode ≠ 0 →
    (launch.run files).2 = files ∧ memory.serve launch.now launch.command = memory
  /-- No other file changes. -/
  others : ∀ other, other ≠ name → (launch.run files).2.get? other = start.get? other

/-- While files and memory are alike, a command line does as the call behind its command. -/
theorem Mirrors.refines (mirrors : Mirrors start name config files memory)
    (absent : start.get? name = none) (launch : Launch start name config) :
    launch.Refines files memory := by
  have next := mirrors.serve absent launch
  have granted : (memory.store.consult launch.now launch.command).1.isSome =
      memory.store.grants launch.now launch.command :=
    mirrors.sound.isSome_consult launch.determined
  have outcome := mirrors.outcome absent launch
  refine ⟨?_, ?_, next.ledger, next.current, ?_, next.others⟩
  · rw [← granted]
    obtain ⟨report, called, done⟩ | ⟨called, failed⟩ := outcome
    · rw [called, done]
      exact iff_of_true rfl rfl
    · rw [called]
      exact iff_of_false failed Bool.false_ne_true
  · intro grants
    obtain told | ⟨called, -⟩ := outcome
    · exact told
    · rw [← granted, called] at grants
      cases grants
  · intro idle
    obtain same | ⟨report, after, called, mutates, -, -⟩ := mirrors.run_cases absent launch
    · exact same
    · obtain question | failed := idle
      · rw [mutates] at question
        cases question
      · obtain ⟨_, _, done⟩ | ⟨silent, -⟩ := outcome
        · rw [done] at failed
          exact absurd rfl failed
        · rw [called] at silent
          cases silent

/-- For every session on a ledger file that is not there at first, and every command line of it:
the command line does as the call behind its command does on the store that began empty and on
which the calls behind the earlier command lines were made. -/
theorem session_refines_memory (opened : Store.new config = .ok store)
    (absent : start.get? name = none) (earlier : List (Launch start name config))
    (launch : Launch start name config) :
    launch.Refines (Launch.filesAfter earlier) (Launch.memoryAfter store earlier) :=
  ((Mirrors.initial opened absent).after absent earlier).refines absent launch

/-- Files with a configuration that lets two entries wait in a queue. -/
def home : Directory := ⟨[("config.json", "\x7b\"max_queue_len\": 2\x7d")]⟩

/-- The configuration in the file at home. -/
def homeConfig : Config := { capacity := .ofNat 2 }

/-- A command line that works on the ledger at home. -/
def errand (now : Int64) (words : List String) (style : Style) (command : Command)
    (spelled : Invocation.ofArguments none (["-s", "./ledger.json", "-c", "config.json"] ++ words) =
      .ok ⟨"./ledger.json", some "config.json", style, some now, command⟩)
    (determined : command.NeedsNoKey) : Launch home "ledger.json" homeConfig where
  surroundings := { time := 0, fresh := default }
  arguments := ["-s", "./ledger.json", "-c", "config.json"] ++ words
  invocation := ⟨"./ledger.json", some "config.json", style, some now, command⟩
  now := now
  spelled := spelled
  located := show home.locate "./ledger.json" = .ok (.file "ledger.json") by decide +kernel
  configured := show Config.load home.read (some "config.json") = .ok homeConfig by decide +kernel
  timed := rfl
  determined := determined

/-- A market opens, a payment comes in, and a job is looked for in vain. -/
def errands : List (Launch home "ledger.json" homeConfig) :=
  [errand 100 ["--now", "100", "market", "create", "--authority",
      "11111111111111111111111111111111", "--price", "2"] .table
    (.createMarket default ⟨.ofTokens 2, 3600, .zero⟩) (by decide +kernel) trivial,
   errand 105 ["--now=105", "deposit", "11111111111111111111111111111111", "3"] .table
    (.deposit default (.ofTokens 3)) (by decide +kernel) trivial,
   errand 90 ["--format", "json", "--now", "90", "job", "show",
      "11111111111111111111111111111111"] .json
    (.showJob default) (by decide +kernel) trivial]

/-- The markets are asked for. -/
def inquiry : Launch home "ledger.json" homeConfig :=
  errand 110 ["--now", "110", "-f", "json", "market", "list"] .json .listMarkets
    (by decide +kernel) trivial

/-- After three command lines the inquiry finds the one market that they opened. -/
theorem session_refines_memory_errands :
    Store.new homeConfig = .ok (.empty homeConfig) ∧ home.get? "ledger.json" = none ∧
    inquiry.Refines (Launch.filesAfter errands) (Launch.memoryAfter (.empty homeConfig) errands) ∧
    (inquiry.run (Launch.filesAfter errands)).1.exitCode = 0 ∧
    (Launch.memoryAfter (.empty homeConfig) errands).saved.map (·.markets.length) = some 1 := by
  have opened : Store.new homeConfig = .ok (.empty homeConfig) := rfl
  have absent : home.get? "ledger.json" = none := by decide +kernel
  have refines := session_refines_memory opened absent errands inquiry
  have opens : (Launch.memoryAfter (.empty homeConfig) errands).saved.map (·.markets.length) =
      some 1 := by
    decide +kernel
  exact ⟨opened, absent, refines, refines.exits.2 rfl, opens⟩

end ComputeMarket
