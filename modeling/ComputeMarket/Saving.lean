import Std.Data.ExtTreeMap
import ComputeMarket.Session

/-
This file defines how a ledger file is saved, one step after the other: a new file is made beside
its place, is filled, and is moved there. A step that fails does not undo the steps before it.
-/

namespace ComputeMarket

/-- The place that holds the file which a path names. A path without a name holds it here. -/
def Directory.parent (directory : Directory) (path : String) : Except WriteFault Place :=
  let steps := (parts path.toList).filter fun part => !isIdle part
  if steps.isEmpty then .ok .here
  else
    let start : Place := if path.toList.head? = some '/' then .above else .here
    match directory.follow start steps.dropLast with
    | .ok (.file name) => .error (.noDirectory (directory.beyondFile name))
    | .ok place => .ok place
    | .error fault => .error (.noDirectory fault)

/-- The files of a directory as they are stored: bytes by file name, which need not be text. -/
abbrev Disk := Std.ExtTreeMap String ByteArray

namespace Disk

/-- The files of a directory of texts, as their bytes. -/
def ofDirectory (directory : Directory) : Disk :=
  directory.files.foldr (fun file disk => disk.insert file.1 file.2.toUTF8) ∅

/-- The files by their names alone, which are all that a path depends on. -/
def outline (disk : Disk) : Directory := ⟨disk.keys.map fun name => (name, "")⟩

/-- Where a path leads, which depends on the names of the files only. -/
def locate (disk : Disk) (path : String) : Except FileFault Directory.Place :=
  disk.outline.locate path

/-- The text of the file that a path leads to. -/
def read (disk : Disk) (path : String) : Except FileFault String := do
  match ← disk.locate path with
  | .file name =>
    let some bytes := disk[name]? | throw .missing
    let some text := String.fromUTF8? bytes | throw (.other "stream did not contain valid UTF-8")
    return text
  | .here | .above => throw .isDirectory

/-- The files with one under another name, in place of the file that was there. -/
def rename (disk : Disk) (old new : String) : Disk :=
  match disk[old]? with
  | some bytes => (disk.erase old).insert new bytes
  | none => disk

end Disk

/-- Steps on the files of a directory. What they have changed stays changed when they fail. -/
abbrev Saving (ε α : Type) := EStateM ε Disk α

namespace Saving

/-- Makes an empty file beside a path, under a name that is free, and tells the name. A file in a
directory above is out of sight. -/
def createBeside (path temporary : String) : Saving WriteFault (Option String) := do
  let disk ← get
  match disk.outline.parent path with
  | .error fault => throw fault
  | .ok .here =>
    if disk[temporary]?.isSome then throw (.noDirectory (.other "File exists (os error 17)"))
    set (disk.insert temporary ByteArray.empty)
    return some temporary
  | .ok _ => return none

def fill (file : Option String) (content : String) : Saving WriteFault Unit :=
  match file with
  | some name => modify fun disk => disk.insert name content.toUTF8
  | none => pure ()

/-- Gives a file the name that a path leads to. -/
def move (file : Option String) (path : String) : Saving WriteFault Unit := do
  match (← get).locate path with
  | .error fault => throw (.notPlaced fault)
  | .ok (.file name) =>
    match file with
    | some temporary => modify fun disk => disk.rename temporary name
    | none => pure ()
  | .ok _ => throw (.notPlaced .isDirectory)

/-- Removes the new file. -/
def discard (file : Option String) : Saving WriteFault Unit :=
  match file with
  | some name => modify fun disk => disk.erase name
  | none => pure ()

/-- Saves a text at a path. The new file is discarded if it cannot take its place. -/
def save (temporary path content : String) : Saving WriteFault Unit := do
  let file ← createBeside path temporary
  try
    fill file content
    move file path
  catch fault =>
    discard file
    throw fault

end Saving

namespace Disk

/-- Carries out an invocation on the files of a directory, step by step. -/
def perform (invocation : Invocation) (temporary : String) (time : Int64) (fresh : Key) :
    Saving Failure String := do
  match invocation.perform (← get).read time fresh with
  | .error failure => throw failure
  | .ok effect =>
    match effect.ledger with
    | none => return effect.output
    | some text =>
      let path := invocation.ledger
      EStateM.adaptExcept (.unsavedLedger path) (Saving.save temporary path text)
      return effect.output

/-- What comes of a command line, and the files after it. -/
def run (disk : Disk) (surroundings : Surroundings) (temporary : String)
    (arguments : List String) : Outcome × Disk :=
  match Invocation.ofArguments surroundings.ledger arguments with
  | .error refusal => (.refused refusal, disk)
  | .ok invocation =>
    match perform invocation temporary surroundings.time surroundings.fresh disk with
    | .ok output next => (.done invocation.command output, next)
    | .error failure next => (.failed failure, next)

end Disk

end ComputeMarket
