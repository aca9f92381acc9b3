import ComputeMarket.CommandLine.Help
import ComputeMarket.Session
import Std.Time.DateTime.Timestamp

/-
This file is the program: it reads the files that an invocation names, carries the invocation
out, prints the report and writes the ledger.
-/

namespace ComputeMarket.Program

/-- The code that the system gives for a directory, from an open file and from a path. -/
def isDirectoryCode (code : UInt32) : Bool := code == 21 || code == 0 - 21

def faultOf : IO.Error → FileFault
  | .noFileOrDirectory .. => .missing
  | .inappropriateType _ code _ => if isDirectoryCode code then .isDirectory else .notDirectory
  | fault => .other (toString fault)

/-- Reads a file whose bytes are the UTF-8 form of a text. -/
def readFile (path : String) : IO (Except FileFault String) := do
  match ← (IO.FS.readBinFile path).toBaseIO with
  | .error fault => return .error (faultOf fault)
  | .ok bytes =>
    let some text := String.fromUTF8? bytes
      | return .error (.other "stream did not contain valid UTF-8")
    return .ok text

/-- Reads the given paths ahead. -/
def readerOf (paths : List String) : IO Reader := do
  let contents ← paths.mapM fun path => do return (path, ← readFile path)
  return fun path => (contents.lookup path).getD (.error .missing)

/-- The directory in which a path names its file. -/
def directoryOf (path : String) : String :=
  let parts := (Directory.parts path.toList).filter fun part => !Directory.isIdle part
  let start := if path.toList.head? = some '/' then "/" else "./"
  start ++ "/".intercalate (parts.dropLast.map String.ofList)

/-- Makes an empty file in a directory and tells its path. A name that is taken is passed over. -/
def createFresh (directory : String) : (attempts : Nat) → IO (String × IO.FS.Handle)
  | 0 => throw (IO.userError "too many temporary files exist")
  | attempts + 1 => do
    let letters := (← IO.getRandomBytes 6).toList.flatMap fun byte =>
      Nat.toDigits 16 (0x100 + byte.toNat) |>.drop 1
    let beside := directory ++ "/.tmp" ++ String.ofList letters
    match ← (IO.FS.Handle.mk beside .writeNew).toBaseIO with
    | .ok file => return (beside, file)
    | .error (.alreadyExists ..) => createFresh directory attempts
    | .error fault => throw fault

/-- Removes a file that nobody needs, if it can be removed. -/
def discard (path : String) : IO Unit := do
  let _ ← (IO.FS.removeFile path).toBaseIO

/-- Writes a new file beside a path, for its owner alone, and tells where it is. A file that could
not be filled does not stay. -/
def writeBeside (path content : String) : IO String := do
  let (beside, file) ← createFresh (directoryOf path) 0x10000
  try
    IO.setAccessRights beside { user := { read := true, write := true } }
    file.putStr content
    file.flush
    return beside
  catch fault =>
    discard beside
    throw fault

/-- Writes a file beside its place and moves it there. It is discarded if it cannot be moved. -/
def writeFile (path content : String) : IO (Except WriteFault Unit) := do
  match ← (writeBeside path content).toBaseIO with
  | .error fault => return .error (.noDirectory (faultOf fault))
  | .ok beside =>
    match ← (IO.FS.rename beside path).toBaseIO with
    | .ok _ => return .ok ()
    | .error fault =>
      discard beside
      return .error (.notPlaced (faultOf fault))

/-- The seconds since the epoch. -/
def timeOfDay : IO Int64 := do
  return Int64.ofInt (← Std.Time.Timestamp.now).toSecondsSinceUnixEpoch.val

/-- A key of random bytes. -/
def freshKey : IO Key := do
  return Key.ofBytes (← IO.getRandomBytes 32).toList

/-- Tells a failure and gives its exit code. -/
def fail (failure : Failure) : IO UInt32 := do
  IO.eprintln ("Error: " ++ failure.message)
  return 1

/-- Carries out an invocation on the files of the system. -/
def perform (invocation : Invocation) : IO UInt32 := do
  let reader ← readerOf (invocation.ledger :: invocation.config.toList)
  match invocation.perform reader (← timeOfDay) (← freshKey) with
  | .error failure => fail failure
  | .ok effect =>
    IO.print effect.output
    let some content := effect.ledger | return 0
    match ← writeFile invocation.ledger content with
    | .ok _ => return 0
    | .error fault => fail (.unsavedLedger invocation.ledger fault)

/-- Tells why a command line was not read, and gives the exit code. -/
def refuse (refusal : CommandLine.Refusal) : IO UInt32 := do
  if refusal.exitCode = 0 then IO.println refusal.text else IO.eprintln refusal.text
  return refusal.exitCode.toUInt32

end ComputeMarket.Program

open ComputeMarket in
/-- Runs the program on its arguments. -/
def main (arguments : List String) : IO UInt32 := do
  match Invocation.ofArguments (← IO.getEnv "HYPERNODE_STATE") arguments with
  | .ok invocation => Program.perform invocation
  | .error refusal => Program.refuse refusal
