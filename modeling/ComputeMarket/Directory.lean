/-
This file defines directories of files, and how paths lead to the files in them.
-/

namespace ComputeMarket

/-- Why a path leads to no file. -/
inductive FileFault where
  | missing
  /-- A part of the path before its end is a file. -/
  | notDirectory
  | isDirectory
  | nameTooLong
  | nulCharacter
  | other (description : String)
  deriving DecidableEq

namespace FileFault

/-- Whether the path leads nowhere at all. -/
def isAbsence : FileFault → Bool
  | missing | notDirectory | nameTooLong | nulCharacter => true
  | isDirectory | other _ => false

/-- The wording of the system for a fault. -/
def message : FileFault → String
  | missing => "No such file or directory (os error 2)"
  | notDirectory => "Not a directory (os error 20)"
  | isDirectory => "Is a directory (os error 21)"
  | nameTooLong => "File name too long (os error 36)"
  | nulCharacter => "file name contained an unexpected NUL byte"
  | other description => description

end FileFault

/-- Why a file is not written. -/
inductive WriteFault where
  /-- The file has no directory to be in. -/
  | noDirectory (fault : FileFault)
  /-- The new file cannot take the name. -/
  | notPlaced (fault : FileFault)
  deriving DecidableEq

/-- A directory that holds no other directories: texts by file name. -/
structure Directory where
  files : List (String × String)
  deriving DecidableEq

namespace Directory

/-- The text under a name. -/
def find (name : String) : List (String × String) → Option String
  | [] => none
  | file :: rest => if file.1 = name then some file.2 else find name rest

/-- The list with the text under the name, in place of the text that was there. -/
def put (name content : String) : List (String × String) → List (String × String)
  | [] => [(name, content)]
  | file :: rest =>
    if file.1 = name then (name, content) :: rest else file :: put name content rest

def insert (directory : Directory) (name content : String) : Directory :=
  ⟨put name content directory.files⟩

def get? (directory : Directory) (name : String) : Option String := find name directory.files

theorem find_put (name other content : String) (files : List (String × String)) :
    find other (put name content files) =
      if name = other then some content else find other files := by
  induction files with
  | nil => simp [put, find]
  | cons file rest inductionHypothesis => grind [put, find]

/-- A file that was inserted is found by its name, and all others as before. -/
theorem get?_insert (directory : Directory) (name other content : String) :
    (directory.insert name content).get? other =
      if name = other then some content else directory.get? other :=
  find_put name other content directory.files

/-- Where a path leads. -/
inductive Place where
  /-- The directory itself. -/
  | here
  /-- A directory above it. -/
  | above
  /-- The place of a file, whether there is one or not. -/
  | file (name : String)
  deriving DecidableEq

/-- The parts of a path between its slashes. -/
def parts : List Char → List (List Char)
  | [] => [[]]
  | '/' :: rest => [] :: parts rest
  | character :: rest =>
    match parts rest with
    | [] => [[character]]
    | part :: others => (character :: part) :: others

/-- Whether a part of a path stays where it is. -/
def isIdle (part : List Char) : Bool := part.isEmpty || part == ['.']

/-- What stands in the way of a path that goes on from a file. -/
def beyondFile (directory : Directory) (name : String) : FileFault :=
  if (directory.get? name).isSome then .notDirectory else .missing

/-- Follows the parts of a path. What the directories above hold besides is not known. -/
def follow (directory : Directory) : Place → List (List Char) → Except FileFault Place
  | place, [] => .ok place
  | .file name, _ :: _ => .error (directory.beyondFile name)
  | place, part :: rest =>
    if isIdle part then directory.follow place rest
    else if part = ['.', '.'] then directory.follow .above rest
    else if (String.ofList part).utf8ByteSize > 255 then .error .nameTooLong
    else
      match place with
      | .here => directory.follow (.file (String.ofList part)) rest
      | _ => .error .missing

/-- Where a path leads. -/
def locate (directory : Directory) (path : String) : Except FileFault Place :=
  let characters := path.toList
  if characters.contains '\x00' then .error .nulCharacter
  else if path.isEmpty then .error .missing
  else if path.utf8ByteSize ≥ 4096 then .error .nameTooLong
  else
    let start : Place := if characters.head? = some '/' then .above else .here
    directory.follow start (parts characters)

/-- The content of the file that a path leads to. -/
def read (directory : Directory) (path : String) : Except FileFault String := do
  match ← directory.locate path with
  | .file name =>
    match directory.get? name with
    | some content => return content
    | none => throw .missing
  | .here | .above => throw .isDirectory

/-- Checks that the directory which a path names its file in is one. -/
def checkParent (directory : Directory) (path : String) : Except WriteFault Unit :=
  let start : Place := if path.toList.head? = some '/' then .above else .here
  let parent := ((parts path.toList).filter fun part => !isIdle part).dropLast
  match directory.follow start parent with
  | .ok (.file name) => .error (.noDirectory (directory.beyondFile name))
  | .ok _ => .ok ()
  | .error fault => .error (.noDirectory fault)

/-- Writes a file beside its place and moves it there. -/
def write (directory : Directory) (path content : String) : Except WriteFault Directory := do
  directory.checkParent path
  match directory.locate path with
  | .ok (.file name) => return directory.insert name content
  | .ok _ => throw (.notPlaced .isDirectory)
  | .error fault => throw (.notPlaced fault)

end Directory

end ComputeMarket
