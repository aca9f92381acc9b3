import ComputeMarket.Saving
import ComputeMarket.Proofs.Session

/-
This file proves that a ledger is saved as a whole or not at all: whatever goes wrong, all files are
as they were, and what is written can be loaded again.
-/

namespace ComputeMarket

/-- A path that leads to a file here has it in this directory. -/
theorem Directory.parent_of_locate {directory : Directory} {path name : String}
    (located : directory.locate path = .ok (.file name)) : directory.parent path = .ok .here := by
  obtain ⟨steps, last, split, followed⟩ := follow_of_locate located
  unfold parent
  dsimp only
  rw [split, List.dropLast_concat, if_neg (by simp)]
  unfold start at followed
  rw [followed]

namespace Disk

variable {disk : Disk} {path name temporary content : String} {place : Directory.Place}

/-- A file that is written has the bytes that were written, and no other file changes. -/
theorem getElem?_insert (disk : Disk) (name other : String) (bytes : ByteArray) :
    (disk.insert name bytes)[other]? = if name = other then some bytes else disk[other]? := by
  rw [Std.ExtTreeMap.getElem?_insert, if_congr Std.compare_eq_iff_eq rfl rfl]

theorem getElem?_erase (disk : Disk) (name other : String) :
    (disk.erase name)[other]? = if name = other then none else disk[other]? := by
  rw [Std.ExtTreeMap.getElem?_erase, if_congr Std.compare_eq_iff_eq rfl rfl]

/-- A file that was made under a free name leaves nothing behind when it is removed. -/
theorem erase_insert (free : disk[temporary]? = none) (bytes : ByteArray) :
    (disk.insert temporary bytes).erase temporary = disk := by
  apply Std.ExtTreeMap.ext_getElem?
  intro name
  rw [getElem?_erase]
  split
  · rename_i same
    rw [← same, free]
  · rename_i different
    rw [getElem?_insert, if_neg different]

theorem insert_insert (disk : Disk) (name : String) (first last : ByteArray) :
    (disk.insert name first).insert name last = disk.insert name last := by
  apply Std.ExtTreeMap.ext_getElem?
  intro other
  simp only [getElem?_insert]
  split <;> rfl

/-- A file that was made under a free name takes the place of another. -/
theorem rename_insert (free : disk[temporary]? = none) (bytes : ByteArray) (name : String) :
    rename (disk.insert temporary bytes) temporary name = disk.insert name bytes := by
  unfold rename
  rw [Std.ExtTreeMap.getElem?_insert_self]
  dsimp only
  rw [erase_insert free]

/-- A path that leads somewhere leads there whatever the files are. -/
theorem locate_same (located : disk.locate path = .ok place) (other : Disk) :
    other.locate path = .ok place :=
  Directory.locate_same located other.outline

/-- A text is read back from its bytes. -/
theorem fromUTF8?_toUTF8 (content : String) :
    String.fromUTF8? content.toUTF8 = some content := by
  unfold String.fromUTF8?
  exact dif_pos content.isValidUTF8

/-- A path that leads to a file is read as the text of its bytes, if they are one. -/
theorem read_of_locate (located : disk.locate path = .ok (.file name)) :
    disk.read path =
      match disk[name]? with
      | none => .error .missing
      | some bytes =>
        match String.fromUTF8? bytes with
        | none => .error (.other "stream did not contain valid UTF-8")
        | some text => .ok text := by
  unfold read
  rw [located]
  dsimp only [bind, Except.bind]
  cases disk[name]? with
  | none => rfl
  | some bytes =>
      dsimp only
      cases String.fromUTF8? bytes <;> rfl

/-- What is read is the text of the file that the path leads to. -/
theorem read_eq_ok : disk.read path = .ok content ↔
    ∃ name bytes, disk.locate path = .ok (.file name) ∧ disk[name]? = some bytes ∧
      String.fromUTF8? bytes = some content := by
  constructor
  · intro read
    cases located : disk.locate path with
    | error fault =>
        unfold Disk.read at read
        rw [located] at read
        cases read
    | ok place =>
        cases place with
        | file name =>
            rw [read_of_locate located] at read
            split at read
            · cases read
            · rename_i bytes found
              split at read
              · cases read
              · rename_i text decoded
                cases read
                exact ⟨name, bytes, rfl, found, decoded⟩
        | here | above =>
            unfold Disk.read at read
            rw [located] at read
            cases read
  · rintro ⟨name, bytes, located, found, decoded⟩
    rw [read_of_locate located, found]
    dsimp only
    rw [decoded]

section Texts

variable {directory : Directory}

/-- The files of a directory of texts hold the bytes of the texts. -/
theorem getElem?_ofDirectory (directory : Directory) (name : String) :
    (ofDirectory directory)[name]? = (directory.get? name).map String.toUTF8 := by
  obtain ⟨files⟩ := directory
  unfold ofDirectory Directory.get?
  dsimp only
  induction files with
  | nil => exact Std.ExtTreeMap.getElem?_empty
  | cons file rest inductionHypothesis =>
      rw [List.foldr_cons, getElem?_insert, inductionHypothesis, Directory.find]
      split <;> rfl

/-- A text is written into a directory of texts as its bytes. -/
theorem insert_ofDirectory (directory : Directory) (name content : String) :
    (ofDirectory directory).insert name content.toUTF8 =
      ofDirectory (directory.insert name content) := by
  apply Std.ExtTreeMap.ext_getElem?
  intro other
  rw [getElem?_insert, getElem?_ofDirectory, getElem?_ofDirectory, Directory.get?_insert]
  split <;> rfl

theorem isSome_get?_outline (disk : Disk) (name : String) :
    (disk.outline.get? name).isSome = disk[name]?.isSome := by
  unfold outline Directory.get?
  rw [Bool.eq_iff_iff, Std.ExtTreeMap.isSome_getElem?_iff_mem, ← Std.ExtTreeMap.mem_keys,
    ← Option.ne_none_iff_isSome, ne_eq, Directory.find_eq_none, List.forall_mem_map]
  simp

/-- A path leads to the same place on a directory and on the disk of its texts. -/
theorem locate_ofDirectory (directory : Directory) (path : String) :
    (ofDirectory directory).locate path = directory.locate path := by
  apply Directory.locate_congr
  intro name
  rw [isSome_get?_outline, getElem?_ofDirectory, Option.isSome_map]

/-- Files of texts are read as such. -/
theorem read_ofDirectory (directory : Directory) :
    (ofDirectory directory).read = directory.read := by
  funext path
  cases located : directory.locate path with
  | error fault =>
      unfold read Directory.read
      rw [locate_ofDirectory, located]
      rfl
  | ok place =>
      cases place with
      | file name =>
          have there := (locate_ofDirectory directory path).trans located
          rw [read_of_locate there, Directory.read_of_locate located, getElem?_ofDirectory]
          cases directory.get? name with
          | none => rfl
          | some content =>
              dsimp only [Option.map_some]
              rw [fromUTF8?_toUTF8]
      | here | above =>
          unfold read Directory.read
          rw [locate_ofDirectory, located]
          rfl

end Texts

end Disk

namespace Saving

variable {disk : Disk} {path name temporary : String} {file : Option String}

/-- A recovery goes on from what the failed action left. -/
theorem tryCatch_run {ε α : Type} (action : Saving ε α) (recover : ε → Saving ε α) (disk : Disk) :
    (tryCatch action recover).run disk =
      match action.run disk with
      | .ok value after => .ok value after
      | .error fault after => (recover fault).run after := by
  change EStateM.tryCatch action recover disk = _
  unfold EStateM.tryCatch EStateM.run
  cases action disk <;> rfl

/-- A new file comes into the directory of the path, empty and under its own name, if the path leads
to one. -/
theorem createBeside_run (free : disk[temporary]? = none) (path : String) :
    (createBeside path temporary).run disk =
      match disk.outline.parent path with
      | .error fault => .error fault disk
      | .ok .here => .ok (some temporary) (disk.insert temporary ByteArray.empty)
      | .ok _ => .ok none disk := by
  unfold createBeside
  simp only [EStateM.run_bind, EStateM.run_get]
  cases disk.outline.parent path with
  | error fault => rfl
  | ok place =>
      cases place with
      | here =>
          dsimp only
          rw [free]
          rfl
      | above => rfl
      | file name => rfl

/-- Where a path leads to a file, the new file takes its place. -/
theorem move_of_locate (located : disk.locate path = .ok (.file name)) :
    (move file path).run disk =
      .ok () (file.elim disk fun temporary => disk.rename temporary name) := by
  unfold move
  simp only [EStateM.run_bind, EStateM.run_get, located]
  cases file <;> rfl

/-- Where it does not, nothing moves. -/
theorem move_of_not_locate (file : Option String)
    (elsewhere : ∀ name, disk.locate path ≠ .ok (.file name)) :
    ∃ fault, (move file path).run disk = .error fault disk := by
  unfold move
  simp only [EStateM.run_bind, EStateM.run_get]
  cases located : disk.locate path with
  | error fault => exact ⟨_, rfl⟩
  | ok place =>
      cases place with
      | file name => exact absurd located (elsewhere name)
      | here | above => exact ⟨_, rfl⟩

/-- Where a path leads to a file, the text comes to stand there. -/
theorem save_of_locate (free : disk[temporary]? = none)
    (located : disk.locate path = .ok (.file name)) (content : String) :
    (save temporary path content).run disk = .ok () (disk.insert name content.toUTF8) := by
  have here := Directory.parent_of_locate located
  have later := Disk.locate_same located (disk.insert temporary content.toUTF8)
  unfold save
  simp only [EStateM.run_bind, createBeside_run free, here, tryCatch_run, fill, EStateM.run_modify,
    Disk.insert_insert, move_of_locate later, Option.elim_some, Disk.rename_insert free]

/-- Where it does not, saving leaves no trace. -/
theorem save_of_not_locate (free : disk[temporary]? = none)
    (elsewhere : ∀ name, disk.locate path ≠ .ok (.file name)) (content : String) :
    ∃ fault, (save temporary path content).run disk = .error fault disk := by
  have still (other : Disk) (name : String) : other.locate path ≠ .ok (.file name) :=
    fun located => elsewhere name (Disk.locate_same located disk)
  unfold save
  simp only [EStateM.run_bind, createBeside_run free, tryCatch_run]
  cases disk.outline.parent path with
  | error fault => exact ⟨fault, rfl⟩
  | ok place =>
      cases place with
      | here =>
          -- the new file was made and filled, so it has to go again
          obtain ⟨fault, failed⟩ := move_of_not_locate (some temporary)
            (still (disk.insert temporary content.toUTF8))
          refine ⟨fault, ?_⟩
          simp only [fill, EStateM.run_modify, Disk.insert_insert, failed, discard,
            Disk.erase_insert free, EStateM.run_throw]
      | above | file name =>
          obtain ⟨fault, failed⟩ := move_of_not_locate none (still disk)
          refine ⟨fault, ?_⟩
          simp only [fill, EStateM.run_pure, failed, discard, EStateM.run_throw]

end Saving

namespace Command

variable {store after : Store} {command : Command} {now : Int64} {fresh : Key} {report : Report}

end Command

namespace Invocation

variable {invocation : Invocation} {read : Reader} {time : Int64} {fresh : Key} {effect : Effect}

end Invocation

namespace Disk

variable {disk after : Disk} {surroundings : Surroundings} {arguments : List String}
  {invocation : Invocation} {temporary name output : String} {config : Config} {next : Store}

section Texts

variable {directory : Directory}

/-- Saving a text comes to writing it as a whole. -/
theorem save_ofDirectory (free : (ofDirectory directory)[temporary]? = none)
    (path content : String) :
    match directory.write path content with
    | .ok next =>
      (Saving.save temporary path content).run (ofDirectory directory) = .ok () (ofDirectory next)
    | .error _ => ∃ fault, (Saving.save temporary path content).run (ofDirectory directory) =
        .error fault (ofDirectory directory) := by
  cases written : directory.write path content with
  | ok next =>
      obtain ⟨name, located, rfl⟩ := Directory.write_eq_ok.1 written
      have there := (locate_ofDirectory directory path).trans located
      dsimp only
      rw [Saving.save_of_locate free there, insert_ofDirectory]
  | error fault =>
      apply Saving.save_of_not_locate free
      intro name there
      rw [locate_ofDirectory] at there
      rw [Directory.write_of_locate there] at written
      cases written

/-- On files of texts the steps of a run come to what the run does to the directory at once. -/
theorem perform_ofDirectory (free : (ofDirectory directory)[temporary]? = none)
    (invocation : Invocation) (time : Int64) (fresh : Key) :
    match directory.perform invocation time fresh with
    | .ok (output, after) =>
      (perform invocation temporary time fresh).run (ofDirectory directory) =
        .ok output (ofDirectory after)
    | .error _ => ∃ failure, (perform invocation temporary time fresh).run (ofDirectory directory) =
        .error failure (ofDirectory directory) := by
  unfold perform Directory.perform
  simp only [EStateM.run_bind, EStateM.run_get]
  rw [read_ofDirectory]
  cases invocation.perform directory.read time fresh with
  | error failure => exact ⟨failure, rfl⟩
  | ok effect =>
      obtain ⟨output, ledger⟩ := effect
      cases ledger with
      | none => rfl
      | some text =>
          have saved := save_ofDirectory free invocation.ledger text
          simp only [EStateM.run_bind, Action.adaptExcept_run]
          dsimp only [bind, Except.bind]
          cases written : directory.write invocation.ledger text with
          | error fault =>
              rw [written] at saved
              obtain ⟨reason, failed⟩ := saved
              rw [failed]
              exact ⟨_, rfl⟩
          | ok next =>
              rw [written] at saved
              dsimp only at saved
              rw [saved]
              rfl

/-- On files of texts, saving step by step comes to what the program does as a whole, but for the
words of a failure. -/
theorem run_ofDirectory (directory : Directory) (surroundings : Surroundings)
    (arguments : List String) (temporary : String)
    (free : (ofDirectory directory)[temporary]? = none) :
    (ofDirectory directory).run surroundings temporary arguments =
        ((directory.run surroundings arguments).1,
          ofDirectory (directory.run surroundings arguments).2) ∨
      ∃ failure other,
        (ofDirectory directory).run surroundings temporary arguments =
          (.failed failure, ofDirectory directory) ∧
        directory.run surroundings arguments = (.failed other, directory) := by
  unfold run Directory.run
  cases Invocation.ofArguments surroundings.ledger arguments with
  | error refusal => exact .inl rfl
  | ok invocation =>
      dsimp only
      have stepwise := perform_ofDirectory free invocation surroundings.time surroundings.fresh
      unfold EStateM.run at stepwise
      cases performed : directory.perform invocation surroundings.time surroundings.fresh with
      | error other =>
          rw [performed] at stepwise
          obtain ⟨failure, failed⟩ := stepwise
          rw [failed]
          exact .inr ⟨failure, other, rfl, rfl⟩
      | ok result =>
          obtain ⟨output, after⟩ := result
          rw [performed] at stepwise
          dsimp only at stepwise
          rw [stepwise]
          exact .inl rfl

end Texts

end Disk

end ComputeMarket
