import ComputeMarket.Directory

/-
This file proves that a path which leads to a file leads there whatever the directory holds, and
that a text which is written there is what is read from then on.
-/

namespace ComputeMarket.Directory

variable {directory other : Directory} {place reached : Place} {steps : List (List Char)}
  {path name content : String}

/-- A path leads from one place to another. What files there are has no part in it. -/
inductive Leads : Place → List (List Char) → Place → Prop
  | arrived (place : Place) : Leads place [] place
  | idle {place reached : Place} {step : List Char} {rest : List (List Char)}
      (outside : ∀ name, place ≠ .file name) (stays : isIdle step = true)
      (onward : Leads place rest reached) : Leads place (step :: rest) reached
  | up {place reached : Place} {rest : List (List Char)} (outside : ∀ name, place ≠ .file name)
      (onward : Leads .above rest reached) : Leads place (['.', '.'] :: rest) reached
  | enter {reached : Place} {step : List Char} {rest : List (List Char)}
      (moves : isIdle step = false) (down : step ≠ ['.', '.'])
      (short : (String.ofList step).utf8ByteSize ≤ 255)
      (onward : Leads (.file (String.ofList step)) rest reached) :
      Leads .here (step :: rest) reached

/-- One step from a place that is no file. -/
theorem follow_cons (outside : ∀ name, place ≠ .file name) (step : List Char)
    (rest : List (List Char)) :
    directory.follow place (step :: rest) =
      if isIdle step then directory.follow place rest
      else if step = ['.', '.'] then directory.follow .above rest
      else if (String.ofList step).utf8ByteSize > 255 then .error .nameTooLong
      else if place = .here then directory.follow (.file (String.ofList step)) rest
      else .error .missing := by
  cases place with
  | here => rfl
  | above => rfl
  | file name => exact absurd rfl (outside name)

/-- A path is followed to a place exactly if its parts lead there. -/
theorem follow_eq_ok : directory.follow place steps = .ok reached ↔ Leads place steps reached := by
  constructor
  · intro followed
    induction steps generalizing place with
    | nil =>
        cases followed
        exact .arrived _
    | cons step rest inductionHypothesis =>
        have outside (name : String) : place ≠ .file name := by
          intro inside
          rw [inside] at followed
          cases followed
        rw [follow_cons outside] at followed
        split at followed
        · rename_i stays
          exact .idle outside stays (inductionHypothesis followed)
        · rename_i moves
          split at followed
          · rename_i up
            rw [up]
            exact .up outside (inductionHypothesis followed)
          · rename_i down
            split at followed
            · cases followed
            · rename_i short
              split at followed
              · rename_i here
                rw [here]
                exact .enter (Bool.eq_false_iff.2 moves) down (Nat.le_of_not_gt short)
                  (inductionHypothesis followed)
              · cases followed
  · intro leads
    induction leads with
    | arrived place => unfold follow; rfl
    | idle outside stays onward inductionHypothesis =>
        rw [follow_cons outside, if_pos stays]
        exact inductionHypothesis
    | up outside onward inductionHypothesis =>
        rw [follow_cons outside, if_neg (by decide), if_pos rfl]
        exact inductionHypothesis
    | enter moves down short onward inductionHypothesis =>
        rw [follow_cons (fun _ => Place.noConfusion), if_neg (Bool.eq_false_iff.1 moves),
          if_neg down, if_neg (Nat.not_lt.2 short), if_pos rfl]
        exact inductionHypothesis

/-- The idle parts of a path can be left out. -/
theorem Leads.filter (leads : Leads place steps reached) :
    Leads place (steps.filter fun step => !isIdle step) reached := by
  induction leads with
  | arrived place => exact .arrived place
  | idle outside stays onward inductionHypothesis =>
      rw [List.filter_cons_of_neg (by rw [stays]; decide)]
      exact inductionHypothesis
  | up outside onward inductionHypothesis =>
      rw [List.filter_cons_of_pos (by decide)]
      exact .up outside inductionHypothesis
  | enter moves down short onward inductionHypothesis =>
      rw [List.filter_cons_of_pos (by rw [moves]; rfl)]
      exact .enter moves down short inductionHypothesis

/-- A path ends with the name of the file that it leads to. -/
theorem Leads.ends (leads : Leads place steps (.file name)) (outside : ∀ name, place ≠ .file name) :
    ∃ parent last, steps = parent ++ [last] ∧ isIdle last = false ∧ Leads place parent .here := by
  generalize target : Place.file name = reached at leads
  induction leads with
  | arrived place => exact absurd target.symm (outside name)
  | idle _ stays onward inductionHypothesis =>
      obtain ⟨parent, last, rfl, moves, leads⟩ := inductionHypothesis outside target
      exact ⟨_ :: parent, last, rfl, moves, .idle outside stays leads⟩
  | up _ onward inductionHypothesis =>
      obtain ⟨parent, last, rfl, moves, leads⟩ :=
        inductionHypothesis (fun _ => Place.noConfusion) target
      exact ⟨_ :: parent, last, rfl, moves, .up outside leads⟩
  | @enter reached step rest moves down short onward inductionHypothesis =>
      -- nothing comes after a file
      cases onward with
      | arrived => exact ⟨[], step, rfl, moves, .arrived .here⟩
      | idle inside => exact absurd rfl (inside _)
      | up inside => exact absurd rfl (inside _)

/-- Where a path begins. -/
def start (path : String) : Place := if path.toList.head? = some '/' then .above else .here

theorem start_ne_file (path name : String) : start path ≠ .file name := by
  unfold start
  split <;> exact Place.noConfusion

/-- A path that is located leads from its start to the place. -/
theorem leads_of_locate (located : directory.locate path = .ok place) :
    Leads (start path) (parts path.toList) place := by
  unfold locate at located
  dsimp only at located
  split at located
  · cases located
  · split at located
    · cases located
    · split at located
      · cases located
      · exact follow_eq_ok.1 located

/-- A path that leads somewhere leads there in every directory. -/
theorem locate_same (located : directory.locate path = .ok place) (other : Directory) :
    other.locate path = .ok place := by
  have leads := leads_of_locate located
  unfold locate at located ⊢
  dsimp only at located ⊢
  split at located
  · cases located
  · rename_i noNul
    rw [if_neg noNul]
    split at located
    · cases located
    · rename_i filled
      rw [if_neg filled]
      split at located
      · cases located
      · rename_i short
        rw [if_neg short]
        exact follow_eq_ok.2 leads

/-- The parts of a path that leads to a file lead here, all but the last. -/
theorem follow_of_locate (located : directory.locate path = .ok (.file name)) :
    ∃ steps last, (parts path.toList).filter (fun step => !isIdle step) = steps ++ [last] ∧
      directory.follow (start path) steps = .ok .here := by
  obtain ⟨parent, last, split, moves, leads⟩ :=
    (leads_of_locate located).ends (start_ne_file path)
  refine ⟨parent.filter fun step => !isIdle step, last, ?_, follow_eq_ok.2 leads.filter⟩
  rw [split, List.filter_append, List.filter_cons_of_pos (by rw [moves]; rfl), List.filter_nil]

/-- A path that leads to a file has a directory that it is in. -/
theorem checkParent_of_locate (located : directory.locate path = .ok (.file name)) :
    directory.checkParent path = .ok () := by
  obtain ⟨steps, last, split, followed⟩ := follow_of_locate located
  unfold checkParent
  dsimp only
  rw [split, List.dropLast_concat]
  unfold start at followed
  rw [followed]

/-- A text can be written wherever a path leads to a file. -/
theorem write_of_locate (located : directory.locate path = .ok (.file name)) (content : String) :
    directory.write path content = .ok (directory.insert name content) := by
  unfold write
  rw [checkParent_of_locate located, located]
  rfl

/-- A write succeeds exactly if the path leads to a file, and puts the content there. -/
theorem write_eq_ok {next : Directory} : directory.write path content = .ok next ↔
    ∃ name, directory.locate path = .ok (.file name) ∧ next = directory.insert name content := by
  constructor
  · intro written
    unfold write at written
    cases checked : directory.checkParent path with
    | error fault =>
        rw [checked] at written
        cases written
    | ok done =>
        rw [checked] at written
        cases located : directory.locate path with
        | error fault =>
            rw [located] at written
            cases written
        | ok place =>
            rw [located] at written
            cases place with
            | file name =>
                cases written
                exact ⟨name, rfl, rfl⟩
            | here | above => cases written
  · rintro ⟨name, located, rfl⟩
    exact write_of_locate located content

/-- A path that leads to a file is read as its content, if the file is there. -/
theorem read_of_locate (located : directory.locate path = .ok (.file name)) :
    directory.read path =
      match directory.get? name with
      | some content => .ok content
      | none => .error .missing := by
  unfold read
  rw [located]
  change (match directory.get? name with
    | some content => pure content
    | none => throw FileFault.missing) = _
  cases directory.get? name <;> rfl

/-- What is read is the text of the file that the path leads to. -/
theorem read_eq_ok : directory.read path = .ok content ↔
    ∃ name, directory.locate path = .ok (.file name) ∧ directory.get? name = some content := by
  constructor
  · intro read
    cases located : directory.locate path with
    | error fault =>
        unfold Directory.read at read
        rw [located] at read
        cases read
    | ok place =>
        cases place with
        | file name =>
            rw [read_of_locate located] at read
            cases found : directory.get? name with
            | none =>
                rw [found] at read
                cases read
            | some text =>
                rw [found] at read
                cases read
                exact ⟨name, rfl, found⟩
        | here | above =>
            unfold Directory.read at read
            rw [located] at read
            cases read
  · rintro ⟨name, located, found⟩
    rw [read_of_locate located, found]

theorem find_eq_none {files : List (String × String)} :
    find name files = none ↔ ∀ file ∈ files, file.1 ≠ name := by
  induction files with
  | nil => simp [find]
  | cons file rest inductionHypothesis =>
      unfold find
      split
      · rename_i same
        simp [same]
      · rename_i different
        rw [inductionHypothesis, List.forall_mem_cons]
        simp [different]

/-- Only the names of the files that there are have a part in what stands in the way of a path. -/
theorem follow_congr (same : ∀ name, (directory.get? name).isSome = (other.get? name).isSome)
    (place : Place) (steps : List (List Char)) :
    directory.follow place steps = other.follow place steps := by
  induction steps generalizing place with
  | nil =>
      unfold follow
      rfl
  | cons step rest inductionHypothesis =>
      cases place with
      | file name =>
          unfold follow beyondFile
          rw [same name]
      | here | above =>
          rw [follow_cons (fun _ => Place.noConfusion), follow_cons (fun _ => Place.noConfusion)]
          simp only [inductionHypothesis]

/-- Where a path leads depends on the names of the files, and not on their content. -/
theorem locate_congr (same : ∀ name, (directory.get? name).isSome = (other.get? name).isSome)
    (path : String) : directory.locate path = other.locate path := by
  unfold locate
  simp only [follow_congr same]

end ComputeMarket.Directory
