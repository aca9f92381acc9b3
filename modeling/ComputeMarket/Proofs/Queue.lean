import ComputeMarket.Queue

/-
This file describes the operations of the matching queue by the entries that wait on each side.
-/

namespace ComputeMarket.Queue

variable {queue next : Queue} {side other : Side} {id head : Key} {capacity : Count}
  {place : Nat} {waiting : List Key}

theorem opposite_ne (side : Side) : side.opposite ≠ side := by
  cases side <;> decide

theorem eq_opposite_of_ne (different : side ≠ other) : other = side.opposite := by
  cases side <;> cases other <;> simp_all [Side.opposite]

/-- Those who wait on the tagged side are all entries. -/
theorem entriesOf_of_side (tagged : queue.side? = some side) :
    queue.entriesOf side = queue.entries := by
  rw [entriesOf, if_pos tagged]

/-- On any other side than the tagged one nobody waits. -/
theorem entriesOf_eq_nil (other : queue.side? ≠ some side) : queue.entriesOf side = [] := by
  rw [entriesOf, if_neg other]

/-- A queue that is not tagged with the opposite side has all its entries on this side. -/
theorem entries_of_side_ne_opposite (free : queue.side? ≠ some side.opposite) :
    queue.entries = queue.entriesOf side := by
  cases queue <;> cases side <;> simp_all [side?, entriesOf, entries, Side.opposite]

@[simp] theorem entriesOf_empty (side : Side) : empty.entriesOf side = [] := rfl

@[simp] theorem entriesOf_ofEntries (side other : Side) (waiting : List Key) :
    (ofEntries side waiting).entriesOf other = if side = other then waiting else [] := by
  cases waiting <;> cases side <;> cases other <;> rfl

/-- A queue made of entries is well formed exactly if no entry occurs twice. -/
theorem isWellFormed_ofEntries : (ofEntries side waiting).isWellFormed = true ↔ waiting.Nodup := by
  cases waiting <;> cases side <;> simp [ofEntries, isWellFormed]

theorem nodup_entries (formed : queue.isWellFormed) : queue.entries.Nodup := by
  cases queue <;> simp_all [isWellFormed, entries]

/-- Nobody waits twice on one side of a well-formed queue. -/
theorem nodup_entriesOf (formed : queue.isWellFormed) (side : Side) :
    (queue.entriesOf side).Nodup := by
  unfold entriesOf
  split
  · exact nodup_entries formed
  · exact List.nodup_nil

/-- A well-formed queue is the queue of its entries. -/
theorem ofEntries_entries (formed : queue.isWellFormed) (tagged : queue.side? = some side) :
    ofEntries side queue.entries = queue := by
  cases queue with
  | empty => simp [side?] at tagged
  | jobs waiting =>
      cases waiting with
      | nil => simp [isWellFormed] at formed
      | cons first rest => cases side <;> simp_all [side?, entries, ofEntries]
  | nodes waiting =>
      cases waiting with
      | nil => simp [isWellFormed] at formed
      | cons first rest => cases side <;> simp_all [side?, entries, ofEntries]

/-- Well-formed queues with the same entries are the same. -/
theorem eq_of_entriesOf (formed : queue.isWellFormed = true)
    (nextFormed : next.isWellFormed = true)
    (same : ∀ side, queue.entriesOf side = next.entriesOf side) : queue = next := by
  have jobs := same .job
  have nodes := same .node
  cases queue <;> cases next <;>
    simp_all [isWellFormed, entriesOf, side?, entries]

theorem normalize_eq_self (formed : queue.isWellFormed) : queue.normalize = queue := by
  unfold normalize
  split
  · rename_i untagged
    cases queue <;> simp_all [side?]
  · rename_i tagged
    exact ofEntries_entries formed tagged

@[simp] theorem entriesOf_normalize (queue : Queue) (side : Side) :
    queue.normalize.entriesOf side = queue.entriesOf side := by
  cases queue with
  | empty => rfl
  | jobs waiting =>
      change (ofEntries .job waiting).entriesOf side = _
      rw [entriesOf_ofEntries]
      cases side <;> rfl
  | nodes waiting =>
      change (ofEntries .node waiting).entriesOf side = _
      rw [entriesOf_ofEntries]
      cases side <;> rfl

/-- An arrival is matched exactly with the head of the other side. -/
theorem submit_eq_matched :
    queue.submit side id capacity = .ok (.matched head, next) ↔
      ∃ rest, queue.side? = some side.opposite ∧ queue.entries = head :: rest ∧
        next = ofEntries side.opposite rest := by
  unfold submit screen
  by_cases opposed : queue.side? = some side.opposite
  · cases listed : queue.entries with
    | nil => simp [opposed, bind, Except.bind, throw, throwThe, MonadExceptOf.throw]
    | cons first rest =>
        simp only [opposed, if_true, bind, Except.bind, pure, Except.pure, Except.ok.injEq,
          Prod.mk.injEq, Admission.matched.injEq, List.cons.injEq, true_and]
        constructor
        · rintro ⟨rfl, rfl⟩
          exact ⟨rest, ⟨rfl, rfl⟩, rfl⟩
        · rintro ⟨_, ⟨rfl, rfl⟩, rfl⟩
          exact ⟨rfl, rfl⟩
  · by_cases present : queue.contains side id <;>
      by_cases full : queue.length ≥ capacity.value <;>
        simp [opposed, present, full, bind, Except.bind, pure, Except.pure]

/-- An arrival waits exactly when the other side does not, it does not wait yet and there
is room. -/
theorem submit_eq_queued :
    queue.submit side id capacity = .ok (.queued place, next) ↔
      queue.side? ≠ some side.opposite ∧ id ∉ queue.entriesOf side ∧
        queue.length < capacity.value ∧ place = queue.length + 1 ∧
        next = ofEntries side (queue.entries ++ [id]) := by
  unfold submit screen
  by_cases opposed : queue.side? = some side.opposite
  · cases listed : queue.entries <;>
      simp [opposed, bind, Except.bind, pure, Except.pure, throw, throwThe, MonadExceptOf.throw]
  · rw [← contains_iff]
    by_cases present : queue.contains side id
    · simp [opposed, present, bind, Except.bind]
    · by_cases full : capacity.value ≤ queue.length
      · simp [opposed, present, full, Nat.not_lt.2 full, bind, Except.bind]
      · simp [opposed, present, full, Nat.lt_of_not_le full, bind, Except.bind, pure, Except.pure,
          eq_comm]

/-- An arrival that is matched takes the first entry of the other side, and nobody waits on its own
side, before and after. -/
theorem entriesOf_of_submit_matched
    (submitted : queue.submit side id capacity = .ok (.matched head, next)) :
    queue.entriesOf side.opposite = head :: next.entriesOf side.opposite ∧
      queue.entriesOf side = [] ∧ next.entriesOf side = [] := by
  obtain ⟨rest, tagged, listed, rfl⟩ := submit_eq_matched.1 submitted
  refine ⟨?_, ?_, ?_⟩
  · rw [entriesOf_of_side tagged, listed, entriesOf_ofEntries, if_pos rfl]
  · apply entriesOf_eq_nil
    rw [tagged]
    exact fun same => opposite_ne side (Option.some.inj same)
  · rw [entriesOf_ofEntries, if_neg (opposite_ne side)]

/-- An arrival that waits stands last on its side, is new there, and nobody waits on the other side,
before and after. -/
theorem entriesOf_of_submit_queued
    (submitted : queue.submit side id capacity = .ok (.queued place, next)) :
    next.entriesOf side = queue.entriesOf side ++ [id] ∧ id ∉ queue.entriesOf side ∧
      queue.entriesOf side.opposite = [] ∧ next.entriesOf side.opposite = [] := by
  obtain ⟨free, missing, -, -, rfl⟩ := submit_eq_queued.1 submitted
  refine ⟨?_, missing, entriesOf_eq_nil free, ?_⟩
  · rw [entriesOf_ofEntries, if_pos rfl, entries_of_side_ne_opposite free]
  · rw [entriesOf_ofEntries, if_neg (opposite_ne side).symm]

/-- An arrival waits only where the queue was not full. -/
theorem room_of_submit_queued
    (submitted : queue.submit side id capacity = .ok (.queued place, next)) :
    (queue.entriesOf side).length < capacity.value := by
  obtain ⟨free, -, room, -, -⟩ := submit_eq_queued.1 submitted
  rw [← entries_of_side_ne_opposite free]
  exact room

/-- The screen refuses an arrival only where the other side does not wait: one that waits itself,
or else one that finds no room. -/
theorem screen_eq_error {cause : MarketError} :
    queue.screen side id capacity = .error cause ↔
      queue.side? ≠ some side.opposite ∧
        (cause = .duplicate side.entry id ∧ id ∈ queue.entriesOf side ∨
          cause = .queueFull capacity ∧ id ∉ queue.entriesOf side ∧
            capacity.value ≤ queue.length) := by
  unfold screen
  rw [← contains_iff]
  by_cases opposed : queue.side? = some side.opposite
  · simp [opposed]
  · by_cases present : queue.contains side id = true
    · simp [opposed, present, eq_comm]
    · by_cases full : capacity.value ≤ queue.length <;> simp [opposed, present, full, eq_comm]

/-- A well-formed queue with a tag has entries. -/
theorem entries_ne_nil (formed : queue.isWellFormed) (tagged : queue.side? = some side) :
    queue.entries ≠ [] := by
  intro none
  have same := ofEntries_entries formed tagged
  rw [none] at same
  rw [← same] at tagged
  cases tagged

/-- A submission to a well-formed queue fails exactly where the screen does, for the same cause. -/
theorem submit_eq_error (formed : queue.isWellFormed) {cause : MarketError} :
    queue.submit side id capacity = .error cause ↔
      queue.screen side id capacity = .error cause := by
  unfold submit
  cases screened : queue.screen side id capacity with
  | error known => simp [bind, Except.bind]
  | ok passed =>
      by_cases opposed : queue.side? = some side.opposite
      · cases listed : queue.entries with
        | nil => exact absurd listed (entries_ne_nil formed opposed)
        | cons head rest => simp [opposed, bind, Except.bind, pure, Except.pure]
      · simp [opposed, bind, Except.bind, pure, Except.pure]

/-- Why an arrival is refused, by what waits. -/
theorem refusal_of_submit (formed : queue.isWellFormed = true) {cause : MarketError}
    (refused : queue.submit side id capacity = .error cause) :
    queue.entriesOf side.opposite = [] ∧
      (cause = .duplicate side.entry id ∧ id ∈ queue.entriesOf side ∨
        cause = .queueFull capacity ∧ id ∉ queue.entriesOf side ∧
          capacity.value ≤ (queue.entriesOf side).length) := by
  obtain ⟨free, why⟩ := screen_eq_error.1 ((submit_eq_error formed).1 refused)
  rw [length, entries_of_side_ne_opposite free] at why
  exact ⟨entriesOf_eq_nil free, why⟩

/-- A submission keeps a queue well formed. -/
theorem isWellFormed_of_submit {admission : Admission} (formed : queue.isWellFormed)
    (submitted : queue.submit side id capacity = .ok (admission, next)) : next.isWellFormed := by
  cases admission with
  | matched head =>
      obtain ⟨rest, -, listed, rfl⟩ := submit_eq_matched.1 submitted
      have distinct := nodup_entries formed
      rw [listed, List.nodup_cons] at distinct
      exact isWellFormed_ofEntries.2 distinct.2
  | queued place =>
      obtain ⟨free, missing, -, -, rfl⟩ := submit_eq_queued.1 submitted
      rw [← entries_of_side_ne_opposite free] at missing
      apply isWellFormed_ofEntries.2
      rw [List.nodup_append]
      refine ⟨nodup_entries formed, List.pairwise_singleton _ _, ?_⟩
      intro entry member last final same
      exact missing (by rw [← List.mem_singleton.1 final, ← same]; exact member)

/-- A removal takes the entry from its side and leaves the other side alone. -/
theorem entriesOf_remove (queue : Queue) (side other : Side) (id : Key) :
    (queue.remove side id).entriesOf other =
      if side = other then (queue.entriesOf side).erase id else queue.entriesOf other := by
  unfold remove
  by_cases tagged : queue.side? = some side
  · rw [if_pos tagged, entriesOf_ofEntries, entriesOf_of_side tagged]
    split
    · rfl
    · rename_i different
      exact (entriesOf_eq_nil (by rw [tagged]; exact fun same => different (Option.some.inj same))).symm
  · rw [if_neg tagged, entriesOf_normalize]
    split
    · rename_i same
      rw [← same, entriesOf_eq_nil tagged, List.erase_nil]
    · rfl

/-- A removal keeps a queue well formed. -/
theorem isWellFormed_remove (formed : queue.isWellFormed) (side : Side) (id : Key) :
    (queue.remove side id).isWellFormed := by
  unfold remove
  split
  · exact isWellFormed_ofEntries.2 ((nodup_entries formed).erase id)
  · rw [normalize_eq_self formed]
    exact formed

/-- The removal of somebody who does not wait changes nothing in a well-formed queue. -/
theorem remove_eq_self (formed : queue.isWellFormed) (missing : queue.contains side id = false) :
    queue.remove side id = queue := by
  unfold remove
  split
  · rename_i tagged
    have absent : id ∉ queue.entries := by
      rw [← entriesOf_of_side tagged, ← contains_iff, missing]
      exact Bool.false_ne_true
    rw [List.erase_of_not_mem absent, ofEntries_entries formed tagged]
  · exact normalize_eq_self formed

/-- An entry that came last and is taken out again leaves the queue as it was. -/
theorem remove_of_submit_queued (formed : queue.isWellFormed)
    (submitted : queue.submit side id capacity = .ok (.queued place, next)) :
    next.remove side id = queue := by
  obtain ⟨joined, missing, noOther, stillNone⟩ := entriesOf_of_submit_queued submitted
  have nextFormed := isWellFormed_remove (isWellFormed_of_submit formed submitted) side id
  apply eq_of_entriesOf nextFormed formed
  intro other
  rw [entriesOf_remove]
  by_cases same : side = other
  · subst same
    rw [if_pos rfl, joined, List.erase_append_right _ missing, List.erase_cons_head,
      List.append_nil]
  · rw [if_neg same, eq_opposite_of_ne same, stillNone, noOther]

/-- To look for an entry and take it out is to ask whether it waits and to remove it. -/
theorem extract_eq (queue : Queue) (side : Side) (id : Key) :
    queue.extract side id = (queue.contains side id, queue.remove side id) := by
  have found : queue.contains side id = ((queue.entriesOf side).idxOf? id).isSome := by
    rw [Bool.eq_iff_iff, contains_iff, List.isSome_idxOf?]
  rw [found, extract, remove]
  by_cases tagged : queue.side? = some side
  · rw [if_pos tagged, entriesOf_of_side tagged, List.erase_eq_eraseIdx]
    cases queue.entries.idxOf? id with
    | none =>
        rw [normalize, tagged]
        rfl
    | some index => rfl
  · rw [if_neg tagged, entriesOf_eq_nil tagged]
    rfl

/-- A position is one more than the index among the entries of its side. -/
theorem position_eq_some (waits : queue.position side id = some place) :
    ∃ index, place = index + 1 ∧ (queue.entriesOf side)[index]? = some id := by
  obtain ⟨index, found, same⟩ := Option.map_eq_some_iff.1 waits
  obtain ⟨inside, entry, -⟩ := List.idxOf?_eq_some_iff.1 found
  exact ⟨index, same.symm, List.getElem?_eq_some_iff.2 ⟨inside, entry⟩⟩

/-- A queue holds one kind of entries. -/
theorem entriesOf_eq_nil_or (queue : Queue) :
    queue.entriesOf .job = [] ∨ queue.entriesOf .node = [] := by
  cases queue with
  | empty => exact .inl rfl
  | jobs waiting => exact .inr rfl
  | nodes waiting => exact .inl rfl

/-- The length of a queue counts both sides, of which one is empty. -/
theorem length_eq (queue : Queue) :
    queue.length = (queue.entriesOf .job).length + (queue.entriesOf .node).length := by
  cases queue with
  | empty => rfl
  | jobs waiting => rfl
  | nodes waiting => exact (Nat.zero_add _).symm

/-- A bound for either side bounds the queue, since one side is empty. -/
theorem length_le {bound : Nat} (jobs : (queue.entriesOf .job).length ≤ bound)
    (nodes : (queue.entriesOf .node).length ≤ bound) : queue.length ≤ bound := by
  cases queue with
  | empty => exact jobs
  | jobs waiting => exact jobs
  | nodes waiting => exact nodes

end ComputeMarket.Queue
