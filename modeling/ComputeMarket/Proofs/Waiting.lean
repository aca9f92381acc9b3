import ComputeMarket.Proofs.Outcome

/-
This file proves that every operation of the matching queue agrees with the checks made before it
and keeps the queue in shape: no entry twice, and a tag only while something waits.
-/

namespace ComputeMarket.Queue

variable {queue next : Queue} {side : Side} {id : Key} {capacity : Count} {admission : Admission}
  {place : Nat}

/-- The shape in which an operation leaves a queue. It has not grown beyond its capacity, and the
tag tells whether anything waits. -/
structure Keeps (queue : Queue) (capacity : Count) (next : Queue) : Prop where
  formed : next.isWellFormed = true
  bounded : next.length ≤ max queue.length capacity.value
  tagged : next.isEmpty = true ↔ next.side? = none

/-- How a queue answers an arrival. It refuses what the screen refuses, for the same cause and
without a change. It knows two causes: the arrival waits on its own side already, or nothing waits
for it and there is no room. -/
structure Answers (queue : Queue) (side : Side) (id : Key) (capacity : Count) : Prop where
  screened : ∀ cause, queue.submit side id capacity = .error cause ↔
    queue.screen side id capacity = .error cause
  unchanged : ∀ desk cause, desk.venue.market.queue = queue →
    queue.screen side id capacity = .error cause →
    (Desk.submit side id capacity).run desk = .error cause desk
  duplicate : ∀ entry other, queue.submit side id capacity = .error (.duplicate entry other) ↔
    entry = side.entry ∧ other = id ∧ queue.contains side id = true
  full : ∀ bound, queue.submit side id capacity = .error (.queueFull bound) ↔
    bound = capacity ∧ queue.side? ≠ some side.opposite ∧ queue.contains side id = false ∧
      capacity.value ≤ queue.length
  causes : ∀ cause, queue.submit side id capacity = .error cause →
    cause = .duplicate side.entry id ∨ cause = .queueFull capacity
  taken : ∀ admission next, queue.submit side id capacity = .ok (admission, next) →
    queue.Keeps capacity next

/-- How a queue gives up an entry. It tells whether the entry waited, and takes out that entry and
nothing else, so that the others keep their order. It is the removal that refunds make. -/
structure GivesUp (queue : Queue) (side : Side) (id : Key) (capacity : Count) : Prop where
  told : (queue.extract side id).1 = queue.contains side id
  removed : (queue.extract side id).2 = queue.remove side id
  remain : (queue.extract side id).2.entriesOf side =
    (queue.entriesOf side).filter fun entry => entry ≠ id
  other : (queue.extract side id).2.entriesOf side.opposite = queue.entriesOf side.opposite
  absent : queue.contains side id = false → (queue.extract side id).2 = queue
  kept : queue.Keeps capacity (queue.extract side id).2

/-- How a queue tells the place of an entry: counted from one, on the side that waits, and for
exactly the entries that it contains. -/
structure Locates (queue : Queue) (side : Side) (id : Key) : Prop where
  place : ∀ place, queue.position side id = some place ↔
    queue.side? = some side ∧ ∃ index, place = index + 1 ∧ queue.entries[index]? = some id
  waits : (∃ place, queue.position side id = some place) ↔ queue.contains side id = true

/-- A well-formed queue is empty exactly when it has no tag. -/
theorem isEmpty_iff_side (formed : queue.isWellFormed = true) :
    queue.isEmpty = true ↔ queue.side? = none := by
  cases queue with
  | empty => exact ⟨fun _ => rfl, fun _ => rfl⟩
  | jobs waiting => cases waiting <;> simp_all [isWellFormed, isEmpty, length, entries, side?]
  | nodes waiting => cases waiting <;> simp_all [isWellFormed, isEmpty, length, entries, side?]

/-- Nothing waits for an arrival on the side that waits. -/
theorem side_ne_opposite_of_contains (waits : queue.contains side id = true) :
    queue.side? ≠ some side.opposite := by
  intro opposed
  rw [contains_iff, entriesOf_eq_nil] at waits
  · cases waits
  · rw [opposed]
    exact fun same => opposite_ne side (Option.some.inj same)

/-- A submission makes no queue longer than the capacity, unless it was longer before. -/
theorem length_le_of_submit (submitted : queue.submit side id capacity = .ok (admission, next)) :
    next.length ≤ max queue.length capacity.value := by
  cases admission with
  | matched head =>
      obtain ⟨rest, -, listed, rfl⟩ := submit_eq_matched.1 submitted
      rw [length, length, entries_ofEntries, listed, List.length_cons]
      omega
  | queued place =>
      obtain ⟨-, -, room, -, rfl⟩ := submit_eq_queued.1 submitted
      rw [length, entries_ofEntries, List.length_append, List.length_singleton, ← length]
      omega

theorem length_remove_le (queue : Queue) (side : Side) (id : Key) :
    (queue.remove side id).length ≤ queue.length := by
  have shorter (other : Side) :
      ((queue.remove side id).entriesOf other).length ≤ (queue.entriesOf other).length := by
    rw [entriesOf_remove]
    split
    · rename_i same
      rw [same]
      exact List.length_erase_le
    · exact Nat.le_refl _
  rw [length_eq, length_eq]
  exact Nat.add_le_add (shorter .job) (shorter .node)

/-- In a list without duplicates, an entry is found where it stands. -/
theorem idxOf?_eq_some_iff_getElem? {waiting : List Key} (distinct : waiting.Nodup) {index : Nat} :
    waiting.idxOf? id = some index ↔ waiting[index]? = some id := by
  rw [List.idxOf?_eq_some_iff, List.getElem?_eq_some_iff]
  constructor
  · rintro ⟨inside, here, -⟩
    exact ⟨inside, here⟩
  · rintro ⟨inside, here⟩
    refine ⟨inside, here, ?_⟩
    intro earlier before there
    rw [← here] at there
    exact absurd ((List.getElem_inj distinct).1 there) (Nat.ne_of_lt before)

/-- A position is found exactly on the tagged side, one above the index of the entry. -/
theorem position_eq_some_iff (formed : queue.isWellFormed = true) :
    queue.position side id = some place ↔
      queue.side? = some side ∧ ∃ index, place = index + 1 ∧ queue.entries[index]? = some id := by
  rw [position, Option.map_eq_some_iff]
  simp only [idxOf?_eq_some_iff_getElem? (nodup_entriesOf formed side)]
  by_cases tagged : queue.side? = some side
  · simp [entriesOf_of_side tagged, tagged, and_comm, eq_comm]
  · simp [entriesOf_eq_nil tagged, tagged]

/-- Somebody has a position exactly if they wait. -/
theorem exists_position_iff :
    (∃ place, queue.position side id = some place) ↔ queue.contains side id = true := by
  rw [contains_iff, ← List.isSome_idxOf?, ← Option.isSome_iff_exists, position, Option.isSome_map]

/-- The submission to a well-formed queue agrees with its check and keeps its shape. -/
theorem answers (formed : queue.isWellFormed = true) (side : Side) (id : Key) (capacity : Count) :
    queue.Answers side id capacity where
  screened cause := submit_eq_error formed
  unchanged desk cause same refused := by
    subst same
    rw [Desk.submit_run, (submit_eq_error formed).2 refused]
  duplicate entry other := by
    rw [submit_eq_error formed, screen_eq_error, ← contains_iff]
    constructor
    · rintro ⟨-, ⟨same, waits⟩ | ⟨different, -⟩⟩
      · cases same
        exact ⟨rfl, rfl, waits⟩
      · cases different
    · rintro ⟨rfl, rfl, waits⟩
      exact ⟨side_ne_opposite_of_contains waits, .inl ⟨rfl, waits⟩⟩
  full bound := by
    rw [submit_eq_error formed, screen_eq_error, ← contains_iff, Bool.not_eq_true]
    constructor
    · rintro ⟨unserved, ⟨different, -⟩ | ⟨same, absent, full⟩⟩
      · cases different
      · cases same
        exact ⟨rfl, unserved, absent, full⟩
    · rintro ⟨rfl, unserved, absent, full⟩
      exact ⟨unserved, .inr ⟨rfl, absent, full⟩⟩
  causes cause refused := by
    obtain ⟨-, ⟨repeated, -⟩ | ⟨crowded, -⟩⟩ := screen_eq_error.1 ((submit_eq_error formed).1 refused)
    · exact .inl repeated
    · exact .inr crowded
  taken admission next submitted := by
    have nextFormed := isWellFormed_of_submit formed submitted
    exact ⟨nextFormed, length_le_of_submit submitted, isEmpty_iff_side nextFormed⟩

/-- The removal from a well-formed queue takes one entry out and keeps its shape. -/
theorem givesUp (formed : queue.isWellFormed = true) (side : Side) (id : Key) (capacity : Count) :
    queue.GivesUp side id capacity := by
  have removed : (queue.extract side id).2 = queue.remove side id := by rw [extract_eq]
  have shape := isWellFormed_remove formed side id
  refine
    { told := by rw [extract_eq]
      removed := removed
      remain := ?_
      other := ?_
      absent := ?_
      kept := ?_ }
  all_goals rw [removed]
  · rw [entriesOf_remove, if_pos rfl, (nodup_entriesOf formed side).erase_eq_filter]
    simp only [ne_eq, decide_not, bne, beq_eq_decide]
  · rw [entriesOf_remove, if_neg (opposite_ne side).symm]
  · exact remove_eq_self formed
  · exact ⟨shape, (length_remove_le queue side id).trans (Nat.le_max_left ..),
      isEmpty_iff_side shape⟩

/-- Whatever the shape of a well-formed queue, an arrival, a removal and a question are answered as
the checks say, and leave a well-formed queue. -/
theorem operations_keep_shape (formed : queue.isWellFormed = true) (side : Side) (id : Key)
    (capacity : Count) :
    queue.Answers side id capacity ∧ queue.GivesUp side id capacity ∧ queue.Locates side id :=
  ⟨answers formed side id capacity, givesUp formed side id capacity,
    ⟨fun _ => position_eq_some_iff formed, exists_position_iff⟩⟩

/-- A queue of two jobs that is full. -/
theorem operations_keep_shape_two_jobs :
    (jobs [Key.ofBytes [1], Key.ofBytes [2]]).isWellFormed = true ∧
    (jobs [Key.ofBytes [1], Key.ofBytes [2]]).Answers .job (Key.ofBytes [2]) (.ofNat 2) ∧
    (jobs [Key.ofBytes [1], Key.ofBytes [2]]).GivesUp .job (Key.ofBytes [2]) (.ofNat 2) ∧
    (jobs [Key.ofBytes [1], Key.ofBytes [2]]).Locates .job (Key.ofBytes [2]) := by
  have formed : (jobs [Key.ofBytes [1], Key.ofBytes [2]]).isWellFormed = true := by decide +kernel
  exact ⟨formed, operations_keep_shape formed .job (Key.ofBytes [2]) (.ofNat 2)⟩

end ComputeMarket.Queue
