import ComputeMarket.Key

/-
This file defines finite maps from keys, listed in the order of the keys.
-/

namespace ComputeMarket

/-- Entries in strictly rising order of their keys, so that equal maps have equal entries. -/
structure KeyMap (α : Type) where
  entries : List (Key × α)
  sorted : entries.Pairwise fun left right => left.1.number < right.1.number

namespace KeyMap

variable {α β : Type}

instance [DecidableEq α] : DecidableEq (KeyMap α) := fun left right =>
  decidable_of_iff (left.entries = right.entries)
    ⟨fun same => by cases left; cases right; simpa using same, congrArg entries⟩

def empty : KeyMap α := ⟨[], .nil⟩

instance : Inhabited (KeyMap α) := ⟨empty⟩

/-- The value beside a key in a list of entries. -/
def find (key : Key) : List (Key × α) → Option α
  | [] => none
  | entry :: rest => if entry.1 = key then some entry.2 else find key rest

/-- Puts an entry before the first greater key, in place of an entry with the same key. -/
def place (key : Key) (value : α) : List (Key × α) → List (Key × α)
  | [] => [(key, value)]
  | entry :: rest =>
    if key.number < entry.1.number then (key, value) :: entry :: rest
    else if key = entry.1 then (key, value) :: rest
    else entry :: place key value rest

theorem mem_place {key : Key} {value : α} {entries : List (Key × α)} {entry : Key × α}
    (member : entry ∈ place key value entries) : entry = (key, value) ∨ entry ∈ entries := by
  induction entries with
  | nil => simpa [place] using member
  | cons first rest inductionHypothesis => grind [place]

/-- An insertion keeps sorted entries sorted. -/
theorem place_sorted (key : Key) (value : α) {entries : List (Key × α)}
    (sorted : entries.Pairwise fun left right => left.1.number < right.1.number) :
    (place key value entries).Pairwise fun left right => left.1.number < right.1.number := by
  induction entries with
  | nil => simp [place]
  | cons first rest inductionHypothesis =>
      rw [List.pairwise_cons] at sorted
      unfold place
      split
      · rename_i below
        refine List.pairwise_cons.2 ⟨fun entry member => ?_, List.pairwise_cons.2 sorted⟩
        rcases List.mem_cons.1 member with rfl | later
        · exact below
        · exact Nat.lt_trans below (sorted.1 entry later)
      · split
        · rename_i same
          subst same
          exact List.pairwise_cons.2 sorted
        · rename_i notBelow different
          refine List.pairwise_cons.2 ⟨fun entry member => ?_, inductionHypothesis sorted.2⟩
          rcases mem_place member with rfl | later
          · have : key.number ≠ first.1.number := fun same => different (Key.ext same)
            simp only
            omega
          · exact sorted.1 entry later

/-- The value under a key, if there is one. -/
def get? (map : KeyMap α) (key : Key) : Option α := find key map.entries

def contains (map : KeyMap α) (key : Key) : Bool := (map.get? key).isSome

/-- The map with a value under a key, in place of the one that was there. -/
def insert (map : KeyMap α) (key : Key) (value : α) : KeyMap α :=
  ⟨place key value map.entries, place_sorted key value map.sorted⟩

def keys (map : KeyMap α) : List Key := map.entries.map Prod.fst

def values (map : KeyMap α) : List α := map.entries.map Prod.snd

def size (map : KeyMap α) : Nat := map.entries.length

/-- The map of a list of entries, where the last entry of a key counts. -/
def ofList (entries : List (Key × α)) : KeyMap α :=
  entries.foldl (fun map entry => map.insert entry.1 entry.2) empty

/-- After an insertion the new value is found under its key, and under all others what was found
before. -/
theorem find_place (key other : Key) (value : α) (entries : List (Key × α)) :
    find other (place key value entries) =
      if key = other then some value else find other entries := by
  induction entries with
  | nil => simp [place, find]
  | cons first rest inductionHypothesis => grind [place, find]

@[simp] theorem get?_empty (key : Key) : (empty : KeyMap α).get? key = none := rfl

/-- An insertion changes what is found under its own key only. -/
theorem get?_insert (map : KeyMap α) (key other : Key) (value : α) :
    (map.insert key value).get? other = if key = other then some value else map.get? other :=
  find_place key other value map.entries

@[simp] theorem get?_insert_self (map : KeyMap α) (key : Key) (value : α) :
    (map.insert key value).get? key = some value := by
  simp [get?_insert]

theorem get?_insert_of_ne (map : KeyMap α) {key other : Key} (value : α)
    (different : key ≠ other) : (map.insert key value).get? other = map.get? other := by
  simp [get?_insert, different]

/-- Sorted entries have each key once, so that every entry is found under its key. -/
theorem find_eq_some_of_mem {entries : List (Key × α)} {key : Key} {value : α}
    (sorted : entries.Pairwise fun left right => left.1.number < right.1.number)
    (member : (key, value) ∈ entries) : find key entries = some value := by
  induction entries with
  | nil => simp at member
  | cons first rest inductionHypothesis =>
      rw [List.pairwise_cons] at sorted
      rcases List.mem_cons.1 member with rfl | later
      · simp [find]
      · have above := sorted.1 _ later
        have different : first.1 ≠ key := fun same => by subst same; simp at above
        simp [find, different, inductionHypothesis sorted.2 later]

/-- What is found under a key is an entry. -/
theorem mem_of_find_eq_some {entries : List (Key × α)} {key : Key} {value : α}
    (found : find key entries = some value) : (key, value) ∈ entries := by
  induction entries with
  | nil => simp [find] at found
  | cons first rest inductionHypothesis => grind [find]

/-- The entries are what is found under some key. -/
theorem mem_entries_iff {map : KeyMap α} {key : Key} {value : α} :
    (key, value) ∈ map.entries ↔ map.get? key = some value :=
  ⟨find_eq_some_of_mem map.sorted, mem_of_find_eq_some⟩

/-- The keys are those under which something is found. -/
theorem contains_iff_mem_keys {map : KeyMap α} {key : Key} :
    map.contains key = true ↔ key ∈ map.keys := by
  rw [contains, Option.isSome_iff_exists, keys, List.mem_map]
  exact ⟨fun ⟨value, found⟩ => ⟨(key, value), mem_entries_iff.2 found, rfl⟩,
    fun ⟨entry, member, same⟩ => ⟨entry.2, mem_entries_iff.1 (same ▸ member)⟩⟩

/-- Maps that give every key the same value are equal. -/
theorem ext {left right : KeyMap α} (same : ∀ key, left.get? key = right.get? key) :
    left = right := by
  have entriesSame : left.entries = right.entries := by
    refine List.Perm.eq_of_pairwise ?_ left.sorted right.sorted ?_
    · intro first second _ _ before after
      exact absurd before (Nat.lt_asymm after)
    · apply (List.perm_ext_iff_of_nodup ?_ ?_).2
      · intro entry
        rw [mem_entries_iff, mem_entries_iff, same]
      · exact left.sorted.imp fun before different => by simp [different] at before
      · exact right.sorted.imp fun before different => by simp [different] at before
  cases left; cases right; simpa using entriesSame

end KeyMap

end ComputeMarket
