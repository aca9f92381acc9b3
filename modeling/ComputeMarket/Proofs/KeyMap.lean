import ComputeMarket.KeyMap
import Mathlib.Algebra.Order.BigOperators.Group.List
import Mathlib.Algebra.Order.Ring.Nat

/-
This file adds what the theory of the market needs of finite maps: their values, the map of
their values under a function, two maps spliced together, and the sum of a weight over values.
-/

namespace ComputeMarket.KeyMap

variable {α β : Type}

/-- The values of a map are those found under some key. -/
theorem mem_values {map : KeyMap α} {value : α} :
    value ∈ map.values ↔ ∃ key, map.get? key = some value := by
  rw [values, List.mem_map]
  constructor
  · rintro ⟨entry, member, rfl⟩
    exact ⟨entry.1, mem_entries_iff.1 member⟩
  · rintro ⟨key, found⟩
    exact ⟨(key, value), mem_entries_iff.2 found, rfl⟩

theorem keys_nodup (map : KeyMap α) : map.keys.Nodup := by
  rw [keys, List.Nodup, List.pairwise_map]
  exact map.sorted.imp fun before same => absurd before (by rw [same]; exact Nat.lt_irrefl _)

theorem contains_eq_false {map : KeyMap α} {key : Key} :
    map.contains key = false ↔ map.get? key = none := by
  rw [contains, Option.isSome_eq_false_iff, Option.isNone_iff_eq_none]

theorem contains_iff_exists {map : KeyMap α} {key : Key} :
    map.contains key = true ↔ ∃ value, map.get? key = some value := by
  rw [contains, Option.isSome_iff_exists]

/-- Filing a value again where it already is changes nothing. -/
theorem insert_same {map : KeyMap α} {key : Key} {value : α} (found : map.get? key = some value) :
    map.insert key value = map := by
  apply ext
  intro other
  by_cases same : key = other
  · subst same
    rw [get?_insert_self, found]
  · rw [get?_insert_of_ne map value same]

/-- A value filed in place of one that looks the same changes nothing that is seen of the map. -/
theorem map_get?_insert {f : α → β} {map : KeyMap α} {key : Key} {old value : α}
    (found : map.get? key = some old) (same : f value = f old) (other : Key) :
    ((map.insert key value).get? other).map f = (map.get? other).map f := by
  rw [get?_insert]
  split
  · rename_i sameKey
    rw [← sameKey, found, Option.map_some, Option.map_some, same]
  · rfl

/-- What holds of every value of a map and of a new one holds of every value after it is filed. -/
theorem forall_get?_insert {P : Key → α → Prop} {map : KeyMap α} {key : Key} {value : α}
    (all : ∀ other old, map.get? other = some old → P other old) (new : P key value) :
    ∀ other later, (map.insert key value).get? other = some later → P other later := by
  intro other later found
  rw [get?_insert] at found
  split at found
  · rename_i same
    cases found
    exact same ▸ new
  · exact all other later found

/-- Only the last value filed under a key counts. -/
theorem insert_insert (map : KeyMap α) (key : Key) (first last : α) :
    (map.insert key first).insert key last = map.insert key last := by
  apply ext
  intro other
  rw [get?_insert, get?_insert, get?_insert]
  split <;> rfl

/-- Values under different keys may be filed in either order. -/
theorem insert_comm (map : KeyMap α) {key other : Key} (value next : α) (different : key ≠ other) :
    (map.insert key value).insert other next = (map.insert other next).insert key value := by
  apply ext
  intro third
  rw [get?_insert, get?_insert, get?_insert, get?_insert]
  by_cases same : other = third
  · subst same
    rw [if_pos rfl, if_neg different, if_pos rfl]
  · rw [if_neg same, if_neg same]

/-- An insertion adds its own key and no other. -/
theorem contains_insert (map : KeyMap α) (key other : Key) (value : α) :
    (map.insert key value).contains other = true ↔ other = key ∨ map.contains other = true := by
  rw [contains, contains, get?_insert]
  by_cases same : key = other
  · rw [if_pos same]
    exact ⟨fun _ => .inl same.symm, fun _ => rfl⟩
  · rw [if_neg same, or_iff_right (Ne.symm same)]

/-- The map after filing entries one after the other. -/
def insertAll (map : KeyMap α) (entries : List (Key × α)) : KeyMap α :=
  entries.foldl (fun map entry => map.insert entry.1 entry.2) map

/-- Keys are free after a value is filed when they were free and are not its key. -/
theorem free_insert_iff {map : KeyMap α} {key : Key} {value : α} {keys : List Key} :
    (∀ other ∈ keys, (map.insert key value).get? other = none) ↔
      key ∉ keys ∧ ∀ other ∈ keys, map.get? other = none := by
  constructor
  · intro free
    constructor
    · intro member
      have missing := free key member
      rw [get?_insert_self] at missing
      cases missing
    · intro other member
      have missing := free other member
      rw [get?_insert] at missing
      split at missing
      · cases missing
      · exact missing
  · intro free other member
    have different : key ≠ other := by
      intro same
      subst same
      exact free.1 member
    rw [get?_insert_of_ne map value different]
    exact free.2 other member

/-- Entries under distinct free keys are added to those of the map. -/
theorem get?_insertAll {map : KeyMap α} {entries : List (Key × α)}
    (distinct : (entries.map Prod.fst).Nodup)
    (free : ∀ key ∈ entries.map Prod.fst, map.get? key = none) (key : Key) (value : α) :
    (map.insertAll entries).get? key = some value ↔
      (key, value) ∈ entries ∨ map.get? key = some value := by
  induction entries generalizing map with
  | nil => simp [insertAll]
  | cons first rest inductionHypothesis =>
      rw [List.map_cons, List.nodup_cons] at distinct
      rw [List.map_cons, List.forall_mem_cons] at free
      have freeLater : ∀ key ∈ rest.map Prod.fst, (map.insert first.1 first.2).get? key = none :=
        free_insert_iff.2 ⟨distinct.1, free.2⟩
      have later := inductionHypothesis distinct.2 freeLater
      change ((map.insert first.1 first.2).insertAll rest).get? key = some value ↔ _
      rw [later, get?_insert, List.mem_cons]
      by_cases same : first.1 = key
      · have missing := free.1
        rw [same] at missing
        rw [if_pos same, missing, Option.some.injEq, Prod.ext_iff]
        simp only [same, true_and, reduceCtorEq, or_false]
        rw [or_comm, eq_comm]
      · rw [if_neg same, Prod.ext_iff]
        simp only [Ne.symm same, false_and, false_or]

/-- The map with every value changed by a function. -/
def map (f : α → β) (source : KeyMap α) : KeyMap β where
  entries := source.entries.map fun entry => (entry.1, f entry.2)
  sorted := by
    rw [List.pairwise_map]
    exact source.sorted

theorem find_map (f : α → β) (key : Key) (entries : List (Key × α)) :
    find key (entries.map fun entry => (entry.1, f entry.2)) = (find key entries).map f := by
  induction entries with
  | nil => rfl
  | cons first rest inductionHypothesis =>
      by_cases same : first.1 = key
      · simp [find, same]
      · simp [find, same, inductionHypothesis]

@[simp] theorem get?_map (f : α → β) (source : KeyMap α) (key : Key) :
    (source.map f).get? key = (source.get? key).map f :=
  find_map f key source.entries

theorem map_insert (f : α → β) (source : KeyMap α) (key : Key) (value : α) :
    (source.insert key value).map f = (source.map f).insert key (f value) := by
  apply ext
  intro other
  rw [get?_map, get?_insert, get?_insert, get?_map]
  split <;> rfl

section Splice

variable (chosen other : Key → Prop) [DecidablePred chosen] [DecidablePred other]

/-- The entries under chosen keys. -/
def restrict (map : KeyMap α) : KeyMap α where
  entries := map.entries.filter fun entry => chosen entry.1
  sorted := map.sorted.filter _

/-- A choice of keys hides the entries of all others. -/
theorem find_filter (key : Key) (entries : List (Key × α)) :
    find key (entries.filter fun entry => chosen entry.1) =
      if chosen key then find key entries else none := by
  induction entries with
  | nil => simp [find]
  | cons first rest inductionHypothesis =>
      by_cases same : first.1 = key
      · subst same
        by_cases kept : chosen first.1
        · simp [find, kept]
        · simp [kept, inductionHypothesis]
      · by_cases kept : chosen first.1
        · simp [find, kept, same, inductionHypothesis]
        · simp [find, kept, same, inductionHypothesis]

theorem get?_restrict (map : KeyMap α) (key : Key) :
    (map.restrict chosen).get? key = if chosen key then map.get? key else none :=
  find_filter chosen key map.entries

/-- The entries of one map under chosen keys and of another under all other keys. -/
def splice (inner outer : KeyMap α) : KeyMap α :=
  (outer.restrict fun key => ¬ chosen key).insertAll (inner.restrict chosen).entries

/-- A spliced map is the inner one at the chosen keys and the outer one at all others. -/
theorem get?_splice (inner outer : KeyMap α) (key : Key) :
    (splice chosen inner outer).get? key =
      if chosen key then inner.get? key else outer.get? key := by
  have distinct : ((inner.restrict chosen).entries.map Prod.fst).Nodup :=
    (inner.restrict chosen).keys_nodup
  have free : ∀ key ∈ (inner.restrict chosen).entries.map Prod.fst,
      (outer.restrict fun key => ¬ chosen key).get? key = none := by
    intro key member
    obtain ⟨value, found⟩ := contains_iff_exists.1 (contains_iff_mem_keys.2 member)
    rw [get?_restrict] at found ⊢
    by_cases kept : chosen key
    · rw [if_neg (not_not_intro kept)]
    · rw [if_neg kept] at found
      cases found
  apply Option.ext
  intro value
  rw [splice, get?_insertAll distinct free, mem_entries_iff, get?_restrict, get?_restrict]
  by_cases kept : chosen key <;> simp [kept]

/-- At a chosen key a spliced map has what the inner one has. -/
theorem contains_splice {key : Key} (inside : chosen key) (inner outer : KeyMap α) :
    (splice chosen inner outer).contains key = inner.contains key := by
  rw [contains, get?_splice, if_pos inside]
  rfl

/-- An insertion at a chosen key goes into the inner map. -/
theorem insert_splice {key : Key} (inside : chosen key) (inner outer : KeyMap α) (value : α) :
    (splice chosen inner outer).insert key value =
      splice chosen (inner.insert key value) outer := by
  apply ext
  intro other
  rw [get?_insert, get?_splice, get?_splice, get?_insert]
  by_cases same : key = other
  · subst same
    rw [if_pos rfl, if_pos inside, if_pos rfl]
  · rw [if_neg same, if_neg same]

/-- A map spliced with itself is the map. -/
theorem splice_self (map : KeyMap α) : splice chosen map map = map := by
  apply ext
  intro key
  rw [get?_splice, ite_self]

/-- Maps that agree under the chosen keys splice to the outer one. -/
theorem splice_eq_outer {inner outer : KeyMap α}
    (agree : ∀ key, chosen key → inner.get? key = outer.get? key) :
    splice chosen inner outer = outer := by
  apply ext
  intro key
  rw [get?_splice]
  split
  · rename_i inside
    exact agree key inside
  · rfl

/-- Two changes of one map under keys apart from each other add up in either order. -/
theorem splice_comm {first second base : KeyMap α} (apart : ∀ key, chosen key → ¬ other key)
    (firstKept : ∀ key, ¬ chosen key → first.get? key = base.get? key)
    (secondKept : ∀ key, ¬ other key → second.get? key = base.get? key) :
    splice chosen first second = splice other second first := by
  apply ext
  intro key
  rw [get?_splice, get?_splice]
  by_cases inFirst : chosen key
  · rw [if_pos inFirst, if_neg (apart key inFirst)]
  · by_cases inSecond : other key
    · rw [if_neg inFirst, if_pos inSecond]
    · rw [if_neg inFirst, if_neg inSecond, firstKept key inFirst, secondKept key inSecond]

end Splice

/-- The sum of a weight over all values. -/
def total (weight : α → Nat) (map : KeyMap α) : Nat := (map.values.map weight).sum

/-- Nothing is found in front of the first of sorted keys. -/
theorem find_eq_none_of_lt {key : Key} {entries : List (Key × α)}
    (below : ∀ entry ∈ entries, key.number < entry.1.number) : find key entries = none := by
  cases found : find key entries with
  | none => rfl
  | some value => exact absurd (below _ (mem_of_find_eq_some found)) (Nat.lt_irrefl _)

/-- The sum of a weight over sorted entries grows by the weight of the new value and loses that of
the value in whose place it is put. -/
theorem sum_place (weight : α → Nat) (key : Key) (value : α) {entries : List (Key × α)}
    (sorted : entries.Pairwise fun left right => left.1.number < right.1.number) :
    ((place key value entries).map fun entry => weight entry.2).sum +
        (find key entries).elim 0 weight =
      (entries.map fun entry => weight entry.2).sum + weight value := by
  induction entries with
  | nil => simp [place, find]
  | cons first rest inductionHypothesis =>
      rw [List.pairwise_cons] at sorted
      have tail := inductionHypothesis sorted.2
      unfold place
      split
      · rename_i below
        have missing : find key (first :: rest) = none := by
          apply find_eq_none_of_lt
          intro entry member
          rcases List.mem_cons.1 member with rfl | later
          · exact below
          · exact Nat.lt_trans below (sorted.1 entry later)
        rw [missing]
        simp only [List.map_cons, List.sum_cons, Option.elim_none]
        omega
      · split
        · rename_i same
          subst same
          simp only [find, List.map_cons, List.sum_cons, if_true, Option.elim_some]
          omega
        · rename_i different
          simp only [find, Ne.symm different, List.map_cons, List.sum_cons, if_false]
          omega

/-- A weight's sum grows by the new value's weight, less the weight of the value replaced. -/
theorem total_insert (weight : α → Nat) (map : KeyMap α) (key : Key) (value : α) :
    (map.insert key value).total weight + (map.get? key).elim 0 weight =
      map.total weight + weight value := by
  have placed := sum_place weight key value map.sorted
  simp only [total, values, List.map_map, Function.comp_def]
  exact placed

/-- A value under a new key adds its weight to the total. -/
theorem total_insert_new (weight : α → Nat) {map : KeyMap α} {key : Key} (value : α)
    (missing : map.get? key = none) :
    (map.insert key value).total weight = map.total weight + weight value := by
  have placed := total_insert weight map key value
  rwa [missing, Option.elim_none, Nat.add_zero] at placed

/-- A value in place of another changes the total by the difference of their weights. -/
theorem total_insert_of_get? (weight : α → Nat) {map : KeyMap α} {key : Key} {old : α}
    (value : α) (found : map.get? key = some old) :
    (map.insert key value).total weight + weight old = map.total weight + weight value := by
  have placed := total_insert weight map key value
  rwa [found, Option.elim_some] at placed

/-- A value that weighs as much as the one that it replaces changes no sum. -/
theorem total_insert_same (weight : α → Nat) {map : KeyMap α} {key : Key} {old value : α}
    (found : map.get? key = some old) (same : weight value = weight old) :
    (map.insert key value).total weight = map.total weight := by
  have placed := total_insert_of_get? weight value found
  rw [same] at placed
  exact Nat.add_right_cancel placed

/-- No value weighs more than all values together. -/
theorem le_total (weight : α → Nat) {map : KeyMap α} {key : Key} {value : α}
    (found : map.get? key = some value) : weight value ≤ map.total weight := by
  have member : value ∈ map.values := mem_values.2 ⟨key, found⟩
  exact List.le_sum_of_mem (List.mem_map_of_mem member)

/-- A weight of one for some values and none for the others counts them. -/
theorem total_indicator (chosen : α → Prop) [DecidablePred chosen] (map : KeyMap α) :
    map.total (fun value => if chosen value then 1 else 0) = map.values.countP chosen := by
  rw [total, List.sum_map_ite, List.countP_eq_length_filter]
  simp

theorem total_one (map : KeyMap α) : map.total (fun _ => 1) = map.size := by
  simp [total, values, size, Function.comp_def]

theorem length_values (map : KeyMap α) : map.values.length = map.size := List.length_map _

/-- A new key makes a map larger by one. -/
theorem size_insert_new {map : KeyMap α} {key : Key} (value : α)
    (missing : map.get? key = none) : (map.insert key value).size = map.size + 1 := by
  rw [← total_one, ← total_one, total_insert_new (fun _ => 1) value missing]

theorem size_insert_of_get? {map : KeyMap α} {key : Key} {old : α} (value : α)
    (found : map.get? key = some old) : (map.insert key value).size = map.size := by
  rw [← total_one, ← total_one, total_insert_same (fun _ => 1) found rfl]

end ComputeMarket.KeyMap
