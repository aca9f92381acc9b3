import ComputeMarket.Format.Scalar
import ComputeMarket.Proofs.KeyMap
import ComputeMarket.Proofs.Text.Identity

/-
This file proves that the fields of a written record are found again, and that written scalars,
lists and maps are read back as what they were.
-/

namespace ComputeMarket

namespace Json

/-- A list is read back when each of its items is. -/
theorem mapM_map_eq_some {α β : Type} {write : α → β} {read : β → Option α} {items : List α}
    (back : ∀ item ∈ items, read (write item) = some item) :
    (items.map write).mapM read = some items := by
  induction items with
  | nil => rfl
  | cons first rest inductionHypothesis =>
      rw [List.forall_mem_cons] at back
      rw [List.map_cons, List.mapM_cons, back.1, inductionHypothesis back.2]
      rfl

theorem list?_map {α : Type} {write : α → Json} {read : Json → Option α} {items : List α}
    (back : ∀ item ∈ items, read (write item) = some item) :
    list? read (.array (items.map write)) = some items :=
  mapM_map_eq_some back

namespace Record

/-- The record of members, with a place for every name that is asked for. -/
def ofMembers (names : List String) (members : List (String × Json)) : Record :=
  ⟨names.map fun name => (name, members.lookup name), true⟩

/-- Among members with distinct names, a name stands for one member at most. -/
theorem filter_name {members : List (String × Json)} (distinct : (members.map Prod.fst).Nodup)
    (name : String) :
    (members.filter fun member => member.1 = name) =
      (members.lookup name).toList.map fun value => (name, value) := by
  induction members with
  | nil => rfl
  | cons first rest inductionHypothesis =>
      obtain ⟨other, value⟩ := first
      rw [List.map_cons, List.nodup_cons] at distinct
      by_cases same : other = name
      · subst same
        have absent : (rest.filter fun member => member.1 = other) = [] := by
          rw [List.filter_eq_nil_iff]
          intro member inside
          have named : member.1 ∈ rest.map Prod.fst := List.mem_map_of_mem inside
          have different : member.1 ≠ other := fun same => distinct.1 (same ▸ named)
          simpa using different
        simp [absent]
      · have others := inductionHypothesis distinct.2
        have passed : (name == other) = false := beq_eq_false_iff_ne.2 (Ne.symm same)
        simp [same, passed, List.lookup_cons, others]

/-- Where no name stands twice, a member is found by its name. -/
theorem member?_eq {members : List (String × Json)} (distinct : (members.map Prod.fst).Nodup)
    (name : String) :
    member? name (members.map fun member => (some member.1, member.2)) =
      some (members.lookup name) := by
  have found : (members.map fun member => (some member.1, member.2)).filter
      (fun member => member.1 = some name) =
        (members.lookup name).toList.map fun value => (some name, value) := by
    simp [List.filter_map, Function.comp_def, filter_name distinct]
  rw [member?, found]
  cases members.lookup name <;> rfl

/-- A written record is read as a record that has its members. -/
theorem ofJson?_record (names : List String) {members : List (String × Json)}
    (distinct : (members.map Prod.fst).Nodup) :
    ofJson? names (Json.record members) = some (ofMembers names members) := by
  rw [Json.record, ofJson?, if_pos (by simp)]
  simp only [member?_eq distinct, Option.map_some]
  rw [← Option.pure_def, List.mapM_pure]
  rfl

/-- A listed field of an object is the member of its name. -/
theorem field_ofMembers {names : List String} (members : List (String × Json)) {name : String}
    (listed : name ∈ names) : (ofMembers names members).field name = members.lookup name := by
  have found : (names.map fun name => (name, members.lookup name)).lookup name =
      some (members.lookup name) := by
    induction names with
    | nil => simp at listed
    | cons first rest inductionHypothesis =>
        by_cases same : name = first
        · simp [same]
        · have later : name ∈ rest := (List.mem_cons.1 listed).resolve_left same
          have passed : (name == first) = false := beq_eq_false_iff_ne.2 same
          simp [List.lookup_cons, passed, inductionHypothesis later]
  rw [field, ofMembers, found]
  rfl

/-- A required field is there and read, or the object is refused. -/
theorem required_ofMembers {α : Type} {names : List String} (members : List (String × Json))
    {name : String} (listed : names.contains name = true) (read : Json → Option α) :
    (ofMembers names members).required name read = (members.lookup name).bind read := by
  rw [required, field_ofMembers members (by simpa using listed)]
  rfl

/-- A field that is left out has its standard value. -/
theorem withDefault_ofMembers {α : Type} {names : List String} (members : List (String × Json))
    {name : String} (listed : names.contains name = true) (absent : α) (read : Json → Option α) :
    (ofMembers names members).withDefault name absent read =
      (members.lookup name).elim (some absent) read := by
  rw [withDefault, field_ofMembers members (by simpa using listed)]
  cases members.lookup name <;> rfl

/-- What is read of a field that may be null or left out. -/
def orAbsent {α : Type} (read : Json → Option α) : Option Json → Option (Option α)
  | none => some none
  | some .null => some none
  | some value => (read value).map some

/-- An optional field may be left out or be null. -/
theorem optional_ofMembers {α : Type} {names : List String} (members : List (String × Json))
    {name : String} (listed : names.contains name = true) (read : Json → Option α) :
    (ofMembers names members).optional name read = orAbsent read (members.lookup name) := by
  rw [optional, field_ofMembers members (by simpa using listed)]
  rfl

/-- A field that is read goes on with its value. -/
theorem some_bind {α β : Type} (value : α) (next : α → Option β) :
    (some value >>= next) = next value := rfl

end Record

/-- Members are plain if their values are. -/
theorem membersArePlain_map {room : Nat} {members : List (String × Json)}
    (plain : ∀ member ∈ members, isPlain room member.2 = true) :
    membersArePlain room (members.map fun member => (some member.1, member.2)) = true := by
  induction members with
  | nil => rw [List.map_nil, membersArePlain]
  | cons first rest inductionHypothesis =>
      rw [List.forall_mem_cons] at plain
      rw [List.map_cons, membersArePlain, plain.1, inductionHypothesis plain.2]
      rfl

/-- The name of a case and the fields beside it are found again, if the fields are plain. -/
theorem tagged?_record {tag : String} (name : String) {members : List (String × Json)}
    (distinct : (tag :: members.map Prod.fst).Nodup)
    (plain : ∀ member ∈ members, isPlain 126 member.2 = true) :
    tagged? tag (record ((tag, ofString name) :: members)) = some (name, record members) := by
  have tagFound : Record.member? tag
      (((tag, ofString name) :: members).map fun member => (some member.1, member.2)) =
        some (some (ofString name)) := by
    rw [Record.member?_eq (by simpa using distinct), List.lookup_cons_self]
  have others : (((tag, ofString name) :: members).map
      fun member => (some member.1, member.2)).filter (·.1 ≠ some tag) =
        members.map fun member => (some member.1, member.2) := by
    have different : ∀ member ∈ members.map fun member => (some member.1, member.2),
        decide (member.1 ≠ some tag) = true := by
      intro member inside
      obtain ⟨⟨other, value⟩, listed, rfl⟩ := List.mem_map.1 inside
      have named : other ∈ members.map Prod.fst := List.mem_map_of_mem listed
      have apart : other ≠ tag := fun same => (List.nodup_cons.1 distinct).1 (same ▸ named)
      simpa using apart
    rw [List.map_cons, List.filter_cons_of_neg (by simp), List.filter_eq_self.2 different]
  rw [record, tagged?, tagFound, others]
  exact if_pos (membersArePlain_map plain)

/-- The integers of 64 bits are plain. -/
theorem isPlain_integer {room : Nat} {value : Int} (small : value.natAbs < 0x10000000000000000) :
    isPlain room (integer value) = true := by
  simp [isPlain, isIntegerFinite, small]

theorem isPlain_ofInt64 (room : Nat) (number : Int64) : isPlain room (ofInt64 number) = true := by
  have least := number.le_toInt
  have greatest := number.toInt_lt
  exact isPlain_integer (by omega)

end Json

namespace Key

theorem ofJson?_toJson (key : Key) : ofJson? key.toJson = some key := by
  simp [ofJson?, toJson, Json.ofString, Json.text?, ofText_text, Except.toOption]

/-- A key that may be absent is read back. -/
theorem orAbsent_orNull (key : Option Key) :
    Json.Record.orAbsent ofJson? (some (Json.orNull toJson key)) = some key := by
  cases key with
  | none => rfl
  | some key =>
      have read := key.ofJson?_toJson
      simp only [toJson, Json.ofString] at read
      simp [Json.orNull, Json.Record.orAbsent, toJson, Json.ofString, read]

end Key

namespace Digest

theorem ofJson?_toJson (digest : Digest) : ofJson? digest.toJson = some digest := by
  simp [ofJson?, toJson, Json.ofString, Json.text?, ofText_text, Except.toOption]

end Digest

namespace Json

theorem natural?_ofNat (number : Nat) : natural? (ofNat number) = some number := by
  simp [natural?, ofNat]

theorem int64?_ofInt64 (number : Int64) : int64? (ofInt64 number) = some number := by
  have least := number.le_toInt
  have greatest := number.toInt_lt
  rw [ofInt64, int64?, if_pos ⟨by omega, by omega⟩, Int64.ofInt_toInt]

theorem uint8?_ofUInt8 (number : UInt8) : uint8? (ofUInt8 number) = some number := by
  simp [uint8?, ofUInt8, natural?_ofNat, number.toNat_lt]

theorem uint32?_ofUInt32 (number : UInt32) : uint32? (ofUInt32 number) = some number := by
  simp [uint32?, ofUInt32, natural?_ofNat, number.toNat_lt]

end Json

theorem Amount.ofJson?_toJson (amount : Amount) : ofJson? amount.toJson = some amount := by
  simp [ofJson?, toJson, Json.natural?_ofNat, Amount.ofBase?_eq_some]

theorem Count.ofJson?_toJson (count : Count) : ofJson? count.toJson = some count := by
  simp [ofJson?, toJson, Json.natural?_ofNat, count.value_le]

theorem Stake.ofJson?_toJson (stake : Stake) : ofJson? stake.toJson = some stake := by
  simp [ofJson?, toJson, Json.natural?_ofNat, Stake.ofNat?, stake.units_lt]

theorem JobState.ofJson?_toJson (state : JobState) : ofJson? state.toJson = some state := by
  cases state <;> rfl

theorem Gpu.ofJson?_toJson (gpu : Gpu) : ofJson? gpu.toJson = some gpu := by
  cases gpu <;> rfl

namespace KeyMap

variable {α : Type}

/-- A map is the map of its own entries. -/
theorem ofList_entries (map : KeyMap α) : ofList map.entries = map := by
  apply ext
  intro key
  apply Option.ext
  intro value
  change (empty.insertAll map.entries).get? key = some value ↔ _
  rw [get?_insertAll map.keys_nodup fun _ _ => rfl, mem_entries_iff]
  simp

/-- A written map is read back when each of its values is. -/
theorem ofJson?_toJson {write : α → Json} {read : Json → Option α} (map : KeyMap α)
    (back : ∀ value ∈ map.values, read (write value) = some value) :
    ofJson? read (map.toJson write) = some map := by
  have entries : ((map.entries.map fun entry => (entry.1.text, write entry.2)).map
      fun member => (some member.1, member.2)).mapM (fun member => do
        return ((← (Key.ofText (← member.1)).toOption), (← read member.2))) = some map.entries := by
    rw [List.map_map]
    apply Json.mapM_map_eq_some
    rintro ⟨key, value⟩ member
    have inside : value ∈ map.values := List.mem_map_of_mem member
    simp [Key.ofText_text, back value inside, Except.toOption]
  rw [toJson, Json.record, ofJson?, entries]
  exact congrArg some map.ofList_entries

end KeyMap

end ComputeMarket
