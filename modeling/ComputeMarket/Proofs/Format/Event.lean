import ComputeMarket.Format.Event
import ComputeMarket.Proofs.Json.Record

/-
This file proves that admissions and events are read back as what they were. Their members are
set aside before the case is known, so all of them have to be plain.
-/

namespace ComputeMarket

open Json.Record

theorem Key.isPlain_toJson (room : Nat) (key : Key) : key.toJson.isPlain room = true := by
  rw [Key.toJson, Json.ofString, Json.isPlain]
  rfl

theorem Digest.isPlain_toJson (room : Nat) (digest : Digest) :
    digest.toJson.isPlain room = true := by
  rw [Digest.toJson, Json.ofString, Json.isPlain]
  rfl

theorem Count.isPlain_toJson (room : Nat) (count : Count) : count.toJson.isPlain room = true := by
  have greatest := count.value_le
  exact Json.isPlain_integer (by omega)

theorem Amount.isPlain_toJson (room : Nat) (amount : Amount) :
    amount.toJson.isPlain room = true := by
  have greatest := amount.base_lt
  exact Json.isPlain_integer (by omega)

theorem Key.isPlain_orNull (room : Nat) (key : Option Key) :
    (Json.orNull Key.toJson key).isPlain room = true := by
  cases key with
  | none => rw [Json.orNull, Json.isPlain]
  | some key => exact key.isPlain_toJson room

theorem JobAdmission.ofJson?_toJson (admission : JobAdmission) :
    ofJson? admission.toJson = some admission := by
  cases admission with
  | queued position =>
      rw [toJson, ofJson?, Json.tagged?_record "queued" (by simp)
        (by simp [Count.isPlain_toJson])]
      simp [-Option.bind_eq_bind, some_bind, ofJson?_record, required_ofMembers,
        Count.ofJson?_toJson]
  | matched node =>
      rw [toJson, ofJson?, Json.tagged?_record "matched" (by simp) (by simp [Key.isPlain_toJson])]
      simp [-Option.bind_eq_bind, some_bind, ofJson?_record, required_ofMembers,
        Key.ofJson?_toJson]

theorem NodeAdmission.ofJson?_toJson (admission : NodeAdmission) :
    ofJson? admission.toJson = some admission := by
  cases admission with
  | queued position =>
      rw [toJson, ofJson?, Json.tagged?_record "queued" (by simp)
        (by simp [Count.isPlain_toJson])]
      simp [-Option.bind_eq_bind, some_bind, ofJson?_record, required_ofMembers,
        Count.ofJson?_toJson]
  | matched job =>
      rw [toJson, ofJson?, Json.tagged?_record "matched" (by simp) (by simp [Key.isPlain_toJson])]
      simp [-Option.bind_eq_bind, some_bind, ofJson?_record, required_ofMembers,
        Key.ofJson?_toJson]

namespace Event

/-- No member of a written event has the name of another or of the tag. -/
theorem nodup_members (event : Event) : ("event" :: event.members.map Prod.fst).Nodup := by
  cases event <;> simp [members]

/-- The members of an event are plain, so that the reader keeps them until it knows the tag. -/
theorem isPlain_members (event : Event) :
    ∀ member ∈ event.members, member.2.isPlain 126 = true := by
  cases event <;>
    simp [members, Key.isPlain_toJson, Key.isPlain_orNull, Digest.isPlain_toJson,
      Count.isPlain_toJson, Amount.isPlain_toJson, Json.isPlain_ofInt64]

/-- An event is read back from its written form. -/
theorem ofJson?_toJson (event : Event) : ofJson? event.toJson = some event := by
  rw [toJson, ofJson?, Json.tagged?_record _ event.nodup_members event.isPlain_members]
  cases event <;>
    simp [-Option.bind_eq_bind, some_bind, name, members, ofJson?_record, required_ofMembers,
      optional_ofMembers, List.lookup_cons, Key.ofJson?_toJson, Key.orAbsent_orNull,
      Digest.ofJson?_toJson, Amount.ofJson?_toJson, Count.ofJson?_toJson, Json.int64?_ofInt64]

end Event

end ComputeMarket
