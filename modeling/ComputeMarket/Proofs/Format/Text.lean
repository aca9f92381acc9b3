import ComputeMarket.Proofs.Format
import ComputeMarket.Proofs.Format.Event

/-
This file proves that every stored form is read back from its text, whatever layout it was written
in and whatever blanks stand around it.
-/

namespace ComputeMarket

/-- Every value is read back from its written form between two strings. -/
def ReadsBack {α : Type} (write : α → Json) (read : Json → Option α) (layout : Json.Layout)
    (leading trailing : String) : Prop :=
  ∀ value : α,
    (Json.ofText? (leading ++ (write value).text layout ++ trailing)).bind read = some value

variable {leading trailing : String}

/-- A written value is read back with blank text around it. -/
theorem Json.ofText?_between (layout : Layout) (json : Json)
    (blankBefore : ∀ character ∈ leading.toList, isBlank character = true)
    (blankAfter : ∀ character ∈ trailing.toList, isBlank character = true) :
    ofText? (leading ++ json.text layout ++ trailing) = some json := by
  have read := ofChars?_chars layout json leading.toList blankBefore blankAfter
  rw [ofText?, String.toList_append, String.toList_append, text, String.toList_ofList,
    List.append_assoc]
  exact read

/-- A value that is read back from its JSON form is read back from its text. -/
theorem readsBack {α : Type} {write : α → Json} {read : Json → Option α} (layout : Json.Layout)
    (blankBefore : ∀ character ∈ leading.toList, Json.isBlank character = true)
    (blankAfter : ∀ character ∈ trailing.toList, Json.isBlank character = true)
    (back : ∀ value, read (write value) = some value) :
    ReadsBack write read layout leading trailing := by
  intro value
  rw [Json.ofText?_between layout (write value) blankBefore blankAfter, Option.bind_some]
  exact back value

/-- Reading a text undoes writing it, for all that the ledger, the configuration, the replies and
the events are made of. -/
theorem stored_forms_read_back (layout : Json.Layout)
    (blankBefore : ∀ character ∈ leading.toList, Json.isBlank character = true)
    (blankAfter : ∀ character ∈ trailing.toList, Json.isBlank character = true) :
    ReadsBack Snapshot.toJson Snapshot.ofJson? layout leading trailing ∧
      ReadsBack Config.toJson Config.ofJson? layout leading trailing ∧
      ReadsBack Market.toJson Market.ofJson? layout leading trailing ∧
      ReadsBack Job.toJson Job.ofJson? layout leading trailing ∧
      ReadsBack Queue.toJson Queue.ofJson? layout leading trailing ∧
      ReadsBack BalanceBook.toJson BalanceBook.ofJson? layout leading trailing ∧
      ReadsBack Reputation.toJson Reputation.ofJson? layout leading trailing ∧
      ReadsBack Event.toJson Event.ofJson? layout leading trailing ∧
      ReadsBack JobAdmission.toJson JobAdmission.ofJson? layout leading trailing ∧
      ReadsBack NodeAdmission.toJson NodeAdmission.ofJson? layout leading trailing :=
  ⟨readsBack layout blankBefore blankAfter Snapshot.ofJson?_toJson,
    readsBack layout blankBefore blankAfter Config.ofJson?_toJson,
    readsBack layout blankBefore blankAfter Market.ofJson?_toJson,
    readsBack layout blankBefore blankAfter Job.ofJson?_toJson,
    readsBack layout blankBefore blankAfter Queue.ofJson?_toJson,
    readsBack layout blankBefore blankAfter BalanceBook.ofJson?_toJson,
    readsBack layout blankBefore blankAfter Reputation.ofJson?_toJson,
    readsBack layout blankBefore blankAfter Event.ofJson?_toJson,
    readsBack layout blankBefore blankAfter JobAdmission.ofJson?_toJson,
    readsBack layout blankBefore blankAfter NodeAdmission.ofJson?_toJson⟩

/-- An event with the largest amount and the earliest time, with blank text around it. -/
theorem stored_forms_read_back_earliest :
    let event := Event.jobTimedOut (Key.ofBytes [1]) (Key.ofBytes [2]) (Key.ofBytes [3]) none
      ⟨0xffffffffffffffff, by decide⟩ Int64.minValue
    (∀ character ∈ " \n".toList, Json.isBlank character = true) ∧
      (∀ character ∈ "\r\n\t".toList, Json.isBlank character = true) ∧
      (Json.ofText? (" \n" ++ event.toJson.text .indented ++ "\r\n\t")).bind Event.ofJson? =
        some event := by
  intro event
  have blankBefore : ∀ character ∈ " \n".toList, Json.isBlank character = true :=
    List.all_eq_true.1 rfl
  have blankAfter : ∀ character ∈ "\r\n\t".toList, Json.isBlank character = true :=
    List.all_eq_true.1 rfl
  obtain ⟨_, _, _, _, _, _, _, events, _, _⟩ :=
    stored_forms_read_back .indented blankBefore blankAfter
  exact ⟨blankBefore, blankAfter, events event⟩

end ComputeMarket
