import ComputeMarket.Proofs.Store.Outcome
import Mathlib.Tactic.Tauto

/-
This file defines what the calls that succeeded tell about a market: the jobs that they created,
and the nodes that they left idle.
-/

namespace ComputeMarket

/-- An operation that succeeded, and what it answered. -/
structure Call where
  operation : Operation
  reply : Reply

namespace Call

/-- The job that a call creates in a market. -/
@[simp] def created? (market : Key) : Call → Option Key
  | ⟨.createJob place _ request, _⟩ => if place = market then some request.id else none
  | _ => none

/-- The node that a call lists in a market. -/
@[simp] def listed? (market : Key) : Call → Option Key
  | ⟨.listNode place node _, _⟩ => if place = market then some node else none
  | _ => none

/-- The node of a market that a call matches with a job. -/
@[simp] def matched? (market : Key) : Call → Option Key
  | ⟨.createJob place _ _, .jobAdmitted (.matched node)⟩ => if place = market then some node else none
  | ⟨.listNode place node _, .nodeAdmitted (.matched _)⟩ => if place = market then some node else none
  | _ => none

/-- The node that a call delists in a market. -/
@[simp] def delisted? (market : Key) : Call → Option Key
  | ⟨.delistNode place node, _⟩ => if place = market then some node else none
  | _ => none

/-- The node that a call lists stands in the market after the calls that come later: it was not
listed again, and neither matched nor delisted. -/
def Stands (market node : Key) (call : Call) (later : List Call) : Prop :=
  (∀ other ∈ later, other.listed? market ≠ some node) ∧
    ∀ other ∈ call :: later,
      other.matched? market ≠ some node ∧ other.delisted? market ≠ some node

instance (market node : Key) (call : Call) (later : List Call) :
    Decidable (call.Stands market node later) :=
  inferInstanceAs (Decidable (_ ∧ _))

/-- A call is about a node in a market. -/
def Touches (market node : Key) (call : Call) : Prop :=
  call.listed? market = some node ∨ call.matched? market = some node ∨
    call.delisted? market = some node

instance (market node : Key) (call : Call) : Decidable (call.Touches market node) :=
  inferInstanceAs (Decidable (_ ∨ _))

end Call

/-- The jobs created in a market, in the order of the calls. -/
def created (market : Key) (calls : List Call) : List Key := calls.filterMap (·.created? market)

/-- The nodes of a market whose last listing was neither matched nor delisted, in the order of
those listings. -/
def idle (market : Key) : List Call → List Key
  | [] => []
  | call :: later =>
    match call.listed? market with
    | some node =>
      if call.Stands market node later then node :: idle market later else idle market later
    | none => idle market later

variable {market node : Key} {call last : Call} {past later : List Call}

/-- One more call creates one more job or none. -/
theorem created_append_one (market : Key) (past : List Call) (last : Call) :
    created market (past ++ [last]) = created market past ++ (last.created? market).toList := by
  unfold created
  rw [List.filterMap_append]
  cases made : last.created? market with
  | none => rw [List.filterMap_cons_none made, List.filterMap_nil, Option.toList_none]
  | some job => rw [List.filterMap_cons_some made, List.filterMap_nil, Option.toList_some]

/-- A node still stands after one more call exactly if the call is not about it. -/
theorem Call.stands_append_one :
    call.Stands market node (later ++ [last]) ↔
      call.Stands market node later ∧ ¬ last.Touches market node := by
  unfold Stands Touches
  simp only [List.mem_append, List.mem_cons, or_imp, forall_and, forall_eq]
  tauto

/-- A call is about no node of a market that it does not name. -/
theorem Call.not_touches {operation : Operation} {reply : Reply}
    (away : operation.market? ≠ some market) (node : Key) :
    ¬ Call.Touches market node ⟨operation, reply⟩ := by
  have unnamed (place other : Key) (names : operation.market? = some place)
      (told : (if place = market then some other else none) = some node) : False := by
    split at told
    · rename_i here
      exact away (names.trans (congrArg some here))
    · cases told
  rintro (listed | matched | delisted)
  · cases operation with
    | listNode place other => exact unnamed place other rfl listed
    | _ => cases listed
  · unfold matched? at matched
    split at matched
    · rename_i place client request other same
      cases same
      exact unnamed place other rfl matched
    · rename_i place other stake job same
      cases same
      exact unnamed place other rfl matched
    · cases matched
  · cases operation with
    | delistNode place other => exact unnamed place other rfl delisted
    | _ => cases delisted

theorem Call.not_touches_of_unnamed {operation : Operation} {reply : Reply}
    (unnamed : operation.market? = none) (node : Key) :
    ¬ Call.Touches market node ⟨operation, reply⟩ := by
  apply Call.not_touches
  rw [unnamed]
  exact (Option.some_ne_none market).symm

/-- A call moves nobody but the nodes that it is about. -/
theorem idle_append_one (market : Key) (past : List Call) (last : Call) :
    idle market (past ++ [last]) =
      (idle market past).filter (fun node => ¬ last.Touches market node) ++ idle market [last] := by
  induction past with
  | nil => rfl
  | cons call rest inductionHypothesis =>
      rw [List.cons_append]
      unfold idle
      cases listed : call.listed? market with
      | none => exact inductionHypothesis
      | some node =>
          dsimp only
          by_cases stands : call.Stands market node rest
          · by_cases touched : last.Touches market node
            · rw [if_neg (fun both => (Call.stands_append_one.1 both).2 touched), if_pos stands,
                List.filter_cons_of_neg (by simpa using touched)]
              exact inductionHypothesis
            · rw [if_pos (Call.stands_append_one.2 ⟨stands, touched⟩), if_pos stands,
                List.filter_cons_of_pos (by simpa using touched), inductionHypothesis,
                List.cons_append]
              rfl
          · rw [if_neg (fun both => stands (Call.stands_append_one.1 both).1), if_neg stands]
            exact inductionHypothesis

/-- A call that is about no node leaves the idle nodes as they are. -/
theorem idle_of_untouched (untouched : ∀ node, ¬ last.Touches market node) :
    idle market (past ++ [last]) = idle market past := by
  have nobody : idle market [last] = [] := by
    unfold idle
    cases listed : last.listed? market with
    | none => rfl
    | some node => exact absurd (.inl listed) (untouched node)
  rw [idle_append_one, nobody, List.append_nil]
  exact List.filter_eq_self.2 fun node _ => by simpa using untouched node

/-- A call that takes a node away takes it out of its place. -/
theorem idle_of_taken (node : Key) (distinct : (idle market past).Nodup)
    (unlisted : last.listed? market = none)
    (touched : ∀ other, last.Touches market other ↔ other = node) :
    idle market (past ++ [last]) = (idle market past).erase node := by
  have nobody : idle market [last] = [] := by
    unfold idle
    rw [unlisted]
    rfl
  rw [idle_append_one, nobody, List.append_nil, distinct.erase_eq_filter]
  apply List.filter_congr
  intro other _
  rw [Bool.eq_iff_iff]
  simp [touched]

/-- A call that lists a node, which must wait, puts it last. -/
theorem idle_of_listed (new : node ∉ idle market past) (stands : last.Stands market node [])
    (listed : last.listed? market = some node)
    (touched : ∀ other, last.Touches market other ↔ other = node) :
    idle market (past ++ [last]) = idle market past ++ [node] := by
  have alone : idle market [last] = [node] := by
    unfold idle
    rw [listed]
    exact if_pos stands
  rw [idle_append_one, alone, List.filter_eq_self.2]
  intro other waits
  simp only [touched, decide_not, Bool.not_eq_true', decide_eq_false_iff_not]
  intro same
  rw [same] at waits
  exact new waits

end ComputeMarket
