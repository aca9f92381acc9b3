import ComputeMarket.Proofs.Guard
import ComputeMarket.Proofs.Queue

/-
This file proves that whom the matching queue pairs does not depend on the order in which jobs and
nodes come in between one another: the first job goes with the first node, the second with the
second, and what is left over waits.
-/

namespace ComputeMarket

/-- What comes to a queue, and how many entries may wait when it comes. -/
structure Arrival where
  side : Side
  id : Key
  capacity : Count

namespace Arrival

/-- The ids that arrive on a side, first one first. -/
def ids (side : Side) (arrivals : List Arrival) : List Key :=
  (arrivals.filter (·.side = side)).map Arrival.id

/-- The job and the node that an answer reports as a pair. -/
def pair? (arrival : Arrival) : Admission → Option (Key × Key)
  | .queued _ => none
  | .matched counterpart =>
    match arrival.side with
    | .job => some (arrival.id, counterpart)
    | .node => some (counterpart, arrival.id)

/-- The pairs that the answers to arrivals report, in their order. -/
def pairs (arrivals : List Arrival) (admissions : List Admission) : List (Key × Key) :=
  (arrivals.zip admissions).filterMap fun entry => entry.1.pair? entry.2

/-- The answer that two lines would give, one for each side: the arrival goes with the one of its
own rank in the other line, or waits behind those of its line that have nobody yet. -/
def answer (past : List Arrival) (arrival : Arrival) : Admission :=
  let rank := (ids arrival.side past).length
  let others := ids arrival.side.opposite past
  match others[rank]? with
  | some counterpart => .matched counterpart
  | none => .queued (rank + 1 - others.length)

/-- The answers of two lines to arrivals one after the other. -/
def answers (past : List Arrival) : List Arrival → List Admission
  | [] => []
  | arrival :: rest => answer past arrival :: answers (past ++ [arrival]) rest

/-- The ids of two runs of arrivals follow each other. -/
theorem ids_append (side : Side) (past rest : List Arrival) :
    ids side (past ++ rest) = ids side past ++ ids side rest := by
  rw [ids, List.filter_append, List.map_append]
  rfl

theorem ids_singleton_self (arrival : Arrival) : ids arrival.side [arrival] = [arrival.id] := by
  simp [ids]

theorem ids_singleton_of_ne {arrival : Arrival} {side : Side} (different : arrival.side ≠ side) :
    ids side [arrival] = [] := by
  simp [ids, different]

/-- The arrival of a rank stands somewhere among the arrivals. -/
theorem exists_rank {side : Side} {id : Key} {arrivals : List Arrival} {rank : Nat}
    (found : (ids side arrivals)[rank]? = some id) :
    ∃ before arrival after, arrivals = before ++ arrival :: after ∧ arrival.side = side ∧
      arrival.id = id ∧ (ids side before).length = rank := by
  induction arrivals generalizing rank with
  | nil => cases found
  | cons first rest inductionHypothesis =>
      rw [← List.singleton_append, ids_append] at found
      by_cases same : first.side = side
      · rw [← same, ids_singleton_self, same] at found
        cases rank with
        | zero => exact ⟨[], first, rest, rfl, same, Option.some.inj found, rfl⟩
        | succ rank =>
            obtain ⟨before, arrival, after, split, sameSide, sameId, ranked⟩ :=
              inductionHypothesis found
            refine ⟨first :: before, arrival, after, by rw [split]; rfl, sameSide, sameId, ?_⟩
            rw [← List.singleton_append, ids_append, ← same, ids_singleton_self, same,
              List.length_append, ranked, List.length_singleton, Nat.add_comm]
      · rw [ids_singleton_of_ne same, List.nil_append] at found
        obtain ⟨before, arrival, after, split, sameSide, sameId, ranked⟩ :=
          inductionHypothesis found
        refine ⟨first :: before, arrival, after, by rw [split]; rfl, sameSide, sameId, ?_⟩
        rw [← List.singleton_append, ids_append, ids_singleton_of_ne same, List.nil_append, ranked]

/-- The answer to an arrival depends on those before it only. -/
theorem getElem?_answers (past before : List Arrival) (arrival : Arrival) (after : List Arrival) :
    (answers past (before ++ arrival :: after))[before.length]? =
      some (answer (past ++ before) arrival) := by
  induction before generalizing past with
  | nil =>
      rw [List.append_nil]
      rfl
  | cons first rest inductionHypothesis =>
      have later := inductionHypothesis (past ++ [first])
      rw [List.append_assoc] at later
      exact later

section Zip

variable {α β : Type}

/-- One more on the left is paired with the one of its rank on the right, if there is one. -/
theorem zip_append_left (lefts : List α) (left : α) (rights : List β) :
    (lefts ++ [left]).zip rights =
      lefts.zip rights ++ (rights[lefts.length]?.map fun right => (left, right)).toList := by
  induction lefts generalizing rights with
  | nil => cases rights <;> rfl
  | cons first rest inductionHypothesis =>
      cases rights with
      | nil => rfl
      | cons right rights => exact congrArg (_ :: ·) (inductionHypothesis rights)

theorem zip_append_right (lefts : List α) (rights : List β) (right : β) :
    lefts.zip (rights ++ [right]) =
      lefts.zip rights ++ (lefts[rights.length]?.map fun left => (left, right)).toList := by
  induction rights generalizing lefts with
  | nil => cases lefts <;> simp
  | cons first rest inductionHypothesis =>
      cases lefts with
      | nil => rfl
      | cons left lefts => exact congrArg (_ :: ·) (inductionHypothesis lefts)

end Zip

/-- One arrival adds the pair that its answer reports to the pairs by rank. -/
theorem zip_ids_append (past : List Arrival) (arrival : Arrival) :
    (ids .job (past ++ [arrival])).zip (ids .node (past ++ [arrival])) =
      (ids .job past).zip (ids .node past) ++ (arrival.pair? (answer past arrival)).toList := by
  obtain ⟨side, id, capacity⟩ := arrival
  cases side with
  | job =>
      have jobs : ids .job [⟨.job, id, capacity⟩] = [id] := rfl
      have nodes : ids .node [⟨.job, id, capacity⟩] = [] := rfl
      rw [ids_append, ids_append, jobs, nodes, List.append_nil, zip_append_left, answer]
      dsimp only [Side.opposite]
      cases (ids .node past)[(ids .job past).length]? <;> rfl
  | node =>
      have jobs : ids .job [⟨.node, id, capacity⟩] = [] := rfl
      have nodes : ids .node [⟨.node, id, capacity⟩] = [id] := rfl
      rw [ids_append, ids_append, jobs, nodes, List.append_nil, zip_append_right, answer]
      dsimp only [Side.opposite]
      cases (ids .job past)[(ids .node past).length]? <;> rfl

/-- Two lines report the pairs by rank. -/
theorem pairs_answers (past arrivals : List Arrival) :
    (ids .job (past ++ arrivals)).zip (ids .node (past ++ arrivals)) =
      (ids .job past).zip (ids .node past) ++ pairs arrivals (answers past arrivals) := by
  induction arrivals generalizing past with
  | nil => simp [pairs]
  | cons arrival rest inductionHypothesis =>
      have later := inductionHypothesis (past ++ [arrival])
      rw [List.append_assoc, List.singleton_append, zip_ids_append, List.append_assoc] at later
      rw [later, pairs, pairs, answers, List.zip_cons_cons]
      cases reported : arrival.pair? (answer past arrival) <;> simp [reported]

end Arrival

namespace Queue

open Arrival

/-- The answers to arrivals one after the other and the queue after them, unless one is refused. -/
def serve (queue : Queue) : List Arrival → Except MarketError (List Admission × Queue)
  | [] => .ok ([], queue)
  | arrival :: rest => do
    let (admission, next) ← queue.submit arrival.side arrival.id arrival.capacity
    let (others, last) ← next.serve rest
    return (admission :: others, last)

/-- What waits on a side are its arrivals without as many as the other side has had. -/
structure Follows (queue : Queue) (past : List Arrival) : Prop where
  formed : queue.isWellFormed = true
  entries : ∀ side, queue.entriesOf side = (ids side past).drop (ids side.opposite past).length

variable {queue next last other : Queue} {past arrivals : List Arrival} {arrival : Arrival}
  {admission : Admission} {admissions : List Admission}

/-- A run starts with its first arrival. -/
theorem submit_of_serve {rest : List Arrival}
    (served : queue.serve (arrival :: rest) = .ok (admissions, last)) :
    ∃ admission next others,
      queue.submit arrival.side arrival.id arrival.capacity = .ok (admission, next) ∧
      next.serve rest = .ok (others, last) ∧ admissions = admission :: others := by
  obtain ⟨⟨admission, next⟩, submitted, rested⟩ := Guard.bind_eq_ok.1 served
  obtain ⟨⟨others, final⟩, later, same⟩ := Guard.bind_eq_ok.1 rested
  cases same
  exact ⟨admission, next, others, submitted, later, rfl⟩

theorem opposite_opposite (side : Side) : side.opposite.opposite = side := by
  cases side <;> rfl

/-- What has to be shown of the two sides of the queue after an arrival. -/
theorem follows_append (formed : next.isWellFormed = true)
    (own : next.entriesOf arrival.side =
      (ids arrival.side past ++ [arrival.id]).drop (ids arrival.side.opposite past).length)
    (others : next.entriesOf arrival.side.opposite =
      (ids arrival.side.opposite past).drop ((ids arrival.side past).length + 1)) :
    next.Follows (past ++ [arrival]) := by
  have ownIds : ids arrival.side (past ++ [arrival]) = ids arrival.side past ++ [arrival.id] := by
    rw [ids_append, ids_singleton_self]
  have otherIds : ids arrival.side.opposite (past ++ [arrival]) =
      ids arrival.side.opposite past := by
    rw [ids_append, ids_singleton_of_ne (opposite_ne arrival.side).symm, List.append_nil]
  refine ⟨formed, fun side => ?_⟩
  by_cases same : arrival.side = side
  · subst same
    rw [ownIds, otherIds]
    exact own
  · obtain rfl := eq_opposite_of_ne same
    rw [opposite_opposite, ownIds, otherIds, List.length_append, List.length_singleton]
    exact others

/-- An arrival is answered as two lines would answer it. -/
theorem Follows.submit (follows : queue.Follows past)
    (submitted : queue.submit arrival.side arrival.id arrival.capacity = .ok (admission, next)) :
    admission = answer past arrival ∧ next.Follows (past ++ [arrival]) := by
  have formed := isWellFormed_of_submit follows.formed submitted
  have own := follows.entries arrival.side
  have others := follows.entries arrival.side.opposite
  rw [opposite_opposite] at others
  cases admission with
  | matched head =>
      obtain ⟨waits, idle, stillIdle⟩ := entriesOf_of_submit_matched submitted
      rw [waits] at others
      rw [idle] at own
      have inside : (ids arrival.side past).length < (ids arrival.side.opposite past).length := by
        have lengths := congrArg List.length others
        rw [List.length_cons, List.length_drop] at lengths
        omega
      -- the head is the first on the other side that this side has not been paired with
      rw [List.drop_eq_getElem_cons inside, List.cons.injEq] at others
      have found : (ids arrival.side.opposite past)[(ids arrival.side past).length]? =
          some head := by
        rw [List.getElem?_eq_getElem inside, others.1]
      refine ⟨by simp only [answer, found], follows_append formed ?_ others.2⟩
      rw [stillIdle, eq_comm, List.drop_eq_nil_iff, List.length_append, List.length_singleton]
      exact inside
  | queued place =>
      obtain ⟨waits, -, idle, stillIdle⟩ := entriesOf_of_submit_queued submitted
      obtain ⟨free, -, -, placed, -⟩ := submit_eq_queued.1 submitted
      rw [idle, eq_comm, List.drop_eq_nil_iff] at others
      rw [length, entries_of_side_ne_opposite free, own, List.length_drop] at placed
      have absent : (ids arrival.side.opposite past)[(ids arrival.side past).length]? = none :=
        List.getElem?_eq_none others
      refine ⟨?_, follows_append formed ?_ ?_⟩
      · simp only [answer, absent, placed, Admission.queued.injEq]
        omega
      · rw [waits, own, List.drop_append_of_le_length others]
      · rw [stillIdle, eq_comm, List.drop_eq_nil_iff]
        exact Nat.le_succ_of_le others

/-- A whole run of arrivals is answered as two lines would answer it. -/
theorem Follows.serve (follows : queue.Follows past)
    (served : queue.serve arrivals = .ok (admissions, last)) :
    admissions = answers past arrivals ∧ last.Follows (past ++ arrivals) := by
  induction arrivals generalizing queue past admissions with
  | nil =>
      cases served
      rw [List.append_nil]
      exact ⟨rfl, follows⟩
  | cons arrival rest inductionHypothesis =>
      obtain ⟨admission, next, others, submitted, later, rfl⟩ := submit_of_serve served
      obtain ⟨rfl, nextFollows⟩ := follows.submit submitted
      obtain ⟨rfl, lastFollows⟩ := inductionHypothesis nextFollows later
      rw [List.append_assoc] at lastFollows
      exact ⟨rfl, lastFollows⟩

theorem follows_empty : empty.Follows [] := ⟨rfl, fun _ => rfl⟩

/-- The queue at the end holds the surplus of one side. -/
theorem Follows.surplus (follows : queue.Follows past) :
    ((ids .job past).length = (ids .node past).length → queue = .empty) ∧
      ((ids .node past).length < (ids .job past).length →
        queue = .jobs ((ids .job past).drop (ids .node past).length)) ∧
      ((ids .job past).length < (ids .node past).length →
        queue = .nodes ((ids .node past).drop (ids .job past).length)) := by
  have jobs := follows.entries .job
  have nodes := follows.entries .node
  have jobCount := congrArg List.length jobs
  have nodeCount := congrArg List.length nodes
  have formed := follows.formed
  rw [List.length_drop] at jobCount nodeCount
  dsimp only [Side.opposite] at jobs nodes jobCount nodeCount
  cases queue with
  | empty =>
      change 0 = _ at jobCount nodeCount
      exact ⟨fun _ => rfl, fun _ => by omega, fun _ => by omega⟩
  | jobs waiting =>
      change waiting = _ at jobs
      change waiting.length = _ at jobCount
      have filled : waiting ≠ [] := by
        rintro rfl
        cases formed
      have positive := List.length_pos_iff.2 filled
      exact ⟨fun _ => by omega, fun _ => by rw [jobs], fun _ => by omega⟩
  | nodes waiting =>
      change waiting = _ at nodes
      change waiting.length = _ at nodeCount
      have filled : waiting ≠ [] := by
        rintro rfl
        cases formed
      have positive := List.length_pos_iff.2 filled
      exact ⟨fun _ => by omega, fun _ => by omega, fun _ => by rw [nodes]⟩

/-- Of the two arrivals of one rank, the earlier one waits, and the later one is told that it goes
with the earlier one. -/
structure Meet (arrivals : List Arrival) (admissions : List Admission) (rank : Nat)
    (before : List Arrival) (first : Arrival) (middle : List Arrival) (second : Arrival)
    (after : List Arrival) : Prop where
  split : arrivals = before ++ first :: (middle ++ second :: after)
  opposed : second.side = first.side.opposite
  firstRank : (ids first.side before).length = rank
  secondRank : (ids second.side (before ++ first :: middle)).length = rank
  waits : ∃ place, admissions[before.length]? = some (.queued place)
  meets : admissions[(before ++ first :: middle).length]? = some (.matched first.id)

/-- Arrivals on opposite sides with one rank meet, the later one when it comes. -/
theorem meet_of_split {rank : Nat} {before middle after : List Arrival} {first second : Arrival}
    (split : arrivals = before ++ first :: (middle ++ second :: after))
    (opposed : second.side = first.side.opposite)
    (firstRank : (ids first.side before).length = rank)
    (secondRank : (ids second.side (before ++ first :: middle)).length = rank) :
    Meet arrivals (answers [] arrivals) rank before first middle second after := by
  refine ⟨split, opposed, firstRank, secondRank, ?_, ?_⟩
  · have absent : (ids first.side.opposite before)[(ids first.side before).length]? = none := by
      apply List.getElem?_eq_none
      rw [firstRank, ← secondRank, opposed, ids_append, List.length_append]
      exact Nat.le_add_right _ _
    rw [split, getElem?_answers]
    simp only [List.nil_append, answer, absent]
    exact ⟨_, rfl⟩
  · have found : (ids first.side (before ++ first :: middle))[rank]? = some first.id := by
      rw [ids_append, ← List.singleton_append, ids_append, ids_singleton_self, ← firstRank]
      simp
    have longer : before ++ first :: (middle ++ second :: after) =
        (before ++ first :: middle) ++ second :: after := by simp
    rw [split, longer, getElem?_answers]
    rw [← secondRank, opposed] at found
    simp only [List.nil_append, answer, opposed, opposite_opposite, found]

/-- One of two arrivals comes first. -/
theorem splits_apart {before middle after rest : List Arrival} {first second : Arrival}
    (same : before ++ first :: after = middle ++ second :: rest) (different : first ≠ second) :
    (∃ between, middle = before ++ first :: between ∧ after = between ++ second :: rest) ∨
      ∃ between, before = middle ++ second :: between ∧ rest = between ++ first :: after := by
  obtain ⟨between, longer, shorter⟩ | ⟨between, longer, shorter⟩ :=
    List.append_eq_append_iff.1 same
  · cases between with
    | nil => exact absurd (List.cons.inj shorter).1 different
    | cons head between =>
        obtain ⟨sameHead, sameTail⟩ := List.cons.inj shorter
        subst sameHead
        exact .inl ⟨between, longer, sameTail⟩
  · cases between with
    | nil => exact absurd (List.cons.inj shorter).1.symm different
    | cons head between =>
        obtain ⟨sameHead, sameTail⟩ := List.cons.inj shorter
        subst sameHead
        exact .inr ⟨between, longer, sameTail⟩

/-- A job and a node of one rank meet. -/
theorem exists_meet {rank : Nat} {job node : Key} (jobs : (ids .job arrivals)[rank]? = some job)
    (nodes : (ids .node arrivals)[rank]? = some node) :
    ∃ before first middle second after,
      Meet arrivals (answers [] arrivals) rank before first middle second after ∧
      (first.side = .job ∧ first.id = job ∧ second.id = node ∨
        first.side = .node ∧ first.id = node ∧ second.id = job) := by
  obtain ⟨before, first, after, split, firstSide, firstId, firstRank⟩ := exists_rank jobs
  obtain ⟨middle, second, rest, otherSplit, secondSide, secondId, secondRank⟩ := exists_rank nodes
  have different : first ≠ second := by
    rintro rfl
    rw [firstSide] at secondSide
    cases secondSide
  obtain ⟨between, longer, shorter⟩ | ⟨between, longer, shorter⟩ :=
    splits_apart (split.symm.trans otherSplit) different
  · refine ⟨before, first, between, second, rest, ?_, .inl ⟨firstSide, firstId, secondId⟩⟩
    apply meet_of_split
    · rw [split, shorter]
    · rw [firstSide, secondSide]
      rfl
    · rw [firstSide, firstRank]
    · rw [secondSide, ← longer, secondRank]
  · refine ⟨middle, second, between, first, after, ?_, .inr ⟨secondSide, secondId, firstId⟩⟩
    apply meet_of_split
    · rw [otherSplit, shorter]
    · rw [firstSide, secondSide]
      rfl
    · rw [secondSide, secondRank]
    · rw [firstSide, ← longer, firstRank]

/-- If no arrival at an empty queue is refused, then the job and the node of every rank are paired,
once, when the later of them arrives, and nobody else is. The queue is left with the surplus of
one side in its order. Any other way to bring the same jobs and the same nodes in between one
another gives the same pairs and the same queue. -/
theorem pairing_by_rank (served : empty.serve arrivals = .ok (admissions, last)) :
    (∀ rank job node, (ids .job arrivals)[rank]? = some job →
      (ids .node arrivals)[rank]? = some node →
      ∃ before first middle second after,
        Meet arrivals admissions rank before first middle second after ∧
        (first.side = .job ∧ first.id = job ∧ second.id = node ∨
          first.side = .node ∧ first.id = node ∧ second.id = job)) ∧
    pairs arrivals admissions = (ids .job arrivals).zip (ids .node arrivals) ∧
    ((ids .job arrivals).length = (ids .node arrivals).length → last = .empty) ∧
    ((ids .node arrivals).length < (ids .job arrivals).length →
      last = .jobs ((ids .job arrivals).drop (ids .node arrivals).length)) ∧
    ((ids .job arrivals).length < (ids .node arrivals).length →
      last = .nodes ((ids .node arrivals).drop (ids .job arrivals).length)) ∧
    ∀ others otherAdmissions otherLast,
      empty.serve others = .ok (otherAdmissions, otherLast) →
      ids .job others = ids .job arrivals → ids .node others = ids .node arrivals →
      pairs others otherAdmissions = pairs arrivals admissions ∧ otherLast = last := by
  obtain ⟨rfl, follows⟩ := follows_empty.serve served
  rw [List.nil_append] at follows
  have paired (arrivals : List Arrival) : pairs arrivals (answers [] arrivals) =
      (ids .job arrivals).zip (ids .node arrivals) := (pairs_answers [] arrivals).symm
  obtain ⟨balanced, moreJobs, moreNodes⟩ := follows.surplus
  refine ⟨fun rank job node => exists_meet, paired arrivals, balanced, moreJobs, moreNodes, ?_⟩
  intro others otherAdmissions otherLast otherServed sameJobs sameNodes
  obtain ⟨rfl, otherFollows⟩ := follows_empty.serve otherServed
  rw [List.nil_append] at otherFollows
  have sameIds (side : Side) : ids side others = ids side arrivals := by
    cases side
    · exact sameJobs
    · exact sameNodes
  refine ⟨by rw [paired, paired, sameJobs, sameNodes], ?_⟩
  apply eq_of_entriesOf otherFollows.formed follows.formed
  intro side
  rw [otherFollows.entries, follows.entries, sameIds, sameIds]

/-- Two jobs wait, three nodes come, and the queue turns over; the first job comes back. -/
def turnover : List Arrival :=
  let job number := Arrival.mk .job (Key.ofBytes [number]) (.ofNat 2)
  let node number := Arrival.mk .node (Key.ofBytes [number]) (.ofNat 2)
  [job 1, job 2, node 3, node 4, node 5, job 1, job 6]

/-- The same jobs and the same nodes, in another way. -/
def turnoverMixed : List Arrival :=
  let job number := Arrival.mk .job (Key.ofBytes [number]) (.ofNat 2)
  let node number := Arrival.mk .node (Key.ofBytes [number]) (.ofNat 2)
  [node 3, job 1, node 4, node 5, job 2, job 1, job 6]

/-- Two orders of the same arrivals with the same pairs. -/
theorem pairing_by_rank_turnover :
    empty.serve turnover = .ok (answers [] turnover, .jobs [Key.ofBytes [6]]) ∧
    empty.serve turnoverMixed = .ok (answers [] turnoverMixed, .jobs [Key.ofBytes [6]]) ∧
    pairs turnover (answers [] turnover) =
      [(Key.ofBytes [1], Key.ofBytes [3]), (Key.ofBytes [2], Key.ofBytes [4]),
        (Key.ofBytes [1], Key.ofBytes [5])] ∧
    pairs turnoverMixed (answers [] turnoverMixed) = pairs turnover (answers [] turnover) := by
  have served : empty.serve turnover =
      .ok (answers [] turnover, .jobs [Key.ofBytes [6]]) := rfl
  have mixed : empty.serve turnoverMixed =
      .ok (answers [] turnoverMixed, .jobs [Key.ofBytes [6]]) := rfl
  have sameJobs : ids .job turnoverMixed = ids .job turnover := by decide +kernel
  have sameNodes : ids .node turnoverMixed = ids .node turnover := by decide +kernel
  obtain ⟨-, paired, -, -, -, independent⟩ := pairing_by_rank served
  obtain ⟨samePairs, -⟩ := independent turnoverMixed _ _ mixed sameJobs sameNodes
  exact ⟨served, mixed, by decide +kernel, samePairs⟩

end Queue

end ComputeMarket
