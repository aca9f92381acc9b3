import ComputeMarket.Proofs.Calls
import ComputeMarket.Proofs.Store.Lines
import Mathlib.Order.WellFounded

/-
This file proves that every market serves in the order of arrival: over whole histories, the calls
that succeeded tell who waits and in which order, and nobody who waits is overtaken.
-/

namespace ComputeMarket

variable {market : Key} {past : List Call} {last : Call}

/-- No operation but the creation of a job lets a job in. -/
theorem Operation.Does.told {now : Int64} {operation : Operation} {reply : Reply}
    {changes : List Change} (does : operation.Does now reply changes)
    (other : ∀ market client request, operation ≠ .createJob market client request) :
    ∀ seen ∈ changes, ∀ event, seen ≠ .entered event := by
  intro seen member event
  cases does with
  | admitted market client request => exact absurd rfl (other market client request)
  | swept market ended =>
      obtain ⟨job, -, rfl⟩ := List.mem_map.1 member
      exact nofun
  | _ =>
      obtain rfl := List.mem_singleton.1 member
      exact nofun

namespace Lines

variable {capacity : Count} {before after : Lines} {changes : List Change} {now : Int64}
  {operation : Operation} {reply : Reply}

/-- A call that is about no node leaves those who wait as they are. -/
theorem nodes_of_untouched (same : before.nodes = idle market past)
    (quiet : ∀ node, ¬ last.Touches market node) (kept : after.nodes = before.nodes) :
    after.nodes = idle market (past ++ [last]) := by
  rw [idle_of_untouched quiet, kept, same]

/-- A new job waits, or it takes the first idle node. -/
theorem Step.nodes_of_admitted {place client : Key} {request : JobRequest}
    {admission : JobAdmission} (same : before.nodes = idle market past)
    (distinct : before.nodes.Nodup)
    (step : Step capacity market before (.entered (admission.event place request.id now)) after) :
    after.nodes =
      idle market (past ++ [⟨.createJob place client request, .jobAdmitted admission⟩]) := by
  cases admission with
  | queued position =>
      apply nodes_of_untouched same (by simp [Call.Touches])
      cases step <;> rfl
  | matched node =>
      cases step with
      | elsewhere _ _ other => exact nodes_of_untouched same (Call.not_touches other) rfl
      | jobServed job node nodes now =>
          rw [same] at distinct
          rw [idle_of_taken node distinct rfl (by simp [Call.Touches, eq_comm]), ← same]
          exact (List.erase_cons_head ..).symm

/-- A node that is listed stands last, or it takes a job and nobody is idle. -/
theorem Step.nodes_of_listed {place node : Key} {stake : Stake} {admission : NodeAdmission}
    (same : before.nodes = idle market past)
    (step : Step capacity market before (.told (Desk.listing place node now admission)) after) :
    after.nodes =
      idle market (past ++ [⟨.listNode place node stake, .nodeAdmitted admission⟩]) := by
  cases admission with
  | queued position =>
      cases step with
      | elsewhere _ _ other => exact nodes_of_untouched same (Call.not_touches other) rfl
      | nodeWaits nodes node place now new =>
          dsimp only at same
          rw [same] at new
          have joined : idle market
              (past ++ [⟨.listNode market node stake, .nodeAdmitted (.queued position)⟩]) =
                idle market past ++ [node] :=
            idle_of_listed new (by simp [Call.Stands]) (if_pos rfl)
              (by simp [Call.Touches, eq_comm])
          rw [joined, ← same]
      | jobEnds jobs nodes job event settles => cases settles
  | matched job =>
      cases step with
      | elsewhere _ _ other => exact nodes_of_untouched same (Call.not_touches other) rfl
      | nodeServed job jobs node now =>
          -- nobody was idle, and the node that came does not stay
          rw [idle_append_one, ← same]
          simp [idle, Call.Stands]
      | jobEnds jobs nodes job event settles => cases settles

/-- A node that is delisted is idle no longer. -/
theorem Step.nodes_of_delisted {place node : Key} (same : before.nodes = idle market past)
    (distinct : before.nodes.Nodup)
    (step : Step capacity market before (.told (.nodeDelisted place node now)) after) :
    after.nodes = idle market (past ++ [⟨.delistNode place node, .nodeDelisted⟩]) := by
  cases step with
  | elsewhere _ _ other => exact nodes_of_untouched same (Call.not_touches other) rfl
  | nodeLeaves jobs nodes node now =>
      rw [same] at distinct
      rw [idle_of_taken node distinct rfl (by simp [Call.Touches, eq_comm]), ← same]
  | jobEnds jobs nodes job event settles => cases settles

/-- The nodes that wait are the idle nodes after every call, if they are before it. -/
theorem Steps.nodes (does : operation.Does now reply changes)
    (steps : Steps capacity market before changes after) (distinct : before.nodes.Nodup)
    (same : before.nodes = idle market past) :
    after.nodes = idle market (past ++ [⟨operation, reply⟩]) := by
  cases does with
  | admitted place client request admission => exact steps.single.nodes_of_admitted same distinct
  | listed place node stake admission => exact steps.single.nodes_of_listed same
  | delisted place node => exact steps.single.nodes_of_delisted same distinct
  | opened authority id params =>
      apply nodes_of_untouched same (Call.not_touches_of_unnamed rfl)
      cases steps.single <;> rfl
  | finished node result job | cancelled client job | timedOut job =>
      exact nodes_of_untouched same (Call.not_touches_of_unnamed rfl)
        (steps.single.nodes_of_settled rfl)
  | swept place ended =>
      exact nodes_of_untouched same (by simp [Call.Touches]) steps.nodes_of_timeouts
  | paid account amount total =>
      apply nodes_of_untouched same (Call.not_touches_of_unnamed rfl)
      cases steps.single
      rfl

/-- Every operation lets both lines move on. -/
theorem Steps.movesOn (does : operation.Does now reply changes)
    (steps : Steps capacity market before changes after) :
    MovesOn before.jobs after.jobs ∧ MovesOn before.nodes after.nodes := by
  have told := does.told
  cases does with
  | swept place ended =>
      rw [steps.nodes_of_timeouts]
      exact ⟨.of_sublist (steps.jobs_sublist (told nofun)), .of_sublist (.refl _)⟩
  | _ => exact steps.single.movesOn

end Lines

namespace Queue

/-- Of those who wait in a queue and still wait in the next one, nobody falls back and nobody is
overtaken. -/
structure Advances (queue next : Queue) : Prop where
  forward : ∀ side id place later, queue.position side id = some place →
    next.position side id = some later → later ≤ place
  order : ∀ side first second place later otherPlace otherLater,
    queue.position side first = some place → next.position side first = some later →
    queue.position side second = some otherPlace → next.position side second = some otherLater →
    (place < otherPlace ↔ later < otherLater)

variable {queue next : Queue} {side : Side} {id : Key} {place : Nat}

/-- Where both lines move on, nobody falls back and nobody is overtaken. -/
theorem advances_of_movesOn (formed : queue.isWellFormed = true)
    (moves : ∀ side, Lines.MovesOn (queue.entriesOf side) (next.entriesOf side)) :
    queue.Advances next := by
  constructor
  · intro side id place later waits waitsLater
    obtain ⟨source, comes⟩ := (moves side).places (nodup_entriesOf formed side)
    obtain ⟨index, rfl, entry⟩ := position_eq_some waits
    obtain ⟨nextIndex, rfl, nextEntry⟩ := position_eq_some waitsLater
    rw [comes index nextIndex id entry nextEntry]
    exact Nat.succ_le_succ (StrictMono.le_apply source.strictMono)
  · intro side first second place later otherPlace otherLater waits waitsLater otherWaits
      otherWaitsLater
    obtain ⟨source, comes⟩ := (moves side).places (nodup_entriesOf formed side)
    obtain ⟨index, rfl, entry⟩ := position_eq_some waits
    obtain ⟨nextIndex, rfl, nextEntry⟩ := position_eq_some waitsLater
    obtain ⟨otherIndex, rfl, otherEntry⟩ := position_eq_some otherWaits
    obtain ⟨otherNext, rfl, otherNextEntry⟩ := position_eq_some otherWaitsLater
    rw [comes index nextIndex first entry nextEntry,
      comes otherIndex otherNext second otherEntry otherNextEntry, Nat.add_lt_add_iff_right,
      Nat.add_lt_add_iff_right, source.lt_iff_lt]

end Queue

namespace Store

variable {now : Int64} {store after : Store} {seen : Change} {changes : List Change} {id : Key}
  {operation : Operation} {reply : Reply}

/-- A job that enters is new in the index. -/
theorem Step.index_of_entered (sound : store.Sound) {admission : JobAdmission}
    (step : Step now store (.entered (admission.event market id now)) after) :
    store.jobMarkets.get? id = none ∧ after.jobMarkets = store.jobMarkets.insert id market := by
  generalize entered : admission.event market id now = event at step
  cases step with
  | entered place client request venue _ event desk found unused entry =>
      have named := sound.named place venue found
      cases entry <;> cases admission <;> cases entered <;>
        exact ⟨unused, by rw [named]⟩

/-- The jobs that the calls of a history create in a market are those that the store knows there,
and of these the jobs that wait stand in the order of the calls. -/
structure JobsTold (store : Store) (calls : List Call) (market : Key) : Prop where
  known : ∀ id, id ∈ created market calls ↔ store.jobMarkets.get? id = some market
  distinct : (created market calls).Nodup
  waiting : (store.lines market).jobs.Sublist (created market calls)

/-- A call that creates no job here tells nothing new about jobs. -/
theorem JobsTold.kept (jobs : store.JobsTold past market)
    (uncreated : last.created? market = none)
    (indexed : ∀ id, after.jobMarkets.get? id = some market ↔
      store.jobMarkets.get? id = some market)
    (left : (after.lines market).jobs.Sublist (store.lines market).jobs) :
    after.JobsTold (past ++ [last]) market := by
  have same : created market (past ++ [last]) = created market past := by
    rw [created_append_one, uncreated, Option.toList_none, List.append_nil]
  constructor
  · intro id
    rw [same, indexed]
    exact jobs.known id
  · rw [same]
    exact jobs.distinct
  · rw [same]
    exact left.trans jobs.waiting

/-- A call that creates a job here tells of it last. -/
theorem JobsTold.joined (jobs : store.JobsTold past market) (made : last.created? market = some id)
    (unused : store.jobMarkets.get? id = none)
    (indexed : after.jobMarkets = store.jobMarkets.insert id market)
    (joined : (after.lines market).jobs.Sublist ((store.lines market).jobs ++ [id])) :
    after.JobsTold (past ++ [last]) market := by
  have more : created market (past ++ [last]) = created market past ++ [id] := by
    rw [created_append_one, made, Option.toList_some]
  constructor
  · intro other
    rw [more, indexed, KeyMap.get?_insert, List.mem_append, List.mem_singleton, jobs.known]
    by_cases same : id = other
    · rw [if_pos same]
      exact iff_of_true (.inr same.symm) rfl
    · rw [if_neg same, or_iff_left (Ne.symm same)]
  · have fresh : id ∉ created market past := by
      intro member
      rw [jobs.known, unused] at member
      cases member
    rw [more]
    exact jobs.distinct.append (List.nodup_singleton id) (List.disjoint_singleton.2 fresh)
  · rw [more]
    exact joined.trans (jobs.waiting.append (.refl [id]))

/-- What the calls tell about jobs stays true with one more call. -/
theorem JobsTold.of_does (jobs : store.JobsTold past market) (sound : store.Sound)
    (does : operation.Does now reply changes) (steps : Steps now store changes after) :
    after.JobsTold (past ++ [⟨operation, reply⟩]) market := by
  have told := does.told
  have lines := steps.lines sound market
  cases does with
  | admitted place client request admission =>
      obtain ⟨unused, indexed⟩ := steps.single.index_of_entered sound
      obtain ⟨joined, away⟩ := lines.single.jobs_of_entered
      by_cases same : place = market
      · subst same
        refine jobs.joined ?_ unused indexed joined
        exact if_pos rfl
      · apply jobs.kept
        · exact if_neg same
        · intro id
          rw [indexed, KeyMap.get?_insert]
          by_cases new : request.id = id
          · subst new
            rw [if_pos rfl, unused, Option.some.injEq]
            exact iff_of_false same nofun
          · rw [if_neg new]
        · rw [away same]
  | _ =>
      apply jobs.kept rfl
      · intro id
        rw [steps.index_of_told (told nofun)]
      · exact lines.jobs_sublist (told nofun)

/-- What the calls of a history tell about a market: which jobs it knows, and who waits there in
which order. -/
structure Remembers (store : Store) (calls : List Call) (market : Key) : Prop where
  jobs : store.JobsTold calls market
  nodes : (store.lines market).nodes = idle market calls
  bounded : (store.lines market).Bounded store.config.capacity

/-- The calls of a move: the one that it makes, if that succeeds. -/
def callsOf (store : Store) : Move → List Call
  | .perform now operation =>
    match (store.apply now operation).1 with
    | .ok reply => [⟨operation, reply⟩]
    | .error _ => []
  | .takeEvents | .restart => []

/-- An operation that succeeds is a call with its reply. -/
theorem callsOf_of_ok (succeeded : (store.apply now operation).1 = .ok reply) :
    store.callsOf (.perform now operation) = [⟨operation, reply⟩] := by
  rw [callsOf, succeeded]

theorem callsOf_of_error {cause : MarketError}
    (failed : (store.apply now operation).1 = .error cause) :
    store.callsOf (.perform now operation) = [] := by
  rw [callsOf, failed]

/-- The calls of a history that succeed, in order. -/
def calls (store : Store) : List Move → List Call
  | [] => []
  | move :: rest => store.callsOf move ++ (store.move move).calls rest

/-- What the calls tell stays true with every move. -/
theorem Sound.remembers_move (sound : store.Sound) (remembers : store.Remembers past market)
    (move : Move) :
    (store.move move).Remembers (past ++ store.callsOf move) market := by
  cases move with
  | perform now operation =>
      change (store.apply now operation).2.Remembers _ market
      cases answer : (store.apply now operation).1 with
      | error cause =>
          rw [(apply_of_error now sound answer).2, callsOf_of_error answer, List.append_nil]
          exact remembers
      | ok reply =>
          obtain ⟨changes, does, steps⟩ := steps_of_apply now sound answer
          have lines := steps.lines sound market
          rw [callsOf_of_ok answer]
          refine ⟨remembers.jobs.of_does sound does steps, ?_, ?_⟩
          · exact lines.nodes does (sound.lines_nodup market).2 remembers.nodes
          · rw [steps.config]
            exact lines.bounded remembers.bounded
  | takeEvents =>
      rw [callsOf, List.append_nil]
      exact ⟨⟨remembers.jobs.known, remembers.jobs.distinct, remembers.jobs.waiting⟩,
        remembers.nodes, remembers.bounded⟩
  | restart =>
      rw [callsOf, List.append_nil, move_restart sound]
      exact ⟨⟨remembers.jobs.known, remembers.jobs.distinct, remembers.jobs.waiting⟩,
        remembers.nodes, remembers.bounded⟩

/-- What the calls tell stays true, whatever is done. -/
theorem Sound.remembers_after (sound : store.Sound) (remembers : store.Remembers past market)
    (moves : List Move) :
    (store.after moves).Remembers (past ++ store.calls moves) market := by
  induction moves generalizing store past with
  | nil =>
      rw [calls, List.append_nil]
      exact remembers
  | cons move rest inductionHypothesis =>
      rw [calls, ← List.append_assoc]
      exact inductionHypothesis (sound.move move) (sound.remembers_move remembers move)

/-- No move lets anybody in a line fall back or be overtaken. -/
theorem Sound.movesOn_move (sound : store.Sound) (market : Key) (move : Move) :
    Lines.MovesOn (store.lines market).jobs ((store.move move).lines market).jobs ∧
      Lines.MovesOn (store.lines market).nodes ((store.move move).lines market).nodes := by
  have still : Lines.MovesOn (store.lines market).jobs (store.lines market).jobs ∧
      Lines.MovesOn (store.lines market).nodes (store.lines market).nodes :=
    ⟨.of_sublist (.refl _), .of_sublist (.refl _)⟩
  obtain same | forgot | ⟨now, operation, reply, changes, does, steps⟩ := sound.move_cases move
  · rw [same]
    exact still
  · rw [forgot]
    exact still
  · exact (steps.lines sound market).movesOn does

/-- A node that is listed and finds a job runs it. -/
theorem Step.running_of_listed {job node : Key} (sound : store.Sound)
    (step : Step now store (.told (.jobMatched market job node now)) after) :
    ∃ next, after.record? market job = some next ∧ next.state = .running ∧
      next.node = some node := by
  generalize matched : Event.jobMatched market job node now = event at step
  cases step with
  | opened => cases matched
  | traded place venue event desk found step =>
      have named := sound.named place venue found
      cases step with
      | headMatched taker waiting queue submitted recorded =>
          cases matched
          refine ⟨{ waiting with node := some node, state := .running, started := now }, ?_, rfl, rfl⟩
          rw [record?_of_insert rfl, if_pos named.symm]
          exact KeyMap.get?_insert_self ..
      | settled ended _ payee event rest total recorded settlement =>
          subst matched
          cases settlement
      | _ => cases matched

/-- A new job that finds a node runs on it. -/
theorem Step.running_of_entered {job node : Key} (sound : store.Sound)
    (step : Step now store (.entered (.jobMatched market job node now)) after) :
    ∃ next, after.record? market job = some next ∧ next.state = .running ∧
      next.node = some node := by
  generalize matched : Event.jobMatched market job node now = event at step
  cases step with
  | entered place client request venue admission event desk found unused entry =>
      have named := sound.named place venue found
      cases entry with
      | queued => cases matched
      | matched =>
          cases matched
          refine ⟨{ Desk.draft ⟨venue, store.balances⟩ client request now with
            node := some node, state := .running, started := now }, ?_, rfl, rfl⟩
          rw [record?_of_insert rfl, if_pos named.symm]
          exact KeyMap.get?_insert_self ..

/-- What is true of a market that serves first come, first served, when the given calls have
succeeded: its queue holds the waiting jobs in the order in which they were created, or the idle
nodes in the order in which they were listed, and never more than the capacity; a match takes the
first in the queue; and no move lets anybody in the queue fall back or be overtaken. -/
structure ServesInOrder (store : Store) (calls : List Call) (market : Key) (venue : Venue) :
    Prop where
  jobs : venue.market.queue.entriesOf .job =
    (created market calls).filter fun id => (venue.jobs.get? id).map Job.state = some .queued
  queued : ∀ id, id ∈ venue.market.queue.entriesOf .job ↔
    (venue.jobs.get? id).map Job.state = some .queued
  nodes : venue.market.queue.entriesOf .node = idle market calls
  oneKind : venue.market.queue.entriesOf .job = [] ∨ venue.market.queue.entriesOf .node = []
  bounded : venue.market.queue.length ≤ store.config.capacity.value
  jobServed : ∀ now node stake job,
    (store.apply now (.listNode market node stake)).1 = .ok (.nodeAdmitted (.matched job)) →
    (venue.market.queue.entriesOf .job).head? = some job ∧
    ∃ next, (store.apply now (.listNode market node stake)).2.record? market job = some next ∧
      next.state = .running ∧ next.node = some node
  nodeServed : ∀ now client request node,
    (store.apply now (.createJob market client request)).1 = .ok (.jobAdmitted (.matched node)) →
    (venue.market.queue.entriesOf .node).head? = some node ∧
    ∃ next, (store.apply now (.createJob market client request)).2.record? market request.id =
      some next ∧ next.state = .running ∧ next.node = some node
  advances : ∀ move next, (store.move move).venues.get? market = some next →
    venue.market.queue.Advances next.market.queue

variable {venue : Venue}

/-- A node that is listed and matched takes the first job that waits, which runs on it then. -/
theorem Sound.jobServed (sound : store.Sound) {node job : Key} {stake : Stake}
    (answer : (store.apply now (.listNode market node stake)).1 =
      .ok (.nodeAdmitted (.matched job))) :
    (store.lines market).jobs.head? = some job ∧
    ∃ next, (store.apply now (.listNode market node stake)).2.record? market job = some next ∧
      next.state = .running ∧ next.node = some node := by
  obtain ⟨changes, does, steps⟩ := steps_of_apply now sound answer
  cases does with
  | listed =>
      exact ⟨(steps.lines sound market).single.first_job, steps.single.running_of_listed sound⟩

/-- A new job that is matched takes the first node that waits, and runs on it then. -/
theorem Sound.nodeServed (sound : store.Sound) {client node : Key} {request : JobRequest}
    (answer : (store.apply now (.createJob market client request)).1 =
      .ok (.jobAdmitted (.matched node))) :
    (store.lines market).nodes.head? = some node ∧
    ∃ next, (store.apply now (.createJob market client request)).2.record? market request.id =
      some next ∧ next.state = .running ∧ next.node = some node := by
  obtain ⟨changes, does, steps⟩ := steps_of_apply now sound answer
  cases does with
  | admitted =>
      exact ⟨(steps.lines sound market).single.first_node, steps.single.running_of_entered sound⟩

/-- The jobs that wait in a queue are the queued jobs of its market. -/
theorem Sound.waiting_iff (sound : store.Sound) (found : store.venues.get? market = some venue)
    (id : Key) : id ∈ venue.market.queue.entriesOf .job ↔
      (venue.jobs.get? id).map Job.state = some .queued := by
  rw [Option.map_eq_some_iff]
  exact (sound.ledgers market venue found).waiting id

/-- The jobs that wait are the queued jobs, in the order in which they were created. -/
theorem JobsTold.entries_eq_filter (jobs : store.JobsTold past market) (sound : store.Sound)
    (found : store.venues.get? market = some venue) :
    venue.market.queue.entriesOf .job =
      (created market past).filter fun id => (venue.jobs.get? id).map Job.state = some .queued := by
  have sublist := jobs.waiting
  have distinct := (sound.lines_nodup market).1
  rw [lines_of_found found] at sublist distinct
  change (venue.market.queue.entriesOf .job).Sublist _ at sublist
  have queued := sound.waiting_iff found
  have part := sublist.filter fun id => (venue.jobs.get? id).map Job.state = some .queued
  rw [List.filter_eq_self.2 fun id waits => decide_eq_true ((queued id).1 waits)] at part
  -- distinct entries in the same order are the same list when they are the same entries
  refine part.eq_of_length (List.Perm.length_eq ?_)
  apply (List.perm_ext_iff_of_nodup distinct (jobs.distinct.filter _)).2
  intro id
  rw [List.mem_filter, decide_eq_true_iff]
  exact ⟨fun waits => ⟨sublist.subset waits, (queued id).1 waits⟩, fun both => (queued id).2 both.2⟩

/-- A market whose lines are those that the calls tell serves first come, first served. -/
theorem Remembers.servesInOrder (remembers : store.Remembers past market) (sound : store.Sound)
    (found : store.venues.get? market = some venue) : store.ServesInOrder past market venue where
  jobs := remembers.jobs.entries_eq_filter sound found
  queued := sound.waiting_iff found
  nodes := by
    have told := remembers.nodes
    rw [lines_of_found found] at told
    exact told
  oneKind := venue.market.queue.entriesOf_eq_nil_or
  bounded := by
    obtain ⟨jobsFit, nodesFit⟩ := remembers.bounded
    rw [lines_of_found found] at jobsFit nodesFit
    exact Queue.length_le jobsFit nodesFit
  jobServed now node stake job answer := by
    have served := sound.jobServed answer
    rw [lines_of_found found] at served
    exact served
  nodeServed now client request node answer := by
    have served := sound.nodeServed answer
    rw [lines_of_found found] at served
    exact served
  advances move next later := by
    have moves := sound.movesOn_move market move
    rw [lines_of_found found, lines_of_found later] at moves
    apply Queue.advances_of_movesOn (sound.ledgers market venue found).formed
    intro side
    cases side with
    | job => exact moves.1
    | node => exact moves.2

/-- In a store that starts empty, whatever was done with it, every market serves in the order in
which the calls that succeeded came. -/
theorem served_in_order {config : Config} {start : Store} (opened : new config = .ok start)
    (moves : List Move) :
    ∀ market venue, (start.after moves).venues.get? market = some venue →
      (start.after moves).ServesInOrder (start.calls moves) market venue := by
  intro market venue found
  have sound := sound_of_new opened
  obtain ⟨-, same⟩ := Guard.unit_bind_eq_ok.1 opened
  cases same
  have nothing : (empty config).Remembers [] market :=
    ⟨⟨fun id => iff_of_false nofun nofun, List.nodup_nil, .refl _⟩, rfl,
      Nat.zero_le _, Nat.zero_le _⟩
  exact (sound.remembers_after nothing moves).servesInOrder (sound.after moves) found

/-- A history in which three jobs come while the clock goes back, and the second is withdrawn. -/
def crowd : List Move :=
  let authority := Key.ofBytes [1]
  let client := Key.ofBytes [2]
  let market := Market.idOf authority 0
  let request (id : UInt8) : JobRequest := ⟨Key.ofBytes [id], ⟨Word.ofNumber 5⟩, 8, .any⟩
  [.perform 9 (.createMarket authority ⟨.ofTokens 2, 60, .zero⟩),
   .perform 9 (.deposit client (.ofTokens 9)),
   .perform 8 (.createJob market client (request 14)),
   .perform 7 (.createJob market client (request 13)),
   .restart,
   .perform 6 (.createJob market client (request 12)),
   .perform 5 (.cancelJob (Key.ofBytes [13]) client)]

/-- After the history of the crowd two jobs wait, in the order of their creation and not of the
clock. -/
theorem served_in_order_crowd :
    new {} = .ok (empty {}) ∧
    ∃ venue, ((empty {}).after crowd).venues.get? (Market.idOf (Key.ofBytes [1]) 0) = some venue ∧
      venue.market.queue = .jobs [Key.ofBytes [14], Key.ofBytes [12]] ∧
      ((empty {}).after crowd).ServesInOrder ((empty {}).calls crowd)
        (Market.idOf (Key.ofBytes [1]) 0) venue := by
  have opened : new {} = .ok (empty {}) := rfl
  have waits : (((empty {}).after crowd).venues.get? (Market.idOf (Key.ofBytes [1]) 0)).map
      (fun venue => venue.market.queue) = some (.jobs [Key.ofBytes [14], Key.ofBytes [12]]) := by
    decide +kernel
  obtain ⟨venue, found, queue⟩ := Option.map_eq_some_iff.1 waits
  exact ⟨opened, venue, found, queue, served_in_order opened crowd _ venue found⟩

example : (((empty {}).after crowd).apply 4
    (.listNode (Market.idOf (Key.ofBytes [1]) 0) (Key.ofBytes [3]) .zero)).1 =
      .ok (.nodeAdmitted (.matched (Key.ofBytes [14]))) := by decide +kernel

end Store

end ComputeMarket
