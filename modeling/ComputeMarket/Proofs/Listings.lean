import ComputeMarket.Proofs.Arrival

/-
This file proves that every accepted listing of a node is used at most once: the node waits, or it
was withdrawn, or one job of the market is bound to it. The counters of a market follow its history
and its terms never change.
-/

namespace ComputeMarket

/-- The nodes that the calls of a history list in a market, one entry for every listing. -/
def listed (market : Key) (calls : List Call) : List Key := calls.filterMap (·.listed? market)

/-- The nodes that the calls of a history withdraw from a market, one entry for every time. -/
def delisted (market : Key) (calls : List Call) : List Key := calls.filterMap (·.delisted? market)

@[simp] theorem listed_nil (market : Key) : listed market [] = [] := rfl

@[simp] theorem delisted_nil (market : Key) : delisted market [] = [] := rfl

theorem listed_singleton (market : Key) (call : Call) :
    listed market [call] = (call.listed? market).toList := by
  rw [listed, List.filterMap_cons]
  split <;> simp_all

theorem delisted_singleton (market : Key) (call : Call) :
    delisted market [call] = (call.delisted? market).toList := by
  rw [delisted, List.filterMap_cons]
  split <;> simp_all

theorem listed_append (market : Key) (calls more : List Call) :
    listed market (calls ++ more) = listed market calls ++ listed market more :=
  List.filterMap_append

theorem delisted_append (market : Key) (calls more : List Call) :
    delisted market (calls ++ more) = delisted market calls ++ delisted market more :=
  List.filterMap_append

namespace Change

/-- The node whose listing in a market a change tells. A node that takes a waiting job is listed
and bound at once. -/
def listed? (market : Key) : Change → Option Key
  | .told (.nodeQueued place node ..) | .told (.jobMatched place _ node _) =>
    if place = market then some node else none
  | _ => none

/-- The node whose withdrawal from a market a change tells. -/
def delisted? (market : Key) : Change → Option Key
  | .told (.nodeDelisted place node _) => if place = market then some node else none
  | _ => none

variable {market : Key} {seen : Change}

/-- A change of another market lists nobody and withdraws nobody. -/
theorem unlisted_of_market (away : seen.market? ≠ some market) :
    seen.listed? market = none ∧ seen.delisted? market = none := by
  unfold market? at away
  cases seen with
  | entered event => exact ⟨rfl, rfl⟩
  | paid account amount => exact ⟨rfl, rfl⟩
  | told event =>
      have different (place : Key) (same : event.market = place) : ¬ place = market :=
        fun here => away (congrArg some (same.trans here))
      cases event with
      | nodeQueued place => exact ⟨if_neg (different place rfl), rfl⟩
      | jobMatched place => exact ⟨if_neg (different place rfl), rfl⟩
      | nodeDelisted place => exact ⟨rfl, if_neg (different place rfl)⟩
      | _ => exact ⟨rfl, rfl⟩

/-- A settlement lists nobody and withdraws nobody. -/
theorem unlisted_of_settled {event : Event} {job : Key} (settles : event.settledJob? = some job) :
    listed? market (.told event) = none ∧ delisted? market (.told event) = none := by
  cases event <;> cases settles <;> exact ⟨rfl, rfl⟩

end Change

namespace Operation.Does

variable {now : Int64} {operation : Operation} {reply : Reply} {changes : List Change}

/-- The changes of a call list the node that the call lists. -/
theorem lists (does : operation.Does now reply changes) (market : Key) :
    changes.filterMap (·.listed? market) =
      (Call.listed? market ⟨operation, reply⟩).toList := by
  cases does with
  | listed place node stake admission =>
      by_cases here : place = market <;> cases admission <;>
        simp [Desk.listing, Change.listed?, here]
  | swept place ended =>
      rw [List.filterMap_map]
      exact List.filterMap_eq_nil_iff.2 fun _ _ => rfl
  | _ => rfl

theorem delists (does : operation.Does now reply changes) (market : Key) :
    changes.filterMap (·.delisted? market) =
      (Call.delisted? market ⟨operation, reply⟩).toList := by
  cases does with
  | listed place node stake admission => cases admission <;> rfl
  | delisted place node => by_cases here : place = market <;> simp [Change.delisted?, here]
  | swept place ended =>
      rw [List.filterMap_map]
      exact List.filterMap_eq_nil_iff.2 fun _ _ => rfl
  | _ => rfl

end Operation.Does

/-- One for a job that a node is bound to, nothing for any other. -/
def Job.boundTo (node : Key) (job : Job) : Nat := if job.node = some node then 1 else 0

/-- No settlement binds a node or sets one free. -/
theorem Job.Settlement.same_node {config : Config} {now : Int64} {job ended : Job} {payee : Key}
    {event : Event} (settlement : job.Settlement config now ended payee event) :
    ended.node = job.node := by
  cases settlement <;> rfl

namespace Count

/-- Saturated counts stay saturated counts when they go on. -/
theorem value_next_of_min {count : Count} {number : Nat}
    (counted : count.value = min number 0xffffffffffffffff) :
    count.next.value = min (number + 1) 0xffffffffffffffff := by
  simp only [next, value_ofNat]
  omega

end Count

namespace Venue

/-- A market accounts for all listings of its nodes and for all jobs, up to the largest count. -/
structure Tallies (venue : Venue) (listed delisted : List Key) : Prop where
  used : ∀ node, listed.count node =
    (venue.market.queue.entriesOf .node).count node + venue.jobs.total (Job.boundTo node) +
      delisted.count node
  listings : venue.market.listingCount.value = min listed.length 0xffffffffffffffff
  jobs : venue.market.jobCount.value = min (venue.jobs.total fun _ => 1) 0xffffffffffffffff

end Venue

namespace Desk

variable {config : Config} {now : Int64} {desk after : Desk} {event : Event}
  {listed delisted : List Key} {node : Key} {capacity : Count} {queue : Queue}

/-- A node that waits is accounted for by the queue. -/
theorem tallies_nodeQueued {place : Nat} (tallies : desk.venue.Tallies listed delisted)
    (submitted : desk.venue.market.queue.submit .node node capacity =
      .ok (.queued place, queue)) :
    Venue.Tallies { desk.venue with market :=
      { desk.venue.market with queue, listingCount := desk.venue.market.listingCount.next } }
      (listed ++ [node]) delisted := by
  obtain ⟨waits, -, -, -⟩ := Queue.entriesOf_of_submit_queued submitted
  refine ⟨?_, ?_, tallies.jobs⟩
  · intro other
    have before := tallies.used other
    simp only [waits, List.count_append]
    omega
  · simpa using Count.value_next_of_min tallies.listings

/-- A node that takes the job at the head of the queue is accounted for by this job, which was bound
to no node before. -/
theorem tallies_headMatched {waiting : Job} (tallies : desk.venue.Tallies listed delisted)
    (submitted : desk.venue.market.queue.submit .node node capacity =
      .ok (.matched waiting.id, queue))
    (recorded : desk.venue.jobs.get? waiting.id = some waiting) (free : waiting.node = none) :
    Venue.Tallies { desk.venue with
      market :=
        { desk.venue.market with queue, listingCount := desk.venue.market.listingCount.next }
      jobs := desk.venue.jobs.insert waiting.id
        { waiting with node := some node, state := .running, started := now } }
      (listed ++ [node]) delisted := by
  obtain ⟨-, before, afterwards⟩ := Queue.entriesOf_of_submit_matched submitted
  let started : Job := { waiting with node := some node, state := .running, started := now }
  refine ⟨?_, ?_, ?_⟩
  · intro other
    have bound := KeyMap.total_insert_of_get? (Job.boundTo other) started recorded
    have unbound : waiting.boundTo other = 0 := by simp [Job.boundTo, free]
    have taken : started.boundTo other = [node].count other := by
      simp [started, Job.boundTo, List.count_singleton]
    have counted := tallies.used other
    rw [before] at counted
    change _ = (queue.entriesOf .node).count other +
      (desk.venue.jobs.insert waiting.id started).total (Job.boundTo other) + _
    rw [afterwards, List.count_append]
    omega
  · simpa using Count.value_next_of_min tallies.listings
  · change _ = min ((desk.venue.jobs.insert waiting.id started).total _) _
    rw [KeyMap.total_insert_same (fun _ => 1) recorded rfl]
    exact tallies.jobs

/-- A node that leaves the queue is accounted for by its withdrawal. -/
theorem tallies_nodeDelisted (tallies : desk.venue.Tallies listed delisted)
    (waits : desk.venue.market.queue.contains .node node = true) :
    (desk.withQueue (desk.venue.market.queue.remove .node node)).venue.Tallies listed
      (delisted ++ [node]) := by
  refine ⟨?_, tallies.listings, tallies.jobs⟩
  intro other
  have member := List.count_pos_iff.2 (Queue.contains_iff.1 waits)
  have counted := tallies.used other
  unfold withQueue
  simp only [Queue.entriesOf_remove, if_true, List.count_append, List.count_erase,
    List.count_singleton]
  by_cases same : node = other
  · subst same
    simp only [beq_self_eq_true, if_true]
    omega
  · simp only [beq_iff_eq, same, if_false]
    omega

/-- A settled job stays bound to its node, so that nothing is counted in another place. -/
theorem tallies_settle {job ended : Job} {payee : Key} {rest total : Amount}
    (tallies : desk.venue.Tallies listed delisted)
    (recorded : desk.venue.jobs.get? job.id = some job)
    (settlement : job.Settlement config now ended payee event) :
    (desk.settle job ended payee rest total).venue.Tallies listed delisted := by
  refine ⟨?_, tallies.listings, ?_⟩
  · intro node
    have same : ended.boundTo node = job.boundTo node := by
      rw [Job.boundTo, Job.boundTo, settlement.same_node]
    rw [waitingNodes_settle, tallies.used node]
    change _ = _ + (desk.venue.jobs.insert job.id ended).total (Job.boundTo node) + _
    rw [KeyMap.total_insert_same _ recorded same]
  · change _ = min ((desk.venue.jobs.insert job.id ended).total _) _
    rw [KeyMap.total_insert_same (fun _ => 1) recorded rfl]
    exact tallies.jobs

/-- What happens to a market adds to its account the nodes that it lists and withdraws. -/
theorem Step.tallies (tallies : desk.venue.Tallies listed delisted)
    (step : Step config now desk event after) :
    after.venue.Tallies
      (listed ++ (Change.listed? desk.venue.market.id (.told event)).toList)
      (delisted ++ (Change.delisted? desk.venue.market.id (.told event)).toList) := by
  cases step with
  | nodeQueued node place queue submitted =>
      simpa [Change.listed?, Change.delisted?] using tallies_nodeQueued tallies submitted
  | headMatched node waiting queue submitted recorded queued free =>
      simpa [Change.listed?, Change.delisted?] using
        tallies_headMatched tallies submitted recorded free
  | nodeDelisted node waits =>
      simpa [Change.listed?, Change.delisted?] using tallies_nodeDelisted tallies waits
  | settled job ended payee event rest total recorded settlement =>
      have settles : event.settledJob? = some job.id := by
        cases settlement <;> rfl
      obtain ⟨unlisted, undelisted⟩ : Change.listed? desk.venue.market.id (.told event) = none ∧
          Change.delisted? desk.venue.market.id (.told event) = none :=
        Change.unlisted_of_settled settles
      rw [unlisted, undelisted, Option.toList_none, List.append_nil, List.append_nil]
      exact tallies_settle tallies recorded settlement

variable {client : Key} {request : JobRequest} {admission : JobAdmission}

/-- A new job lists nobody. If it finds a node, the node that waited is bound instead. -/
theorem Entry.tallies (tallies : desk.venue.Tallies listed delisted)
    (entry : Entry client request capacity now desk admission event after) :
    after.venue.Tallies listed delisted := by
  have counted (job : Job) (fresh : desk.venue.jobs.get? request.id = none) :
      desk.venue.market.jobCount.next.value =
        min ((desk.venue.jobs.insert request.id job).total fun _ => 1) 0xffffffffffffffff := by
    rw [KeyMap.total_insert_new (fun _ => 1) job fresh]
    exact Count.value_next_of_min tallies.jobs
  cases entry with
  | queued place queue rest total admissible submitted =>
      obtain ⟨-, -, before, afterwards⟩ := Queue.entriesOf_of_submit_queued submitted
      change desk.venue.market.queue.entriesOf .node = [] at before
      change queue.entriesOf .node = [] at afterwards
      refine ⟨?_, tallies.listings, counted _ admissible.fresh⟩
      intro node
      have bound := KeyMap.total_insert_new (Job.boundTo node) (desk.draft client request now)
        admissible.fresh
      have unbound : (desk.draft client request now).boundTo node = 0 := if_neg nofun
      have used := tallies.used node
      rw [before] at used
      change _ = (queue.entriesOf .node).count node +
        (desk.venue.jobs.insert request.id (desk.draft client request now)).total
          (Job.boundTo node) + _
      rw [afterwards]
      omega
  | matched head queue rest total admissible submitted =>
      obtain ⟨waits, -, -⟩ := Queue.entriesOf_of_submit_matched submitted
      change desk.venue.market.queue.entriesOf .node = head :: queue.entriesOf .node at waits
      refine ⟨?_, tallies.listings, counted _ admissible.fresh⟩
      intro node
      let started : Job :=
        { desk.draft client request now with node := some head, state := .running, started := now }
      have bound := KeyMap.total_insert_new (Job.boundTo node) started admissible.fresh
      have taken : started.boundTo node = if head = node then 1 else 0 := by
        simp [started, Job.boundTo]
      have used := tallies.used node
      rw [waits, List.count_cons] at used
      simp only [beq_iff_eq] at used
      change _ = (queue.entriesOf .node).count node +
        (desk.venue.jobs.insert request.id started).total (Job.boundTo node) + _
      omega

end Desk

namespace Store

variable {now : Int64} {store after : Store} {seen : Change} {changes : List Change} {market : Key}
  {listings delistings : List Key}

/-- A market accounts for the listings of its nodes. In a market that is not open there are
none. -/
def Tallies (store : Store) (market : Key) (listings delistings : List Key) : Prop :=
  match store.venues.get? market with
  | none => listings = [] ∧ delistings = []
  | some venue => venue.Tallies listings delistings

/-- In a market that is open its own account counts. -/
theorem tallies_of_found {venue : Venue} (found : store.venues.get? market = some venue) :
    store.Tallies market listings delistings ↔ venue.Tallies listings delistings := by
  rw [Tallies, found]

/-- A market that is put back keeps its own account and that of no other market. -/
theorem tallies_of_insert {place : Key} {venue : Venue}
    (venues : after.venues = store.venues.insert place venue) (named : seen.market? = some place)
    (tallies : store.Tallies market listings delistings)
    (here : place = market → venue.Tallies (listings ++ (seen.listed? market).toList)
      (delistings ++ (seen.delisted? market).toList)) :
    after.Tallies market (listings ++ (seen.listed? market).toList)
      (delistings ++ (seen.delisted? market).toList) := by
  unfold Tallies
  rw [venues, KeyMap.get?_insert]
  by_cases same : place = market
  · rw [if_pos same]
    exact here same
  · have away : seen.market? ≠ some market := by
      rw [named]
      simpa using same
    obtain ⟨unlisted, undelisted⟩ := Change.unlisted_of_market away
    rw [if_neg same, unlisted, undelisted, Option.toList_none, List.append_nil, List.append_nil]
    exact tallies

/-- Every change keeps the account of a market, and adds to it what the change tells. -/
theorem Step.tallies (sound : store.Sound) (tallies : store.Tallies market listings delistings)
    (step : Step now store seen after) :
    after.Tallies market (listings ++ (seen.listed? market).toList)
      (delistings ++ (seen.delisted? market).toList) := by
  cases step with
  | opened id authority params fresh =>
      refine tallies_of_insert rfl rfl tallies ?_
      rintro rfl
      rw [Tallies, fresh] at tallies
      obtain ⟨rfl, rfl⟩ := tallies
      exact ⟨fun _ => rfl, rfl, rfl⟩
  | paid account amount =>
      have nobody : (Change.paid account amount).listed? market = none ∧
          (Change.paid account amount).delisted? market = none := ⟨rfl, rfl⟩
      rw [nobody.1, nobody.2, Option.toList_none, List.append_nil, List.append_nil]
      exact tallies
  | entered place client request venue admission event desk found unused entry =>
      have named := entry.event_market.trans (sound.named place venue found)
      refine tallies_of_insert rfl (congrArg some named) tallies ?_
      rintro rfl
      simp only [Change.listed?, Change.delisted?, Option.toList_none, List.append_nil]
      exact entry.tallies ((tallies_of_found found).1 tallies)
  | traded place venue event desk found step =>
      have ledger := sound.ledgers place venue found
      have same := sound.named place venue found
      refine tallies_of_insert rfl (congrArg some ((step.event_market ledger).trans same)) tallies ?_
      rintro rfl
      have later := step.tallies ((tallies_of_found found).1 tallies)
      dsimp only at later
      rw [same] at later
      exact later

/-- Changes one after the other add to the account of a market what they tell. -/
theorem Steps.tallies (sound : store.Sound) (tallies : store.Tallies market listings delistings)
    (steps : Steps now store changes after) :
    after.Tallies market (listings ++ changes.filterMap (·.listed? market))
      (delistings ++ changes.filterMap (·.delisted? market)) := by
  induction steps generalizing listings delistings with
  | none store => simpa using tallies
  | @more store middle after seen changes first rest inductionHypothesis =>
      have later := inductionHypothesis (first.sound sound) (first.tallies sound tallies)
      have split (told : Change → Option Key) : (seen :: changes).filterMap told =
          (told seen).toList ++ changes.filterMap told := by
        cases first : told seen <;> simp [first]
      rw [split, split, ← List.append_assoc, ← List.append_assoc]
      exact later

/-- A move lists and withdraws the nodes of its call. -/
theorem Sound.tallies_move (sound : store.Sound)
    (tallies : store.Tallies market listings delistings) (move : Move) :
    (store.move move).Tallies market (listings ++ listed market (store.callsOf move))
      (delistings ++ delisted market (store.callsOf move)) := by
  cases move with
  | perform now operation =>
      change (store.apply now operation).2.Tallies market _ _
      cases answer : (store.apply now operation).1 with
      | error cause =>
          rw [(apply_of_error now sound answer).2, callsOf_of_error answer]
          simpa using tallies
      | ok reply =>
          obtain ⟨changes, does, steps⟩ := steps_of_apply now sound answer
          have later := steps.tallies sound tallies
          rw [does.lists, does.delists] at later
          rw [callsOf_of_ok answer, listed_singleton, delisted_singleton]
          exact later
  | takeEvents =>
      simp only [callsOf, listed_nil, delisted_nil, List.append_nil]
      exact tallies
  | restart =>
      simp only [callsOf, listed_nil, delisted_nil, List.append_nil, move_restart sound]
      exact tallies

/-- The account of a market follows the calls of any history. -/
theorem Sound.tallies_after (sound : store.Sound)
    (tallies : store.Tallies market listings delistings) (moves : List Move) :
    (store.after moves).Tallies market (listings ++ listed market (store.calls moves))
      (delistings ++ delisted market (store.calls moves)) := by
  induction moves generalizing store listings delistings with
  | nil =>
      simp only [calls, listed_nil, delisted_nil, List.append_nil]
      exact tallies
  | cons move rest inductionHypothesis =>
      have later := inductionHypothesis (sound.move move) (sound.tallies_move tallies move)
      simp only [calls, listed_append, delisted_append, ← List.append_assoc]
      exact later

end Store

namespace Market

/-- What of a market lasts: its terms stay, and its counters never go back. -/
structure Endures (market later : Market) : Prop where
  id : later.id = market.id
  authority : later.authority = market.authority
  vault : later.vault = market.vault
  params : later.params = market.params
  jobCount : market.jobCount.value ≤ later.jobCount.value
  listingCount : market.listingCount.value ≤ later.listingCount.value

variable {market middle later : Market}

theorem Endures.refl (market : Market) : market.Endures market :=
  ⟨rfl, rfl, rfl, rfl, Nat.le_refl _, Nat.le_refl _⟩

theorem Endures.trans (first : market.Endures middle) (second : middle.Endures later) :
    market.Endures later where
  id := second.id.trans first.id
  authority := second.authority.trans first.authority
  vault := second.vault.trans first.vault
  params := second.params.trans first.params
  jobCount := first.jobCount.trans second.jobCount
  listingCount := first.listingCount.trans second.listingCount

end Market

theorem Count.le_next (count : Count) : count.value ≤ count.next.value := by
  have bounded := count.value_le
  simp only [next, value_ofNat]
  omega

namespace Desk

variable {config : Config} {now : Int64} {desk after : Desk} {event : Event}

/-- Nothing that happens in a market changes its terms or takes a count back. -/
theorem Step.endures (step : Step config now desk event after) :
    desk.venue.market.Endures after.venue.market := by
  obtain ⟨id, authority, vault, params⟩ := step.same_terms
  refine ⟨id, authority, vault, params, ?_, ?_⟩
  · cases step <;> exact Nat.le_refl _
  · cases step with
    | nodeQueued => exact desk.venue.market.listingCount.le_next
    | headMatched => exact desk.venue.market.listingCount.le_next
    | nodeDelisted => exact Nat.le_refl _
    | settled => exact Nat.le_refl _

/-- A new job changes no terms and takes no count back. -/
theorem Entry.endures {client : Key} {request : JobRequest} {capacity : Count}
    {admission : JobAdmission}
    (entry : Entry client request capacity now desk admission event after) :
    desk.venue.market.Endures after.venue.market := by
  obtain ⟨id, authority, vault, params⟩ := entry.same_terms
  refine ⟨id, authority, vault, params, ?_, ?_⟩
  · cases entry <;> exact desk.venue.market.jobCount.le_next
  · cases entry <;> exact Nat.le_refl _

end Desk

namespace Store

variable {now : Int64} {store after : Store} {seen : Change} {market : Key} {venue : Venue}

/-- A change keeps every market, with its terms. -/
theorem Step.endures (step : Step now store seen after)
    (found : store.venues.get? market = some venue) :
    ∃ later, after.venues.get? market = some later ∧ venue.market.Endures later.market := by
  have filed {place : Key} {known next : Venue} (venues : after.venues = store.venues.insert place next)
      (foundPlace : store.venues.get? place = some known)
      (endures : known.market.Endures next.market) :
      ∃ later, after.venues.get? market = some later ∧ venue.market.Endures later.market := by
    rw [venues, KeyMap.get?_insert]
    by_cases same : place = market
    · subst same
      rw [found, Option.some.injEq] at foundPlace
      subst foundPlace
      exact ⟨next, if_pos rfl, endures⟩
    · exact ⟨venue, by rw [if_neg same, found], .refl _⟩
  cases step with
  | opened id authority params fresh =>
      have different : id ≠ market := by
        intro same
        rw [same, found] at fresh
        cases fresh
      exact ⟨venue, (KeyMap.get?_insert_of_ne _ _ different).trans found, .refl _⟩
  | paid => exact ⟨venue, found, .refl _⟩
  | entered place client request known admission event desk foundPlace unused entry =>
      exact filed rfl foundPlace entry.endures
  | traded place known event desk foundPlace step => exact filed rfl foundPlace step.endures

/-- A market stays open with its terms, and its counts never go back. -/
theorem Sound.endures_after (sound : store.Sound) (moves : List Move)
    (found : store.venues.get? market = some venue) :
    ∃ later, (store.after moves).venues.get? market = some later ∧
      venue.market.Endures later.market := by
  apply sound.invariant_after fun after =>
    ∃ later, after.venues.get? market = some later ∧ venue.market.Endures later.market
  · exact ⟨venue, found, .refl _⟩
  · intro store held
    exact held
  · rintro now store after seen sound ⟨middle, known, endures⟩ step
    obtain ⟨later, last, more⟩ := step.endures known
    exact ⟨later, last, endures.trans more⟩

/-- In a store that starts empty, whatever was done with it, every listing of a node that succeeded
is used at most once: it waits in the queue, or it was withdrawn, or one job of the market has the
node. The counters of the market tell how many listings and jobs there were, up to the largest
count; from then on they never go back, and the terms of the market stay. -/
theorem listings_used_once {config : Config} {start : Store} (opened : new config = .ok start)
    (moves : List Move) :
    ∀ market venue, (start.after moves).venues.get? market = some venue →
      (∀ node, (listed market (start.calls moves)).count node =
        (if venue.market.queue.contains .node node then 1 else 0) +
          venue.jobs.values.countP (·.node = some node) +
          (delisted market (start.calls moves)).count node) ∧
      venue.market.listingCount.value =
        min (listed market (start.calls moves)).length 0xffffffffffffffff ∧
      venue.market.jobCount.value = min venue.jobs.size 0xffffffffffffffff ∧
      ∀ further : List Move, ∃ later,
        ((start.after moves).after further).venues.get? market = some later ∧
          venue.market.Endures later.market := by
  intro market venue found
  have startSound := sound_of_new opened
  have sound := startSound.after moves
  obtain ⟨-, same⟩ := Guard.unit_bind_eq_ok.1 opened
  cases same
  have nothing : (empty config).Tallies market [] [] := ⟨rfl, rfl⟩
  have tallies := (tallies_of_found found).1 (startSound.tallies_after nothing moves)
  rw [List.nil_append, List.nil_append] at tallies
  refine ⟨?_, tallies.listings, ?_, fun further => sound.endures_after further found⟩
  · intro node
    have distinct := Queue.nodup_entriesOf (sound.ledgers market venue found).formed .node
    have bound := KeyMap.total_indicator (fun job : Job => job.node = some node) venue.jobs
    have waits : (venue.market.queue.entriesOf .node).count node =
        if venue.market.queue.contains .node node then 1 else 0 := by
      simp only [distinct.count, Queue.contains_iff]
    rw [tallies.used node, waits]
    exact congrArg (_ + · + _) bound
  · rw [tallies.jobs, KeyMap.total_one]

/-- A history in which one node is listed four times: it is withdrawn, serves a job that runs out of
time, serves another and waits again. -/
def relisting : List Move :=
  let authority := Key.ofBytes [1]
  let client := Key.ofBytes [2]
  let node := Key.ofBytes [3]
  let market := Market.idOf authority 0
  let request (id : UInt8) : JobRequest := ⟨Key.ofBytes [id], ⟨Word.ofNumber 5⟩, 8, .any⟩
  [.perform 0 (.createMarket authority ⟨.ofTokens 2, 60, .zero⟩),
   .perform 0 (.deposit client (.ofTokens 9)),
   .perform 1 (.listNode market node .zero),
   .perform 2 (.delistNode market node),
   .perform 3 (.createJob market client (request 4)),
   .perform 4 (.listNode market node .zero),
   .restart,
   .perform 5 (.listNode market node .zero),
   .perform 90 (.timeoutJob (Key.ofBytes [4])),
   .perform 91 (.createJob market client (request 5)),
   .perform 92 (.listNode market node .zero)]

/-- Of four listings of a node one waits, two were used for jobs and one was withdrawn. -/
theorem listings_used_once_relisting :
    new {} = .ok (empty {}) ∧
    ∃ venue, ((empty {}).after relisting).venues.get? (Market.idOf (Key.ofBytes [1]) 0) =
        some venue ∧
      venue.market.queue = .nodes [Key.ofBytes [3]] ∧
      (listed (Market.idOf (Key.ofBytes [1]) 0) ((empty {}).calls relisting)).count
        (Key.ofBytes [3]) = 4 ∧
      4 = 1 + venue.jobs.values.countP (·.node = some (Key.ofBytes [3])) + 1 := by
  have opened : new {} = .ok (empty {}) := rfl
  have facts : (((empty {}).after relisting).venues.get? (Market.idOf (Key.ofBytes [1]) 0)).map
        (fun venue => venue.market.queue) = some (.nodes [Key.ofBytes [3]]) ∧
      (listed (Market.idOf (Key.ofBytes [1]) 0) ((empty {}).calls relisting)).count
        (Key.ofBytes [3]) = 4 ∧
      (delisted (Market.idOf (Key.ofBytes [1]) 0) ((empty {}).calls relisting)).count
        (Key.ofBytes [3]) = 1 := by
    decide +kernel
  obtain ⟨waits, four, once⟩ := facts
  obtain ⟨venue, found, queue⟩ := Option.map_eq_some_iff.1 waits
  have used := (listings_used_once opened relisting _ venue found).1 (Key.ofBytes [3])
  have waiting : venue.market.queue.contains .node (Key.ofBytes [3]) = true := by
    rw [queue]
    decide +kernel
  rw [four, once, waiting] at used
  exact ⟨opened, venue, found, queue, four, used⟩

end Store

end ComputeMarket
