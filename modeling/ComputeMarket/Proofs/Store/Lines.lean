import ComputeMarket.Proofs.Store.Record
import Mathlib.Data.List.NodupEquivFin

/-
This file describes what waits in a market as two lines, of jobs and of nodes, and proves that
every change of a store treats them first come, first served.
-/

namespace ComputeMarket

/-- Who waits in a market, the longest waiting first. -/
structure Lines where
  jobs : List Key
  nodes : List Key

/-- The market that a change is about, if it is about one. -/
def Change.market? : Change → Option Key
  | .entered event | .told event => some event.market
  | .paid .. => none

namespace Lines

/-- What a change may do to the lines of a market. An arrival that finds nobody on the other side
stands last, if there is room; else it takes the first one there. Those who leave are taken out
of their place. -/
inductive Step (capacity : Count) (market : Key) : Lines → Change → Lines → Prop
  | elsewhere (lines : Lines) (seen : Change) (other : seen.market? ≠ some market) :
      Step capacity market lines seen lines
  | opened (authority : Key) (price : Amount) (now : Int64) :
      Step capacity market ⟨[], []⟩ (.told (.marketCreated market authority price now)) ⟨[], []⟩
  | jobWaits (jobs : List Key) (job : Key) (place : Count) (now : Int64) (new : job ∉ jobs)
      (room : jobs.length < capacity.value) :
      Step capacity market ⟨jobs, []⟩ (.entered (.jobQueued market job place now))
        ⟨jobs ++ [job], []⟩
  | jobServed (job node : Key) (nodes : List Key) (now : Int64) :
      Step capacity market ⟨[], node :: nodes⟩ (.entered (.jobMatched market job node now))
        ⟨[], nodes⟩
  | nodeWaits (nodes : List Key) (node : Key) (place : Count) (now : Int64) (new : node ∉ nodes)
      (room : nodes.length < capacity.value) :
      Step capacity market ⟨[], nodes⟩ (.told (.nodeQueued market node place now))
        ⟨[], nodes ++ [node]⟩
  | nodeServed (job : Key) (jobs : List Key) (node : Key) (now : Int64) :
      Step capacity market ⟨job :: jobs, []⟩ (.told (.jobMatched market job node now)) ⟨jobs, []⟩
  | nodeLeaves (jobs nodes : List Key) (node : Key) (now : Int64) :
      Step capacity market ⟨jobs, nodes⟩ (.told (.nodeDelisted market node now))
        ⟨jobs, nodes.erase node⟩
  | jobEnds (jobs nodes : List Key) (job : Key) (event : Event)
      (settles : event.settledJob? = some job) :
      Step capacity market ⟨jobs, nodes⟩ (.told event) ⟨jobs.erase job, nodes⟩

/-- Changes one after the other. -/
inductive Steps (capacity : Count) (market : Key) : Lines → List Change → Lines → Prop
  | none (lines : Lines) : Steps capacity market lines [] lines
  | more {lines middle after : Lines} {seen : Change} {changes : List Change}
      (first : Step capacity market lines seen middle)
      (rest : Steps capacity market middle changes after) :
      Steps capacity market lines (seen :: changes) after

/-- No line is longer than the capacity. -/
def Bounded (capacity : Count) (lines : Lines) : Prop :=
  lines.jobs.length ≤ capacity.value ∧ lines.nodes.length ≤ capacity.value

/-- Some have left a line, the others keep their order, and those who came stand behind them. -/
def MovesOn (entries next : List Key) : Prop :=
  ∃ kept joined, kept.Sublist entries ∧ (∀ id ∈ joined, id ∉ entries) ∧ next = kept ++ joined

variable {capacity : Count} {market : Key} {before after : Lines} {seen : Change}
  {changes : List Change} {event : Event} {entries next : List Key} {now : Int64}

/-- A line that only loses entries moves on. -/
theorem MovesOn.of_sublist (sublist : next.Sublist entries) : MovesOn entries next := by
  refine ⟨next, [], sublist, ?_, (List.append_nil next).symm⟩
  intro id member
  cases member

/-- A line that somebody new joins at its end moves on. -/
theorem MovesOn.join {id : Key} (new : id ∉ entries) : MovesOn entries (entries ++ [id]) := by
  refine ⟨entries, [id], .refl entries, ?_, rfl⟩
  intro other member
  rw [List.mem_singleton.1 member]
  exact new

/-- Places in the next line come from places further back, in the same order. -/
theorem MovesOn.places (moves : MovesOn entries next) (distinct : entries.Nodup) :
    ∃ source : Nat ↪o Nat, ∀ place later id, entries[place]? = some id → next[later]? = some id →
      place = source later := by
  obtain ⟨kept, joined, sublist, new, rfl⟩ := moves
  obtain ⟨source, same⟩ := List.sublist_iff_exists_orderEmbedding_getElem?_eq.1 sublist
  refine ⟨source, ?_⟩
  intro place later id waits waitsLater
  have stays : later < kept.length := by
    by_contra beyond
    rw [List.getElem?_append_right (Nat.not_lt.1 beyond)] at waitsLater
    exact new id (List.mem_of_getElem? waitsLater) (List.mem_of_getElem? waits)
  rw [List.getElem?_append_left stays, same, ← waits] at waitsLater
  obtain ⟨inside, -⟩ := List.getElem?_eq_some_iff.1 waits
  exact (List.getElem?_inj inside distinct).1 waitsLater.symm

/-- No change makes a line longer than the capacity. -/
theorem Step.bounded (step : Step capacity market before seen after)
    (bounded : before.Bounded capacity) : after.Bounded capacity := by
  obtain ⟨jobsFit, nodesFit⟩ := bounded
  cases step with
  | elsewhere => exact ⟨jobsFit, nodesFit⟩
  | opened => exact ⟨jobsFit, nodesFit⟩
  | jobWaits jobs job place now new room =>
      refine ⟨?_, nodesFit⟩
      rw [List.length_append]
      exact room
  | jobServed job node nodes now => exact ⟨jobsFit, (Nat.le_succ _).trans nodesFit⟩
  | nodeWaits nodes node place now new room =>
      refine ⟨jobsFit, ?_⟩
      rw [List.length_append]
      exact room
  | nodeServed job jobs node now => exact ⟨(Nat.le_succ _).trans jobsFit, nodesFit⟩
  | nodeLeaves jobs nodes node now => exact ⟨jobsFit, List.length_erase_le.trans nodesFit⟩
  | jobEnds jobs nodes job event settles => exact ⟨List.length_erase_le.trans jobsFit, nodesFit⟩

/-- Every change lets both lines move on. -/
theorem Step.movesOn (step : Step capacity market before seen after) :
    MovesOn before.jobs after.jobs ∧ MovesOn before.nodes after.nodes := by
  cases step with
  | elsewhere => exact ⟨.of_sublist (.refl _), .of_sublist (.refl _)⟩
  | opened => exact ⟨.of_sublist (.refl _), .of_sublist (.refl _)⟩
  | jobWaits jobs job place now new => exact ⟨.join new, .of_sublist (.refl _)⟩
  | jobServed job node nodes now =>
      exact ⟨.of_sublist (.refl _), .of_sublist (List.sublist_cons_self node nodes)⟩
  | nodeWaits nodes node place now new => exact ⟨.of_sublist (.refl _), .join new⟩
  | nodeServed job jobs node now =>
      exact ⟨.of_sublist (List.sublist_cons_self job jobs), .of_sublist (.refl _)⟩
  | nodeLeaves jobs nodes node now =>
      exact ⟨.of_sublist (.refl _), .of_sublist List.erase_sublist⟩
  | jobEnds jobs nodes job event settles =>
      exact ⟨.of_sublist List.erase_sublist, .of_sublist (.refl _)⟩

/-- Without a new job nobody joins the jobs that wait. -/
theorem Step.jobs_sublist (step : Step capacity market before seen after)
    (told : ∀ event, seen ≠ .entered event) : after.jobs.Sublist before.jobs := by
  cases step with
  | elsewhere => exact .refl _
  | opened => exact .refl _
  | jobWaits => exact absurd rfl (told _)
  | jobServed => exact .refl _
  | nodeWaits => exact .refl _
  | nodeServed job jobs => exact List.sublist_cons_self job jobs
  | nodeLeaves => exact .refl _
  | jobEnds => exact List.erase_sublist

/-- The end of a job leaves the nodes that wait alone. -/
theorem Step.nodes_of_settled {job : Key} (step : Step capacity market before (.told event) after)
    (settles : event.settledJob? = some job) : after.nodes = before.nodes := by
  cases step with
  | elsewhere => rfl
  | jobEnds => rfl
  | _ => cases settles

/-- A node that is listed and finds a job finds the first one. -/
theorem Step.first_job {job node : Key}
    (step : Step capacity market before (.told (.jobMatched market job node now)) after) :
    before.jobs.head? = some job := by
  cases step with
  | elsewhere _ _ other => exact absurd rfl other
  | nodeServed => rfl
  | jobEnds _ _ _ _ settles => cases settles

/-- A new job that finds a node finds the first one. -/
theorem Step.first_node {job node : Key}
    (step : Step capacity market before (.entered (.jobMatched market job node now)) after) :
    before.nodes.head? = some node := by
  cases step with
  | elsewhere _ _ other => exact absurd rfl other
  | jobServed => rfl

/-- Only the new job joins the jobs that wait, and only in its own market. -/
theorem Step.jobs_of_entered {place job : Key} {admission : JobAdmission}
    (step : Step capacity market before (.entered (admission.event place job now)) after) :
    after.jobs.Sublist (before.jobs ++ [job]) ∧ (place ≠ market → after = before) := by
  cases admission with
  | queued position =>
      cases step with
      | elsewhere => exact ⟨List.sublist_append_left _ _, fun _ => rfl⟩
      | jobWaits => exact ⟨.refl _, fun away => absurd rfl away⟩
  | matched node =>
      cases step with
      | elsewhere => exact ⟨List.sublist_append_left _ _, fun _ => rfl⟩
      | jobServed => exact ⟨List.nil_sublist _, fun away => absurd rfl away⟩

theorem Steps.single (steps : Steps capacity market before [seen] after) :
    Step capacity market before seen after := by
  cases steps with
  | more first rest =>
      cases rest
      exact first

theorem Steps.bounded (steps : Steps capacity market before changes after)
    (bounded : before.Bounded capacity) : after.Bounded capacity := by
  induction steps with
  | none lines => exact bounded
  | more first rest inductionHypothesis => exact inductionHypothesis (first.bounded bounded)

/-- Changes without a new job only take jobs out of their line. -/
theorem Steps.jobs_sublist (steps : Steps capacity market before changes after)
    (told : ∀ seen ∈ changes, ∀ event, seen ≠ .entered event) :
    after.jobs.Sublist before.jobs := by
  induction steps with
  | none lines => exact .refl _
  | more first rest inductionHypothesis =>
      rw [List.forall_mem_cons] at told
      exact (inductionHypothesis told.2).trans (first.jobs_sublist told.1)

/-- Timeouts leave the nodes that wait alone. -/
theorem Steps.nodes_of_timeouts {ended : List Job} {now : Int64}
    (steps : Steps capacity market before
      (ended.map fun job => .told (job.timeoutEvent now)) after) : after.nodes = before.nodes := by
  induction ended generalizing before with
  | nil =>
      cases steps
      rfl
  | cons first rest inductionHypothesis =>
      rw [List.map_cons] at steps
      cases steps with
      | more step later => rw [inductionHypothesis later, step.nodes_of_settled rfl]

end Lines

/-- Who waits in a market. -/
def Venue.lines (venue : Venue) : Lines :=
  ⟨venue.market.queue.entriesOf .job, venue.market.queue.entriesOf .node⟩

namespace Desk

variable {config : Config} {now : Int64} {desk after : Desk} {event : Event}

/-- What happens in a market is a step of its lines. -/
theorem Step.lines (sound : desk.venue.Sound) (step : Step config now desk event after) :
    Lines.Step config.capacity desk.venue.market.id desk.venue.lines (.told event)
      after.venue.lines := by
  cases step with
  | nodeQueued node place queue submitted =>
      obtain ⟨waits, new, before, afterwards⟩ := Queue.entriesOf_of_submit_queued submitted
      change desk.venue.market.queue.entriesOf .job = [] at before
      change queue.entriesOf .job = [] at afterwards
      unfold Venue.lines
      dsimp only
      rw [waits, before, afterwards]
      exact .nodeWaits _ node _ now new (Queue.room_of_submit_queued submitted)
  | headMatched node waiting queue submitted =>
      obtain ⟨waits, before, afterwards⟩ := Queue.entriesOf_of_submit_matched submitted
      change desk.venue.market.queue.entriesOf .job = waiting.id :: queue.entriesOf .job at waits
      unfold Venue.lines
      dsimp only
      rw [waits, before, afterwards]
      exact .nodeServed waiting.id _ node now
  | nodeDelisted node =>
      unfold Venue.lines withQueue
      dsimp only
      rw [Queue.entriesOf_remove, Queue.entriesOf_remove, if_pos rfl, if_neg (by decide)]
      exact .nodeLeaves _ _ node now
  | settled job ended payee event rest total recorded settlement =>
      have settles : event.settledJob? = some job.id := by
        cases settlement <;> rfl
      have waits : (desk.settle job ended payee rest total).venue.market.queue.entriesOf .job =
          (desk.venue.market.queue.entriesOf .job).erase job.id := waitingJobs_settle sound recorded
      unfold Venue.lines
      rw [waits, waitingNodes_settle]
      exact .jobEnds _ _ job.id event settles

variable {client : Key} {request : JobRequest} {capacity : Count} {admission : JobAdmission}

/-- A new job is a step of the lines of its market. -/
theorem Entry.lines (entry : Entry client request capacity now desk admission event after) :
    Lines.Step capacity desk.venue.market.id desk.venue.lines (.entered event)
      after.venue.lines := by
  cases entry with
  | queued place queue rest total admissible submitted =>
      obtain ⟨waits, new, before, afterwards⟩ := Queue.entriesOf_of_submit_queued submitted
      change desk.venue.market.queue.entriesOf .node = [] at before
      change queue.entriesOf .node = [] at afterwards
      unfold Venue.lines enter
      dsimp only
      rw [waits, before, afterwards]
      exact .jobWaits _ request.id _ now new (Queue.room_of_submit_queued submitted)
  | matched node queue rest total admissible submitted =>
      obtain ⟨waits, before, afterwards⟩ := Queue.entriesOf_of_submit_matched submitted
      change desk.venue.market.queue.entriesOf .node = node :: queue.entriesOf .node at waits
      unfold Venue.lines enter
      dsimp only
      rw [waits, before, afterwards]
      exact .jobServed request.id node _ now

end Desk

namespace Store

/-- Who waits in a market. In a market that is not open nobody does. -/
def lines (store : Store) (market : Key) : Lines :=
  (store.venues.get? market).elim ⟨[], []⟩ Venue.lines

variable {now : Int64} {store after : Store} {seen : Change} {changes : List Change} {market : Key}
  {venue : Venue}

theorem lines_of_found (found : store.venues.get? market = some venue) :
    store.lines market = venue.lines := by
  rw [lines, found]
  rfl

/-- A market that is put back moves its own lines and those of no other market. -/
theorem lines_of_insert {place : Key} (venues : after.venues = store.venues.insert place venue)
    (here : place = market →
      Lines.Step store.config.capacity market (store.lines market) seen venue.lines)
    (named : seen.market? = some place) :
    Lines.Step store.config.capacity market (store.lines market) seen (after.lines market) := by
  have filed : after.lines market = if place = market then venue.lines else store.lines market := by
    rw [lines, venues, KeyMap.get?_insert]
    split <;> rfl
  rw [filed]
  by_cases same : place = market
  · rw [if_pos same]
    exact here same
  · rw [if_neg same]
    refine .elsewhere _ _ fun other => same ?_
    rw [named, Option.some.injEq] at other
    exact other

/-- The lines of all markets follow every change of the store. -/
theorem Step.lines (sound : store.Sound) (step : Step now store seen after) (market : Key) :
    Lines.Step store.config.capacity market (store.lines market) seen (after.lines market) := by
  cases step with
  | opened id authority params fresh =>
      refine lines_of_insert rfl ?_ rfl
      rintro rfl
      rw [Store.lines, fresh]
      exact .opened authority params.price now
  | paid => exact .elsewhere _ _ nofun
  | entered place client request venue admission event desk found unused entry =>
      have named := sound.named place venue found
      refine lines_of_insert rfl ?_ (congrArg some (entry.event_market.trans named))
      rintro rfl
      rw [lines_of_found found, ← named]
      exact entry.lines
  | traded place venue event desk found step =>
      have named := sound.named place venue found
      have ledger := sound.ledgers place venue found
      refine lines_of_insert rfl ?_ (congrArg some ((step.event_market ledger).trans named))
      rintro rfl
      rw [lines_of_found found, ← named]
      exact step.lines ledger

/-- Changes of a store are steps of the lines of each market. -/
theorem Steps.lines (sound : store.Sound) (steps : Steps now store changes after) (market : Key) :
    Lines.Steps store.config.capacity market (store.lines market) changes (after.lines market) := by
  induction steps with
  | none store => exact .none _
  | more first rest inductionHypothesis =>
      have later := inductionHypothesis (first.sound sound)
      rw [first.config] at later
      exact .more (first.lines sound market) later

/-- Nobody waits twice. -/
theorem Sound.lines_nodup (sound : store.Sound) (market : Key) :
    (store.lines market).jobs.Nodup ∧ (store.lines market).nodes.Nodup := by
  unfold lines
  cases found : store.venues.get? market with
  | none => exact ⟨List.nodup_nil, List.nodup_nil⟩
  | some venue =>
      have formed := (sound.ledgers market venue found).formed
      exact ⟨Queue.nodup_entriesOf formed .job, Queue.nodup_entriesOf formed .node⟩

end Store

end ComputeMarket
