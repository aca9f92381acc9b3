import ComputeMarket.Proofs.Replica

/-
This file proves that the events of a store, from its opening on, rebuild all of its ledgers.
-/

namespace ComputeMarket

namespace Replica

/-- Events in two parts are replayed one part after the other. -/
theorem replay_append (replica : Replica) (first second : List Event) :
    replica.replay (first ++ second) = (replica.replay first).bind (·.replay second) :=
  List.foldlM_append ..

theorem replay_one (replica : Replica) (event : Event) :
    replica.replay [event] = replica.step event := by
  change (replica.step event >>= pure) = _
  exact bind_pure _

/-- The event of a market that is open goes to that market. -/
theorem step_of_market {replica : Replica} {event : Event} {market next : MarketTrace}
    (found : replica.get? event.market = some market) (fits : market.step event = some next) :
    replica.step event = some (replica.insert event.market next) := by
  cases event with
  | marketCreated => cases fits
  | _ =>
      refine Option.bind_eq_some_iff.2 ⟨market, found, ?_⟩
      exact Option.bind_eq_some_iff.2 ⟨next, fits, rfl⟩

end Replica

/-- The event of a change, if it has one. -/
def Change.events : Change → List Event
  | .entered event | .told event => [event]
  | .paid .. => []

namespace Store

/-- All markets as the events tell of them. -/
def replica (store : Store) : Replica := store.venues.map Venue.trace

/-- Every job was created at the price of its market. -/
def Priced (store : Store) : Prop :=
  ∀ market venue, store.venues.get? market = some venue → venue.Priced

variable {now : Int64} {store after : Store} {seen : Change} {changes : List Change}

/-- A store told of every change, by the events that wait in it. -/
theorem Step.events (step : Step now store seen after) :
    after.events = store.events ++ seen.events := by
  cases step with
  | paid => exact (List.append_nil _).symm
  | _ => rfl

/-- A market whose jobs have its price may be put back. -/
theorem Priced.insert (priced : store.Priced) {market : Key} {venue : Venue}
    (new : venue.Priced) (venues : after.venues = store.venues.insert market venue) :
    after.Priced := by
  unfold Store.Priced
  rw [venues]
  exact KeyMap.forall_get?_insert priced new

/-- Every change of a store leaves each job with the price of its market. -/
theorem Step.priced (priced : store.Priced) (step : Step now store seen after) :
    after.Priced := by
  cases step with
  | opened id authority params =>
      have new : (Venue.new id authority params).Priced := by
        intro job record found
        cases found
      exact priced.insert new rfl
  | entered market client request venue admission event desk found unused entry =>
      exact priced.insert (entry.priced (priced market venue found)) rfl
  | traded market venue event desk found step =>
      exact priced.insert (step.priced (priced market venue found)) rfl
  | paid => exact priced

/-- The replica of a store follows the event of a market. -/
theorem replay_of_trace {market : Key} {venue next : Venue} {event : Event}
    (found : store.venues.get? market = some venue) (named : event.market = market)
    (fits : venue.trace.step event = some next.trace)
    (venues : after.venues = store.venues.insert market next) :
    store.replica.replay [event] = some after.replica := by
  have known : store.replica.get? event.market = some venue.trace := by
    rw [replica, KeyMap.get?_map, named, found]
    rfl
  rw [Replica.replay_one, Replica.step_of_market known fits, named, replica, replica, venues,
    KeyMap.map_insert]

/-- The events of a change lead a replica from the store before it to the store after it. -/
theorem Step.replay (sound : store.Sound) (priced : store.Priced)
    (step : Step now store seen after) : store.replica.replay seen.events = some after.replica := by
  cases step with
  | opened id authority params fresh =>
      have free : store.replica.get? id = none := by
        rw [replica, KeyMap.get?_map, fresh]
        rfl
      change store.replica.replay [.marketCreated id authority params.price now] = _
      rw [Replica.replay_one, Replica.step, Guard.guard_bind free]
      unfold replica
      dsimp only
      rw [KeyMap.map_insert]
      rfl
  | entered market client request venue admission event desk found unused entry =>
      have named := entry.event_market.trans (sound.named market venue found)
      exact replay_of_trace found named entry.trace rfl
  | traded market venue event desk found step =>
      have ledger := sound.ledgers market venue found
      have named := (step.event_market ledger).trans (sound.named market venue found)
      exact replay_of_trace found named (step.trace ledger (priced market venue found)) rfl
  | paid => rfl

/-- What a run of changes tells, and that the replica follows it. -/
theorem Steps.replay (sound : store.Sound) (priced : store.Priced)
    (steps : Steps now store changes after) :
    after.Priced ∧ after.events = store.events ++ changes.flatMap Change.events ∧
      store.replica.replay (changes.flatMap Change.events) = some after.replica := by
  induction steps with
  | none store => exact ⟨priced, (List.append_nil _).symm, rfl⟩
  | more first rest inductionHypothesis =>
      obtain ⟨laterPriced, told, replayed⟩ :=
        inductionHypothesis (first.sound sound) (first.priced priced)
      refine ⟨laterPriced, ?_, ?_⟩
      · rw [told, first.events, List.append_assoc, List.flatMap_cons]
      · rw [List.flatMap_cons, Replica.replay_append, first.replay sound priced]
        exact replayed

/-- An operation tells all that the replica needs to follow it. -/
theorem Sound.replay_apply (sound : store.Sound) (priced : store.Priced) (now : Int64)
    (operation : Operation) :
    (store.apply now operation).2.Priced ∧
      ∃ told, (store.apply now operation).2.events = store.events ++ told ∧
        store.replica.replay told = some (store.apply now operation).2.replica := by
  cases answer : (store.apply now operation).1 with
  | ok reply =>
      obtain ⟨changes, does, steps⟩ := steps_of_apply now sound answer
      obtain ⟨laterPriced, told, replayed⟩ := steps.replay sound priced
      exact ⟨laterPriced, _, told, replayed⟩
  | error cause =>
      rw [(apply_of_error now sound answer).2]
      exact ⟨priced, [], (List.append_nil _).symm, rfl⟩

/-- The events that a move takes away: those that are taken, or that a restart drops. -/
def leaving (store : Store) : Move → List Event
  | .perform .. => []
  | .takeEvents => store.takeEvents.1
  | .restart => store.events

/-- All events of a history: those that went away with every move, then those that still wait. -/
def log (store : Store) : List Move → List Event
  | [] => store.events
  | move :: rest => store.leaving move ++ (store.move move).log rest

/-- If past events and those that wait rebuild a store, then they do with the events of any
history of it. -/
theorem Sound.replay_log (sound : store.Sound) (priced : store.Priced) (past : List Event)
    (rebuilt : Replica.replay .empty (past ++ store.events) = some store.replica)
    (moves : List Move) :
    Replica.replay .empty (past ++ store.log moves) = some (store.after moves).replica := by
  -- the past grows by what leaves the store, so the events that wait are always its end
  induction moves generalizing store past with
  | nil => exact rebuilt
  | cons move rest inductionHypothesis =>
      have later := sound.move move
      cases move with
      | perform now operation =>
          obtain ⟨laterPriced, told, extended, replayed⟩ := sound.replay_apply priced now operation
          apply inductionHypothesis later laterPriced past
          change Replica.replay .empty (past ++ (store.apply now operation).2.events) = _
          rw [extended, ← List.append_assoc, Replica.replay_append, rebuilt]
          exact replayed
      | takeEvents =>
          change Replica.replay .empty (past ++ (store.events ++ _)) = _
          rw [← List.append_assoc]
          apply inductionHypothesis later priced (past ++ store.events)
          exact (List.append_nil _).symm ▸ rebuilt
      | restart =>
          change Replica.replay .empty (past ++ (store.events ++ (store.move .restart).log rest)) =
            some ((store.move .restart).after rest).replica
          rw [← List.append_assoc, move_restart sound]
          apply inductionHypothesis sound.forgetEvents priced (past ++ store.events)
          exact (List.append_nil _).symm ▸ rebuilt

end Store

/-- A replica agrees with a store on the markets, and for every market on its price, its queue,
its escrow and, job by job, on what the events tell about its jobs. -/
structure Replica.Mirrors (replica : Replica) (store : Store) : Prop where
  markets : ∀ market, (replica.get? market).isSome = (store.venues.get? market).isSome
  price : ∀ market trace venue, replica.get? market = some trace →
    store.venues.get? market = some venue → trace.price = venue.market.params.price
  queue : ∀ market trace venue, replica.get? market = some trace →
    store.venues.get? market = some venue → trace.queue = venue.market.queue
  escrow : ∀ market trace venue, replica.get? market = some trace →
    store.venues.get? market = some venue → trace.escrow = venue.vault.balance
  jobs : ∀ market trace venue, replica.get? market = some trace →
    store.venues.get? market = some venue →
    ∀ id, trace.jobs.get? id = (venue.jobs.get? id).map fun job =>
      ⟨job.state, job.node, job.created, job.started, job.ended, job.result⟩

namespace Store

variable {store : Store}

/-- The replica of a sound store mirrors the store. -/
theorem Sound.mirrors (sound : store.Sound) : store.replica.Mirrors store := by
  have seen : ∀ market trace venue, store.replica.get? market = some trace →
      store.venues.get? market = some venue → trace = venue.trace := by
    intro market trace venue known found
    rw [replica, KeyMap.get?_map, found] at known
    exact (Option.some.inj known).symm
  constructor
  · intro market
    rw [replica, KeyMap.get?_map, Option.isSome_map]
  · intro market trace venue known found
    rw [seen market trace venue known found]
    rfl
  · intro market trace venue known found
    rw [seen market trace venue known found]
    exact Venue.queue_trace (sound.ledgers market venue found).formed
  · intro market trace venue known found
    rw [seen market trace venue known found]
    rfl
  · intro market trace venue known found id
    rw [seen market trace venue known found]
    exact Venue.get?_trace venue id

/-- Whatever is done with a store that starts empty, its events rebuild it: all of them fit, one
after the other, and the replica that they give mirrors the store. -/
theorem replay_log_mirrors {config : Config} {start : Store} (opened : new config = .ok start)
    (moves : List Move) :
    ∃ replica, Replica.replay .empty (start.log moves) = some replica ∧
      replica.Mirrors (start.after moves) := by
  have sound := sound_of_new opened
  obtain ⟨-, same⟩ := Guard.unit_bind_eq_ok.1 opened
  cases same
  have priced : (empty config).Priced := by
    intro market venue found
    cases found
  have rebuilt := sound.replay_log priced [] rfl moves
  exact ⟨_, rebuilt, (sound.after moves).mirrors⟩

theorem replay_log_mirrors_trade :
    new {} = .ok (empty {}) ∧
    ∃ replica, Replica.replay .empty ((empty {}).log trade) = some replica ∧
      replica.Mirrors ((empty {}).after trade) :=
  have opened : new {} = .ok (empty {}) := rfl
  ⟨opened, replay_log_mirrors opened trade⟩

example : ((empty {}).log trade).map Event.name =
    ["market_created", "job_queued", "job_matched", "job_completed"] := by decide +kernel

end Store

end ComputeMarket
