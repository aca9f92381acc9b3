import ComputeMarket.Store
import ComputeMarket.Proofs.Sweep

/-
This file lists what can happen to the store of all markets, one change at a time, and proves
that every change keeps the store sound.
-/

namespace ComputeMarket

/-- How a change of a store is seen from outside: the event of a new job, any other event, or a
payment that came in. -/
inductive Change where
  | entered (event : Event)
  | told (event : Event)
  | paid (account : Key) (amount : Amount)
  deriving DecidableEq

namespace Config

/-- The reputations after one settlement of a node, if reputations are kept. -/
def rate (config : Config) (node : Key) (update : Reputation → Reputation)
    (reputations : KeyMap Reputation) : KeyMap Reputation :=
  if config.trackReputation then
    reputations.insert node (update ((reputations.get? node).getD .fresh))
  else reputations

/-- The reputations after a timeout. A job without a node counts for nobody. -/
def rateTimeout (config : Config) (now : Int64) (node : Option Key)
    (reputations : KeyMap Reputation) : KeyMap Reputation :=
  match node with
  | some node => config.rate node (fun reputation => reputation.afterTimeout now) reputations
  | none => reputations

/-- The reputations after an event, with the records that the ledger has then. -/
def rateEvent (config : Config) (now : Int64) (jobs : KeyMap Job) (event : Event)
    (reputations : KeyMap Reputation) : KeyMap Reputation :=
  match event with
  | .jobCompleted _ job node _ payout _ =>
    let seconds := (jobs.get? job).elim .zero Job.executionSeconds
    config.rate node (fun reputation => reputation.afterCompletion seconds payout now) reputations
  | .jobTimedOut _ _ _ node _ _ => config.rateTimeout now node reputations
  | _ => reputations

end Config

namespace Store

/-- The configuration is valid, every market is filed under its id with a sound ledger, and the
index gives every recorded job its market and nothing else. -/
structure Sound (store : Store) : Prop where
  valid : store.config.validate = .ok ()
  named : ∀ id venue, store.venues.get? id = some venue → venue.market.id = id
  ledgers : ∀ id venue, store.venues.get? id = some venue → venue.Sound
  indexed : ∀ job market, store.jobMarkets.get? job = some market ↔
    ∃ venue, store.venues.get? market = some venue ∧ venue.jobs.contains job = true

/-- What can happen to a store: a market opens, a job enters a market, a market changes without
a new job, or funds arrive. -/
inductive Step (now : Int64) (store : Store) : Change → Store → Prop
  | opened (id authority : Key) (params : MarketParams)
      (fresh : store.venues.get? id = none) (valid : params.validate = .ok ()) :
      Step now store (.told (.marketCreated id authority params.price now))
        { store with
          venues := store.venues.insert id (Venue.new id authority params)
          events := store.events ++ [.marketCreated id authority params.price now] }
  | entered (market client : Key) (request : JobRequest) (venue : Venue)
      (admission : JobAdmission) (event : Event) (desk : Desk)
      (found : store.venues.get? market = some venue)
      (unused : store.jobMarkets.get? request.id = none)
      (entry : Desk.Entry client request store.config.capacity now ⟨venue, store.balances⟩
        admission event desk) :
      Step now store (.entered event)
        { store.file market desk with
          jobMarkets := store.jobMarkets.insert request.id market
          events := store.events ++ [event] }
  | traded (market : Key) (venue : Venue) (event : Event) (desk : Desk)
      (found : store.venues.get? market = some venue)
      (step : Desk.Step store.config now ⟨venue, store.balances⟩ event desk) :
      Step now store (.told event)
        { store.file market desk with
          reputations := store.config.rateEvent now desk.venue.jobs event store.reputations
          events := store.events ++ [event] }
  | paid (account : Key) (amount total : Amount) (positive : amount ≠ .zero)
      (credited : total.base = (store.balances.balance account).base + amount.base) :
      Step now store (.paid account amount)
        { store with balances := ⟨store.balances.accounts.insert account total⟩ }

/-- Changes one after the other, each seen from outside. -/
inductive Steps (now : Int64) : Store → List Change → Store → Prop
  | none (store : Store) : Steps now store [] store
  | more {store middle after : Store} {seen : Change} {changes : List Change}
      (first : Step now store seen middle) (rest : Steps now middle changes after) :
      Steps now store (seen :: changes) after

variable {now : Int64} {store after : Store} {seen : Change} {changes : List Change}

theorem Steps.one (step : Step now store seen after) : Steps now store [seen] after :=
  .more step (.none after)

/-- A run of one change is this change. -/
theorem Steps.single (steps : Steps now store [seen] after) : Step now store seen after := by
  cases steps with
  | more first rest =>
      cases rest
      exact first

/-- A market put back with a sound ledger keeps the store sound, if the index follows it. -/
theorem Sound.file (sound : store.Sound) {market : Key} {venue : Venue}
    (sameConfig : after.config = store.config)
    (venues : after.venues = store.venues.insert market venue)
    (sameId : venue.market.id = market) (audited : venue.Sound)
    (indexed : ∀ job other, after.jobMarkets.get? job = some other ↔
      if market = other then venue.jobs.contains job = true
      else store.jobMarkets.get? job = some other) :
    after.Sound where
  valid := by rw [sameConfig]; exact sound.valid
  named id found := by
    rw [venues, KeyMap.get?_insert]
    split
    · rename_i same
      rintro ⟨⟩
      exact sameId.trans same
    · exact sound.named id found
  ledgers id found := by
    rw [venues, KeyMap.get?_insert]
    split
    · rintro ⟨⟩
      exact audited
    · exact sound.ledgers id found
  indexed job other := by
    rw [indexed, venues, KeyMap.get?_insert]
    by_cases same : market = other
    · rw [if_pos same, if_pos same]
      simp
    · rw [if_neg same, if_neg same]
      exact sound.indexed job other

/-- The index tells for one market which jobs it has. -/
theorem Sound.index_iff (sound : store.Sound) {market : Key} {venue : Venue}
    (found : store.venues.get? market = some venue) (job : Key) :
    store.jobMarkets.get? job = some market ↔ venue.jobs.contains job = true := by
  rw [sound.indexed, found]
  simp

/-- The index names no market that does not exist. -/
theorem Sound.get?_ne_none (sound : store.Sound) {job market : Key}
    (indexed : store.jobMarkets.get? job = some market) : store.venues.get? market ≠ none := by
  intro missing
  obtain ⟨venue, found, -⟩ := (sound.indexed job market).1 indexed
  rw [missing] at found
  cases found

/-- A new market is sound. -/
theorem sound_new (id authority : Key) (params : MarketParams) :
    (Venue.new id authority params).Sound where
  named := rfl
  vaultNamed := rfl
  formed := rfl
  waiting job := by
    change job ∈ Queue.entriesOf .empty .job ↔ ∃ record, none = some record ∧ _
    simp [Queue.entriesOf_empty]
  filed job record found := by cases found
  bound job record found := by cases found
  escrowed := rfl

/-- Every change keeps a store sound. -/
theorem Step.sound (sound : store.Sound) (step : Step now store seen after) : after.Sound := by
  cases step with
  | opened id authority params fresh valid =>
      refine sound.file rfl rfl rfl (sound_new id authority params) ?_
      intro job other
      by_cases same : id = other
      · subst same
        rw [if_pos rfl]
        change store.jobMarkets.get? job = some id ↔ false = true
        rw [sound.indexed, fresh]
        simp
      · rw [if_neg same]
  | entered market client request venue admission event desk found unused entry =>
      have sameId := entry.same_terms.1.trans (sound.named market venue found)
      refine sound.file rfl rfl sameId (entry.sound (sound.ledgers market venue found)) ?_
      intro job other
      change (store.jobMarkets.insert request.id market).get? job = some other ↔ _
      rw [KeyMap.get?_insert, entry.contains_iff]
      by_cases new : request.id = job
      · subst new
        rw [if_pos rfl, Option.some.injEq, unused]
        simp
      · rw [if_neg new, or_iff_right (Ne.symm new), ← sound.index_iff found]
        split
        · rename_i same
          rw [same]
        · rfl
  | traded market venue event desk found step =>
      have sameId := step.same_terms.1.trans (sound.named market venue found)
      refine sound.file rfl rfl sameId (step.sound (sound.ledgers market venue found)) ?_
      intro job other
      change store.jobMarkets.get? job = some other ↔ _
      rw [step.contains_iff, ← sound.index_iff found]
      split
      · rename_i same
        rw [same]
      · rfl
  | paid account amount total => exact ⟨sound.valid, sound.named, sound.ledgers, sound.indexed⟩

/-- Changes one after the other keep a store sound. -/
theorem Steps.sound (sound : store.Sound) (steps : Steps now store changes after) :
    after.Sound := by
  induction steps with
  | none store => exact sound
  | more first rest inductionHypothesis => exact inductionHypothesis (first.sound sound)

end Store

end ComputeMarket
