import ComputeMarket.Proofs.Replay
import ComputeMarket.Proofs.Store.Past

/-
This file proves that a restart is invisible: a store that comes back from its own snapshot acts
and answers for ever as the store that was saved, and only the events that waited are gone.
-/

namespace ComputeMarket

namespace Store

/-- What the operations of a history answer, in order. -/
def answers (store : Store) : List Move → List (Except MarketError Reply)
  | [] => []
  | .perform now operation :: rest =>
    (store.apply now operation).1 :: (store.apply now operation).2.answers rest
  | .takeEvents :: rest => (store.move .takeEvents).answers rest
  | .restart :: rest => (store.move .restart).answers rest

/-- No query tells two stores apart. -/
structure Alike (left right : Store) : Prop where
  config : left.config = right.config
  market : ∀ id, left.market? id = right.market? id
  markets : left.markets = right.markets
  job : ∀ id, left.job? id = right.job? id
  jobs : ∀ market, left.jobsOf market = right.jobsOf market
  vault : ∀ market, left.vaultBalance market = right.vaultBalance market
  balance : ∀ account, left.balance account = right.balance account
  reputation : ∀ node, left.reputation? node = right.reputation? node
  audit : ∀ market, left.audit market = right.audit market
  snapshot : left.snapshot = right.snapshot

variable {store : Store}

theorem Alike.refl (store : Store) : store.Alike store :=
  ⟨rfl, fun _ => rfl, rfl, fun _ => rfl, fun _ => rfl, fun _ => rfl, fun _ => rfl, fun _ => rfl,
    fun _ => rfl, rfl⟩

/-- No query looks at the events that wait. -/
theorem alike_withPast (past : List Event) (store : Store) : (store.withPast past).Alike store :=
  ⟨rfl, fun _ => rfl, rfl, fun _ => rfl, fun _ => rfl, fun _ => rfl, fun _ => rfl, fun _ => rfl,
    fun _ => rfl, rfl⟩

/-- When the events that wait go away, earlier ones go with them. -/
theorem Sound.move_withPast (sound : store.Sound) (past : List Event) {move : Move}
    (forgets : move = .takeEvents ∨ move = .restart) :
    (store.withPast past).move move = store.move move ∧
      (store.withPast past).leaving move = past ++ store.leaving move := by
  obtain rfl | rfl := forgets
  · exact ⟨rfl, rfl⟩
  · have pastSound : (store.withPast past).Sound :=
      ⟨sound.valid, sound.named, sound.ledgers, sound.indexed⟩
    rw [move_restart sound, move_restart pastSound]
    exact ⟨rfl, rfl⟩

/-- Earlier events that wait are told before all others, and change nothing else for ever. -/
theorem Sound.later_withPast (sound : store.Sound) (past : List Event) (further : List Move) :
    (store.withPast past).answers further = store.answers further ∧
      (store.withPast past).log further = past ++ store.log further ∧
      ((store.withPast past).after further).Alike (store.after further) := by
  -- the earlier events stay in front until events go away; then both stores are one
  induction further generalizing store with
  | nil => exact ⟨rfl, rfl, alike_withPast past store⟩
  | cons move rest inductionHypothesis =>
      have forget (forgets : move = .takeEvents ∨ move = .restart) :
          (store.withPast past).log (move :: rest) = past ++ store.log (move :: rest) ∧
            ((store.withPast past).after (move :: rest)).Alike (store.after (move :: rest)) := by
        obtain ⟨same, leaving⟩ := sound.move_withPast past forgets
        constructor
        · rw [log, log, same, leaving, List.append_assoc]
        · change (((store.withPast past).move move).after rest).Alike ((store.move move).after rest)
          rw [same]
          exact .refl _
      cases move with
      | perform now operation =>
          have same := apply_withPast now past store operation
          have moved : (store.withPast past).move (.perform now operation) =
              (store.move (.perform now operation)).withPast past := congrArg Prod.snd same
          obtain ⟨answered, told, alike⟩ := inductionHypothesis (sound.apply now operation)
          refine ⟨?_, ?_, ?_⟩
          · rw [answers, answers, same, answered]
          · rw [log, log, moved]
            exact told
          · change (((store.withPast past).move _).after rest).Alike ((store.move _).after rest)
            rw [moved]
            exact alike
      | takeEvents => exact ⟨rfl, forget (.inl rfl)⟩
      | restart =>
          refine ⟨?_, forget (.inr rfl)⟩
          rw [answers, answers, (sound.move_withPast past (.inr rfl)).1]

/-- Whatever has been done with a store, its own snapshot is accepted, and the store that comes
back acts and answers for ever as the store itself: the same answers to all operations, the same
events from then on, and the same answers to all queries. Only the events that waited are gone. -/
theorem restart_invisible {start : Store} (initial : start.Initial) (moves : List Move) :
    ∃ restored, restore (start.after moves).snapshot (start.after moves).config = .ok restored ∧
      restored.events = [] ∧
      ∀ further : List Move,
        (start.after moves).answers further = restored.answers further ∧
        (start.after moves).log further = (start.after moves).events ++ restored.log further ∧
        ((start.after moves).after further).Alike (restored.after further) := by
  have sound := initial.sound.after moves
  generalize start.after moves = store at sound
  have whole : Store.withPast store.events { store with events := [] } = store := by
    unfold withPast
    rw [List.append_nil]
  refine ⟨_, restore_snapshot sound, rfl, ?_⟩
  intro further
  have later := sound.forgetEvents.later_withPast store.events further
  rw [whole] at later
  exact later

theorem restart_invisible_trade :
    (empty {}).Initial ∧
    ∃ restored,
      restore ((empty {}).after (trade.take 4)).snapshot ((empty {}).after (trade.take 4)).config =
        .ok restored ∧
      ((empty {}).after (trade.take 4)).answers (trade.drop 5) =
        restored.answers (trade.drop 5) ∧
      ((empty {}).after (trade.take 4)).log (trade.drop 5) =
        ((empty {}).after (trade.take 4)).events ++ restored.log (trade.drop 5) := by
  have initial : (empty {}).Initial := .opened {} rfl
  obtain ⟨restored, accepted, -, same⟩ := restart_invisible initial (trade.take 4)
  exact ⟨initial, restored, accepted, (same (trade.drop 5)).1, (same (trade.drop 5)).2.1⟩

example : ((empty {}).after (trade.take 4)).events.map Event.name = ["job_queued"] := by
  decide +kernel

end Store

end ComputeMarket
