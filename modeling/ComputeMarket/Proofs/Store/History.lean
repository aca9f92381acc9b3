import ComputeMarket.Proofs.Store.Restore

/-
This file defines what can happen to a store over its whole life, and proves that it stays sound.
-/

namespace ComputeMarket

/-- What is done with a store: an operation at the time that the clock shows, the events are
taken, or the store comes back from its own snapshot. -/
inductive Move where
  | perform (now : Int64) (operation : Operation)
  | takeEvents
  | restart

namespace Store

/-- The store after a move. A restart that were refused would leave it as it is. -/
def move (store : Store) : Move → Store
  | .perform now operation => (store.apply now operation).2
  | .takeEvents => store.takeEvents.2
  | .restart => (restore store.snapshot store.config).toOption.getD store

/-- The store after a history. -/
def after (store : Store) (moves : List Move) : Store := moves.foldl move store

/-- A store at its start: a new one, or one that comes back from a snapshot. -/
inductive Initial (store : Store) : Prop
  | opened (config : Config) (created : new config = .ok store)
  | restored (snapshot : Snapshot) (config : Config) (accepted : restore snapshot config = .ok store)

variable {store : Store}

/-- A history starts from a sound store. -/
theorem Initial.sound (initial : store.Initial) : store.Sound := by
  cases initial with
  | opened config created => exact sound_of_new created
  | restored snapshot config accepted => exact sound_of_restore accepted

/-- A restart of a sound store loses the events that were not taken, and nothing else. -/
theorem move_restart (sound : store.Sound) : store.move .restart = { store with events := [] } := by
  rw [move, restore_snapshot sound]
  rfl

theorem Sound.forgetEvents (sound : store.Sound) : Sound { store with events := [] } :=
  ⟨sound.valid, sound.named, sound.ledgers, sound.indexed⟩

/-- Every move keeps a store sound. -/
theorem Sound.move (sound : store.Sound) (move : Move) : (store.move move).Sound := by
  cases move with
  | perform now operation => exact sound.apply now operation
  | takeEvents => exact sound.forgetEvents
  | restart =>
      rw [move_restart sound]
      exact sound.forgetEvents

/-- A store stays sound, whatever is done with it. -/
theorem Sound.after (sound : store.Sound) (moves : List Move) : (store.after moves).Sound := by
  induction moves generalizing store with
  | nil => exact sound
  | cons move rest inductionHypothesis => exact inductionHypothesis (sound.move move)

/-- A move changes nothing, or forgets the events that wait, or makes the changes of an operation
that succeeds. -/
theorem Sound.move_cases (sound : store.Sound) (move : Move) :
    store.move move = store ∨ store.move move = { store with events := [] } ∨
      ∃ (now : Int64) (operation : Operation) (reply : Reply) (changes : List Change),
        operation.Does now reply changes ∧ Steps now store changes (store.move move) := by
  cases move with
  | takeEvents => exact .inr (.inl rfl)
  | restart => exact .inr (.inl (move_restart sound))
  | perform now operation =>
      cases answer : (store.apply now operation).1 with
      | error cause => exact .inl (apply_of_error now sound answer).2
      | ok reply =>
          obtain ⟨changes, does, steps⟩ := steps_of_apply now sound answer
          exact .inr (.inr ⟨now, operation, reply, changes, does, steps⟩)

/-- What every change keeps is kept by changes one after the other. -/
theorem Steps.invariant (invariant : Store → Prop) {now : Int64} {after : Store}
    {changes : List Change} (sound : store.Sound) (holds : invariant store)
    (kept : ∀ (now : Int64) (store after : Store) (seen : Change), store.Sound → invariant store →
      Step now store seen after → invariant after)
    (steps : Steps now store changes after) : invariant after := by
  induction steps with
  | none store => exact holds
  | more first rest inductionHypothesis =>
      exact inductionHypothesis (first.sound sound) (kept _ _ _ _ sound holds first)

/-- What every change of a sound store keeps, whatever events wait, every history keeps. -/
theorem Sound.invariant_after (invariant : Store → Prop) (sound : store.Sound)
    (holds : invariant store)
    (forgotten : ∀ store : Store, invariant store → invariant { store with events := [] })
    (kept : ∀ (now : Int64) (store after : Store) (seen : Change), store.Sound → invariant store →
      Step now store seen after → invariant after)
    (moves : List Move) : invariant (store.after moves) := by
  induction moves generalizing store with
  | nil => exact holds
  | cons move rest inductionHypothesis =>
      apply inductionHypothesis (sound.move move)
      obtain same | forgot | ⟨now, operation, reply, changes, does, steps⟩ := sound.move_cases move
      · rw [same]
        exact holds
      · rw [forgot]
        exact forgotten store holds
      · exact steps.invariant invariant sound holds kept

/-- A history in which a job waits in a new market, is matched after a restart and is finished. -/
def trade : List Move :=
  let authority := Key.ofBytes [1]
  let client := Key.ofBytes [2]
  let node := Key.ofBytes [3]
  let market := Market.idOf authority 0
  let request : JobRequest := ⟨Key.ofBytes [4], ⟨Word.ofNumber 5⟩, 8, .any⟩
  [.perform 0 (.createMarket authority ⟨.ofTokens 2, 60, .zero⟩),
   .perform 5 (.deposit client (.ofTokens 3)),
   .takeEvents,
   .perform 3 (.createJob market client request),
   .restart,
   .perform 9 (.listNode market node .zero),
   .perform 40 (.finishJob request.id node ⟨Word.ofNumber 6⟩)]

end Store

end ComputeMarket
