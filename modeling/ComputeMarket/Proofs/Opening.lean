import ComputeMarket.Proofs.Derivation
import ComputeMarket.Proofs.Store.History
import Mathlib.Data.Finset.Card

/-
This file proves that the search for a new market's id ends after at most one try more than there
are markets, and that the id is one that nothing else has.
-/

namespace ComputeMarket

namespace Store

/-- The id that an authority's try number `attempt` gives. The nonces follow each other from `start`
on, round the end of their range. -/
def attemptId (authority : Key) (start attempt : Nat) : Key :=
  Market.idOf authority (UInt64.ofNat (start + attempt))

/-- The first try with an id that no market has. -/
structure FirstFree (venues : KeyMap Venue) (authority : Key) (start attempt : Nat) : Prop where
  tried : ∀ earlier < attempt, venues.contains (attemptId authority start earlier) = true
  free : venues.contains (attemptId authority start attempt) = false

section Search

variable {venues : KeyMap Venue} {authority id : Key} {start attempt attempts : Nat}

/-- A later try is the same try from a later start. -/
theorem attemptId_succ (authority : Key) (start attempt : Nat) :
    attemptId authority start (attempt + 1) = attemptId authority (start + 1) attempt := by
  rw [attemptId, attemptId, Nat.add_right_comm, Nat.add_assoc start]

theorem firstFree_zero :
    FirstFree venues authority start 0 ↔ venues.contains (attemptId authority start 0) = false :=
  ⟨FirstFree.free, fun free => ⟨nofun, free⟩⟩

/-- If the first id is taken, the first free try is one of those that follow. -/
theorem firstFree_succ : FirstFree venues authority start (attempt + 1) ↔
    venues.contains (attemptId authority start 0) = true ∧
      FirstFree venues authority (start + 1) attempt := by
  constructor
  · rintro ⟨tried, free⟩
    refine ⟨tried 0 (Nat.succ_pos _), fun earlier before => ?_, ?_⟩
    · rw [← attemptId_succ]
      exact tried (earlier + 1) (Nat.succ_lt_succ before)
    · rw [← attemptId_succ]
      exact free
  · rintro ⟨taken, tried, free⟩
    refine ⟨fun earlier before => ?_, ?_⟩
    · cases earlier with
      | zero => exact taken
      | succ earlier =>
          rw [attemptId_succ]
          exact tried earlier (Nat.lt_of_succ_lt_succ before)
    · rw [attemptId_succ]
      exact free

/-- The search takes an id that is free, and goes on with the next nonce otherwise. -/
theorem freshId?_succ (venues : KeyMap Venue) (authority : Key) (start attempts : Nat) :
    freshId? venues authority (attempts + 1) (UInt64.ofNat start) =
      if venues.contains (attemptId authority start 0) then
        freshId? venues authority attempts (UInt64.ofNat (start + 1))
      else some (attemptId authority start 0) := by
  rw [freshId?, attemptId, Nat.add_zero, UInt64.ofNat_add]
  rfl

/-- The search finds the first free try, if that is among the tries that it has. -/
theorem freshId?_eq_some_iff : freshId? venues authority attempts (UInt64.ofNat start) = some id ↔
    ∃ attempt < attempts, FirstFree venues authority start attempt ∧
      attemptId authority start attempt = id := by
  induction attempts generalizing start with
  | zero => simp [freshId?]
  | succ attempts inductionHypothesis =>
      rw [freshId?_succ, Nat.exists_lt_succ_left, firstFree_zero]
      simp only [firstFree_succ, attemptId_succ]
      by_cases taken : venues.contains (attemptId authority start 0) = true
      · rw [if_pos taken, inductionHypothesis]
        simp [taken]
      · rw [if_neg taken]
        simp [taken]

/-- The stream that is hashed for a try. -/
def attemptStream (authority : Key) (start attempt : Nat) : List UInt8 :=
  Key.seedStream (Market.seedsOf authority (UInt64.ofNat (start + attempt)))

/-- The tries that a search comes to, among as many and one more as there are markets. -/
def tries (venues : KeyMap Venue) (authority : Key) : Set Nat :=
  {attempt | attempt ≤ venues.size ∧
    ∀ earlier < attempt, venues.contains (attemptId authority venues.size earlier) = true}

/-- No two tries that a search comes to hash alike. With fewer than 2 ^ 64 markets the tries have
different nonces, and this says that the hash function does not collide on their streams. -/
def CollisionFree (venues : KeyMap Venue) (authority : Key) : Prop :=
  Set.InjOn (fun attempt => Blake3.hash (attemptStream authority venues.size attempt))
    (tries venues authority)

/-- Fewer than 2 ^ 64 nonces in a row are different, also round the end of their range. -/
theorem attemptStream_inj {other : Nat} (fits : attempt < 2 ^ 64) (otherFits : other < 2 ^ 64)
    (same : attemptStream authority start attempt = attemptStream authority start other) :
    attempt = other := by
  have seeds := Key.seedStream_inj (Market.short_seedsOf _ _) (Market.short_seedsOf _ _) same
  have nonces := congrArg UInt64.toNat (Market.seedsOf_inj seeds).2
  rw [UInt64.toNat_ofNat', UInt64.toNat_ofNat'] at nonces
  omega

/-- No ids collide exactly if the hash function does not collide on the streams of the tries. -/
theorem collisionFree_iff (fewer : venues.size < 2 ^ 64) : CollisionFree venues authority ↔
    Set.InjOn Blake3.hash (attemptStream authority venues.size '' tries venues authority) := by
  constructor
  · rintro collisionFree - ⟨attempt, member, rfl⟩ - ⟨other, otherMember, rfl⟩ same
    rw [collisionFree member otherMember same]
  · intro injective attempt member other otherMember same
    have streams :=
      injective (Set.mem_image_of_mem _ member) (Set.mem_image_of_mem _ otherMember) same
    exact attemptStream_inj (member.1.trans_lt fewer) (otherMember.1.trans_lt fewer) streams

/-- Where nothing collides, different tries give different ids. -/
theorem CollisionFree.attemptId_injOn (collisionFree : CollisionFree venues authority) :
    Set.InjOn (attemptId authority venues.size) (tries venues authority) := by
  intro attempt member other otherMember same
  exact collisionFree member otherMember (Key.derive_eq_derive_iff.1 same)

/-- There are not as many markets as tries, so one of the tries is free. -/
theorem CollisionFree.exists_firstFree (collisionFree : CollisionFree venues authority) :
    ∃ attempt ≤ venues.size, FirstFree venues authority venues.size attempt := by
  by_contra none
  have taken : ∀ attempt ≤ venues.size,
      venues.contains (attemptId authority venues.size attempt) = true := by
    intro attempt
    induction attempt using Nat.strong_induction_on with
    | _ attempt inductionHypothesis =>
        intro bound
        by_contra free
        exact none ⟨attempt, bound,
          fun earlier before => inductionHypothesis earlier before (before.le.trans bound),
          Bool.eq_false_iff.2 free⟩
  -- one id more than there are markets, all distinct, and each the id of a market
  let ids := (Finset.range (venues.size + 1)).image (attemptId authority venues.size)
  have distinct : ids.card = venues.size + 1 := by
    rw [Finset.card_image_of_injOn, Finset.card_range]
    refine collisionFree.attemptId_injOn.mono fun attempt member => ?_
    have bound : attempt ≤ venues.size := Nat.le_of_lt_succ (Finset.mem_range.1 member)
    exact ⟨bound, fun earlier before => taken earlier (before.le.trans bound)⟩
  have among : ids ⊆ venues.keys.toFinset := by
    intro id member
    obtain ⟨attempt, inRange, rfl⟩ := Finset.mem_image.1 member
    rw [List.mem_toFinset, ← KeyMap.contains_iff_mem_keys]
    exact taken attempt (Nat.le_of_lt_succ (Finset.mem_range.1 inRange))
  have few : venues.keys.toFinset.card ≤ venues.size :=
    (List.toFinset_card_le _).trans_eq (List.length_map _)
  have fits := Finset.card_le_card among
  omega

/-- The nonces come round after 2 ^ 64 tries. -/
theorem attemptId_round (authority : Key) (start attempt : Nat) :
    attemptId authority start (attempt + 2 ^ 64) = attemptId authority start attempt := by
  have nonce : UInt64.ofNat (start + (attempt + 2 ^ 64)) = UInt64.ofNat (start + attempt) := by
    apply UInt64.toNat_inj.1
    rw [UInt64.toNat_ofNat', UInt64.toNat_ofNat']
    omega
  exact congrArg (Market.idOf authority) nonce

/-- The first free try comes before the nonces come round. -/
theorem FirstFree.lt_nonces (first : FirstFree venues authority start attempt) :
    attempt < 2 ^ 64 := by
  by_contra late
  obtain ⟨earlier, rfl⟩ := Nat.exists_eq_add_of_le' (Nat.le_of_not_lt late)
  have taken := first.tried earlier (Nat.lt_add_of_pos_right (by decide))
  rw [← attemptId_round, first.free] at taken
  cases taken

end Search

/-- The store with a new market under an id. -/
def openMarket (store : Store) (now : Int64) (id authority : Key) (params : MarketParams) : Store :=
  { store with
    venues := store.venues.insert id (Venue.new id authority params)
    events := store.events ++ [.marketCreated id authority params.price now] }

section Opening

variable {store : Store} {now : Int64} {authority id : Key} {params : MarketParams}

/-- A market with valid terms is opened with the id that the search finds. -/
theorem createMarket_run (store : Store) (now : Int64) (authority : Key) {params : MarketParams}
    (valid : params.validate = .ok ()) : (createMarket authority params now).run store =
      match freshId? store.venues authority 0x10000000000000000
        (UInt64.ofNat store.venues.size) with
      | some id => .ok id (store.openMarket now id authority params)
      | none => .error (.duplicate .market
          (Market.idOf authority (UInt64.ofNat store.venues.size))) store := by
  unfold createMarket
  rw [valid]
  cases searched : freshId? store.venues authority 0x10000000000000000
    (UInt64.ofNat store.venues.size) with
  | none =>
      simp only [EStateM.run_bind, EStateM.run_get, Action.accept_ok_run, searched]
      rfl
  | some id =>
      simp only [EStateM.run_bind, EStateM.run_get, Action.accept_ok_run, searched]
      rfl

theorem createMarket_run_invalid (store : Store) (now : Int64) (authority : Key)
    {cause : MarketError} (invalid : params.validate = .error cause) :
    (createMarket authority params now).run store = .error cause store := by
  unfold createMarket
  rw [invalid]
  rfl

/-- A market is opened exactly if its terms are valid and a try is free, under the id of the first
such try. -/
theorem apply_createMarket_eq_ok {after : Store} :
    store.apply now (.createMarket authority params) = (.ok (.marketOpened id), after) ↔
      params.validate = .ok () ∧
      (∃ attempt, FirstFree store.venues authority store.venues.size attempt ∧
        attemptId authority store.venues.size attempt = id) ∧
      after = store.openMarket now id authority params := by
  cases valid : params.validate with
  | error cause =>
      rw [apply_of_run_error rfl (createMarket_run_invalid store now authority valid)]
      simp
  | ok =>
      have ran := createMarket_run store now authority valid
      have searches (known : Key) := @freshId?_eq_some_iff store.venues authority known
        store.venues.size 0x10000000000000000
      cases searched : freshId? store.venues authority 0x10000000000000000
        (UInt64.ofNat store.venues.size) with
      | none =>
          rw [searched] at ran
          rw [apply_of_run_error rfl ran]
          simp only [Prod.mk.injEq, reduceCtorEq, false_and, true_and, false_iff, not_and]
          rintro ⟨attempt, first, same⟩
          rw [(searches _).2 ⟨attempt, first.lt_nonces, first, same⟩] at searched
          cases searched
      | some known =>
          rw [searched] at ran
          rw [apply_of_run_ok rfl ran]
          simp only [Prod.mk.injEq, Except.ok.injEq, Reply.marketOpened.injEq, true_and]
          constructor
          · rintro ⟨rfl, rfl⟩
            obtain ⟨attempt, -, found⟩ := (searches _).1 searched
            exact ⟨⟨attempt, found⟩, rfl⟩
          · rintro ⟨⟨attempt, first, same⟩, rfl⟩
            rw [(searches id).2 ⟨attempt, first.lt_nonces, first, same⟩] at searched
            cases searched
            exact ⟨rfl, rfl⟩

/-- What a market that was opened has changed: it is there, empty, under an id that no market had,
and its event was told. Nothing else in the store changes. -/
structure Opened (store : Store) (now : Int64) (id authority : Key) (params : MarketParams)
    (after : Store) : Prop where
  fresh : ∀ market ∈ store.markets, market.id ≠ id
  filed : after.venues.get? id = some (Venue.new id authority params)
  otherMarkets : ∀ other, other ≠ id → after.venues.get? other = store.venues.get? other
  jobs : ∀ job, after.job? job = store.job? job
  indexed : after.jobMarkets = store.jobMarkets
  balances : after.balances = store.balances
  reputations : after.reputations = store.reputations
  config : after.config = store.config
  told : after.events = store.events ++ [.marketCreated id authority params.price now]

/-- A market without jobs, under an id that is free, hides no job. -/
theorem job?_openMarket (fresh : store.venues.get? id = none) (job : Key) :
    (store.openMarket now id authority params).job? job = store.job? job := by
  unfold job?
  change (store.jobMarkets.get? job >>= fun market =>
    (store.venues.insert id (Venue.new id authority params)).get? market >>= fun venue =>
      venue.jobs.get? job) = _
  cases store.jobMarkets.get? job with
  | none => rfl
  | some market =>
      change ((store.venues.insert id (Venue.new id authority params)).get? market >>= _) =
        (store.venues.get? market >>= _)
      by_cases same : id = market
      · subst same
        rw [KeyMap.get?_insert_self, fresh]
        rfl
      · rw [KeyMap.get?_insert_of_ne _ _ same]

/-- A market that opens under a free id is all that changes. -/
theorem Sound.opened (sound : store.Sound) (fresh : store.venues.get? id = none) :
    store.Opened now id authority params (store.openMarket now id authority params) where
  fresh market member same := by
    obtain ⟨venue, recorded, rfl⟩ := List.mem_map.1 member
    obtain ⟨key, found⟩ := KeyMap.mem_values.1 recorded
    rw [← same, sound.named key venue found, found] at fresh
    cases fresh
  filed := KeyMap.get?_insert_self ..
  otherMarkets other different := KeyMap.get?_insert_of_ne _ _ different.symm
  jobs := job?_openMarket fresh
  indexed := rfl
  balances := rfl
  reputations := rfl
  config := rfl
  told := rfl

end Opening

/-- Whatever has been done with a store, new or restored: as long as the nonces that are tried for an
authority do not collide, the search for the id of its next market ends with the first id that no
market has, after at most one try more than there are markets, and the market is opened under it. -/
theorem opening_finds_free_id {start : Store} (initial : start.Initial) (moves : List Move)
    (now : Int64) {authority : Key} {params : MarketParams} (valid : params.validate = .ok ())
    (collisionFree : CollisionFree (start.after moves).venues authority) :
    ∃ attempt ≤ (start.after moves).venues.size,
      FirstFree (start.after moves).venues authority (start.after moves).venues.size attempt ∧
      (∀ attempts, attempt < attempts →
        freshId? (start.after moves).venues authority attempts
            (UInt64.ofNat (start.after moves).venues.size) =
          some (attemptId authority (start.after moves).venues.size attempt)) ∧
      ((start.after moves).apply now (.createMarket authority params)).1 =
        .ok (.marketOpened (attemptId authority (start.after moves).venues.size attempt)) ∧
      (start.after moves).Opened now
        (attemptId authority (start.after moves).venues.size attempt) authority params
        ((start.after moves).apply now (.createMarket authority params)).2 := by
  have sound := initial.sound.after moves
  obtain ⟨attempt, bound, first⟩ := collisionFree.exists_firstFree
  have free := KeyMap.contains_eq_false.1 first.free
  have answer : (start.after moves).apply now (.createMarket authority params) =
      (.ok (.marketOpened (attemptId authority (start.after moves).venues.size attempt)), _) :=
    apply_createMarket_eq_ok.2 ⟨valid, ⟨attempt, first, rfl⟩, rfl⟩
  refine ⟨attempt, bound, first, ?_, ?_, ?_⟩
  · intro attempts enough
    exact freshId?_eq_some_iff.2 ⟨attempt, enough, first, rfl⟩
  · rw [answer]
  · rw [answer]
    exact sound.opened free

/-- A snapshot with two markets of an authority, under the first two ids that it would try next. -/
def crowded : Snapshot where
  version := 1
  markets := [Market.idOf (Key.ofBytes [1]) 2, Market.idOf (Key.ofBytes [1]) 3].map fun id =>
    ⟨Market.new id (Key.ofBytes [1]) ⟨.ofTokens 2, 60, .zero⟩, .zero, []⟩
  balances := .empty
  reputations := .empty

/-- A store in which the first two ids of an authority are taken. -/
theorem opening_finds_free_id_crowded :
    ∃ store, restore crowded {} = .ok store ∧
      (⟨.ofTokens 3, 30, .zero⟩ : MarketParams).validate = .ok () ∧
      CollisionFree store.venues (Key.ofBytes [1]) ∧
      store.venues.contains (attemptId (Key.ofBytes [1]) store.venues.size 0) = true ∧
      store.venues.contains (attemptId (Key.ofBytes [1]) store.venues.size 1) = true ∧
      ∃ attempt ≤ store.venues.size,
        FirstFree store.venues (Key.ofBytes [1]) store.venues.size attempt ∧
        (∀ attempts, attempt < attempts →
          freshId? store.venues (Key.ofBytes [1]) attempts (UInt64.ofNat store.venues.size) =
            some (attemptId (Key.ofBytes [1]) store.venues.size attempt)) ∧
        (store.apply 7 (.createMarket (Key.ofBytes [1]) ⟨.ofTokens 3, 30, .zero⟩)).1 =
          .ok (.marketOpened (attemptId (Key.ofBytes [1]) store.venues.size attempt)) ∧
        store.Opened 7 (attemptId (Key.ofBytes [1]) store.venues.size attempt) (Key.ofBytes [1])
          ⟨.ofTokens 3, 30, .zero⟩
          (store.apply 7 (.createMarket (Key.ofBytes [1]) ⟨.ofTokens 3, 30, .zero⟩)).2 := by
  have restored : (restore crowded {}).toOption.map (fun store =>
      (store.venues.size, store.venues.contains (attemptId (Key.ofBytes [1]) 2 0),
        store.venues.contains (attemptId (Key.ofBytes [1]) 2 1))) = some (2, true, true) := by
    decide +kernel
  have streams : ∀ attempt < 3, ∀ other < 3,
      Blake3.hash (attemptStream (Key.ofBytes [1]) 2 attempt) =
        Blake3.hash (attemptStream (Key.ofBytes [1]) 2 other) →
      attemptStream (Key.ofBytes [1]) 2 attempt = attemptStream (Key.ofBytes [1]) 2 other := by
    decide +kernel
  have valid : (⟨.ofTokens 3, 30, .zero⟩ : MarketParams).validate = .ok () := by decide
  cases accepted : restore crowded {} with
  | error cause =>
      rw [accepted] at restored
      cases restored
  | ok store =>
      rw [accepted] at restored
      simp only [Except.toOption, Option.map_some, Option.some.injEq, Prod.mk.injEq] at restored
      obtain ⟨size, first, second⟩ := restored
      have collisionFree : CollisionFree store.venues (Key.ofBytes [1]) := by
        refine (collisionFree_iff (by omega)).2 ?_
        rintro - ⟨attempt, ⟨bound, -⟩, rfl⟩ - ⟨other, ⟨otherBound, -⟩, rfl⟩ same
        rw [size] at same bound otherBound ⊢
        exact streams attempt (by omega) other (by omega) same
      have opening := opening_finds_free_id (.restored crowded {} accepted) [] 7 valid collisionFree
      rw [← size] at first second
      exact ⟨store, rfl, valid, collisionFree, first, second, opening⟩

/-- Streams determine their seeds. Where the hash function does not collide, so do derived keys: the
vaults of different markets have different addresses, and the id of a new market is the address of
no vault. -/
theorem derived_keys_apart {streams : Set (List UInt8)}
    (collisionFree : Set.InjOn Blake3.hash streams) :
    (∀ left right : List (List UInt8), Key.Short left → Key.Short right →
      Key.seedStream left = Key.seedStream right → left = right) ∧
    (∀ left right : List (List UInt8), Key.Short left → Key.Short right →
      Key.seedStream left ∈ streams → Key.seedStream right ∈ streams →
      (Key.derive left = Key.derive right ↔ left = right)) ∧
    (∀ market other : Key, Key.seedStream (Vault.seedsOf market) ∈ streams →
      Key.seedStream (Vault.seedsOf other) ∈ streams → market ≠ other →
      Vault.addressOf market ≠ Vault.addressOf other) ∧
    ∀ (store : Store) (now : Int64) (authority id : Key) (params : MarketParams),
      (store.apply now (.createMarket authority params)).1 = .ok (.marketOpened id) →
      ∃ attempt, FirstFree store.venues authority store.venues.size attempt ∧
        attemptId authority store.venues.size attempt = id ∧
        (attemptStream authority store.venues.size attempt ∈ streams →
          ∀ market, Key.seedStream (Vault.seedsOf market) ∈ streams →
            Vault.addressOf market ≠ id) := by
  refine ⟨fun _ _ => Key.seedStream_inj, fun _ _ => Key.derive_inj collisionFree, ?_, ?_⟩
  · intro market other member otherMember different same
    have seeds := (Key.derive_inj collisionFree (Vault.short_seedsOf market)
      (Vault.short_seedsOf other) member otherMember).1 same
    exact different (Vault.seedsOf_injective seeds)
  · intro store now authority id params answer
    obtain ⟨-, ⟨attempt, first, same⟩, -⟩ := apply_createMarket_eq_ok.1 (Prod.ext answer rfl)
    refine ⟨attempt, first, same, ?_⟩
    intro member market vaultMember clash
    rw [← same] at clash
    have seeds := (Key.derive_inj collisionFree (Vault.short_seedsOf market)
      (Market.short_seedsOf authority _) vaultMember member).1 clash
    exact Vault.seedsOf_ne _ _ _ seeds

/-- Streams of seeds that say the same but for a boundary, of two vaults and of an id. -/
def lookalikes : List (List UInt8) :=
  [Key.seedStream [[0x61, 0x62], [0x63]], Key.seedStream [[0x61], [0x62, 0x63]],
    Key.seedStream (Vault.seedsOf (Key.ofBytes [7])),
    Key.seedStream (Vault.seedsOf (Key.ofBytes [8])), attemptStream (Key.ofBytes [1]) 0 0]

/-- Seeds that spell one text, cut in two ways, and the addresses of two vaults and a market. -/
theorem derived_keys_apart_lookalikes :
    Set.InjOn Blake3.hash {stream | stream ∈ lookalikes} ∧
    Key.derive [[0x61, 0x62], [0x63]] ≠ Key.derive [[0x61], [0x62, 0x63]] ∧
    Vault.addressOf (Key.ofBytes [7]) ≠ Vault.addressOf (Key.ofBytes [8]) ∧
    ((empty {}).apply 7 (.createMarket (Key.ofBytes [1]) ⟨.ofTokens 3, 30, .zero⟩)).1 =
      .ok (.marketOpened (Market.idOf (Key.ofBytes [1]) 0)) ∧
    Vault.addressOf (Key.ofBytes [7]) ≠ Market.idOf (Key.ofBytes [1]) 0 := by
  have hashes : ∀ left ∈ lookalikes, ∀ right ∈ lookalikes,
      Blake3.hash left = Blake3.hash right → left = right := by decide +kernel
  have collisionFree : Set.InjOn Blake3.hash {stream | stream ∈ lookalikes} :=
    fun left member right => hashes left member right
  obtain ⟨-, derived, vaults, ids⟩ := derived_keys_apart collisionFree
  have answer : ((empty {}).apply 7 (.createMarket (Key.ofBytes [1])
      ⟨.ofTokens 3, 30, .zero⟩)).1 =
        .ok (.marketOpened (Market.idOf (Key.ofBytes [1]) 0)) := by
    decide +kernel
  obtain ⟨attempt, first, -, apart⟩ := ids _ _ _ _ _ answer
  have nothingTaken : attempt = 0 := by
    by_contra late
    cases first.tried 0 (Nat.pos_of_ne_zero late)
  subst nothingTaken
  refine ⟨collisionFree, ?_, ?_, answer, ?_⟩
  · refine (derived _ _ ?_ ?_ ?_ ?_).not.2 (by decide)
    all_goals simp [Key.Short, lookalikes]
  · exact vaults _ _ (by simp [lookalikes]) (by simp [lookalikes]) (by decide)
  · exact apart (List.mem_of_getElem? (i := 4) rfl) _ (by simp [lookalikes])

end Store

end ComputeMarket
