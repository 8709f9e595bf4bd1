import EchoDesk.Outbox.Guarantees

/-! # What a transaction leaves alone

Three frames the proofs about delivery are built on. The outbox only evolves:
rows keep their id and scope, a publication is never taken back, and new rows
get new ids. A transaction of one process leaves the cursor and the recovery
rows of all other consumers alone. And only the transactions of the global scan
touch its cursor and lanes.
-/

namespace Outbox.Delivery

open EchoDesk OrderedLog List

variable {π : Type}
variable {now : Timestamp} {row : OutboxRow π} {db : Db π} {fence : Option Nat} {c : ConsumerId}
  {assign : GlobalRecoveryState → GlobalRecoveryState} {error : Option String}
variable {p : Proc π} {lane : DeliveryLane} {advanceLane attempted : Bool} {limit : Nat}
  {loop : Loop}

/-! ## The outbox evolves -/

/-- `row'` is a later version of `row`. -/
def Later (row row' : OutboxRow π) : Prop :=
  row.outboxId = row'.outboxId ∧ row.scope = row'.scope ∧
    (row'.publishedAt = none → row.publishedAt = none)

theorem Later.refl (row : OutboxRow π) : Later row row := ⟨rfl, rfl, id⟩

/-- Every row is a later version of an old one or has a new id. -/
structure Evolves (t t' : OutboxTable π) : Prop where
  lastId : t.lastId ≤ t'.lastId
  rows : ∀ row' ∈ t'.rows, (∃ row ∈ t.rows, Later row row') ∨ t.lastId < row'.outboxId

namespace Evolves

variable (t : OutboxTable π)

theorem refl : Evolves t t :=
  ⟨Nat.le_refl _, fun row h => .inl ⟨row, h, .refl row⟩⟩

theorem trans {a b c : OutboxTable π} (hab : Evolves a b) (hbc : Evolves b c) : Evolves a c := by
  refine ⟨Nat.le_trans hab.lastId hbc.lastId, fun row'' h'' => ?_⟩
  rcases hbc.rows row'' h'' with ⟨row', h', hl'⟩ | hnew
  · rcases hab.rows row' h' with ⟨row, h, hl⟩ | hnew
    · exact .inl ⟨row, h, hl.1.trans hl'.1, hl.2.1.trans hl'.2.1, fun hu => hl.2.2 (hl'.2.2 hu)⟩
    · exact .inr (hl'.1 ▸ hnew)
  · exact .inr (Nat.lt_of_le_of_lt hab.lastId hnew)

theorem appendAll (new : List (NewOutboxRow π)) : Evolves t (t.appendAll new) := by
  induction new generalizing t with
  | nil => exact refl t
  | cons row rest ih =>
    refine trans ⟨?_, fun row' h => ?_⟩ (ih (t.append row))
    · rw [OutboxTable.lastId_append]
      omega
    rw [OutboxTable.rows_append] at h
    rcases mem_append.1 h with h | h
    · exact .inl ⟨row', h, .refl row'⟩
    · rw [mem_singleton.1 h]
      exact .inr (Nat.lt_succ_self _)

theorem modify {f : OutboxRow π → OutboxRow π} (hlater : ∀ row, Later row (f row)) :
    Evolves t (t.modify f fun row => (hlater row).1.symm) := by
  refine ⟨Nat.le_refl _, fun row' h => ?_⟩
  rcases mem_map.1 h with ⟨row, hrow, rfl⟩
  exact .inl ⟨row, hrow, hlater row⟩

theorem filter (keep : OutboxRow π → Bool) : Evolves t (t.filter keep) :=
  ⟨Nat.le_refl _, fun row h => .inl ⟨row, mem_of_mem_filter h, .refl row⟩⟩

/-- A row with an old id is a later version of an old row. -/
theorem old {t t' : OutboxTable π} (h : Evolves t t') {row' : OutboxRow π} (hrow : row' ∈ t'.rows)
    (hle : row'.outboxId ≤ t.lastId) : ∃ row ∈ t.rows, Later row row' := by
  rcases h.rows row' hrow with hold | hnew
  · exact hold
  · omega

end Evolves

theorem evolves_setPublished (db : Db π) (id : Nat) (now : Timestamp) :
    Evolves db.outbox (db.setPublished id now).outbox := by
  refine Evolves.modify db.outbox fun row => ?_
  split
  · refine ⟨rfl, rfl, fun h => ?_⟩
    cases hp : row.publishedAt with
    | none => rfl
    | some at_ => simp [hp] at h
  · exact .refl row

theorem evolves_setFailed (db : Db π) (id : Nat) (error : String) :
    Evolves db.outbox (db.setFailed id error).outbox := by
  refine Evolves.modify db.outbox fun row => ?_
  split
  · exact ⟨rfl, rfl, fun h => h⟩
  · exact .refl row

/-- Setting `published_at` keeps every row, its id and its scope. -/
theorem kept_setPublished (db : Db π) (id : Nat) (now : Timestamp) (hrow : row ∈ db.outbox.rows) :
    ∃ row' ∈ (db.setPublished id now).outbox.rows,
      row'.outboxId = row.outboxId ∧ row'.scope = row.scope := by
  refine ⟨_, mem_map_of_mem hrow, ?_⟩
  split <;> exact ⟨rfl, rfl⟩

/-- After `published_at` was set, every row with the id carries it. -/
theorem publishedAt_setPublished (db : Db π) (id : Nat) (now : Timestamp)
    (hrow : row ∈ (db.setPublished id now).outbox.rows) (hid : row.outboxId = id) :
    row.publishedAt ≠ none := by
  rcases mem_map.1 hrow with ⟨old, hold, rfl⟩
  by_cases h : old.outboxId = id
  · simp [h]
  · rw [if_neg h] at hid
    exact absurd hid h

theorem idAtOffset_le (t : OutboxTable π) (rows : Nat) : idAtOffset t rows ≤ t.lastId := by
  unfold idAtOffset
  cases h : (t.rows.reverse.drop rows).head? with
  | none => exact Nat.zero_le _
  | some row =>
    have hmem := mem_of_mem_drop (mem_of_head? h)
    exact (t.issued row (mem_reverse.1 hmem)).2

theorem outboxReplayFloor_le (t : OutboxTable π) (rows : Nat) :
    outboxReplayFloor t rows ≤ t.lastId := by
  unfold outboxReplayFloor
  split
  · exact t.maxPos_le_lastId
  · exact idAtOffset_le t rows

theorem mem_ids_of_consumer? (h : (db.consumer? c).isSome) : c ∈ db.consumerIds := by
  obtain ⟨a, ha⟩ := Option.isSome_iff_exists.1 h
  have hid := find?_some ha
  simp only [decide_eq_true_eq] at hid
  exact mem_map.2 ⟨a, mem_of_find?_eq_some ha, hid⟩

/-! ## The other consumers -/

/-- A transaction of the process of `c`, as the others see it. -/
structure Frame (c : ConsumerId) (db db' : Db π) : Prop where
  outbox : Evolves db.outbox db'.outbox
  ids : db'.consumerIds = db.consumerIds
  consumers : ∀ a : Consumer π, a.consumerId ≠ c → (a ∈ db'.consumers ↔ a ∈ db.consumers)
  lanes : ∀ c', c' ≠ c → db'.lanes c' = db.lanes c'
  legacy : ∀ c', c' ≠ c → db'.legacy c' = db.legacy c'

namespace Frame

variable {c : ConsumerId} {db db₁ db₂ : Db π}

theorem refl (c : ConsumerId) (db : Db π) : Frame c db db :=
  ⟨.refl _, rfl, fun _ _ => Iff.rfl, fun _ _ => rfl, fun _ _ => rfl⟩

theorem trans (h₁ : Frame c db db₁) (h₂ : Frame c db₁ db₂) : Frame c db db₂ where
  outbox := h₁.outbox.trans h₂.outbox
  ids := h₂.ids.trans h₁.ids
  consumers a ha := (h₂.consumers a ha).trans (h₁.consumers a ha)
  lanes c' hc := (h₂.lanes c' hc).trans (h₁.lanes c' hc)
  legacy c' hc := (h₂.legacy c' hc).trans (h₁.legacy c' hc)

/-- A transaction that only touches the outbox and the global scan. -/
theorem of_global (hout : Evolves db.outbox db₁.outbox) (hcons : db₁.consumers = db.consumers)
    (hlanes : db₁.lanes = db.lanes) (hlegacy : db₁.legacy = db.legacy) : Frame c db db₁ :=
  ⟨hout, by rw [Db.consumerIds, hcons]; rfl, fun _ _ => by rw [hcons],
    fun _ _ => by rw [hlanes], fun _ _ => by rw [hlegacy]⟩

theorem updateConsumer (db : Db π) (c : ConsumerId) {assign : Consumer π → Consumer π}
    (hid : ∀ a, (assign a).consumerId = a.consumerId) :
    Frame c db (db.updateConsumer c assign) := by
  refine ⟨.refl _, ?_, fun a ha => ?_, fun _ _ => rfl, fun _ _ => rfl⟩
  · rw [Db.consumerIds, Db.updateConsumer, map_map]
    refine map_congr_left fun a _ => ?_
    by_cases h : a.consumerId = c
    · simp [h, hid]
    · simp [h]
  show a ∈ db.consumers.map _ ↔ _
  rw [mem_map]
  constructor
  · rintro ⟨b, hb, rfl⟩
    split at ha
    · rename_i hbc
      exact absurd ((hid b).trans hbc) ha
    · rename_i hbc
      rwa [if_neg hbc]
  · intro h
    exact ⟨a, h, if_neg ha⟩

end Frame

/-! ## The global scan -/

/-- The scan cursor, its bound and the global lanes are as they were. -/
structure SameScan (db db' : Db π) : Prop where
  scanCursor : db'.globalState.scanCursor = db.globalState.scanCursor
  recoveryThrough : db'.globalState.recoveryThrough = db.globalState.recoveryThrough
  globalLanes : db'.globalLanes = db.globalLanes

namespace SameScan

theorem refl (db : Db π) : SameScan db db := ⟨rfl, rfl, rfl⟩

theorem trans {db₁ db₂ : Db π} (h₁ : SameScan db db₁) (h₂ : SameScan db₁ db₂) : SameScan db db₂ :=
  ⟨h₂.scanCursor.trans h₁.scanCursor, h₂.recoveryThrough.trans h₁.recoveryThrough,
    h₂.globalLanes.trans h₁.globalLanes⟩

end SameScan

/-- A transaction of the process of `c` outside the global scan. -/
def LocalFrame (c : ConsumerId) (db db' : Db π) : Prop := Frame c db db' ∧ SameScan db db'

namespace LocalFrame

variable {c : ConsumerId} {db : Db π}

theorem publishTo (db : Db π) (c : ConsumerId) (row : OutboxRow π) (error : Option String) :
    LocalFrame c db (publishTo db c row error) := by
  cases error with
  | none => exact ⟨.updateConsumer db c fun _ => rfl, ⟨rfl, rfl, rfl⟩⟩
  | some _ => exact ⟨.refl c db, .refl db⟩

end LocalFrame

/-! ## What no transaction moves -/

/-- The ids of the rows with their scopes. -/
def Db.places (db : Db π) : List (Nat × Scope) :=
  db.outbox.rows.map fun row => (row.outboxId, row.scope)

/-- What the consumers were registered with and were given since. -/
def Db.deliveries (db : Db π) : List (ConsumerId × Nat × List (OutboxRow π)) :=
  db.consumers.map fun a => (a.consumerId, a.registeredAt, a.bus)

theorem deliveries_updateConsumer (db : Db π) (c : ConsumerId) {assign : Consumer π → Consumer π}
    (h : ∀ a, ((assign a).consumerId, (assign a).registeredAt, (assign a).bus) =
      (a.consumerId, a.registeredAt, a.bus)) :
    (db.updateConsumer c assign).deliveries = db.deliveries := by
  rw [Db.deliveries, Db.updateConsumer, map_map]
  refine map_congr_left fun a _ => ?_
  by_cases hc : a.consumerId = c
  · simpa [hc] using h a
  · simp [hc]

theorem places_setPublished (db : Db π) (id : Nat) (now : Timestamp) :
    (db.setPublished id now).places = db.places := by
  unfold Db.places Db.setPublished OutboxTable.modify
  rw [map_map]
  refine map_congr_left fun row _ => ?_
  dsimp only [Function.comp]
  split <;> rfl

theorem places_setFailed (db : Db π) (id : Nat) (error : String) :
    (db.setFailed id error).places = db.places := by
  unfold Db.places Db.setFailed OutboxTable.modify
  rw [map_map]
  refine map_congr_left fun row _ => ?_
  dsimp only [Function.comp]
  split <;> rfl

/-- Every row keeps its place, and no consumer is given anything. -/
structure Still (db db' : Db π) : Prop where
  places : db'.places = db.places
  deliveries : db'.deliveries = db.deliveries

namespace Still

variable {db db₁ db₂ : Db π}

theorem refl (db : Db π) : Still db db := ⟨rfl, rfl⟩

theorem trans (h₁ : Still db db₁) (h₂ : Still db₁ db₂) : Still db db₂ :=
  ⟨h₂.places.trans h₁.places, h₂.deliveries.trans h₁.deliveries⟩

/-- A change of the other tables. -/
theorem of_tables (hout : db₁.outbox = db.outbox) (hcons : db₁.consumers = db.consumers) :
    Still db db₁ := by
  constructor
  · rw [Db.places, hout]
    rfl
  · rw [Db.deliveries, hcons]
    rfl

end Still

/-! ## The writes of a transaction -/

/-- One write of a transaction of `c`, which is of the global scan or is not. -/
inductive Write (scan : Prop) (c : ConsumerId) (db : Db π) : Db π → Prop where
  | setPublished (id : Nat) (now : Timestamp) : Write scan c db (db.setPublished id now)
  | setFailed (id : Nat) (error : String) : Write scan c db (db.setFailed id error)
  | updateConsumer {assign : Consumer π → Consumer π}
    (h : ∀ a, ((assign a).consumerId, (assign a).registeredAt, (assign a).bus) =
      (a.consumerId, a.registeredAt, a.bus)) : Write scan c db (db.updateConsumer c assign)
  | setLane (scope : Scope) (lane : Option ScopeRecovery) :
    Write scan c db (db.setLane c scope lane)
  | setLegacy (id : Nat) (row : Option LegacyRecovery) : Write scan c db (db.setLegacy c id row)
  | lease {state : GlobalRecoveryState} (hcursor : state.scanCursor = db.globalState.scanCursor)
    (hthrough : state.recoveryThrough = db.globalState.recoveryThrough) :
    Write scan c db { db with globalState := state }
  | scan (h : scan) (lanes : Scope → Option ScopeRecovery) (state : GlobalRecoveryState) :
    Write scan c db { db with globalLanes := lanes, globalState := state }

/-- The writes of a transaction. -/
abbrev Writes (scan : Prop) (c : ConsumerId) : Db π → Db π → Prop :=
  Relation.ReflTransGen (Write scan c)

variable {db' : Db π} {scan : Prop}

theorem Write.frame (h : Write scan c db db') : Frame c db db' := by
  cases h with
  | setPublished id now => exact .of_global (evolves_setPublished db id now) rfl rfl rfl
  | setFailed id error => exact .of_global (evolves_setFailed db id error) rfl rfl rfl
  | updateConsumer h => exact .updateConsumer db c fun a => congrArg Prod.fst (h a)
  | setLane scope lane =>
    exact ⟨.refl _, rfl, fun _ _ => Iff.rfl, fun _ hc => Function.update_of_ne hc _ _,
      fun _ _ => rfl⟩
  | setLegacy id row =>
    exact ⟨.refl _, rfl, fun _ _ => Iff.rfl, fun _ _ => rfl,
      fun _ hc => Function.update_of_ne hc _ _⟩
  | lease hcursor hthrough | scan h lanes state => exact .of_global (.refl _) rfl rfl rfl

theorem Write.sameScan (h : Write False c db db') : SameScan db db' := by
  cases h with
  | lease hcursor hthrough => exact ⟨hcursor, hthrough, rfl⟩
  | scan h lanes state => exact h.elim
  | _ => exact ⟨rfl, rfl, rfl⟩

theorem Write.still (h : Write scan c db db') : Still db db' := by
  cases h with
  | setPublished id now => exact ⟨places_setPublished db id now, rfl⟩
  | setFailed id error => exact ⟨places_setFailed db id error, rfl⟩
  | updateConsumer h => exact ⟨rfl, deliveries_updateConsumer db c h⟩
  | _ => exact .of_tables rfl rfl

theorem Write.weaken (h : Write False c db db') : Write True c db db' := by
  cases h with
  | scan h lanes state => exact h.elim
  | lease hcursor hthrough => exact .lease hcursor hthrough
  | updateConsumer h => exact .updateConsumer h
  | _ => constructor

theorem write_heartbeat (db : Db π) (c : ConsumerId) (now : Timestamp) :
    Write False c db (db.heartbeat c now) := .updateConsumer fun _ => rfl

namespace Writes

/-- A transaction of any kind. -/
theorem weaken (h : Writes False c db db') : Writes True c db db' :=
  Relation.ReflTransGen.mono (fun _ _ => Write.weaken) _ _ h

theorem frame (h : Writes scan c db db') : Frame c db db' := by
  induction h with
  | refl => exact .refl c db
  | tail _ h ih => exact ih.trans h.frame

theorem localFrame (h : Writes False c db db') : LocalFrame c db db' := by
  refine ⟨h.frame, ?_⟩
  induction h with
  | refl => exact .refl db
  | tail _ h ih => exact ih.trans h.sameScan

theorem still (h : Writes scan c db db') : Still db db' := by
  induction h with
  | refl => exact .refl db
  | tail _ h ih => exact ih.trans h.still

end Writes

/-! ## One lemma for each transaction -/

/-- `Except.map` committed: so did its argument. -/
theorem ok_of_map {α β : Type} {x : Except DeliveryError α} {f : α → β} {b : β}
    (h : x.map f = .ok b) : ∃ a, x = .ok a ∧ f a = b := by
  cases x with
  | error e => cases h
  | ok a => exact ⟨a, rfl, Except.ok.inj h⟩

/-- A bind committed: so did both parts. -/
theorem ok_of_bind {α β : Type} {x : Except DeliveryError α} {f : α → Except DeliveryError β}
    {b : β} (h : x >>= f = .ok b) : ∃ a, x = .ok a ∧ f a = .ok b := by
  cases x with
  | error e => cases h
  | ok a => exact ⟨a, rfl, h⟩

variable {existing : Option ScopeRecovery} {cursor : Nat} {me : LeaseOwner}

/-- `_queue_scope_recovery` writes the lane it computes, or finds none to update. -/
theorem queueScopeRecovery_cases
    (h : queueScopeRecovery db c row existing error attempted now = .ok db') :
    (((db.lanes c row.scope).isSome ∨ (db.consumer? c).isSome) ∧ db' = db.setLane c row.scope
        (some (queueLane existing row.outboxId error attempted now))) ∨
    (existing.isSome ∧ db.lanes c row.scope = none ∧ db' = db) := by
  unfold queueScopeRecovery at h
  cases hl : db.lanes c row.scope with
  | none =>
    cases existing with
    | none =>
      rw [hl] at h
      by_cases hc : (db.consumer? c).isSome
      · rw [if_pos hc] at h
        exact .inl ⟨.inr hc, (Except.ok.inj h).symm⟩
      · rw [if_neg hc] at h
        cases h
    | some lane =>
      rw [hl] at h
      exact .inr ⟨rfl, rfl, (Except.ok.inj h).symm⟩
  | some lane =>
    cases existing with
    | none =>
      rw [hl] at h
      cases h
    | some old =>
      rw [hl] at h
      exact .inl ⟨.inl rfl, (Except.ok.inj h).symm⟩

/-- A queued row is at or behind the head of its lane. -/
theorem queueLane_next (existing : Option ScopeRecovery) (rowId : Nat) (error : Option String)
    (attempted : Bool) (now : Timestamp) :
    (queueLane existing rowId error attempted now).nextOutboxId =
      existing.elim rowId fun lane => min rowId lane.nextOutboxId := by
  cases existing with
  | none => rfl
  | some lane =>
    unfold queueLane
    dsimp only [Option.elim]
    split
    · exact (Nat.min_eq_left (Nat.le_of_lt ‹_›)).symm
    · split <;> exact (Nat.min_eq_right (Nat.le_of_not_lt ‹_›)).symm

theorem queueScopeRecovery_writes
    (h : queueScopeRecovery db c row existing error attempted now = .ok db') :
    Writes False c db db' := by
  rcases queueScopeRecovery_cases h with ⟨_, rfl⟩ | ⟨_, _, rfl⟩
  · exact .single (.setLane row.scope _)
  · exact .refl

theorem retryLegacyRecovery_writes {error : String}
    (h : retryLegacyRecovery db c row error now = .ok db') : Writes False c db db' := by
  unfold retryLegacyRecovery at h
  split at h
  · cases h
  · cases h
    exact .single (.setLegacy row.outboxId _)

/-- `_advance_scope_recovery` found the lane at the row. -/
theorem advanceScopeRecovery_ok (h : advanceScopeRecovery db c cursor row = .ok db') :
    (∃ lane, db.lanes c row.scope = some lane ∧ lane.nextOutboxId = row.outboxId) ∧
      db' = db.setLane c row.scope ((db.outbox.rows.find? fun later =>
        later.scope = row.scope ∧ row.outboxId < later.outboxId ∧ later.outboxId ≤ cursor).map
          fun later => ⟨later.outboxId, 0, 0, none⟩) := by
  unfold advanceScopeRecovery at h
  split at h
  · rename_i hlane
    refine ⟨?_, (Except.ok.inj h).symm⟩
    simpa [Option.any_eq_true] using hlane
  · cases h

theorem markOutboxPublished_writes (h : markOutboxPublished db c cursor lane row now = .ok db') :
    Writes False c db db' := by
  cases lane with
  | main =>
    cases h
    exact .head (.setPublished _ now) (.single (.updateConsumer fun _ => rfl))
  | legacy =>
    cases h
    exact .head (.setPublished _ now)
      (.head (.setLegacy _ _) (.single (.updateConsumer fun _ => rfl)))
  | scope =>
    obtain ⟨db₁, h₁, rfl⟩ := ok_of_map h
    obtain ⟨_, rfl⟩ := advanceScopeRecovery_ok h₁
    exact .head (.setPublished _ now)
      (.head (.setLane _ _) (.single (.updateConsumer fun _ => rfl)))

theorem markOutboxFailed_writes {error : String}
    (h : markOutboxFailed db c cursor lane row error now = .ok db') : Writes False c db db' := by
  cases lane with
  | main =>
    obtain ⟨db₁, h₁, rfl⟩ := ok_of_map h
    exact .head (.setFailed _ error)
      (.tail (queueScopeRecovery_writes h₁) (.updateConsumer fun _ => rfl))
  | legacy =>
    obtain ⟨db₁, h₁, rfl⟩ := ok_of_map h
    exact .head (.setFailed _ error)
      (.tail (retryLegacyRecovery_writes h₁) (.updateConsumer fun _ => rfl))
  | scope =>
    obtain ⟨db₁, h₁, rfl⟩ := ok_of_map h
    exact .head (.setFailed _ error)
      (.tail (queueScopeRecovery_writes h₁) (.updateConsumer fun _ => rfl))

theorem queueBehind_writes (h : queueBehind db c cursor row existing now = .ok db') :
    Writes False c db db' := by
  obtain ⟨db₁, h₁, rfl⟩ := ok_of_map h
  exact .tail (queueScopeRecovery_writes h₁) (.updateConsumer fun _ => rfl)

/-! ### Under the lease -/

theorem begin_ok (h : beginGlobalRecoveryMutation db me fence now = .ok db') : db' = db := by
  unfold beginGlobalRecoveryMutation at h
  split at h
  · exact (Except.ok.inj h).symm
  · cases h

theorem extend_ok (h : extendGlobalRecoveryLease db me fence now assign = .ok db') : db' = { db with
      globalState :=
        { assign db.globalState with leaseExpiresAt := now + globalRecoveryLease } } := by
  unfold extendGlobalRecoveryLease at h
  split at h
  · exact (Except.ok.inj h).symm
  · cases h

theorem extend_writes (c : ConsumerId)
    (h : extendGlobalRecoveryLease db me fence now assign = .ok db') : Write True c db db' := by
  rw [extend_ok h]
  exact .scan trivial db.globalLanes _

/-- `_normalize_global_scope_recovery` committed. -/
theorem normalize_ok (h : normalizeGlobalScopeRecovery db me fence now = .ok db') :
    ∃ expires, db' = { db with
      globalLanes := fun scope => (db.globalLanes scope).bind (normalizeLane db scope)
      globalState := { db.globalState with leaseExpiresAt := expires } } := by
  obtain ⟨db₁, h₁, h₂⟩ := ok_of_bind h
  cases begin_ok h₁
  exact ⟨_, extend_ok h₂⟩

theorem normalize_writes (c : ConsumerId)
    (h : normalizeGlobalScopeRecovery db me fence now = .ok db') : Write True c db db' := by
  obtain ⟨_, rfl⟩ := normalize_ok h
  exact .scan trivial _ _

theorem advanceGlobalScopeRecovery_writes (db : Db π) (c : ConsumerId) (row : OutboxRow π) :
    Writes True c db (advanceGlobalScopeRecovery db row) := by
  unfold advanceGlobalScopeRecovery
  split <;> exact .single (.scan trivial _ _)

theorem markGlobalOutboxPublished_writes
    (h : markGlobalOutboxPublished db c me fence row advanceLane now = .ok db') :
    Writes True c db db' := by
  obtain ⟨db₁, h₁, h₂⟩ := ok_of_bind h
  cases begin_ok h₁
  refine .head (.setPublished row.outboxId now) (.tail (.tail ?_ (.setLegacy _ _)) (extend_writes c h₂))
  split
  · exact advanceGlobalScopeRecovery_writes _ c row
  · exact .refl

/-- What `_mark_global_outbox_published` writes of the consumers' tables: the
legacy row of the process is gone. -/
theorem markGlobalOutboxPublished_local
    (h : markGlobalOutboxPublished db c me fence row advanceLane now = .ok db') :
    db'.consumers = db.consumers ∧ db'.lanes = db.lanes ∧ db'.legacy = Function.update db.legacy c
        (Function.update (db.legacy c) row.outboxId none) := by
  obtain ⟨db₁, h₁, h₂⟩ := ok_of_bind h
  cases begin_ok h₁
  rw [extend_ok h₂]
  cases advanceLane with
  | false => exact ⟨rfl, rfl, rfl⟩
  | true =>
    simp only [if_true, advanceGlobalScopeRecovery]
    split <;> exact ⟨rfl, rfl, rfl⟩

/-- `_mark_global_outbox_failed` committed. -/
theorem markGlobalOutboxFailed_ok {error : String}
    (h : markGlobalOutboxFailed db me fence row error now = .ok db') :
    ∃ expires retryAt, db' = { queueGlobalScopeRecovery (db.setFailed row.outboxId error) row
        (some error) true now with
      globalState := { db.globalState with
        leaseExpiresAt := expires, lastFailedOwner := some me, failedOwnerRetryAt := retryAt } } := by
  obtain ⟨db₁, h₁, h₂⟩ := ok_of_bind h
  cases begin_ok h₁
  exact ⟨_, _, extend_ok h₂⟩

theorem markGlobalOutboxFailed_writes {error : String} (c : ConsumerId)
    (h : markGlobalOutboxFailed db me fence row error now = .ok db') : Writes True c db db' := by
  obtain ⟨_, _, rfl⟩ := markGlobalOutboxFailed_ok h
  exact .head (.setFailed row.outboxId error) (.single (.scan trivial _ _))

theorem recordDiscovered_writes {result : Discovered}
    (h : recordDiscovered db c me fence row result now = .ok db') : Writes True c db db' := by
  obtain ⟨db₁, h₁, h₂⟩ := ok_of_bind h
  refine .tail ?_ (extend_writes c h₂)
  cases result with
  | skipped =>
    rw [begin_ok h₁]
  | published => exact markGlobalOutboxPublished_writes h₁
  | failed error => exact markGlobalOutboxFailed_writes c h₁

theorem finishDiscovery_writes {d : Discovery π} (c : ConsumerId)
    (h : finishDiscovery db me fence d limit now = .ok db') : Writes True c db db' := by
  unfold finishDiscovery at h
  split at h
  · obtain ⟨db₁, h₁, h₂⟩ := ok_of_bind h
    cases begin_ok h₁
    exact .single (extend_writes c h₂)
  · cases h
    exact .refl

/-- What a recovery loop records of a row is one of four transactions. -/
theorem record_cases (h : loop.record db c p row error now = .ok db') :
    (∃ lane, markOutboxPublished db c p.cursor lane row now = .ok db') ∨
      (∃ lane error, markOutboxFailed db c p.cursor lane row error now = .ok db') ∨
      (∃ advanceLane, markGlobalOutboxPublished db c (p.leaseOwner c) p.fence row advanceLane now =
        .ok db') ∨
      ∃ error, markGlobalOutboxFailed db (p.leaseOwner c) p.fence row error now = .ok db' := by
  cases loop with
  | legacy =>
    cases error with
    | none => exact .inl ⟨.legacy, h⟩
    | some error => exact .inr (.inl ⟨.legacy, error, h⟩)
  | globalScope complete =>
    cases error with
    | none => exact .inr (.inr (.inl ⟨_, h⟩))
    | some error => exact .inr (.inr (.inr ⟨error, h⟩))
  | scope =>
    cases error with
    | none => exact .inl ⟨.scope, h⟩
    | some error => exact .inr (.inl ⟨.scope, error, h⟩)

theorem record_writes (h : loop.record db c p row error now = .ok db') : Writes True c db db' := by
  rcases record_cases h with ⟨_, h⟩ | ⟨_, _, h⟩ | ⟨_, h⟩ | ⟨_, h⟩
  · exact (markOutboxPublished_writes h).weaken
  · exact (markOutboxFailed_writes h).weaken
  · exact markGlobalOutboxPublished_writes h
  · exact markGlobalOutboxFailed_writes c h

/-! ## One step of a process -/

theorem attempt_cases (p p' : Proc π) (limit : Nat) (stage next : Stage π) (db : Db π)
    (result : Except DeliveryError (Db π)) :
    (∃ db', result = .ok db' ∧ p.attempt p' limit stage db result next = (p'.goto limit next, db')) ∨
    (∃ e, result = .error e ∧
      p.attempt p' limit stage db result next = (p.catch limit stage e, db)) := by
  cases result with
  | ok db' => exact .inl ⟨db', rfl, rfl⟩
  | error e => exact .inr ⟨e, rfl, rfl⟩

theorem attempt_writes {p' : Proc π} {stage next : Stage π} {result : Except DeliveryError (Db π)}
    (h : ∀ db', result = .ok db' → Writes scan c db db') :
    Writes scan c db (p.attempt p' limit stage db result next).2 := by
  rcases attempt_cases p p' limit stage next db result with ⟨db', hok, heq⟩ | ⟨e, _, heq⟩
  · rw [heq]
    exact h db' hok
  · rw [heq]

theorem tryAcquire_writes (db : Db π) (c : ConsumerId) (me : LeaseOwner) (now : Timestamp) :
    Writes False c db (tryAcquireGlobalRecoveryLease db me now).1 := by
  unfold tryAcquireGlobalRecoveryLease
  dsimp only
  split
  · exact .single (.lease rfl rfl)
  · exact .refl

theorem release_writes (db : Db π) (c : ConsumerId) (me : LeaseOwner) (fence : Option Nat) :
    Writes False c db (releaseGlobalRecoveryLease db me fence) := by
  unfold releaseGlobalRecoveryLease
  dsimp only
  split
  · exact .single (.lease rfl rfl)
  · exact .refl

/-- The row a stage publishes from a local lane. -/
def Stage.publishesLocally : Stage π → Option (OutboxRow π)
  | .handle .legacy _ (row :: _) | .handle .scope _ (row :: _) | .mainPublish row _ => some row
  | _ => none

/-- The row a stage publishes for the global scan. -/
def Stage.publishesGlobally : Stage π → Option (OutboxRow π)
  | .handle (.globalScope _) _ (row :: _) => some row
  | .discover d (row :: _) => if d.blocked row.scope then none else some row
  | _ => none

def Stage.publishes (stage : Stage π) : Option (OutboxRow π) :=
  stage.publishesLocally.or stage.publishesGlobally

/-- A stage that publishes gives the row to the bus; every other one writes its tables. -/
theorem flush_writes (p : Proc π) (c : ConsumerId) (limit : Nat) (now : Timestamp)
    (error : Option String) (db : Db π) (stage : Stage π) :
    (∃ row, stage.publishes = some row ∧
      (p.flush c limit now error db stage).2 = publishTo db c row error) ∨
    (stage.publishes = none ∧ Writes True c db (p.flush c limit now error db stage).2) := by
  cases stage with
  | fetch loop budget =>
    refine .inr ⟨rfl, ?_⟩
    simp only [Proc.flush]
    split <;> exact .refl
  | handle loop budget rows =>
    cases rows with
    | nil =>
      refine .inr ⟨?_, .refl⟩
      cases loop <;> rfl
    | cons row rows =>
      refine .inl ⟨row, ?_, rfl⟩
      cases loop <;> rfl
  | settle loop budget row err rows =>
    exact .inr ⟨rfl, attempt_writes fun db' h => record_writes h⟩
  | acquire => exact .inr ⟨rfl, (tryAcquire_writes db c _ now).weaken⟩
  | normalize => exact .inr ⟨rfl, attempt_writes fun db' h => .single (normalize_writes c h)⟩
  | position =>
    refine .inr ⟨rfl, ?_⟩
    simp only [Proc.flush]
    split <;> exact .refl
  | discover d rows =>
    cases rows with
    | nil => exact .inr ⟨rfl, attempt_writes fun db' h => finishDiscovery_writes c h⟩
    | cons row rows =>
      by_cases hb : d.blocked row.scope
      · refine .inr ⟨if_pos hb, ?_⟩
        simp only [Proc.flush, if_pos hb]
        exact .refl
      · refine .inl ⟨row, if_neg hb, ?_⟩
        simp only [Proc.flush, if_neg hb]
  | discovered d row result rows =>
    exact .inr ⟨rfl, attempt_writes fun db' h => recordDiscovered_writes h⟩
  | discoveryComplete processed =>
    refine .inr ⟨rfl, ?_⟩
    simp only [Proc.flush]
    split <;> exact .refl
  | release complete =>
    refine .inr ⟨rfl, ?_⟩
    simp only [Proc.flush]
    split
    · exact (release_writes db c _ _).weaken
    · exact .refl
  | mainCheck rows =>
    refine .inr ⟨rfl, ?_⟩
    cases rows with
    | nil => exact .refl
    | cons row rows =>
      simp only [Proc.flush]
      split <;> exact .refl
  | mainQueue row existing rows =>
    exact .inr ⟨rfl, attempt_writes fun db' h => (queueBehind_writes h).weaken⟩
  | mainPublish row rows => exact .inl ⟨row, rfl, rfl⟩
  | mainSettle row err rows =>
    refine .inr ⟨rfl, ?_⟩
    cases err with
    | none => exact attempt_writes fun db' h => (markOutboxPublished_writes h).weaken
    | some err => exact attempt_writes fun db' h => (markOutboxFailed_writes h).weaken
  | _ => exact .inr ⟨rfl, .refl⟩

/-- A stage that does not publish gives nothing. -/
theorem flush_still (p : Proc π) (c : ConsumerId) (limit : Nat) (now : Timestamp)
    (error : Option String) (db : Db π) (stage : Stage π) :
    (∃ row, stage.publishes = some row ∧
      (p.flush c limit now error db stage).2 = publishTo db c row error) ∨
    (stage.publishes = none ∧ Still db (p.flush c limit now error db stage).2) :=
  (flush_writes p c limit now error db stage).imp_right fun ⟨hnone, h⟩ => ⟨hnone, h.still⟩

/-- A step of a flush leaves the other consumers alone. -/
theorem flush_frame (p : Proc π) (c : ConsumerId) (limit : Nat) (now : Timestamp)
    (error : Option String) (db : Db π) (stage : Stage π) :
    Frame c db (p.flush c limit now error db stage).2 := by
  rcases flush_writes p c limit now error db stage with ⟨row, -, heq⟩ | ⟨-, h⟩
  · rw [heq]
    exact (LocalFrame.publishTo db c row error).1
  · exact h.frame

/-- A flush leaves every row in its place. -/
theorem flush_places (p : Proc π) (c : ConsumerId) (limit : Nat) (now : Timestamp)
    (error : Option String) (db : Db π) (stage : Stage π) :
    (p.flush c limit now error db stage).2.places = db.places := by
  rcases flush_still p c limit now error db stage with ⟨row, -, heq⟩ | ⟨-, hstill⟩
  · rw [heq]
    cases error <;> rfl
  · exact hstill.places

end Outbox.Delivery
