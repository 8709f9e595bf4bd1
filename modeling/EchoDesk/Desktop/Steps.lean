import EchoDesk.Desktop.Apply

/-! # What one row and one change do

A reconcile asks of each row whether it is represented, and queues it otherwise
(`Queued`). A change is stale, the same, a conflict or written (`Applied`). The
facts about whole calls follow by induction on the rows and on the changes.
-/

namespace Desktop

open EchoDesk Transaction Hub LastWrite List

/-! ## Entities -/

variable {t : Entities} {a : EntityRow} {py : Python} {deviceId : String} {db db' : ClientDb}
variable {n index : Nat} {result : ApplyResult} {results : List ApplyResult}
variable {snapshot : Bool} {now : Timestamp}
variable {entity : LocalEntity} {change : Change} {entityType : SyncEntityType}
  {P : ClientDb → Prop} {changes : List Dict} {entityId : String} {row : EntityRow}

theorem Entities.mem_upsert : a ∈ t.upsert row ↔ a = row ∨ a ∈ t ∧ a.key ≠ row.key := mem_remember

theorem Entities.mem_delete {sel : EntityRow → Bool} :
    a ∈ t.delete sel ↔ a ∈ t ∧ sel a = false := by
  show a ∈ t.rows.filter _ ↔ _
  rw [mem_filter, Bool.not_eq_true']
  rfl

theorem Entities.get?_eq_some :
    t.get? entityType entityId = some row ↔ row ∈ t ∧ row.key = (entityType, entityId) :=
  find?_key t.nodup

theorem Entities.eq_of_key {b : EntityRow} (ha : a ∈ t) (hb : b ∈ t) (h : a.key = b.key) :
    a = b := by
  have hget : t.get? b.entityType b.entityId = some a := Entities.get?_eq_some.2 ⟨ha, h⟩
  exact Option.some.inj (hget.symm.trans (Entities.get?_eq_some.2 ⟨hb, rfl⟩))

theorem Entities.get?_eq_none :
    t.get? entityType entityId = none ↔ ∀ row ∈ t, row.key ≠ (entityType, entityId) := by
  rw [Entities.get?, find?_eq_none]
  exact forall₂_congr fun row _ => by rw [decide_eq_true_iff]

/-! ## One local row -/

/-- The entity table has the row: under the id of the device with its current
payload, or, when that id is not used, with equal content under another id. -/
def Represented (deviceId : String) (db : ClientDb) (entity : LocalEntity) : Prop :=
  match db.entities.get? entity.entityType (deviceId ++ ":" ++ entity.rawEntityId) with
  | some current => current.payloadJson = entity.payload.dump
  | none => hasEquivalent db entity.entityType entity.payload = true

/-- The row was queued as a new operation. -/
structure Queued (deviceId : String) (now : Timestamp) (entity : LocalEntity)
    (db db' : ClientDb) : Prop where
  repo : db'.repo = db.repo
  appliedOperations : db'.appliedOperations = db.appliedOperations
  outbox : ∃ row, db.outbox.insert? row = some db'.outbox ∧ row.state = .pending ∧
    row.createdAt = now ∧ row.deviceId = deviceId ∧ row.entityType = entity.entityType ∧
    row.entityId = deviceId ++ ":" ++ entity.rawEntityId ∧
    row.payloadJson = entity.payload.dump ∧ Stripped row.operationId
  entities : ∃ row : EntityRow, db'.entities = db.entities.upsert row ∧
    row.key = (entity.entityType, deviceId ++ ":" ++ entity.rawEntityId) ∧
    row.payloadJson = entity.payload.dump ∧ row.sourceDeviceId = deviceId

/-- The operation id of a desktop begins with `sync:` and ends in a UUID. -/
theorem stripped_operationId (py : Python) (deviceId : String) (n : Nat) :
    Stripped ("sync:" ++ deviceId ++ ":" ++ py.uuid4 n) := by
  refine stripped_of_ends (fun c hc => ?_) fun c hc => ?_
  · simp only [String.toList_append, append_assoc] at hc
    obtain rfl : 's' = c := Option.some.inj hc
    decide
  rw [String.toList_append, getLast?_append, String.toList_append, getLast?_append] at hc
  rcases hlast : (py.uuid4 n).toList.getLast? with _ | last
  · rw [hlast] at hc
    obtain rfl : ':' = c := Option.some.inj hc
    decide
  · rw [hlast] at hc
    obtain rfl : last = c := Option.some.inj hc
    exact py.uuid4_unspaced n last (mem_of_getLast? hlast)

theorem enqueue_returns {baseRevision : Nat} (h : Returns (enqueue py deviceId now entity.entityType
      (deviceId ++ ":" ++ entity.rawEntityId) baseRevision entity.updatedAt entity.payload.dump)
      db n db') : n = 1 ∧ Queued deviceId now entity db db' := by
  simp only [enqueue, drawUuid, returns_bind, returns_get, returns_set, returns_pure,
    returns_orRaise] at h
  obtain ⟨uuid, _, ⟨_, _, ⟨rfl, rfl⟩, _, _, rfl, rfl, rfl⟩, _, _, ⟨rfl, rfl⟩, outbox, _,
    ⟨hins, rfl⟩, _, _, rfl, rfl, rfl⟩ := h
  exact ⟨rfl, rfl, rfl, ⟨_, hins, rfl, rfl, rfl, rfl, rfl, rfl, stripped_operationId _ _ _⟩,
    _, rfl, rfl, rfl, rfl⟩

/-- A represented row is left alone; any other is queued. -/
theorem queueLocalEntity_returns
    (h : Returns (queueLocalEntity py deviceId now entity.entityType entity.rawEntityId
      entity.updatedAt entity.payload) db n db') :
    (n = 0 ∧ db' = db ∧ Represented deviceId db entity) ∨
      (n = 1 ∧ ¬ Represented deviceId db entity ∧ Queued deviceId now entity db db') := by
  simp only [queueLocalEntity, returns_get_bind] at h
  cases hcurrent : db.entities.get? entity.entityType (deviceId ++ ":" ++ entity.rawEntityId) with
  | some current =>
    simp only [Represented, hcurrent] at h ⊢
    split at h
    · rename_i hsame
      obtain ⟨rfl, rfl⟩ := returns_pure.1 h
      exact .inl ⟨rfl, rfl, hsame⟩
    · rename_i hdiff
      obtain ⟨rfl, hq⟩ := enqueue_returns h
      exact .inr ⟨rfl, hdiff, hq⟩
  | none =>
    simp only [Represented, hcurrent] at h ⊢
    split at h
    · rename_i hequivalent
      obtain ⟨rfl, rfl⟩ := returns_pure.1 h
      exact .inl ⟨rfl, rfl, hequivalent⟩
    · rename_i hdiff
      obtain ⟨rfl, hq⟩ := enqueue_returns h
      exact .inr ⟨rfl, hdiff, hq⟩

/-- A reconcile adds pending operations and removes none. -/
def AddsPending (db db' : ClientDb) : Prop :=
  (∀ row ∈ db.outbox, row ∈ db'.outbox) ∧
    ∀ row ∈ db'.outbox, row ∈ db.outbox ∨ row.state = .pending ∧ Stripped row.operationId

theorem AddsPending.refl (db : ClientDb) : AddsPending db db :=
  ⟨fun _ h => h, fun _ h => .inl h⟩

theorem Queued.addsPending (h : Queued deviceId now entity db db') : AddsPending db db' := by
  obtain ⟨row, hins, hpending, -, -, -, -, -, hstripped⟩ := h.outbox
  refine ⟨fun a ha => (Table.mem_insert? hins).2 (.inl ha), fun a ha => ?_⟩
  rcases (Table.mem_insert? hins).1 ha with ha | rfl
  · exact .inl ha
  · exact .inr ⟨hpending, hstripped⟩

/-- What holds after a reconcile holds of each of its rows, one after the other. -/
theorem queueAll_addsPending {entities : List LocalEntity}
    (h : Returns (queueAll py deviceId now entities) db n db') : AddsPending db db' := by
  induction entities generalizing db n with
  | nil =>
    rw [← (returns_pure.1 h).2]
    exact AddsPending.refl db
  | cons entity rest ih =>
    simp only [queueAll, returns_bind, returns_pure] at h
    obtain ⟨queued, db₁, hfirst, more, _, hrest, rfl, rfl⟩ := h
    have hlater := ih hrest
    rcases queueLocalEntity_returns hfirst with ⟨-, rfl, -⟩ | ⟨-, -, hqueued⟩
    · exact hlater
    refine ⟨fun a ha => hlater.1 a (hqueued.addsPending.1 a ha), fun a ha => ?_⟩
    rcases hlater.2 a ha with ha | hnew
    · exact hqueued.addsPending.2 a ha
    · exact .inr hnew

theorem reconcile_eq_ok {limit : Nat} :
    reconcileLocalChanges py deviceId now limit db = (.ok n, db') ↔
      Returns (queueAll py deviceId now (scanned db.repo (clampLimit limit))) db n db' :=
  atomically_commit_iff

theorem reconcile_addsPending (py : Python) (deviceId : String) (now : Timestamp) (limit : Nat)
    (db : ClientDb) : AddsPending db (reconcileLocalChanges py deviceId now limit db).2 := by
  unfold reconcileLocalChanges
  rcases atomically_cases (do
    let queued ← queueAll py deviceId now (scanned db.repo (clampLimit limit))
    return Exit.commit queued) db with h | ⟨n, db', hret, h⟩
  · rw [h]
    exact AddsPending.refl db
  rw [h]
  simp only [returns_bind, returns_pure] at hret
  obtain ⟨_, _, hqueue, -, rfl⟩ := hret
  exact queueAll_addsPending hqueue

/-! ## One change -/

/-- What a change that was not applied before does. -/
inductive Applied (py : Python) (deviceId : String) (snapshot : Bool) (change : Change)
    (db : ClientDb) : ApplyResult → ClientDb → Prop
  | stale (aliases : List EntityRow)
      (hclass : classify deviceId snapshot change db = .stale aliases) :
      Applied py deviceId snapshot change db .duplicate
        (rememberOperation change.operationId (removeLocalTranscriptAliases aliases db))
  | same (hclass : classify deviceId snapshot change db = .same) :
      Applied py deviceId snapshot change db .duplicate (rememberOperation change.operationId db)
  | conflict (hclass : classify deviceId snapshot change db = .conflict) :
      Applied py deviceId snapshot change db .conflict db
  | write (current : Option EntityRow) (aliases : List EntityRow) (repo : Repository)
      (hclass : classify deviceId snapshot change db = .write current aliases)
      (hrepo : Returns (applyEntity py change.entityType change.payload
        (if change.entityType = .transcriptSegment then current.map (·.payloadJson) else none))
        db.repo () repo) :
      Applied py deviceId snapshot change db .applied (rememberOperation change.operationId
          { removeLocalTranscriptAliases aliases { db with repo := repo } with
            entities := (removeLocalTranscriptAliases aliases
              { db with repo := repo }).entities.upsert (change.row current) })

theorem applyDecoded_returns
    (h : Returns (applyDecoded py deviceId snapshot change) db result db') :
    Applied py deviceId snapshot change db result db' := by
  simp only [applyDecoded, returns_get_bind] at h
  split at h
  · rename_i aliases hclass
    obtain ⟨_, _, rfl, rfl, rfl⟩ := h
    exact .stale aliases hclass
  · rename_i hclass
    obtain ⟨_, _, rfl, rfl, rfl⟩ := h
    exact .same hclass
  · rename_i hclass
    obtain ⟨rfl, rfl⟩ := returns_pure.1 h
    exact .conflict hclass
  rename_i current aliases hclass
  split at h
  · exact (returns_throw.1 h).elim
  rename_i hok
  obtain ⟨_, _, rfl, rfl, rfl⟩ := h
  exact .write current aliases _ hclass (Prod.ext hok rfl)

/-- Each of these ends comes about. -/
theorem Applied.returns (h : Applied py deviceId snapshot change db result db') :
    Returns (applyDecoded py deviceId snapshot change) db result db' := by
  simp only [applyDecoded, returns_get_bind]
  cases h with
  | stale aliases hclass | same hclass =>
    rw [hclass]
    exact returns_bind.2 ⟨(), _, returns_set.2 rfl, returns_pure.2 ⟨rfl, rfl⟩⟩
  | conflict hclass =>
    rw [hclass]
    exact returns_pure.2 ⟨rfl, rfl⟩
  | write current aliases repo hclass hrepo =>
    rw [hclass]
    dsimp only
    rw [hrepo]
    exact returns_bind.2 ⟨(), _, returns_set.2 rfl, returns_pure.2 ⟨rfl, rfl⟩⟩

/-- What a change of a batch does; every change draws a stand-in operation id first. -/
inductive ChangeApplied (py : Python) (deviceId : String) (snapshot : Bool) (index : Nat)
    (change : Dict) (db : ClientDb) : ApplyResult → ClientDb → Prop
  | malformed (hdecode : decodeHeader py change (standIn py index db.drawn) = .ok none) :
      ChangeApplied py deviceId snapshot index change db .conflict { db with drawn := db.drawn + 1 }
  | known (header : ChangeHeader)
      (hdecode : decodeHeader py change (standIn py index db.drawn) = .ok (some header))
      (hknown : header.operationId ∈ db.appliedOperations) :
      ChangeApplied py deviceId snapshot index change db .duplicate
        { db with drawn := db.drawn + 1 }
  | new (header : ChangeHeader) (revision : Int) (result : ApplyResult) (db' : ClientDb)
      (hdecode : decodeHeader py change (standIn py index db.drawn) = .ok (some header))
      (hnew : header.operationId ∉ db.appliedOperations)
      (hrevision : int py (change.read "revision") (header.baseRevision + 1) = .ok revision)
      (happlied : Applied py deviceId snapshot ⟨header, (max 1 revision).toNat⟩
        { db with drawn := db.drawn + 1 } result db') :
      ChangeApplied py deviceId snapshot index change db result db'

theorem applyChange_returns {change : Dict}
    (h : Returns (applyChange py deviceId snapshot index change) db result db') :
    ChangeApplied py deviceId snapshot index change db result db' := by
  simp only [applyChange, drawUuid, returns_bind, returns_get, returns_set, returns_pure,
    returns_fromExcept] at h
  obtain ⟨_, _, ⟨rfl, rfl⟩, _, _, ⟨_, _, ⟨rfl, rfl⟩, _, _, rfl, rfl, rfl⟩, decoded, _,
    ⟨hdecode, rfl⟩, h⟩ := h
  split at h
  · obtain ⟨rfl, rfl⟩ := returns_pure.1 h
    exact .malformed hdecode
  rename_i header
  simp only [returns_get_bind] at h
  split at h
  · rename_i hknown
    obtain ⟨rfl, rfl⟩ := returns_pure.1 h
    exact .known header hdecode hknown
  · rename_i hnew
    obtain ⟨revision, _, hread, h⟩ := returns_bind.1 h
    obtain ⟨hrevision, rfl⟩ := returns_fromExcept.1 hread
    exact .new header revision result db' hdecode hnew hrevision (applyDecoded_returns h)

/-! ## A batch of changes -/

theorem applyAll_nil :
    Returns (applyAll py deviceId snapshot index []) db results db' ↔ [] = results ∧ db = db' :=
  returns_pure

/-- A batch applies its first change, then the others. -/
theorem applyAll_cons {change : Dict} {rest : List Dict} :
    Returns (applyAll py deviceId snapshot index (change :: rest)) db results db' ↔
      ∃ result db₁ more, Returns (applyChange py deviceId snapshot index change) db result db₁ ∧
        Returns (applyAll py deviceId snapshot (index + 1) rest) db₁ more db' ∧
        result :: more = results := by
  simp only [applyAll, returns_bind, returns_pure]
  constructor
  · rintro ⟨result, db₁, hfirst, more, _, hrest, rfl, rfl⟩
    exact ⟨result, db₁, more, hfirst, hrest, rfl⟩
  · rintro ⟨result, db₁, more, hfirst, hrest, rfl⟩
    exact ⟨result, db₁, hfirst, more, _, hrest, rfl, rfl⟩

/-- What each change keeps, a batch keeps. -/
theorem applyAll_invariant (hstep : ∀ index change db result db',
      ChangeApplied py deviceId snapshot index change db result db' → P db → P db')
    (h : Returns (applyAll py deviceId snapshot index changes) db results db') (hdb : P db) :
    P db' := by
  induction changes generalizing index db results with
  | nil =>
    rw [← (applyAll_nil.1 h).2]
    exact hdb
  | cons change rest ih =>
    obtain ⟨result, db₁, more, hfirst, hrest, -⟩ := applyAll_cons.1 h
    exact ih hrest (hstep _ _ _ _ _ (applyChange_returns hfirst) hdb)

theorem applyChanges_eq_ok : applyChanges py deviceId snapshot changes db = (.ok results, db') ↔
      Returns (applyAll py deviceId snapshot 0 changes) db results db' :=
  atomically_commit_iff

theorem applyChanges_invariant (hstep : ∀ index change db result db',
      ChangeApplied py deviceId snapshot index change db result db' → P db → P db')
    (changes : List Dict) (hdb : P db) : P (applyChanges py deviceId snapshot changes db).2 := by
  unfold applyChanges
  rcases atomically_cases (do
    let results ← applyAll py deviceId snapshot 0 changes
    return Exit.commit results) db with h | ⟨results, db', hret, h⟩
  · rw [h]
    exact hdb
  rw [h]
  simp only [returns_bind, returns_pure] at hret
  obtain ⟨_, _, hall, -, rfl⟩ := hret
  exact applyAll_invariant hstep hall hdb

/-! ## What a change leaves alone -/

@[simp] theorem removeLocalTranscriptAliases_repo (aliases : List EntityRow) (db : ClientDb) :
    (removeLocalTranscriptAliases aliases db).repo = db.repo := by
  induction aliases generalizing db with
  | nil => rfl
  | cons found rest ih => exact ih _

/-- Removing aliases removes the transcripts with their names. -/
theorem mem_removeLocalTranscriptAliases {aliases : List EntityRow} {db : ClientDb}
    {row : EntityRow} : row ∈ (removeLocalTranscriptAliases aliases db).entities ↔
      row ∈ db.entities ∧ ∀ found ∈ aliases, ¬ (row.entityType = .transcriptSegment ∧
        row.entityId = found.entityId ∧ row.sourceDeviceId = found.sourceDeviceId) := by
  induction aliases generalizing db with
  | nil => exact ⟨fun h => ⟨h, fun _ hfound => absurd hfound not_mem_nil⟩, fun h => h.1⟩
  | cons found rest ih =>
    refine ih.trans ?_
    rw [forall_mem_cons, Entities.mem_delete, decide_eq_false_iff_not, and_assoc]

variable (operationId : String)

@[simp] theorem rememberOperation_repo (db : ClientDb) :
    (rememberOperation operationId db).repo = db.repo := by
  unfold rememberOperation
  split <;> rfl

@[simp] theorem rememberOperation_entities (db : ClientDb) :
    (rememberOperation operationId db).entities = db.entities := by
  unfold rememberOperation
  split <;> rfl

theorem mem_removeLocalTranscriptAliases_outbox {aliases : List EntityRow} {db : ClientDb}
    {row : OutboxRow} (h : row ∈ (removeLocalTranscriptAliases aliases db).outbox) :
    row ∈ db.outbox := by
  induction aliases generalizing db with
  | nil => exact h
  | cons found rest ih => exact (Table.mem_delete.1 (ih h)).1

@[simp] theorem rememberOperation_outbox (db : ClientDb) :
    (rememberOperation operationId db).outbox = db.outbox := by
  unfold rememberOperation
  split <;> rfl

/-- A change removes operations of the outbox, and adds none. -/
theorem Applied.mem_outbox (h : Applied py deviceId snapshot change db result db') {row : OutboxRow}
    (hrow : row ∈ db'.outbox) : row ∈ db.outbox := by
  cases h with
  | stale aliases =>
    rw [rememberOperation_outbox] at hrow
    exact mem_removeLocalTranscriptAliases_outbox hrow
  | same =>
    rwa [rememberOperation_outbox] at hrow
  | conflict => exact hrow
  | write current aliases repo =>
    rw [rememberOperation_outbox] at hrow
    exact @mem_removeLocalTranscriptAliases_outbox aliases { db with repo := repo } row hrow

theorem ChangeApplied.mem_outbox {change : Dict}
    (h : ChangeApplied py deviceId snapshot index change db result db') {row : OutboxRow}
    (hrow : row ∈ db'.outbox) : row ∈ db.outbox := by
  cases h with
  | malformed | known => exact hrow
  | new _ _ _ _ _ _ _ happlied => exact happlied.mem_outbox hrow

end Desktop
