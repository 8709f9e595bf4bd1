import EchoDesk.Desktop.PushResults
import EchoDesk.Desktop.Reconcile

/-! # Which rows a quiet reconcile vouches for

A reconcile that queues nothing has found the rows it looked at represented. It
looks at the first rows of each table only, the same ones each time, so it says
nothing of a row behind them unless one of them has its content.
-/

namespace Desktop

open EchoDesk Transaction Transition Hub LastWrite List

/-! ## Equal content -/

/-- A payload and its dump are compared alike. -/
theorem dump_comparisonPayload (entityType : SyncEntityType) (payload : Dict) :
    (comparisonPayload entityType payload.dump).dump =
      (comparisonPayload entityType payload).dump := by
  cases entityType with
  | transcriptSegment =>
    have hfilter := Dict.dump_filter (fun key => decide (key ∈ stableKeys)) payload
    exact (congrArg Dict.dump hfilter).trans (Dict.dump_dump _)
  | meetingSummary | memory => exact Dict.dump_dump payload

variable {db db' : ClientDb} {py : Python} {deviceId : String} {limit : Nat}
variable {entity : LocalEntity} {entities : List LocalEntity}
variable {now : Timestamp} {repo : Repository}

theorem hasEquivalent_iff {entityType : SyncEntityType} {payload : Dict} :
    hasEquivalent db entityType payload = true ↔ ∃ row ∈ db.entities,
      row.entityType = entityType ∧ (comparisonPayload entityType row.payloadJson).dump =
        (comparisonPayload entityType payload).dump := by
  rw [hasEquivalent, any_eq_true]
  refine exists_congr fun row => and_congr_right fun _ => ?_
  rw [decide_eq_true_iff]
  refine and_congr_right fun _ => ⟨fun h => ?_, .inr⟩
  rcases h with hsame | hequal
  · rw [hsame, dump_comparisonPayload]
  · exact hequal

/-! ## A reconcile that queues nothing -/

theorem queueAll_zero : Returns (queueAll py deviceId now entities) db 0 db' ↔
      db' = db ∧ ∀ entity ∈ entities, Represented deviceId db entity := by
  induction entities with
  | nil =>
    rw [queueAll, returns_pure]
    constructor
    · rintro ⟨-, rfl⟩
      exact ⟨rfl, fun _ h => absurd h not_mem_nil⟩
    · rintro ⟨rfl, -⟩
      exact ⟨rfl, rfl⟩
  | cons entity rest ih =>
    simp only [queueAll, returns_bind, returns_pure]
    constructor
    · rintro ⟨queued, db₁, hfirst, more, _, hrest, hsum, rfl⟩
      obtain ⟨rfl, rfl⟩ : queued = 0 ∧ more = 0 := by omega
      rcases queueLocalEntity_returns hfirst with ⟨-, rfl, hrepresented⟩ | ⟨hone, -, -⟩
      · obtain ⟨rfl, hall⟩ := ih.1 hrest
        exact ⟨rfl, forall_mem_cons.2 ⟨hrepresented, hall⟩⟩
      · cases hone
    rintro ⟨rfl, hall⟩
    obtain ⟨hrepresented, hall⟩ := forall_mem_cons.1 hall
    refine ⟨0, _, ?_, 0, _, ih.2 ⟨rfl, hall⟩, rfl, rfl⟩
    simp only [queueLocalEntity, returns_get_bind]
    cases hfound : db'.entities.get? entity.entityType (deviceId ++ ":" ++ entity.rawEntityId) with
    | some current =>
      simp only [Represented, hfound] at hrepresented ⊢
      exact returns_ite.2 (.inl ⟨hrepresented, returns_pure.2 ⟨rfl, rfl⟩⟩)
    | none =>
      simp only [Represented, hfound] at hrepresented ⊢
      exact returns_ite.2 (.inl ⟨hrepresented, returns_pure.2 ⟨rfl, rfl⟩⟩)

/-- A reconcile queues nothing exactly when the rows it looks at are represented. -/
theorem reconcile_zero : reconcileLocalChanges py deviceId now limit db = (.ok 0, db') ↔
      db' = db ∧ ∀ entity ∈ scanned db.repo (clampLimit limit), Represented deviceId db entity :=
  reconcile_eq_ok.trans queueAll_zero

/-! ## The rows behind the limit -/

/-- The entity table has the row, by its own entry or by an entity of equal content. -/
def InSyncTable (deviceId : String) (db : ClientDb) (entity : LocalEntity) : Prop :=
  (∃ row ∈ db.entities, row.key = (entity.entityType, deviceId ++ ":" ++ entity.rawEntityId) ∧
      row.payloadJson = entity.payload.dump) ∨
    hasEquivalent db entity.entityType entity.payload = true

/-- The two rows have the same content. -/
def LocalEntity.Same (a b : LocalEntity) : Prop :=
  a.entityType = b.entityType ∧ (comparisonPayload a.entityType a.payload).dump =
    (comparisonPayload a.entityType b.payload).dump

instance (a b : LocalEntity) : Decidable (a.Same b) :=
  inferInstanceAs (Decidable (_ ∧ _))

/-- Every row has the content of one that a reconcile looks at. -/
def Covered (repo : Repository) (limit : Nat) : Prop :=
  ∀ entity ∈ localEntities repo, ∃ first ∈ scanned repo (clampLimit limit), entity.Same first

instance (repo : Repository) (limit : Nat) : Decidable (Covered repo limit) :=
  inferInstanceAs (Decidable (∀ _ ∈ _, ∃ _ ∈ _, _))

theorem hasEquivalent_of_represented (h : Represented deviceId db entity) :
    hasEquivalent db entity.entityType entity.payload = true := by
  unfold Represented at h
  split at h
  · rename_i row hfound
    obtain ⟨hmem, hkey⟩ := Entities.get?_eq_some.1 hfound
    refine hasEquivalent_iff.2 ⟨row, hmem, congrArg Prod.fst hkey, ?_⟩
    rw [h, dump_comparisonPayload]
  · exact h

theorem inSyncTable_of_covered (hcovered : Covered db.repo limit)
    (hquiet : reconcileLocalChanges py deviceId now limit db = (.ok 0, db'))
    (hentity : entity ∈ localEntities db.repo) : InSyncTable deviceId db' entity := by
  obtain ⟨rfl, hall⟩ := reconcile_zero.1 hquiet
  obtain ⟨first, hfirst, htype, hsame⟩ := hcovered entity hentity
  obtain ⟨row, hmem, hrow, hequal⟩ :=
    hasEquivalent_iff.1 (hasEquivalent_of_represented (hall first hfirst))
  rw [← htype] at hrow hequal
  exact .inr (hasEquivalent_iff.2 ⟨row, hmem, hrow, hequal.trans hsame.symm⟩)

/-! ## An entity table of the first rows -/

/-- The entry a reconcile makes for a row. -/
def LocalEntity.own (deviceId : String) (entity : LocalEntity) : EntityRow where
  entityType := entity.entityType
  entityId := deviceId ++ ":" ++ entity.rawEntityId
  revision := 1
  updatedAt := entity.updatedAt
  payloadJson := entity.payload.dump
  sourceDeviceId := deviceId
  operationId := none

/-- The entity table with the entries of these rows. -/
def ownEntities (deviceId : String) : List LocalEntity → Entities
  | [] => .empty
  | entity :: rest => (ownEntities deviceId rest).upsert (entity.own deviceId)

theorem mem_ownEntities {row : EntityRow} (h : row ∈ ownEntities deviceId entities) :
    ∃ entity ∈ entities, row = entity.own deviceId := by
  induction entities with
  | nil => exact absurd h not_mem_nil
  | cons entity rest ih =>
    rcases Entities.mem_upsert.1 h with rfl | ⟨h, -⟩
    · exact ⟨entity, mem_cons_self, rfl⟩
    · obtain ⟨found, hmem, hrow⟩ := ih h
      exact ⟨found, mem_cons_of_mem _ hmem, hrow⟩

theorem LocalEntity.own_key {deviceId : String} {a b : LocalEntity}
    (h : (a.own deviceId).key = (b.own deviceId).key) :
    a.entityType = b.entityType ∧ a.rawEntityId = b.rawEntityId := by
  obtain ⟨htype, hid⟩ := Prod.mk.inj h
  exact ⟨htype, (String.append_right_inj _).1 hid⟩

theorem own_mem_ownEntities (hlocal : ∀ entity ∈ entities, entity ∈ localEntities repo)
    (h : entity ∈ entities) : entity.own deviceId ∈ ownEntities deviceId entities := by
  induction entities with
  | nil => exact absurd h not_mem_nil
  | cons head rest ih =>
    obtain ⟨hhead, hrest⟩ := forall_mem_cons.1 hlocal
    refine Entities.mem_upsert.2 ?_
    rcases mem_cons.1 h with rfl | h
    · exact .inl rfl
    by_cases hkey : (entity.own deviceId).key = (head.own deviceId).key
    · obtain ⟨htype, hid⟩ := LocalEntity.own_key hkey
      rw [localEntities_unique (hrest entity h) hhead htype hid]
      exact .inl rfl
    · exact .inr ⟨ih hrest h, hkey⟩

/-- The sync state in which exactly the first rows are represented. -/
def firstRowsKnown (deviceId : String) (repo : Repository) (limit : Nat) : ClientDb where
  repo := repo
  outbox := Table.empty
  entities := ownEntities deviceId (scanned repo (clampLimit limit))
  appliedOperations := []
  drawn := 0

theorem firstRowsKnown_quiet (py : Python) (deviceId : String) (now : Timestamp)
    (repo : Repository) (limit : Nat) :
    reconcileLocalChanges py deviceId now limit (firstRowsKnown deviceId repo limit) =
      (.ok 0, firstRowsKnown deviceId repo limit) := by
  refine reconcile_zero.2 ⟨rfl, fun entity hentity => ?_⟩
  have hown : (firstRowsKnown deviceId repo limit).entities.get? entity.entityType
      (deviceId ++ ":" ++ entity.rawEntityId) = some (entity.own deviceId) :=
    Entities.get?_eq_some.2 ⟨own_mem_ownEntities (fun _ => mem_scanned) hentity, rfl⟩
  unfold Represented
  rw [hown]
  rfl

theorem same_of_firstRowsKnown (hentity : entity ∈ localEntities repo)
    (h : InSyncTable deviceId (firstRowsKnown deviceId repo limit) entity) :
    ∃ first ∈ scanned repo (clampLimit limit), entity.Same first := by
  rcases h with ⟨row, hmem, hkey, -⟩ | hequivalent
  · obtain ⟨first, hfirst, rfl⟩ := mem_ownEntities hmem
    obtain ⟨htype, hid⟩ := @LocalEntity.own_key deviceId first entity hkey
    have hsame := localEntities_unique (mem_scanned hfirst) hentity htype hid
    exact ⟨first, hfirst, hsame ▸ ⟨rfl, rfl⟩⟩
  · obtain ⟨row, hmem, hrow, hequal⟩ := hasEquivalent_iff.1 hequivalent
    obtain ⟨first, hfirst, rfl⟩ := mem_ownEntities hmem
    refine ⟨first, hfirst, hrow.symm, hequal.symm.trans ?_⟩
    exact dump_comparisonPayload entity.entityType first.payload

/-! ## Runs of a desktop -/

/-- What happens at a desktop: its application writes the business tables, or the
sync runtime does its next step. -/
inductive DesktopLabel where
  | write (repo : Repository)
  | sync (l : PushLabel)

variable {δ : Type}

def desktopStep (c : PushSetting δ) (s : PushState δ) : DesktopLabel → PushState δ
  | .write repo => { s with desktop := { s.desktop with repo := repo } }
  | .sync l => pushCallStep c s l

/-- After any run, a reconcile that queues nothing leaves every row of the business
tables represented exactly when each has the content of one of the first rows. -/
theorem reconcile_complete_iff (c : PushSetting δ) (tables : δ) (now : Timestamp) (limit : Nat)
    (repo : Repository) :
    (∀ desktop trace db', (run (desktopStep c) (.start tables desktop) trace).desktop.repo = repo →
      reconcileLocalChanges c.py c.deviceId now limit
        (run (desktopStep c) (.start tables desktop) trace).desktop = (.ok 0, db') →
      ∀ entity ∈ localEntities repo, InSyncTable c.deviceId db' entity) ↔ Covered repo limit := by
  constructor
  · intro h entity hentity
    have hquiet := firstRowsKnown_quiet c.py c.deviceId now repo limit
    exact same_of_firstRowsKnown hentity
      (h (firstRowsKnown c.deviceId repo limit) [] _ rfl hquiet entity hentity)
  · rintro hcovered desktop trace db' rfl hquiet entity hentity
    exact inSyncTable_of_covered hcovered hquiet hentity

/-- Two meetings without minutes, of which a reconcile with the limit 1 looks at the
first. -/
def twoMeetings : Repository :=
  ⟨⟨[failedMeeting, { failedMeeting with id := "n" }], by decide⟩, .empty, Table.empty⟩

/-- The sync store was empty, one reconcile queued the meeting `m`, and the next one
queues nothing. -/
theorem not_complete_twoMeetings :
    ∃ db', reconcileLocalChanges .ascii "desk" 0 1 (run (desktopStep deskSetting)
        (.start .empty { ClientDb.fresh 0 with repo := twoMeetings })
        [.sync (.reconcile 0 1)]).desktop = (.ok 0, db') ∧
      ∃ entity ∈ localEntities twoMeetings, ¬ InSyncTable "desk" db' entity := by
  refine ⟨_, Prod.ext (by decide +kernel) rfl, .ofMeeting { failedMeeting with id := "n" }, ?_, ?_⟩
  · exact List.mem_append_left _ (List.mem_append_right _
      (List.mem_map_of_mem (mem_localSummaries.2 ⟨List.mem_cons_of_mem _ List.mem_cons_self, by
        decide⟩)))
  rintro (⟨row, hmem, hkey, -⟩ | hequivalent)
  · have hrows : ∀ row ∈ (reconcileLocalChanges .ascii "desk" 0 1 (run (desktopStep deskSetting)
        (.start .empty { ClientDb.fresh 0 with repo := twoMeetings })
        [.sync (.reconcile 0 1)]).desktop).2.entities.rows,
        row.key ≠ (.meetingSummary, "desk:n") := by decide +kernel
    exact hrows row hmem hkey
  · revert hequivalent
    decide +kernel

end Desktop
