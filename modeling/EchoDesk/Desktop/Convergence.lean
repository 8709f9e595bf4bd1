import EchoDesk.Desktop.PushResults
import EchoDesk.Desktop.Received
import EchoDesk.Hub.Cursor

/-! # A desktop that follows the change feed

The desktop asks for a page of changes, applies it and goes on from the cursor
that came with it, whatever became of the changes. It holds the fold of the events
up to its cursor as long as every change of a page lands: it is then written with
its own revision, or is the version the desktop has.
-/

namespace Desktop

open EchoDesk Transaction Transition OrderedLog LastWrite Hub List Option

variable {δ : Type}
variable {record : SyncChangeRecord}
variable {page : List SyncEvent} {event : SyncEvent} {row : EntityRow} {limit : Nat}

/-! ## The hub and a desktop -/

structure FollowState (δ : Type) where
  hub : HubDb δ
  desktop : ClientDb
  cursor : Nat
  /-- The rows `list_changes` has read, before its cursor is known. -/
  page : Option (List SyncEvent)

inductive FollowLabel where
  | push (principal : Principal) (request : PushRequest)
  /-- The first `SELECT` of `list_changes`. -/
  | changes (limit : Nat)
  /-- The rest of `list_changes`, and what the sync cycle does with its answer. -/
  | apply (now : Timestamp)

/-- A hub without sync history, and a desktop that has asked for nothing. -/
def FollowState.start (tables : δ) (desktop : ClientDb) : FollowState δ :=
  ⟨.fresh tables, desktop, 0, none⟩

def followStep (c : PushSetting δ) (s : FollowState δ) : FollowLabel → FollowState δ
  | .push principal request => { s with hub := (push c.adapter principal request s.hub).2 }
  | .changes limit =>
    { s with
      page := some
        (window (fun event => event.cursor) s.cursor limit (s.hub.eventsOf c.principal.scope)) }
  | .apply now =>
    match s.page with
    | none => s
    | some page =>
      let returned :=
        lastPos (fun event => event.cursor) (s.hub.latestCursor c.principal.scope) page
      let hub := s.hub.advanceDeviceCursor c.principal returned now
      let changes := page.map fun event => changeResponse c.py event.toSyncChangeRecord
      match applyChanges c.py c.deviceId false changes s.desktop with
      | (.ok _, desktop) => ⟨hub, desktop, returned, none⟩
      -- the next cycle asks for the same changes
      | (.error _, desktop) => ⟨hub, desktop, s.cursor, none⟩

/-! ## When a change lands -/

/-- The payload the row of a written transcript is found by. -/
def previousOf (deviceId : String) (record : SyncChangeRecord) (db : ClientDb) : Option Dict :=
  if record.entityType = .transcriptSegment then
    ((findLocalTranscriptAliases deviceId db record.payload record.entityId).head?).map
      (·.payloadJson)
  else none

/-- The change is written with its own revision. -/
structure Fresh (py : Python) (deviceId : String) (index : Nat) (record : SyncChangeRecord)
    (db : ClientDb) : Prop where
  operation : read 512 (standIn py index db.drawn) ∉ db.appliedOperations
  /-- The desktop has no version of the entity from the device. -/
  unknown : ∀ row ∈ db.entities.rows, row.key = record.key →
    row.sourceDeviceId ≠ read 512 record.sourceDeviceId
  /-- The revision of a summary or of a memory is its first. -/
  revision : record.entityType = .transcriptSegment ∨ record.revision = 1
  /-- Its fields can be read, and its row can be written. -/
  written : ((applyEntity py record.entityType record.payload
    (previousOf deviceId record db)).run.run db.repo).1 = .ok ()

/-- The entity table has the change under the name of its entity. -/
structure EntityRow.Holds (row : EntityRow) (deviceId : String) (record : SyncChangeRecord) :
    Prop where
  key : row.key = record.key
  revision : row.revision = record.revision
  payloadJson : row.payloadJson = record.payload.dump
  source : row.sourceDeviceId ∉ localSources deviceId

/-- The change is written, or is the version that the desktop has. -/
structure Lands (py : Python) (deviceId : String) (index : Nat) (record : SyncChangeRecord)
    (db : ClientDb) : Prop where
  source : Written record.sourceDeviceId
  /-- It comes from another device. -/
  foreign : read 512 record.sourceDeviceId ∉ localSources deviceId
  entityId : Fits 512 record.entityId
  fresh : Fresh py deviceId index record db ∨
    ∃ row ∈ db.entities.rows, row.sourceDeviceId = read 512 record.sourceDeviceId ∧
      row.Holds deviceId record

instance (py : Python) (deviceId : String) (index : Nat) (record : SyncChangeRecord)
    (db : ClientDb) : Decidable (Fresh py deviceId index record db) :=
  decidable_of_iff (_ ∧ _ ∧ _ ∧ _) ⟨fun h => ⟨h.1, h.2.1, h.2.2.1, h.2.2.2⟩,
    fun h => ⟨h.1, h.2, h.3, h.4⟩⟩

instance (row : EntityRow) (deviceId : String) (record : SyncChangeRecord) :
    Decidable (row.Holds deviceId record) :=
  decidable_of_iff (_ ∧ _ ∧ _ ∧ _) ⟨fun h => ⟨h.1, h.2.1, h.2.2.1, h.2.2.2⟩,
    fun h => ⟨h.1, h.2, h.3, h.4⟩⟩

instance (py : Python) (deviceId : String) (index : Nat) (record : SyncChangeRecord)
    (db : ClientDb) : Decidable (Lands py deviceId index record db) :=
  decidable_of_iff (_ ∧ _ ∧ _ ∧ _) ⟨fun h => ⟨h.1, h.2.1, h.2.2.1, h.2.2.2⟩,
    fun h => ⟨h.1, h.2, h.3, h.4⟩⟩

/-! ## What a change that lands leaves -/

theorem Fits.written {s : String} (h : Fits limit s) : Written s := by
  rw [written_iff, show strip s = s from h.stripped]
  exact h.ne

variable {deviceId : String} {db : ClientDb} {py : Python} {index : Nat} {s : FollowState δ}
variable {c : PushSetting δ}

/-- Removing the aliases of a transcript removes no entity of another device. -/
theorem mem_remove_of_foreign {aliases : List EntityRow}
    (hlocal : ∀ found ∈ aliases, found.sourceDeviceId ∈ localSources deviceId)
    (hrow : row ∈ db.entities) (hforeign : row.sourceDeviceId ∉ localSources deviceId) :
    row ∈ (removeLocalTranscriptAliases aliases db).entities :=
  mem_removeLocalTranscriptAliases.2 ⟨hrow, fun found hfound hsame =>
    hforeign (hsame.2.2 ▸ hlocal found hfound)⟩

theorem aliases_local {payload : Dict} {entityId : String} {found : EntityRow}
    (h : found ∈ findLocalTranscriptAliases deviceId db payload entityId) :
    found.sourceDeviceId ∈ localSources deviceId :=
  (of_decide_eq_true (mem_filter.1 h).2).2.2.1

theorem mem_ite_nil {α : Type} {p : Prop} [Decidable p] {l : List α} {a : α}
    (h : a ∈ if p then l else []) : a ∈ l := by
  split at h
  · exact h
  · exact absurd h not_mem_nil

/-- What a change of another device leaves of the entities of other devices. -/
def KeepsOthers (deviceId : String) (record : SyncChangeRecord) (db db' : ClientDb) : Prop :=
  ∀ row ∈ db.entities, row.sourceDeviceId ∉ localSources deviceId → row.key ≠ record.key →
    row ∈ db'.entities

theorem classify_unknown (hentity : Fits 512 record.entityId)
    (h : Fresh py deviceId index record db) :
    classify deviceId false (received py record (standIn py index db.drawn)) db =
      .write (if record.entityType = .transcriptSegment then
          findLocalTranscriptAliases deviceId db record.payload record.entityId else []).head?
        (if record.entityType = .transcriptSegment then
          findLocalTranscriptAliases deviceId db record.payload record.entityId else []) := by
  have hcanonical : ((db.entities.get? record.entityType record.entityId).filter
      fun row => row.sourceDeviceId = read 512 record.sourceDeviceId) = none := by
    rw [filter_eq_none_iff]
    intro row hfound
    obtain ⟨hmem, hkey⟩ := Entities.get?_eq_some.1 hfound
    rw [decide_eq_true_iff]
    exact h.unknown row hmem hkey
  unfold classify received
  rw [read_of_fits hentity, hcanonical]

/-- The entry of a written change has its revision, when that is the first or the one
of a transcript. -/
theorem holds_row {fallback : String} (hrevision : 1 ≤ record.revision)
    (hforeign : read 512 record.sourceDeviceId ∉ localSources deviceId)
    (hentity : Fits 512 record.entityId) {current : Option EntityRow}
    (hfirst : record.entityType = .transcriptSegment ∨ record.revision = 1 ∧ current = none) :
    ((received py record fallback).row current).Holds deviceId record := by
  refine ⟨Prod.ext rfl (read_of_fits hentity), ?_, rfl, hforeign⟩
  unfold Change.row received
  dsimp only
  rcases hfirst with htype | ⟨hone, rfl⟩
  · rw [if_pos htype]
    omega
  · rw [hone]
    split <;> rfl

theorem fresh_applied (hrevision : 1 ≤ record.revision) (hsource : Written record.sourceDeviceId)
    (hforeign : read 512 record.sourceDeviceId ∉ localSources deviceId)
    (hentity : Fits 512 record.entityId) (h : Fresh py deviceId index record db) :
    ∃ db', Returns (applyChange py deviceId false index (changeResponse py record)) db .applied
        db' ∧ (∃ row ∈ db'.entities, row.Holds deviceId record) ∧
      KeepsOthers deviceId record db db' := by
  obtain ⟨repo, hrepo⟩ : ∃ repo, Returns (applyEntity py record.entityType record.payload
      (previousOf deviceId record db)) db.repo () repo := ⟨_, Prod.ext h.written rfl⟩
  have hclass := classify_unknown hentity h
  have hfirst : record.entityType = .transcriptSegment ∨ record.revision = 1 ∧
      (if record.entityType = .transcriptSegment then
        findLocalTranscriptAliases deviceId db record.payload record.entityId else []).head? =
          none := by
    by_cases htype : record.entityType = .transcriptSegment
    · exact .inl htype
    · exact .inr ⟨h.revision.resolve_left htype, by rw [if_neg htype]; rfl⟩
  have hlocal : ∀ found ∈ if record.entityType = .transcriptSegment then
      findLocalTranscriptAliases deviceId db record.payload record.entityId else [],
      found.sourceDeviceId ∈ localSources deviceId := fun found hfound =>
    aliases_local (mem_ite_nil hfound)
  have hprevious : previousOf deviceId record db = if record.entityType = .transcriptSegment then
        (if record.entityType = .transcriptSegment then
          findLocalTranscriptAliases deviceId db record.payload record.entityId
          else []).head?.map (·.payloadJson) else none := by
    unfold previousOf
    split <;> rfl
  rw [hprevious] at hrepo
  generalize (if record.entityType = .transcriptSegment then
    findLocalTranscriptAliases deviceId db record.payload record.entityId else []) = aliases at *
  have hchange := applyChange_write hentity.written hsource h.operation hclass hrepo
  have hholds : ((received py record (standIn py index db.drawn)).row aliases.head?).Holds
    deviceId record := holds_row hrevision hforeign hentity hfirst
  refine ⟨_, hchange, ⟨_, ?_, hholds⟩, fun row hrow hrowForeign hkey => ?_⟩
  · rw [rememberOperation_entities]
    exact Entities.mem_upsert.2 (.inl rfl)
  · rw [rememberOperation_entities]
    exact Entities.mem_upsert.2 (.inr ⟨mem_remove_of_foreign hlocal hrow hrowForeign, fun hsame =>
        hkey (hsame.trans hholds.key)⟩)

/-- A version that the desktop has is stale, or the same. -/
theorem classify_known {py : Python} {deviceId fallback : String} {record : SyncChangeRecord}
    {db : ClientDb} (hentity : Fits 512 record.entityId) {row : EntityRow}
    (hrow : row ∈ db.entities) (hsame : row.sourceDeviceId = read 512 record.sourceDeviceId)
    (hholds : row.Holds deviceId record) :
    (∃ aliases, classify deviceId false (received py record fallback) db = .stale aliases ∧
        ∀ found ∈ aliases, found.sourceDeviceId ∈ localSources deviceId) ∨
      classify deviceId false (received py record fallback) db = .same := by
  have hcanonical : (db.entities.get? record.entityType record.entityId).filter
      (fun row => row.sourceDeviceId = read 512 record.sourceDeviceId) = some row :=
    filter_eq_some_iff.2 ⟨Entities.get?_eq_some.2 ⟨hrow, hholds.key⟩, decide_eq_true hsame⟩
  unfold classify received
  rw [read_of_fits hentity, hcanonical]
  dsimp only
  split
  · refine .inl ⟨_, rfl, fun found hfound => ?_⟩
    exact aliases_local (mem_ite_nil hfound)
  · rw [if_pos hholds.payloadJson]
    exact .inr rfl

/-- A change that the desktop has leaves the entities of other devices alone. -/
theorem known_applied (hsource : Written record.sourceDeviceId) (hentity : Fits 512 record.entityId)
    (hrow : row ∈ db.entities) (hsame : row.sourceDeviceId = read 512 record.sourceDeviceId)
    (hholds : row.Holds deviceId record) :
    ∃ db', Returns (applyChange py deviceId false index (changeResponse py record)) db .duplicate
        db' ∧ ∀ other ∈ db.entities, other.sourceDeviceId ∉ localSources deviceId →
      other ∈ db'.entities := by
  simp only [applyChange_received hentity.written hsource]
  by_cases hknown : read 512 (standIn py index db.drawn) ∈ db.appliedOperations
  · simp only [if_pos hknown]
    exact ⟨_, ⟨trivial, rfl⟩, fun other hother _ => hother⟩
  simp only [if_neg hknown]
  have hrow' : row ∈ ({ db with drawn := db.drawn + 1 } : ClientDb).entities := hrow
  rcases @classify_known py deviceId (standIn py index db.drawn) record _ hentity row hrow' hsame
    hholds with ⟨aliases, hclass, hlocal⟩ | hclass
  · refine ⟨_, (Applied.stale aliases hclass).returns, fun other hother hforeign => ?_⟩
    rw [rememberOperation_entities]
    exact mem_remove_of_foreign hlocal hother hforeign
  · refine ⟨_, (Applied.same hclass).returns, fun other hother _ => ?_⟩
    rw [rememberOperation_entities]
    exact hother

theorem lands_applied (hrevision : 1 ≤ record.revision) (h : Lands py deviceId index record db) :
    ∃ result db', Returns (applyChange py deviceId false index (changeResponse py record)) db
        result db' ∧ (∃ row ∈ db'.entities, row.Holds deviceId record) ∧
      KeepsOthers deviceId record db db' := by
  rcases h.fresh with hfresh | ⟨row, hrow, hsame, hholds⟩
  · exact ⟨_, fresh_applied hrevision h.source h.foreign h.entityId hfresh⟩
  obtain ⟨db', happly, hkeeps⟩ := known_applied h.source h.entityId hrow hsame hholds
  exact ⟨_, db', happly, ⟨row, hkeeps row hrow hholds.source, hholds⟩,
    fun other hother hforeign _ => hkeeps other hother hforeign⟩

/-! ## A page of changes -/

/-- Every change of the page lands, after those before it. -/
def PageLands (py : Python) (deviceId : String) : Nat → ClientDb → List SyncEvent → Prop
  | _, _, [] => True
  | index, db, event :: rest =>
    Lands py deviceId index event.toSyncChangeRecord db ∧ PageLands py deviceId (index + 1)
        ((applyChange py deviceId false index
          (changeResponse py event.toSyncChangeRecord)).run.run db).2 rest

instance decidablePageLands (py : Python) (deviceId : String) : (index : Nat) → (db : ClientDb) →
    (page : List SyncEvent) → Decidable (PageLands py deviceId index db page)
  | _, _, [] => inferInstanceAs (Decidable True)
  | index, db, event :: rest =>
    have := decidablePageLands py deviceId (index + 1) ((applyChange py deviceId false index
        (changeResponse py event.toSyncChangeRecord)).run.run db).2 rest
    inferInstanceAs (Decidable (_ ∧ _))

/-- The entity table has the last event of every entity of the log. -/
def HoldsLog (deviceId : String) (db : ClientDb) (log : List SyncEvent) : Prop :=
  ∀ k event, lastOf SyncEvent.key log k = some event →
    ∃ row ∈ db.entities, row.Holds deviceId event.toSyncChangeRecord

theorem HoldsLog.concat {db' : ClientDb} {log : List SyncEvent} (h : HoldsLog deviceId db log)
    (hevent : ∃ row ∈ db'.entities, row.Holds deviceId event.toSyncChangeRecord)
    (hkeeps : KeepsOthers deviceId event.toSyncChangeRecord db db') :
    HoldsLog deviceId db' (log ++ [event]) := by
  intro k last hlast
  rw [lastOf_concat] at hlast
  split at hlast
  · cases hlast
    exact hevent
  rename_i hkey
  obtain ⟨row, hrow, hholds⟩ := h k last hlast
  refine ⟨row, hkeeps row hrow hholds.source fun hsame => hkey ?_, hholds⟩
  have hlastKey : last.key = k := (lastOf_mem hlast).2
  rw [← hlastKey]
  exact (hholds.key.symm.trans hsame).symm

/-- A page whose changes land is applied, and the desktop holds the log up to its end. -/
theorem page_applied {log : List SyncEvent} (hrevision : ∀ event ∈ page, 1 ≤ event.revision)
    (hlands : PageLands py deviceId index db page) (hlog : HoldsLog deviceId db log) :
    ∃ results db', Returns (applyAll py deviceId false index
        (page.map fun event => changeResponse py event.toSyncChangeRecord)) db results db' ∧
      HoldsLog deviceId db' (log ++ page) := by
  induction page generalizing index db log with
  | nil => exact ⟨[], db, applyAll_nil.2 ⟨rfl, rfl⟩, by rwa [append_nil]⟩
  | cons event rest ih =>
    obtain ⟨hevent, hrest⟩ := forall_mem_cons.1 hrevision
    obtain ⟨hfirst, hpage⟩ := hlands
    obtain ⟨result, db₁, happly, hholds, hkeeps⟩ := lands_applied hevent hfirst
    rw [show (applyChange py deviceId false index
      (changeResponse py event.toSyncChangeRecord)).run.run db = (.ok result, db₁) from happly]
      at hpage
    obtain ⟨results, db', hall, hlog'⟩ := ih hrest hpage (hlog.concat hholds hkeeps)
    rw [append_assoc] at hlog'
    exact ⟨_, db', applyAll_cons.2 ⟨result, db₁, results, happly, hall, rfl⟩, hlog'⟩

/-! ## Runs -/

/-- The events of the scope. -/
def FollowState.log (c : PushSetting δ) (s : FollowState δ) : List SyncEvent :=
  s.hub.eventsOf c.principal.scope

/-- The changes of a page land, and no event came between the two reads of an empty
one. -/
def Follows (c : PushSetting δ) (s : FollowState δ) : FollowLabel → Prop
  | .apply _ => ∀ page ∈ s.page, PageLands c.py c.deviceId 0 s.desktop page ∧
      (page = [] → s.hub.latestCursor c.principal.scope ≤ s.cursor)
  | _ => True

instance (c : PushSetting δ) (s : FollowState δ) (l : FollowLabel) : Decidable (Follows c s l) :=
  match l with
  | .apply _ => inferInstanceAs (Decidable (∀ _ ∈ _, _ ∧ (_ → _)))
  | .push .. | .changes _ => inferInstanceAs (Decidable True)

structure FollowInv (c : PushSetting δ) (s : FollowState δ) : Prop where
  sound : EventsSound s.hub
  cursor : s.cursor ≤ (s.log c).length
  log : HoldsLog c.deviceId s.desktop ((s.log c).take s.cursor)
  page : ∀ page ∈ s.page, page <+: (s.log c).drop s.cursor

theorem latestCursor_eq (h : EventsSound s.hub) :
    s.hub.latestCursor c.principal.scope = (s.log c).length :=
  (h.dense c.principal.scope).maxPos_eq

theorem revision_pos (h : EventsSound s.hub) (hevent : event ∈ s.log c) : 1 ≤ event.revision := by
  obtain ⟨operation, -, -, hrevision⟩ := h.produced event (HubDb.mem_eventsOf.1 hevent).1
  omega

/-- A page whose changes land takes the desktop to the end of the page. -/
theorem apply_follows (hinv : FollowInv c s) (hpage : s.page = some page) (now : Timestamp)
    (hcond : Follows c s (.apply now)) :
    ∃ desktop, followStep c s (.apply now) =
        ⟨s.hub.advanceDeviceCursor c.principal (s.cursor + page.length) now, desktop,
          s.cursor + page.length, none⟩ ∧
      HoldsLog c.deviceId desktop ((s.log c).take (s.cursor + page.length)) := by
  have hinit := hinv.page page hpage
  obtain ⟨hlands, hempty⟩ := hcond page hpage
  have hmem : ∀ event ∈ page, event ∈ s.log c := fun event hevent =>
    mem_of_mem_drop (hinit.subset hevent)
  obtain ⟨results, desktop, hall, hlog⟩ := page_applied
    (fun event hevent => revision_pos hinv.sound (hmem event hevent)) hlands hinv.log
  have hreturned : lastPos (fun event => event.cursor) (s.hub.latestCursor c.principal.scope) page =
      s.cursor + page.length := by
    by_cases hnil : page = []
    · have hlatest := hempty hnil
      rw [latestCursor_eq hinv.sound] at hlatest
      rw [hnil, latestCursor_eq hinv.sound]
      exact Nat.le_antisymm hlatest hinv.cursor
    · exact (hinv.sound.dense _).lastPos_of_isPrefix hinit hnil _
  refine ⟨desktop, ?_, ?_⟩
  · unfold followStep
    rw [hpage]
    dsimp only
    rw [applyChanges_eq_ok.2 hall, hreturned]
  · rw [take_add, ← prefix_iff_eq_take.1 hinit]
    exact hlog

theorem log_push (c : PushSetting δ) (s : FollowState δ) (principal : Principal)
    (request : PushRequest) : ∃ more,
    (followStep c s (.push principal request)).log c = s.log c ++ more := by
  rcases Hub.Cursor.push_eventsOf c.adapter principal request s.hub c.principal.scope with
    heq | ⟨event, -, heq⟩
  · exact ⟨[], heq.trans (append_nil _).symm⟩
  · exact ⟨[event], heq⟩

theorem followInv_step {l : FollowLabel} (hcond : Follows c s l) (h : FollowInv c s) :
    FollowInv c (followStep c s l) := by
  cases l with
  | push principal request =>
    obtain ⟨more, hlog⟩ := log_push c s principal request
    refine ⟨eventsSound_push c.adapter principal request h.sound, ?_, ?_, fun page hpage => ?_⟩
    · rw [hlog, length_append]
      exact Nat.le_add_right_of_le h.cursor
    · rw [hlog]
      show HoldsLog c.deviceId s.desktop ((s.log c ++ more).take s.cursor)
      rw [take_append_of_le_length h.cursor]
      exact h.log
    · rw [hlog]
      show page <+: (s.log c ++ more).drop s.cursor
      rw [drop_append_of_le_length h.cursor]
      exact (h.page page hpage).trans (prefix_append _ _)
  | changes limit =>
    refine ⟨h.sound, h.cursor, h.log, fun page hpage => ?_⟩
    rw [← some.inj hpage, (h.sound.dense _).window_eq]
    exact take_prefix _ _
  | apply now =>
    cases hpage : s.page with
    | none =>
      have hsame : followStep c s (.apply now) = s := by
        unfold followStep
        rw [hpage]
      rw [hsame]
      exact h
    | some page =>
      obtain ⟨desktop, hstep, hlog⟩ := apply_follows h hpage now hcond
      have hbound : s.cursor + page.length ≤ (s.log c).length := by
        have hlength := (h.page page hpage).length_le
        rw [length_drop] at hlength
        have hcursor := h.cursor
        omega
      rw [hstep]
      exact ⟨⟨h.sound.dense, h.sound.chain, h.sound.produced⟩, hbound, hlog,
        fun page hpage => (by cases hpage)⟩

theorem followInv_start (c : PushSetting δ) (tables : δ) (desktop : ClientDb) :
    FollowInv c (.start tables desktop) :=
  ⟨eventsSound_fresh tables, Nat.zero_le _, fun k event hlast => (by cases hlast),
    fun page hpage => (by cases hpage)⟩

/-- Pages of these sizes, one after the other. -/
def pulls : List (Nat × Timestamp) → List FollowLabel
  | [] => []
  | (limit, now) :: rest => .changes limit :: .apply now :: pulls rest

/-- A pull moves the cursor by its page, or to the end of the log. -/
theorem cursor_pull (h : FollowInv c s) {now : Timestamp}
    (hcond : Follows c (followStep c s (.changes limit)) (.apply now)) :
    (run (followStep c) s [.changes limit, .apply now]).log c = s.log c ∧
      min (s.cursor + limit) (s.log c).length ≤
        (run (followStep c) s [.changes limit, .apply now]).cursor := by
  have hinv := followInv_step (l := .changes limit) trivial h
  obtain ⟨desktop, hstep, -⟩ := apply_follows hinv rfl now hcond
  rw [show run (followStep c) s [.changes limit, .apply now] =
    followStep c (followStep c s (.changes limit)) (.apply now) from rfl, hstep]
  refine ⟨rfl, ?_⟩
  show _ ≤ s.cursor + (window (fun event => event.cursor) s.cursor limit (s.log c)).length
  have hpage : window (fun event => event.cursor) s.cursor limit (s.log c) =
      ((s.log c).drop s.cursor).take limit := (h.sound.dense _).window_eq _ _
  rw [hpage, length_take, length_drop]
  omega

theorem cursor_pulls {sizes : List (Nat × Timestamp)} (h : FollowInv c s)
    (hm : Meets (followStep c) (Follows c) s (pulls sizes)) :
    (run (followStep c) s (pulls sizes)).log c = s.log c ∧
      min (s.cursor + (sizes.map Prod.fst).sum) (s.log c).length ≤
        (run (followStep c) s (pulls sizes)).cursor := by
  induction sizes generalizing s with
  | nil => exact ⟨rfl, Nat.min_le_left _ _⟩
  | cons size rest ih =>
    obtain ⟨limit, now⟩ := size
    obtain ⟨hchanges, happly, hrest⟩ := hm
    obtain ⟨hlog, hcursor⟩ := cursor_pull h happly
    have hinv := followInv_step happly (followInv_step hchanges h)
    obtain ⟨hlog', hcursor'⟩ := ih hinv hrest
    have hlog₂ : (followStep c (followStep c s (.changes limit)) (.apply now)).log c = s.log c :=
      hlog
    have hcursor₂ : min (s.cursor + limit) (s.log c).length ≤
        (followStep c (followStep c s (.changes limit)) (.apply now)).cursor := hcursor
    rw [hlog₂] at hlog' hcursor'
    refine ⟨hlog', ?_⟩
    rw [map_cons, sum_cons]
    refine Nat.le_trans ?_ hcursor'
    omega

/-- After any history of pushes and pulls whose changes land, further pulls of any sizes
that reach the latest cursor leave the desktop with the payload and the revision of
the latest event of every entity of the scope. -/
theorem converges (c : PushSetting δ) (tables : δ) (desktop : ClientDb)
    (trace : List FollowLabel) (sizes : List (Nat × Timestamp))
    (hm : Meets (followStep c) (Follows c) (.start tables desktop) (trace ++ pulls sizes))
    (hsizes : (run (followStep c) (.start tables desktop) trace).hub.latestCursor
        c.principal.scope ≤
      (run (followStep c) (.start tables desktop) trace).cursor + (sizes.map Prod.fst).sum)
    (entityType : SyncEntityType) (entityId : String) (event : SyncEvent)
    (hlatest : (run (followStep c) (.start tables desktop) (trace ++ pulls sizes)).hub.latestEvent
      c.principal.scope entityType entityId = some event) :
    ∃ row, (run (followStep c) (.start tables desktop)
        (trace ++ pulls sizes)).desktop.entities.get? entityType entityId = some row ∧
      row.revision = event.revision ∧ row.payloadJson = event.payload.dump := by
  rw [meets_append] at hm
  rw [run_append] at hlatest ⊢
  have hstep : ∀ s l, Follows c s l → FollowInv c s → FollowInv c (followStep c s l) :=
    fun _ _ => followInv_step
  have hinv := run_invariant_of_meets hstep hm.1 (followInv_start c tables desktop)
  generalize run (followStep c) (.start tables desktop) trace = s at hm hsizes hlatest hinv ⊢
  obtain ⟨hlog, hcursor⟩ := cursor_pulls hinv hm.2
  have hinv' := run_invariant_of_meets hstep hm.2 hinv
  generalize run (followStep c) s (pulls sizes) = s' at hlatest hlog hcursor hinv' ⊢
  -- the desktop is at the end of the log
  have hend : (s'.log c).take s'.cursor = s'.log c := by
    rw [latestCursor_eq hinv.sound] at hsizes
    refine List.take_of_length_le ?_
    rw [hlog]
    omega
  have hholds := hinv'.log
  rw [hend] at hholds
  rw [latestEvent_eq_lastOf] at hlatest
  obtain ⟨row, hrow, hkey, hrevision, hpayload, -⟩ := hholds _ event hlatest
  refine ⟨row, Entities.get?_eq_some.2 ⟨hrow, ?_⟩, hrevision, hpayload⟩
  exact hkey.trans (lastOf_mem hlatest).2

/-- The laptop pushes its transcript 1. -/
def laptopPush (operationId : String) (baseRevision : Nat) (text : String) : FollowLabel :=
  .push ⟨"t", "laptop", "o"⟩
    { operationId := operationId, deviceId := "laptop", entityType := .transcriptSegment
      entityId := "laptop:1", baseRevision := baseRevision, updatedAt := 0
      payload := [("meeting_id", .str "m"), ("text", .str text)] }

def firstPush : FollowLabel := laptopPush "sync:laptop:1" 0 "hi"

/-- The text of the transcript is corrected. -/
def secondPush : FollowLabel := laptopPush "sync:laptop:2" 1 "hi there"

theorem converges_first : ∃ event, (run (followStep deskSetting) (.start .empty (.fresh 0))
      ([firstPush] ++ pulls [(100, 0)])).hub.latestEvent ⟨"t", "o"⟩ .transcriptSegment "laptop:1" =
        some event ∧
    ∃ row, (run (followStep deskSetting) (.start .empty (.fresh 0))
        ([firstPush] ++ pulls [(100, 0)])).desktop.entities.get? .transcriptSegment "laptop:1" =
          some row ∧
      row.revision = event.revision ∧ row.payloadJson = event.payload.dump := by
  have hsome : ((run (followStep deskSetting) (.start .empty (.fresh 0))
      ([firstPush] ++ pulls [(100, 0)])).hub.latestEvent ⟨"t", "o"⟩ .transcriptSegment
        "laptop:1").isSome = true := by decide +kernel
  obtain ⟨event, hevent⟩ := Option.isSome_iff_exists.1 hsome
  exact ⟨event, hevent, converges deskSetting .empty (.fresh 0) [firstPush] [(100, 0)]
    (by decide +kernel) (by decide +kernel) _ _ event hevent⟩

/-- The desktop pulls after each push and has the latest cursor, but it keeps the first
revision of the transcript. -/
theorem not_converges_second :
    (run (followStep deskSetting) (.start .empty (.fresh 0)) ([firstPush, .changes 100, .apply 0,
        secondPush] ++ pulls [(100, 0)])).cursor =
      (run (followStep deskSetting) (.start .empty (.fresh 0)) ([firstPush, .changes 100, .apply 0,
        secondPush] ++ pulls [(100, 0)])).hub.latestCursor ⟨"t", "o"⟩ ∧
    ((run (followStep deskSetting) (.start .empty (.fresh 0)) ([firstPush, .changes 100, .apply 0,
        secondPush] ++ pulls [(100, 0)])).hub.latestEvent ⟨"t", "o"⟩ .transcriptSegment
          "laptop:1").map (·.revision) = some 2 ∧
    ((run (followStep deskSetting) (.start .empty (.fresh 0)) ([firstPush, .changes 100, .apply 0,
        secondPush] ++ pulls [(100, 0)])).desktop.entities.get? .transcriptSegment
          "laptop:1").map (·.revision) = some 1 := by
  decide +kernel

end Desktop
