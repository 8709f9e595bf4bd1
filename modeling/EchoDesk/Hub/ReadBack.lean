import EchoDesk.Hub.Segments
import EchoDesk.Hub.SnapshotFold

/-! # What other devices read of an applied push

The payload the hub keeps of each type of entity, and the record a device gets
of it: the record of its event, or the record a snapshot makes of its row when
no event has the id of the row.
-/

namespace Hub

open EchoDesk Transaction Transition OrderedLog List Option

/-! ## The payload the hub keeps -/

/-- The payload `_apply_transcript_tx` returns. -/
def canonicalTranscript (meetingId text : String) (startMs endMs : Int) (segmentId : Nat)
    (speakerId speakerLabel : Json) (capturedAt : String) : Dict :=
  [("meeting_id", .str meetingId), ("segment_id", .int segmentId), ("text", .str text),
    ("start_ms", .int startMs), ("end_ms", .int endMs), ("speaker_id", speakerId),
    ("speaker_label", speakerLabel), ("captured_at", .str capturedAt)]

/-- What an applied transcript is kept as. -/
structure TranscriptKept (py : Python) (payload : Dict) (updatedAt : String)
    (repo' : Repository) (scope : Scope) (canonical : Dict) (startMs endMs : Int) (id : Nat) :
    Prop where
  meetingId : strip (textField py payload "meeting_id" "") ≠ ""
  text : strip (textField py payload "text" "") ≠ ""
  start : intField py payload "start_ms" 0 = .ok startMs
  stop : intField py payload "end_ms" startMs = .ok endMs
  bound : Python.bindInt startMs = .ok startMs ∧ Python.bindInt endMs = .ok endMs
  row : ∃ row ∈ repo'.segments, row.id = id ∧ row.scope = scope
  kept : canonical = canonicalTranscript (strip (textField py payload "meeting_id" ""))
    (strip (textField py payload "text" "")) startMs endMs id (payload.read "speaker_id")
    (payload.read "speaker_label") (textField py payload "captured_at" updatedAt)

variable {py : Python} {principal : Principal} {entityId updatedAt : String}
variable {repo repo' : Repository}
variable {canonical payload : Dict} {record : SyncChangeRecord} {db : HubDb Repository}

theorem applyTranscript_kept {current : Option Dict}
    (h : Returns (applyTranscript py principal entityId payload updatedAt current) repo canonical
      repo') :
    ∃ startMs endMs id,
      TranscriptKept py payload updatedAt repo' principal.scope canonical startMs endMs id := by
  obtain ⟨hblank, h⟩ := returns_guard.1 h
  simp only [returns_bind, returns_fromExcept, returns_ite, returns_throw, returns_pure, and_false,
    false_or] at h
  obtain ⟨startMs, _, ⟨hstart, rfl⟩, endMs, _, ⟨hend, rfl⟩, -, claimed, _, ⟨-, rfl⟩, _, repo₁, -,
    values, _, ⟨hvalues, rfl⟩, written, repo₂, hwrite, rfl, rfl⟩ := h
  obtain ⟨hwrote, -⟩ := writeSegment_returns hwrite
  rw [library_eq_ok] at hvalues
  have hscope := (segmentValues_ok hvalues).1
  obtain ⟨_, hstartBound, hvalues⟩ := bind_eq_ok.1 hvalues
  obtain ⟨_, hendBound, -⟩ := bind_eq_ok.1 hvalues
  obtain rfl := Python.bindInt_ok hstartBound
  obtain rfl := Python.bindInt_ok hendBound
  refine ⟨_, _, written, {
    meetingId := fun hm => hblank (.inl hm)
    text := fun ht => hblank (.inr ht)
    start := hstart
    stop := hend
    bound := ⟨hstartBound, hendBound⟩
    row := ⟨_, (hwrote.rows _).2 (.inl rfl), rfl, hscope⟩
    kept := rfl }⟩

/-- The device a meeting belongs to, or will belong to when the principal makes it. -/
def meetingDevice (repo : Repository) (principal : Principal) (meetingId : String) : String :=
  ((repo.meeting principal.scope meetingId).map (·.deviceId)).getD principal.deviceId

theorem ensureMeeting_device {meetingId occurredAt : String}
    (h : Returns (ensureMeeting principal meetingId occurredAt) repo ()
      repo') {row : MeetingRow} (hrow : row ∈ repo'.meetings)
    (hof : row.scope = principal.scope ∧ row.id = meetingId) :
    row.deviceId = meetingDevice repo principal meetingId := by
  simp only [ensureMeeting, returns_get_bind] at h
  unfold meetingDevice
  split at h
  · obtain ⟨-, rfl⟩ := returns_pure.1 h
    have hrow : repo.meeting principal.scope meetingId = some row := by
      refine (Table.lookup_eq_some fun a b ha hb => ?_).2 ⟨hrow, decide_eq_true hof⟩
      obtain ⟨hscope, hid⟩ := of_decide_eq_true ha
      obtain ⟨hscope', hid'⟩ := of_decide_eq_true hb
      exact ⟨hscope.trans hscope'.symm, .inl (hid.trans hid'.symm)⟩
    rw [hrow]
    rfl
  rename_i hnone
  simp only [returns_bind, returns_orRaise, returns_set] at h
  obtain ⟨_, _, ⟨hins, rfl⟩, rfl⟩ := h
  obtain ⟨meetings, hmeetings, rfl⟩ := map_eq_some_iff.1 hins
  rw [hnone]
  rcases (Table.mem_insert? hmeetings).1 hrow with hold | rfl
  · exact absurd hof (of_decide_eq_false (Table.lookup_eq_none.1 hnone row hold))
  · rfl

/-- What an applied summary is kept as. -/
structure SummaryKept (py : Python) (principal : Principal) (entityId : String) (payload : Dict)
    (updatedAt : String) (repo repo' : Repository) (canonical : Dict) : Prop where
  meetingId : strip (textField py payload "meeting_id" entityId) ≠ ""
  kept : canonical = (payload.set "meeting_id"
    (.str (strip (textField py payload "meeting_id" entityId)))).set "updated_at" (.str updatedAt)
  row : ∀ row ∈ repo'.meetings, row.scope = principal.scope →
    row.id = strip (textField py payload "meeting_id" entityId) →
    row.minutesJson = some (py.dumps canonical) ∧ row.finalizedAt = some updatedAt ∧
      row.deviceId = meetingDevice repo principal row.id

theorem applySummary_kept
    (h : Returns (applySummary py principal entityId payload updatedAt) repo canonical repo') :
    SummaryKept py principal entityId payload updatedAt repo repo' canonical := by
  obtain ⟨hblank, h⟩ := returns_guard.1 h
  simp only [returns_bind, returns_get] at h
  obtain ⟨_, repo₁, hensure, _, _, ⟨rfl, rfl⟩, h⟩ := h
  split at h
  · exact (returns_throw.1 h).elim
  simp only [returns_bind, returns_orRaise, returns_set, returns_pure] at h
  obtain ⟨repo₂, _, ⟨hupdate, rfl⟩, _, _, rfl, rfl, rfl⟩ := h
  obtain ⟨meetings, hmeetings, rfl⟩ := map_eq_some_iff.1 hupdate
  refine ⟨hblank, rfl, fun row hrow hscope hid => ?_⟩
  obtain ⟨old, hold, rfl⟩ := (Table.mem_update? hmeetings).1 hrow
  split at hid
  · rename_i hsel
    rw [if_pos hsel]
    have hof := of_decide_eq_true hsel
    have hdevice := ensureMeeting_device hensure hold hof
    rw [← hof.2] at hdevice
    exact ⟨rfl, rfl, hdevice⟩
  · rename_i hsel
    rw [if_neg hsel] at hscope
    exact absurd (decide_eq_true ⟨hscope, hid⟩) hsel

/-- The payload of a memory the hub keeps does not say when it was created. -/
theorem applyMemory_kept {revision : Nat}
    (h : Returns (applyMemory py principal entityId payload revision updatedAt) repo canonical
      repo') : canonical.read "created_at" = .null := by
  simp only [applyMemory, returns_bind, returns_fromExcept, returns_get, returns_orRaise,
    returns_set, returns_pure] at h
  obtain ⟨values, _, -, _, _, -, repo₁, _, -, _, _, -, rfl, -⟩ := h
  rfl

/-! ## Reading an event back -/

/-- `list_changes`: a page of the changes past a cursor. -/
def HubDb.listChanges (db : HubDb Repository) (scope : Scope) (cursor limit : Nat) :
    List SyncChangeRecord :=
  (window (fun event => event.cursor) cursor limit (db.eventsOf scope)).map (·.toSyncChangeRecord)

/-- The id of the row an event was written to, as a snapshot names it. -/
def SyncEvent.rowId (py : Python) (event : SyncEvent) : String :=
  match event.entityType with
  | .transcriptSegment => py.str (event.payload.read "segment_id")
  | .meetingSummary => py.str (event.payload.read "meeting_id")
  | .memory => py.str (event.payload.read "memory_id")

/-- A device reads an event back: as a change of a page, or in a snapshot, where it
has the record of the event or that of the row it was written to. -/
inductive ReadBack (py : Python) (db : HubDb Repository) (event : SyncEvent)
    (record : SyncChangeRecord) : Prop
  | listChanges (cursor limit : Nat) (hmem : record ∈ db.listChanges event.scope cursor limit)
      (hcursor : record.cursor = event.cursor)
  | snapshot (result : SnapshotResult) (hresult : snapshot py db event.scope = .ok result)
      (hmem : record ∈ result.records)
      (hof : record.cursor = event.cursor ∨
        record.cursor = 0 ∧ record.key = (event.entityType, event.rowId py))

/-- Every record of a snapshot comes from a latest event or from a row. -/
theorem records_of_snapshot {scope : Scope} {result : SnapshotResult}
    (h : snapshot py db scope = .ok result) (hmem : record ∈ result.records) :
    (∃ event ∈ db.eventsOf scope, record = event.toSyncChangeRecord) ∨
      (∃ row ∈ db.tables.segments, row.scope = scope ∧
        newest py (transcriptEvents db scope) row = none ∧
        snapshotTranscript py row = .ok record) ∨
      (∃ row ∈ db.tables.meetings, row.scope = scope ∧ row.minutesJson.isSome ∧
        summaryRecord py row = .ok record) ∨
      ∃ row ∈ db.tables.memories, row.scope = scope ∧ memoryRecord py row = .ok record := by
  obtain ⟨-, htranscripts, hsummaries, hmemories⟩ := snapshot_eq_ok.1 h
  have hlatest : ∀ {event : SyncEvent}, event ∈ latestEvents db scope →
      event ∈ db.eventsOf scope := fun h => (key_of_latestEvent (mem_latestEvents.1 h)).1
  rcases mem_append.1 hmem with hmem | hmem
  · rcases mem_append.1 hmem with hmem | hmem
    · rcases snapshotTranscripts_records htranscripts record hmem with
        ⟨event, hevent, rfl⟩ | ⟨row, hrow, hnone, hrecord⟩
      · have hevent := (mem_transcriptEvents.1 hevent).2
        exact .inl ⟨event, (key_of_latestEvent hevent).1, rfl⟩
      · obtain ⟨hrow, hscope⟩ := mem_ofScope.1 hrow
        exact .inr (.inl ⟨row, hrow, hscope, hnone, hrecord⟩)
    obtain ⟨row, hrow, hrecord⟩ := mem_of_mapM_ok hsummaries hmem
    unfold snapshotSummary snapshotRow at hrecord
    split at hrecord
    · rename_i event hfound
      cases hrecord
      exact .inl ⟨event, hlatest (mem_of_find?_eq_some hfound), rfl⟩
    · obtain ⟨hrow, hscope, hminutes⟩ := mem_summaryRows.1 hrow
      exact .inr (.inr (.inl ⟨row, hrow, hscope, hminutes, hrecord⟩))
  · obtain ⟨row, hrow, hrecord⟩ := mem_of_mapM_ok hmemories hmem
    unfold snapshotMemory snapshotRow at hrecord
    split at hrecord
    · rename_i event hfound
      cases hrecord
      exact .inl ⟨event, hlatest (mem_of_find?_eq_some hfound), rfl⟩
    · obtain ⟨hrow, hscope, -⟩ := mem_memoryRows.1 hrow
      exact .inr (.inr (.inr ⟨row, hrow, hscope, hrecord⟩))

/-- The record of an event that is read back: its own, or the record of its summary
or of its memory. A transcript has a row that its event matches. -/
theorem readBack_cases (hs : EventsSound db) {event : SyncEvent} (hevent : event ∈ db.events)
    (hlatest : db.latestEvent event.scope event.entityType event.entityId = some event)
    (hrow : event.entityType = .transcriptSegment →
      ∃ id : Nat, event.payload.read "segment_id" = .int id) (h : ReadBack py db event record) :
    record = event.toSyncChangeRecord ∨
      (event.entityType = .meetingSummary ∧ ∃ row ∈ db.tables.meetings, row.scope = event.scope ∧
        row.id = event.rowId py ∧ row.minutesJson.isSome ∧ summaryRecord py row = .ok record) ∨
      event.entityType = .memory ∧ ∃ row, memoryRecord py row = .ok record := by
  have hown : event ∈ db.eventsOf event.scope := HubDb.mem_eventsOf.2 ⟨hevent, rfl⟩
  -- a record of an event with this cursor is the record of this event
  have hunique : ∀ event' ∈ db.eventsOf event.scope, event'.cursor = event.cursor →
      event'.toSyncChangeRecord = event.toSyncChangeRecord := by
    intro event' hmem hcursor
    obtain ⟨hmem, hscope⟩ := HubDb.mem_eventsOf.1 hmem
    rw [Table.eq_of_conflict hmem hevent ⟨hscope, hcursor⟩]
  have hpositive : ∀ event' ∈ db.eventsOf event.scope, event'.cursor ≠ 0 := fun event' hmem =>
    Nat.ne_of_gt ((hs.dense event.scope).pos_of_mem hmem)
  cases h with
  | listChanges cursor limit hmem hcursor =>
    obtain ⟨event', hpage, rfl⟩ := mem_map.1 hmem
    exact .inl (hunique event' (mem_of_mem_window hpage).1 hcursor)
  | snapshot result hresult hmem hof =>
    rcases records_of_snapshot hresult hmem with ⟨event', hmem', rfl⟩ |
      ⟨row, hmem', hscope, hnone, hrecord⟩ | ⟨row, hmem', hscope, hminutes, hrecord⟩ |
      ⟨row, hmem', hscope, hrecord⟩
    · rcases hof with hcursor | ⟨hzero, -⟩
      · exact .inl (hunique event' hmem' hcursor)
      · exact absurd hzero (hpositive event' hmem')
    · obtain ⟨updatedAt, -, hbuild⟩ := bind_eq_ok.1 hrecord
      cases hbuild
      rcases hof with hcursor | ⟨-, hkey⟩
      · exact absurd hcursor.symm (hpositive event hown)
      -- the event itself matches the row it was written to
      obtain ⟨htype, hid⟩ := Prod.mk.inj hkey
      obtain ⟨id, hsegment⟩ := hrow htype.symm
      have hsame : row.id = id := by
        rw [SyncEvent.rowId, ← htype, hsegment] at hid
        exact natText_injective hid
      have hget : event.payload.get? "segment_id" = some (.int id) := by
        unfold Dict.read at hsegment
        rcases hget : event.payload.get? "segment_id" with _ | value
        · rw [hget] at hsegment
          cases hsegment
        · rw [hget] at hsegment
          exact congrArg some hsegment
      have hmatch : transcriptEventMatchesRow py event row = true := by
        rw [transcriptEventMatchesRow, decide_eq_true_iff]
        have hpresent : event.payload.read "segment_id" ≠ .null := by
          rw [hsegment]
          exact fun h => (by cases h)
        refine .inl ⟨hpresent, ?_⟩
        rw [hsame, eventInt, hget]
        rfl
      have hmem : event ∈ transcriptEvents db event.scope := by
        refine mem_transcriptEvents.2 ⟨htype.symm, ?_⟩
        rw [← htype] at hlatest
        exact hlatest
      exact absurd ⟨event, hmem, hmatch⟩ (newest_eq_none.1 hnone)
    · have hkey := key_of_summaryRecord hrecord
      obtain ⟨updatedAt, -, hbuild⟩ := bind_eq_ok.1 hrecord
      rcases hof with hcursor | ⟨-, hof⟩
      · cases hbuild
        exact absurd hcursor.symm (hpositive event hown)
      · obtain ⟨htype, hid⟩ := Prod.mk.inj (hkey.symm.trans hof)
        exact .inr (.inl ⟨htype.symm, row, hmem', hscope, hid, hminutes, hrecord⟩)
    · have hkey := key_of_memoryRecord hrecord
      obtain ⟨updatedAt, -, hbuild⟩ := bind_eq_ok.1 hrecord
      rcases hof with hcursor | ⟨-, hof⟩
      · cases hbuild
        exact absurd hcursor.symm (hpositive event hown)
      · obtain ⟨htype, -⟩ := Prod.mk.inj (hkey.symm.trans hof)
        exact .inr (.inr ⟨htype.symm, row, hrecord⟩)

end Hub
