import EchoDesk.Hub.Snapshot

/-! # When a snapshot is the fold of the event log

One section of the snapshot at a time: a section is the fold of its entities
when its rows are the entities with events. `snapshot_isFold_iff` puts the three
together, for every state that pushes can reach.
-/

namespace Hub

open EchoDesk Transaction Transition LastWrite List

/-! ## The sections of summaries and memories -/

variable {entityType : SyncEntityType} {py : Python} {db : HubDb Repository}
variable {events : List SyncEvent} {records : List SyncChangeRecord} {rows : List SegmentRow}
  {scope : Scope} {row : SegmentRow}
variable {record : SyncChangeRecord} {event : SyncEvent} {scan : Scan}

section

variable {ρ : Type} {rows : List ρ} (idOf : ρ → String)
  {fallback : ρ → Except PyError SyncChangeRecord}
  (hfallback : ∀ row record, fallback row = .ok record → record.key = (entityType, idOf row))
  (h : rows.mapM (fun row => snapshotRow events entityType (idOf row) (fallback row)) = .ok records)

include hfallback h

/-- The records of a section stand for its rows. -/
theorem keys_of_section : records.map (·.key) = rows.map fun row => (entityType, idOf row) := by
  induction rows generalizing records with
  | nil =>
    rw [mapM_nil] at h
    cases h
    rfl
  | cons row rows ih =>
    rw [mapM_cons] at h
    simp only [bind_eq_ok] at h
    obtain ⟨record, hrecord, rest, hrest, h⟩ := h
    cases h
    rw [map_cons, map_cons, ih hrest]
    congr 1
    unfold snapshotRow at hrecord
    split at hrecord
    · rename_i event hfound
      cases hrecord
      have hkey := find?_some hfound
      exact of_decide_eq_true hkey
    · exact hfallback row record hrecord

theorem type_of_section : ∀ record ∈ records, record.entityType = entityType := by
  intro record hrecord
  have hkey := mem_map_of_mem (f := (·.key)) hrecord
  rw [keys_of_section idOf hfallback h] at hkey
  obtain ⟨row, -, hrow⟩ := mem_map.1 hkey
  exact (Prod.mk.inj hrow).1.symm

end

/-- A section is the fold of its entities when its rows are the entities with
events. -/
theorem section_iff {ρ : Type} {rows : List ρ} (idOf : ρ → String) (events : List SyncEvent)
    (entityType : SyncEntityType) {fallback : ρ → Except PyError SyncChangeRecord}
    (hrows : (rows.map idOf).Nodup)
    (hfallback : ∀ row record, fallback row = .ok record → record.key = (entityType, idOf row)) :
    (∃ records, rows.mapM (fun row => snapshotRow events entityType (idOf row) (fallback row)) =
        .ok records ∧
      ∀ id, (records.filter fun record => record.key = (entityType, id)).map (·.content) =
        ((events.find? fun event => event.key = (entityType, id)).map (·.content)).toList) ↔
      ∀ id, (∃ row ∈ rows, idOf row = id) ↔
        (events.find? fun event => event.key = (entityType, id)).isSome := by
  constructor
  · rintro ⟨records, hrecords, hfold⟩ id
    have hkeys := keys_of_section idOf hfallback hrecords
    have hrow : (∃ row ∈ rows, idOf row = id) ↔ (entityType, id) ∈ records.map (·.key) := by
      rw [hkeys]
      simp
    have hne : (entityType, id) ∈ records.map (·.key) ↔
        records.filter (fun record => record.key = (entityType, id)) ≠ [] := by
      simp [filter_eq_nil_iff]
    rw [hrow, hne, Ne, ← map_eq_nil_iff (f := (·.content)), hfold id]
    cases events.find? fun event => event.key = (entityType, id) <;> simp
  intro hsame
  have hfound : ∀ row ∈ rows, ∃ event,
      (events.find? fun event => event.key = (entityType, idOf row)) = some event := fun row hrow =>
    Option.isSome_iff_exists.1 ((hsame (idOf row)).1 ⟨row, hrow, rfl⟩)
  obtain ⟨records, hrecords⟩ := mapM_ok_of_forall
    (f := fun row => snapshotRow events entityType (idOf row) (fallback row)) fun row hrow => by
      obtain ⟨event, hevent⟩ := hfound row hrow
      exact ⟨event.toSyncChangeRecord, by rw [snapshotRow, hevent]⟩
  refine ⟨records, hrecords, fun id => ?_⟩
  have hkeys := keys_of_section idOf hfallback hrecords
  have hnodup : (records.map (·.key)).Nodup := by
    rw [hkeys, ← Function.comp_def (fun id => (entityType, id)) idOf, ← map_map]
    exact hrows.map fun a b h => (Prod.mk.inj h).2
  have hrecord : ∀ record ∈ records, record.key = (entityType, id) → ∃ event,
      (events.find? fun event => event.key = (entityType, id)) = some event ∧
        record = event.toSyncChangeRecord := by
    intro record hmem hkey
    obtain ⟨row, hrow, hsnapshot⟩ := mem_of_mapM_ok hrecords hmem
    obtain ⟨event, hevent⟩ := hfound row hrow
    rw [snapshotRow, hevent] at hsnapshot
    cases hsnapshot
    have hid := find?_some hevent
    have hid : event.key = (entityType, idOf row) := of_decide_eq_true hid
    rw [← (Prod.mk.inj (hid.symm.trans hkey)).2]
    exact ⟨event, hevent, rfl⟩
  cases hevent : events.find? fun event => event.key = (entityType, id) with
  | none =>
    have hnil : records.filter (fun record => record.key = (entityType, id)) = [] := by
      rw [filter_eq_nil_iff]
      intro record hmem hkey
      obtain ⟨event, hsome, -⟩ := hrecord record hmem (of_decide_eq_true hkey)
      rw [hevent] at hsome
      cases hsome
    rw [hnil]
    rfl
  | some event =>
    obtain ⟨row, hrow, rfl⟩ := (hsame id).2 (by rw [hevent]; rfl)
    have hkey : (entityType, idOf row) ∈ records.map (·.key) := by
      rw [hkeys]
      exact mem_map_of_mem (f := fun row => (entityType, idOf row)) hrow
    obtain ⟨record, hmem, hkey⟩ := mem_map.1 hkey
    obtain ⟨event', hevent', rfl⟩ := hrecord record hmem hkey
    have hsingle := filter_key hnodup hmem
    rw [hkey] at hsingle
    rw [hsingle, Option.some.inj (hevent'.symm.trans hevent)]
    rfl

/-! ## The section of transcripts -/

theorem mem_matching :
    event ∈ matching py events row ↔ event ∈ events ∧ transcriptEventMatchesRow py event row :=
  mem_filter

theorem newest_eq_none :
    newest py events row = none ↔ ¬ ∃ event ∈ events, transcriptEventMatchesRow py event row := by
  rw [newest, argmax_eq_none, matching, filter_eq_nil_iff]
  simp

/-- The newest match, where the cursors tell the events apart. -/
theorem newest_eq_some (hcursor : ∀ a ∈ events, ∀ b ∈ events, a.cursor = b.cursor → a = b) :
    newest py events row = some event ↔ event ∈ matching py events row ∧
      ∀ event' ∈ matching py events row, event'.cursor ≤ event.cursor := by
  constructor
  · intro h
    exact ⟨argmax_mem h, fun event' h' =>
      le_of_mem_argmax (f := fun event : SyncEvent => event.cursor) h' h⟩
  rintro ⟨hmem, hmax⟩
  cases hnewest : newest py events row with
  | none => exact absurd ⟨event, mem_matching.1 hmem⟩ (newest_eq_none.1 hnewest)
  | some event' =>
    have hmem' : event' ∈ matching py events row := argmax_mem hnewest
    have hle : event.cursor ≤ event'.cursor :=
      le_of_mem_argmax (f := fun event : SyncEvent => event.cursor) hmem hnewest
    exact congrArg some <| hcursor _ (mem_matching.1 hmem').1 _ (mem_matching.1 hmem).1 <|
      Nat.le_antisymm (hmax event' hmem') hle

/-- What the loop has gathered when every row so far had a match: the records of
the newest matches, each once. -/
structure Gathered (py : Python) (events : List SyncEvent) (rows : List SegmentRow) (scan : Scan)
    (out : List SyncEvent) : Prop where
  records : scan.records = out.map (·.toSyncChangeRecord)
  emitted : scan.emitted = out.map (·.cursor)
  nodup : out.Nodup
  out : ∀ event, event ∈ out ↔ ∃ row ∈ rows, newest py events row = some event
  consumed : ∀ c, c ∈ scan.consumed ↔ ∃ row ∈ rows, ∃ event ∈ matching py events row,
    event.cursor = c

theorem scan_matched (hcursor : ∀ a ∈ events, ∀ b ∈ events, a.cursor = b.cursor → a = b)
    (hmatched : ∀ row ∈ rows, ∃ event ∈ events, transcriptEventMatchesRow py event row) :
    ∃ scan out, rows.foldlM (scanRow py events) ⟨[], [], []⟩ = .ok scan ∧
      Gathered py events rows scan out := by
  induction rows using List.reverseRecOn with
  | nil =>
    refine ⟨⟨[], [], []⟩, [], rfl, rfl, rfl, nodup_nil, fun event => ?_, fun c => ?_⟩
    · simp
    · simp
  | append_singleton rows row ih =>
    obtain ⟨scan, out, hscan, hg⟩ := ih fun row hrow => hmatched row (mem_append_left _ hrow)
    have hrow := hmatched row (mem_append_right _ (mem_singleton_self row))
    cases hnewest : newest py events row with
    | none => exact absurd hrow (newest_eq_none.1 hnewest)
    | some event =>
      have hstep : (rows ++ [row]).foldlM (scanRow py events) ⟨[], [], []⟩ =
          scanRow py events scan row := by
        rw [foldlM_append, hscan]
        show ([row].foldlM (scanRow py events) scan) = _
        rw [foldlM_cons]
        cases scanRow py events scan row <;> rfl
      have hconsumed : ∀ c, c ∈ scan.consumed ++ (matching py events row).map (·.cursor) ↔
            ∃ r ∈ rows ++ [row], ∃ event ∈ matching py events r, event.cursor = c := by
        intro c
        rw [mem_append, hg.consumed, mem_map]
        simp [or_and_right, exists_or]
      have hout : ∀ e, (∃ r ∈ rows ++ [row], newest py events r = some e) ↔
          e ∈ out ∨ e = event := by
        intro e
        rw [hg.out]
        simp only [mem_append, mem_singleton, or_and_right, exists_or, exists_eq_left,
          hnewest, Option.some.injEq]
        exact or_congr_right eq_comm
      have hmem : event ∈ events :=
        (mem_matching.1 ((newest_eq_some hcursor).1 hnewest).1).1
      have hold : event.cursor ∈ scan.emitted ↔ event ∈ out := by
        rw [hg.emitted, mem_map]
        constructor
        · rintro ⟨e, he, hc⟩
          obtain ⟨r, -, hr⟩ := (hg.out e).1 he
          rwa [← hcursor e (mem_matching.1 ((newest_eq_some hcursor).1 hr).1).1 event hmem hc]
        · exact fun h => ⟨event, h, rfl⟩
      rw [hstep, scanRow, hnewest]
      by_cases hemitted : event.cursor ∈ scan.emitted
      · refine ⟨_, out, if_pos hemitted, hg.records, hg.emitted, hg.nodup, fun e => ?_, hconsumed⟩
        rw [hout]
        constructor
        · exact .inl
        rintro (he | rfl)
        · exact he
        · exact hold.1 hemitted
      refine ⟨_, out ++ [event], if_neg hemitted, ?_, ?_, ?_, fun e => ?_, hconsumed⟩
      · rw [hg.records, map_append]
        rfl
      · rw [hg.emitted, map_append]
        rfl
      · refine nodup_append.2 ⟨hg.nodup, nodup_singleton _, fun a ha b hb => ?_⟩
        rw [mem_singleton.1 hb]
        rintro rfl
        exact hemitted (hold.2 ha)
      · rw [hout, mem_append, mem_singleton]

/-- What one row adds: its own record without a match, else the record of its newest
match, unless an earlier row has added that. -/
theorem scanRow_cases {scan' : Scan} (h : scanRow py events scan row = .ok scan') :
    scan'.consumed = scan.consumed ++ (matching py events row).map (·.cursor) ∧
    ((newest py events row = none ∧ scan'.emitted = scan.emitted ∧ ∃ record,
        snapshotTranscript py row = .ok record ∧ scan'.records = scan.records ++ [record]) ∨
      ∃ event, newest py events row = some event ∧
        ((event.cursor ∈ scan.emitted ∧ scan'.emitted = scan.emitted ∧
            scan'.records = scan.records) ∨
          (scan'.emitted = scan.emitted ++ [event.cursor] ∧
            scan'.records = scan.records ++ [event.toSyncChangeRecord]))) := by
  unfold scanRow at h
  split at h
  · rename_i hnone
    obtain ⟨record, hrecord, h⟩ := bind_eq_ok.1 h
    cases h
    exact ⟨rfl, .inl ⟨hnone, rfl, record, hrecord, rfl⟩⟩
  · rename_i event hsome
    split at h <;> rename_i hemitted <;> cases h
    · exact ⟨rfl, .inr ⟨event, hsome, .inl ⟨hemitted, rfl, rfl⟩⟩⟩
    · exact ⟨rfl, .inr ⟨event, hsome, .inr ⟨rfl, rfl⟩⟩⟩

/-- A later row takes no record back. -/
theorem records_subset_of_scanRow {scan' : Scan} (h : scanRow py events scan row = .ok scan') :
    scan.records ⊆ scan'.records := by
  obtain ⟨-, ⟨-, -, _, -, heq⟩ | ⟨_, -, ⟨-, -, heq⟩ | ⟨-, heq⟩⟩⟩ := scanRow_cases h
  · exact heq ▸ subset_append_left _ _
  · exact heq ▸ List.Subset.refl _
  · exact heq ▸ subset_append_left _ _

/-- A row without a match leaves a record of revision 0. -/
theorem scan_unmatched (h : rows.foldlM (scanRow py events) ⟨[], [], []⟩ = .ok scan)
    (hrow : row ∈ rows) (hnone : newest py events row = none) :
    ∃ record ∈ scan.records, record.revision = 0 ∧ record.entityType = .transcriptSegment := by
  refine foldlM_ok (motive := fun rows scan => ∀ row ∈ rows, newest py events row = none →
    ∃ record ∈ scan.records, record.revision = 0 ∧ record.entityType = .transcriptSegment)
    (forall_mem_nil _) (fun rows last scan scan' ih hstep row hrow hnone => ?_) h row hrow
    hnone
  rcases mem_append.1 hrow with hrow | hrow
  · obtain ⟨record, hmem, hrecord⟩ := ih row hrow hnone
    exact ⟨record, records_subset_of_scanRow hstep hmem, hrecord⟩
  rw [mem_singleton.1 hrow] at hnone
  obtain ⟨-, ⟨-, -, record, hrecord, heq⟩ | ⟨_, hsome, -⟩⟩ := scanRow_cases hstep
  · refine ⟨record, heq ▸ mem_append_right _ (mem_singleton_self _), ?_⟩
    obtain ⟨_, -, hrecord⟩ := bind_eq_ok.1 hrecord
    cases hrecord
    exact ⟨rfl, rfl⟩
  · rw [hnone] at hsome
    cases hsome

/-- The scan keeps what `_snapshot_transcripts` goes by: each cursor it calls emitted
has a record, each row its newest match, and what is consumed matches a row. -/
structure Shows (py : Python) (events : List SyncEvent) (rows : List SegmentRow) (scan : Scan) :
    Prop where
  emitted : ∀ c ∈ scan.emitted, ∃ event ∈ events, event.cursor = c ∧
    event.toSyncChangeRecord ∈ scan.records
  newest : ∀ row ∈ rows, ∀ event, newest py events row = some event →
    event.toSyncChangeRecord ∈ scan.records
  consumed : ∀ c ∈ scan.consumed, ∃ row ∈ rows, ∃ event ∈ matching py events row, event.cursor = c

theorem scan_shows (hcursor : ∀ a ∈ events, ∀ b ∈ events, a.cursor = b.cursor → a = b)
    (h : rows.foldlM (scanRow py events) ⟨[], [], []⟩ = .ok scan) : Shows py events rows scan := by
  refine foldlM_ok (motive := Shows py events)
    ⟨forall_mem_nil _, forall_mem_nil _, forall_mem_nil _⟩
    (fun rows last scan scan' ih hstep => ?_) h
  have hkept := records_subset_of_scanRow hstep
  obtain ⟨hconsumed, hcases⟩ := scanRow_cases hstep
  -- the newest match of the last row is there, whether it is added now or was before
  have hlast : ∀ event, Hub.newest py events last = some event →
      event.toSyncChangeRecord ∈ scan'.records := by
    intro event hevent
    obtain ⟨hnone, -⟩ | ⟨event', hsome, ⟨hmem, -, heq⟩ | ⟨-, heq⟩⟩ := hcases
    · rw [hevent] at hnone
      cases hnone
    · cases hevent.symm.trans hsome
      obtain ⟨other, hother, hc, hrecord⟩ := ih.emitted _ hmem
      have hevent := (mem_matching.1 (argmax_mem hevent)).1
      rw [heq, ← hcursor other hother event hevent hc]
      exact hrecord
    · cases hevent.symm.trans hsome
      exact heq ▸ mem_append_right _ (mem_singleton_self _)
  refine ⟨fun c hc => ?_, fun row hrow event hevent => ?_, fun c hc => ?_⟩
  · have hold : c ∈ scan.emitted → ∃ event ∈ events, event.cursor = c ∧
        event.toSyncChangeRecord ∈ scan'.records := fun hc =>
      let ⟨event, hmem, heq, hrecord⟩ := ih.emitted c hc
      ⟨event, hmem, heq, hkept hrecord⟩
    obtain ⟨-, heq, -⟩ | ⟨event, hsome, ⟨-, heq, -⟩ | ⟨heq, -⟩⟩ := hcases
    · exact hold (heq ▸ hc)
    · exact hold (heq ▸ hc)
    rcases mem_append.1 (heq ▸ hc) with hc | hc
    · exact hold hc
    · exact ⟨event, (mem_matching.1 (argmax_mem hsome)).1, (mem_singleton.1 hc).symm,
        hlast event hsome⟩
  · rcases mem_append.1 hrow with hrow | hrow
    · exact hkept (ih.newest row hrow event hevent)
    · rw [mem_singleton.1 hrow] at hevent
      exact hlast event hevent
  · rcases mem_append.1 (hconsumed ▸ hc) with hc | hc
    · obtain ⟨row, hrow, hmatch⟩ := ih.consumed c hc
      exact ⟨row, mem_append_left _ hrow, hmatch⟩
    · obtain ⟨event, hevent, heq⟩ := mem_map.1 hc
      exact ⟨last, mem_append_right _ (mem_singleton_self _), event, hevent, heq⟩

/-- An event has its record, unless newer events match all its rows. -/
theorem mem_snapshotTranscripts (hcursor : ∀ a ∈ events, ∀ b ∈ events, a.cursor = b.cursor → a = b)
    (h : snapshotTranscripts py rows events = .ok records) (hevent : event ∈ events)
    (hshown : (∃ row ∈ rows, transcriptEventMatchesRow py event row) →
      ∃ row ∈ rows, newest py events row = some event) :
    event.toSyncChangeRecord ∈ records := by
  obtain ⟨scan, hscan, h⟩ := bind_eq_ok.1 h
  cases h
  have hshows := scan_shows hcursor hscan
  by_cases hc : event.cursor ∈ scan.consumed
  · obtain ⟨row, hrow, event', hmatch, heq⟩ := hshows.consumed _ hc
    obtain ⟨hmem, hmatch⟩ := mem_matching.1 hmatch
    rw [hcursor event' hmem event hevent heq] at hmatch
    obtain ⟨row, hrow, hnewest⟩ := hshown ⟨row, hrow, hmatch⟩
    exact mem_append_left _ (hshows.newest row hrow event hnewest)
  · refine mem_append_right _ (mem_map_of_mem (mem_filter.2 ⟨hevent, ?_⟩))
    exact decide_eq_true hc

/-- Where a record of the section comes from: an event, or a row no event matches. -/
def TranscriptRecord (py : Python) (events : List SyncEvent) (rows : List SegmentRow)
    (record : SyncChangeRecord) : Prop :=
  (∃ event ∈ events, record = event.toSyncChangeRecord) ∨
    ∃ row ∈ rows, newest py events row = none ∧ snapshotTranscript py row = .ok record

theorem scan_records (h : rows.foldlM (scanRow py events) ⟨[], [], []⟩ = .ok scan) :
    ∀ record ∈ scan.records, TranscriptRecord py events rows record := by
  refine foldlM_ok (motive := fun rows scan =>
    ∀ record ∈ scan.records, TranscriptRecord py events rows record)
    (forall_mem_nil _) (fun rows last scan scan' ih hstep => ?_) h
  have hold : ∀ r ∈ scan.records, TranscriptRecord py events (rows ++ [last]) r :=
    fun r hr => (ih r hr).imp_right fun ⟨row, hrow, hrest⟩ => ⟨row, mem_append_left _ hrow, hrest⟩
  intro r hr
  obtain ⟨-, ⟨hnone, -, record, hrecord, heq⟩ | ⟨event, hsome, ⟨-, -, heq⟩ | ⟨-, heq⟩⟩⟩ :=
    scanRow_cases hstep
  · rcases mem_append.1 (heq ▸ hr) with hr | hr
    · exact hold r hr
    · rw [mem_singleton.1 hr]
      exact .inr ⟨last, mem_append_right _ (mem_singleton_self _), hnone, hrecord⟩
  · exact hold r (heq ▸ hr)
  · rcases mem_append.1 (heq ▸ hr) with hr | hr
    · exact hold r hr
    · rw [mem_singleton.1 hr]
      exact .inl ⟨event, (mem_matching.1 (argmax_mem hsome)).1, rfl⟩

theorem snapshotTranscripts_records (h : snapshotTranscripts py rows events = .ok records) :
    ∀ record ∈ records, TranscriptRecord py events rows record := by
  obtain ⟨scan, hscan, h⟩ := bind_eq_ok.1 h
  cases h
  intro record hrecord
  rcases mem_append.1 hrecord with hrecord | hrecord
  · exact scan_records hscan record hrecord
  · obtain ⟨event, hevent, rfl⟩ := mem_map.1 hrecord
    exact .inl ⟨event, (mem_filter.1 hevent).1, rfl⟩

theorem snapshotTranscripts_type (htype : ∀ event ∈ events, event.entityType = .transcriptSegment)
    (h : snapshotTranscripts py rows events = .ok records) :
    ∀ record ∈ records, record.entityType = .transcriptSegment := by
  intro record hrecord
  rcases snapshotTranscripts_records h record hrecord with ⟨event, hevent, rfl⟩ | ⟨row, -, -, hrow⟩
  · exact htype event hevent
  obtain ⟨_, -, hrow⟩ := bind_eq_ok.1 hrow
  cases hrow
  rfl

/-- With a match for every row, the section has the events that are the newest
match of a row or the match of none. -/
theorem snapshotTranscripts_matched (hnodup : events.Nodup)
    (hcursor : ∀ a ∈ events, ∀ b ∈ events, a.cursor = b.cursor → a = b)
    (hmatched : ∀ row ∈ rows, ∃ event ∈ events, transcriptEventMatchesRow py event row) :
    ∃ shown : List SyncEvent,
      snapshotTranscripts py rows events = .ok (shown.map (·.toSyncChangeRecord)) ∧
      shown.Nodup ∧ ∀ event, event ∈ shown ↔ event ∈ events ∧
        ((∃ row ∈ rows, newest py events row = some event) ∨
          ¬ ∃ row ∈ rows, transcriptEventMatchesRow py event row) := by
  obtain ⟨scan, out, hscan, hg⟩ := scan_matched hcursor hmatched
  refine ⟨out ++ events.filter (fun event => event.cursor ∉ scan.consumed), ?_, ?_, ?_⟩
  · unfold snapshotTranscripts
    rw [hscan]
    show Except.ok _ = _
    rw [hg.records, map_append]
  · refine nodup_append.2 ⟨hg.nodup, hnodup.filter _, fun a ha b hb hab => ?_⟩
    subst hab
    obtain ⟨row, hrow, hnewest⟩ := (hg.out a).1 ha
    refine of_decide_eq_true (mem_filter.1 hb).2 ((hg.consumed _).2 ⟨row, hrow, a, ?_, rfl⟩)
    exact ((newest_eq_some hcursor).1 hnewest).1
  intro event
  rw [mem_append, mem_filter, decide_eq_true_iff, hg.out, hg.consumed]
  constructor
  · rintro (⟨row, hrow, hnewest⟩ | ⟨hmem, hfree⟩)
    · exact ⟨(mem_matching.1 ((newest_eq_some hcursor).1 hnewest).1).1, .inl ⟨row, hrow, hnewest⟩⟩
    · refine ⟨hmem, .inr fun ⟨row, hrow, hmatch⟩ => hfree ⟨row, hrow, event, ?_, rfl⟩⟩
      exact mem_matching.2 ⟨hmem, hmatch⟩
  · rintro ⟨hmem, hshown | hfree⟩
    · exact .inl hshown
    refine .inr ⟨hmem, fun ⟨row, hrow, event', hmatch, hc⟩ => hfree ⟨row, hrow, ?_⟩⟩
    obtain ⟨hmem', hmatch⟩ := mem_matching.1 hmatch
    rwa [hcursor event' hmem' event hmem hc] at hmatch

theorem transcripts_iff (py : Python) (rows : List SegmentRow) (hkeys : (events.map (·.key)).Nodup)
    (htype : ∀ event ∈ events, event.entityType = .transcriptSegment)
    (hcursor : ∀ a ∈ events, ∀ b ∈ events, a.cursor = b.cursor → a = b)
    (hrevision : ∀ event ∈ events, 1 ≤ event.revision) :
    (∃ records, snapshotTranscripts py rows events = .ok records ∧
      ∀ id, (records.filter fun record => record.key = (.transcriptSegment, id)).map (·.content) =
        ((events.find? fun event => event.key = (.transcriptSegment, id)).map (·.content)).toList) ↔
      (∀ row ∈ rows, ∃ event ∈ events, transcriptEventMatchesRow py event row) ∧
      ∀ event ∈ events, (∃ row ∈ rows, transcriptEventMatchesRow py event row) →
        ∃ row ∈ rows, newest py events row = some event := by
  have hfind : ∀ event ∈ events,
      (events.find? fun e => e.key = (.transcriptSegment, event.entityId)) = some event := by
    intro event hevent
    have hkey : event.key = (.transcriptSegment, event.entityId) := by
      rw [SyncEvent.key, htype event hevent]
    rw [← head?_filter, ← hkey, filter_key hkeys hevent]
    rfl
  constructor
  · rintro ⟨records, hrecords, hfold⟩
    have hmatched : ∀ row ∈ rows, ∃ event ∈ events, transcriptEventMatchesRow py event row := by
      intro row hrow
      by_contra hnone
      obtain ⟨scan, hscan, hrest⟩ := bind_eq_ok.1 hrecords
      cases hrest
      obtain ⟨record, hmem, hzero, hrtype⟩ := scan_unmatched hscan hrow (newest_eq_none.2 hnone)
      -- its key may be the one of an entity, whose revision is positive
      have hcontent : record.content ∈ ((events.find? fun event =>
          event.key = (.transcriptSegment, record.entityId)).map (·.content)).toList := by
        rw [← hfold]
        refine mem_map_of_mem (mem_filter.2 ⟨mem_append_left _ hmem, ?_⟩)
        exact decide_eq_true (by rw [SyncChangeRecord.key, hrtype])
      rw [Option.mem_toList, Option.map_eq_some_iff] at hcontent
      obtain ⟨event, hevent, hcontent⟩ := hcontent
      have hpos := hrevision event (mem_of_find?_eq_some hevent)
      have hrev : event.revision = record.revision := congrArg Prod.fst hcontent
      omega
    refine ⟨hmatched, fun event hevent hhas => ?_⟩
    obtain ⟨shown, hshown, -, hmem⟩ :=
      snapshotTranscripts_matched (List.Nodup.of_map _ hkeys) hcursor hmatched
    obtain rfl : shown.map (·.toSyncChangeRecord) = records :=
      Except.ok.inj (hshown.symm.trans hrecords)
    have hid := hfold event.entityId
    rw [hfind event hevent] at hid
    have hne : (shown.map (·.toSyncChangeRecord)).filter
        (fun record => record.key = (.transcriptSegment, event.entityId)) ≠ [] := by
      intro hnil
      rw [hnil] at hid
      cases hid
    obtain ⟨record, hrecord⟩ := exists_mem_of_ne_nil _ hne
    obtain ⟨hrecord, hkey⟩ := mem_filter.1 hrecord
    obtain ⟨event', hevent', rfl⟩ := mem_map.1 hrecord
    have hkey : event'.key = event.key := by
      rw [show event.key = (.transcriptSegment, event.entityId) by
        rw [SyncEvent.key, htype event hevent]]
      exact of_decide_eq_true hkey
    obtain rfl : event' = event :=
      inj_on_of_nodup_map hkeys ((hmem event').1 hevent').1 hevent hkey
    exact ((hmem event').1 hevent').2.resolve_right (not_not_intro hhas)
  · rintro ⟨hmatched, hnewest⟩
    obtain ⟨shown, hshown, hnodup, hmem⟩ :=
      snapshotTranscripts_matched (List.Nodup.of_map _ hkeys) hcursor hmatched
    have hall : ∀ event, event ∈ shown ↔ event ∈ events := by
      intro event
      rw [hmem]
      refine ⟨And.left, fun hevent => ⟨hevent, ?_⟩⟩
      by_cases hhas : ∃ row ∈ rows, transcriptEventMatchesRow py event row
      · exact .inl (hnewest event hevent hhas)
      · exact .inr hhas
    have hshownKeys : (shown.map (·.key)).Nodup := by
      refine List.Nodup.map_on (fun a ha b hb hab => ?_) hnodup
      exact inj_on_of_nodup_map hkeys ((hall a).1 ha) ((hall b).1 hb) hab
    refine ⟨_, hshown, fun id => ?_⟩
    rw [filter_map, map_map]
    cases hfound : events.find? fun event => event.key = (.transcriptSegment, id) with
    | none =>
      have hnil : shown.filter ((fun record => decide
          (SyncChangeRecord.key record = (.transcriptSegment, id))) ∘
          (·.toSyncChangeRecord)) = [] := by
        rw [filter_eq_nil_iff]
        intro event hevent hkey
        exact find?_eq_none.1 hfound event ((hall event).1 hevent) hkey
      rw [hnil]
      rfl
    | some event =>
      have hkey := find?_some hfound
      have hkey : event.key = (.transcriptSegment, id) := of_decide_eq_true hkey
      have hsingle := filter_key hshownKeys ((hall event).2 (mem_of_find?_eq_some hfound))
      rw [hkey] at hsingle
      show (shown.filter fun e => e.key = (.transcriptSegment, id)).map _ = _
      rw [hsingle]
      rfl

/-! ## The three sections together -/

theorem find?_transcriptEvents (db : HubDb Repository) (scope : Scope) (id : String) :
    ((transcriptEvents db scope).find? fun event => event.key = (.transcriptSegment, id)) =
      db.latestEvent scope .transcriptSegment id := by
  ext event
  rw [find?_key (nodup_transcriptEvents db scope), mem_transcriptEvents]
  constructor
  · rintro ⟨⟨-, h⟩, hkey⟩
    obtain ⟨-, rfl⟩ := Prod.mk.inj hkey
    exact h
  · intro h
    obtain ⟨-, hkey⟩ := key_of_latestEvent h
    obtain ⟨htype, rfl⟩ := Prod.mk.inj hkey
    exact ⟨⟨htype, h⟩, hkey⟩

theorem mem_ofScope {segments : Segments} :
    row ∈ segments.ofScope scope ↔ row ∈ segments ∧ row.scope = scope := by
  rw [Segments.ofScope, mem_insertionSort, mem_filter, decide_eq_true_iff]
  rfl

theorem mem_summaryRows {row : MeetingRow} : row ∈ summaryRows db scope ↔
      row ∈ db.tables.meetings ∧ row.scope = scope ∧ row.minutesJson.isSome := by
  rw [summaryRows, mem_insertionSort, mem_filter, decide_eq_true_iff]
  rfl

theorem mem_memoryRows {row : MemoryRow} : row ∈ memoryRows db scope ↔
      row ∈ db.tables.memories ∧ row.scope = scope ∧ row.status = .active := by
  rw [memoryRows, mem_insertionSort, mem_filter, decide_eq_true_iff]
  rfl

theorem nodup_summaryRows (db : HubDb Repository) (scope : Scope) :
    ((summaryRows db scope).map (·.id)).Nodup := by
  have hperm := (db.tables.meetings.rows.filter fun row => row.scope = scope ∧
    row.minutesJson.isSome).perm_insertionSort fun a b =>
      coalescedAt a < coalescedAt b ∨ coalescedAt a = coalescedAt b ∧ a.id ≤ b.id
  rw [summaryRows, (hperm.map (·.id)).nodup_iff, List.Nodup, pairwise_map]
  refine (db.tables.meetings.sound.filter _).imp_of_mem fun {a b} ha hb h hid => ?_
  have ha := (of_decide_eq_true (mem_filter.1 ha).2).1
  have hb := (of_decide_eq_true (mem_filter.1 hb).2).1
  exact h ⟨ha.trans hb.symm, .inl hid⟩

theorem nodup_memoryRows (db : HubDb Repository) (scope : Scope) :
    ((memoryRows db scope).map (·.memoryId)).Nodup := by
  have hperm := (db.tables.memories.rows.filter fun row => row.scope = scope ∧
    row.status = .active).perm_insertionSort fun a b =>
      a.updatedAt < b.updatedAt ∨ a.updatedAt = b.updatedAt ∧ a.memoryId ≤ b.memoryId
  rw [memoryRows, (hperm.map (·.memoryId)).nodup_iff, List.Nodup, pairwise_map]
  refine (db.tables.memories.sound.filter _).imp_of_mem fun {a b} ha hb h hid => ?_
  have ha := (of_decide_eq_true (mem_filter.1 ha).2).1
  have hb := (of_decide_eq_true (mem_filter.1 hb).2).1
  exact h ⟨ha.trans hb.symm, .inl hid⟩

/-- Records of another type are not among those of an entity. -/
theorem filter_other {other : SyncEntityType}
    (hrecords : ∀ record ∈ records, record.entityType = other) (hne : other ≠ entityType)
    (id : String) : records.filter (fun record => record.key = (entityType, id)) = [] := by
  rw [filter_eq_nil_iff]
  intro record hmem hkey
  have hkey := (Prod.mk.inj (of_decide_eq_true hkey)).1
  exact hne (hrecords record hmem ▸ hkey)

/-- The fold decides what a device ends with. -/
theorem IsFold.mk_of_exact (h : ∀ entityType entityId,
      (records.filter fun record => record.key = (entityType, entityId)).map (·.content) =
        ((db.latestEvent scope entityType entityId).map (·.content)).toList) :
    IsFold db scope records := by
  refine ⟨h, fun k => ?_⟩
  have hlog : lastOf SyncChangeRecord.key (db.changes scope) k =
      (db.latestEvent scope k.1 k.2).map (·.toSyncChangeRecord) := by
    rw [latestEvent_eq_lastOf]
    exact lastOf_map (fun event : SyncEvent => event.toSyncChangeRecord) (fun _ => rfl) _ _
  rw [hlog, lastOf, ← getLast?_map, h k.1 k.2]
  cases db.latestEvent scope k.1 k.2 <;> rfl

/-- A section of the snapshot is the fold of the entities of its type. -/
def SectionFold (db : HubDb Repository) (scope : Scope) (entityType : SyncEntityType)
    (records : List SyncChangeRecord) : Prop :=
  ∀ id, (records.filter fun record => record.key = (entityType, id)).map (·.content) =
    ((db.latestEvent scope entityType id).map (·.content)).toList

theorem key_of_summaryRecord {row : MeetingRow} (h : summaryRecord py row = .ok record) :
    record.key = (.meetingSummary, row.id) := by
  obtain ⟨_, -, h⟩ := bind_eq_ok.1 h
  cases h
  rfl

theorem key_of_memoryRecord {row : MemoryRow} (h : memoryRecord py row = .ok record) :
    record.key = (.memory, row.memoryId) := by
  obtain ⟨_, -, h⟩ := bind_eq_ok.1 h
  cases h
  rfl

theorem summaries_section (py : Python) (db : HubDb Repository) (scope : Scope) : (∃ records,
      (summaryRows db scope).mapM (snapshotSummary py (latestEvents db scope)) = .ok records ∧
        SectionFold db scope .meetingSummary records) ↔
      ∀ id, (∃ row ∈ db.tables.meetings, row.scope = scope ∧ row.minutesJson.isSome ∧ row.id = id) ↔
          (db.latestEvent scope .meetingSummary id).isSome := by
  have h := section_iff (·.id) (latestEvents db scope) .meetingSummary
    (nodup_summaryRows db scope) fun row record (h : summaryRecord py row = .ok record) =>
      key_of_summaryRecord h
  simp only [find?_latestEvents, mem_summaryRows, and_assoc] at h
  exact h

theorem memories_section (py : Python) (db : HubDb Repository) (scope : Scope) : (∃ records,
      (memoryRows db scope).mapM (snapshotMemory py (latestEvents db scope)) = .ok records ∧
        SectionFold db scope .memory records) ↔
      ∀ id, (∃ row ∈ db.tables.memories,
        row.scope = scope ∧ row.status = .active ∧ row.memoryId = id) ↔
          (db.latestEvent scope .memory id).isSome := by
  have h := section_iff (·.memoryId) (latestEvents db scope) .memory
    (nodup_memoryRows db scope) fun row record (h : memoryRecord py row = .ok record) =>
      key_of_memoryRecord h
  simp only [find?_latestEvents, mem_memoryRows, and_assoc] at h
  exact h

theorem transcripts_section (py : Python) (hs : EventsSound db) (scope : Scope) : (∃ records,
      snapshotTranscripts py (db.tables.segments.ofScope scope) (transcriptEvents db scope) =
        .ok records ∧ SectionFold db scope .transcriptSegment records) ↔
      (∀ row ∈ db.tables.segments, row.scope = scope →
        ∃ event, db.LatestTranscript scope event ∧ transcriptEventMatchesRow py event row) ∧
      ∀ event, db.LatestTranscript scope event → (∃ row ∈ db.tables.segments, row.scope = scope ∧
          transcriptEventMatchesRow py event row) →
        ∃ row ∈ db.tables.segments, row.scope = scope ∧ transcriptEventMatchesRow py event row ∧
          ∀ event', db.LatestTranscript scope event' →
            transcriptEventMatchesRow py event' row → event'.cursor ≤ event.cursor := by
  have hlog : ∀ event ∈ transcriptEvents db scope, event ∈ db.eventsOf scope := fun event h =>
    (key_of_latestEvent (mem_transcriptEvents.1 h).2).1
  have hcursor : ∀ a ∈ transcriptEvents db scope, ∀ b ∈ transcriptEvents db scope,
      a.cursor = b.cursor → a = b := by
    intro a ha b hb hab
    obtain ⟨ha, hsa⟩ := HubDb.mem_eventsOf.1 (hlog a ha)
    obtain ⟨hb, hsb⟩ := HubDb.mem_eventsOf.1 (hlog b hb)
    exact Table.eq_of_conflict ha hb ⟨hsa.trans hsb.symm, hab⟩
  have hrevision : ∀ event ∈ transcriptEvents db scope, 1 ≤ event.revision := by
    intro event h
    obtain ⟨operation, -, -, hrev⟩ := hs.produced event (HubDb.mem_eventsOf.1 (hlog event h)).1
    omega
  have h := transcripts_iff py (db.tables.segments.ofScope scope)
    (nodup_transcriptEvents db scope) (fun event h => (mem_transcriptEvents.1 h).1) hcursor
    hrevision
  simp only [find?_transcriptEvents, newest_eq_some hcursor, mem_matching, mem_ofScope,
    mem_transcriptEvents, and_assoc] at h
  refine h.trans (and_congr ?_ ?_)
  · exact ⟨fun h row hrow hscope => h row ⟨hrow, hscope⟩, fun h row hrow => h row hrow.1 hrow.2⟩
  refine forall₂_congr fun event hevent => imp_congr_right fun _ => exists_congr fun row => ?_
  refine and_congr_right fun _ => and_congr_right fun _ => ?_
  constructor
  · rintro ⟨-, hmatch, hmax⟩
    exact ⟨hmatch, fun event' hlatest hmatch' => hmax event' ⟨hlatest, hmatch'⟩⟩
  · rintro ⟨hmatch, hmax⟩
    exact ⟨hevent, hmatch, fun event' h => hmax event' h.1 h.2⟩

def SnapshotResult.ofType (result : SnapshotResult) : SyncEntityType → List SyncChangeRecord
  | .transcriptSegment => result.transcriptSegments
  | .meetingSummary => result.meetingSummaries
  | .memory => result.memories

variable {result : SnapshotResult}

/-- The records of a type are all in its section. -/
theorem filter_records
    (htype : ∀ entityType, ∀ record ∈ result.ofType entityType, record.entityType = entityType)
    (entityType : SyncEntityType) (id : String) :
    (result.records.filter fun record => record.key = (entityType, id)) =
      (result.ofType entityType).filter fun record => record.key = (entityType, id) := by
  have hother : ∀ other, other ≠ entityType →
      (result.ofType other).filter (fun record => record.key = (entityType, id)) = [] :=
    fun other hne => filter_other (htype other) hne id
  show ((result.ofType .transcriptSegment ++ result.ofType .meetingSummary) ++
    result.ofType .memory).filter _ = _
  rw [filter_append, filter_append]
  cases entityType with
  | transcriptSegment =>
    rw [hother .meetingSummary (by decide), hother .memory (by decide), append_nil, append_nil]
  | meetingSummary =>
    rw [hother .transcriptSegment (by decide), hother .memory (by decide), append_nil, nil_append]
  | memory =>
    rw [hother .transcriptSegment (by decide), hother .meetingSummary (by decide),
      nil_append, nil_append]

/-- The snapshot is the fold of the log when each of its sections is. -/
theorem isFold_iff
    (htype : ∀ entityType, ∀ record ∈ result.ofType entityType, record.entityType = entityType) :
    IsFold db scope result.records ↔
      ∀ entityType, SectionFold db scope entityType (result.ofType entityType) := by
  constructor
  · intro h entityType id
    rw [← filter_records htype]
    exact h.exact entityType id
  · intro h
    refine IsFold.mk_of_exact fun entityType id => ?_
    rw [filter_records htype]
    exact h entityType id

/-- The three sections of a result. -/
theorem result_eq_ok {reads : SnapshotReads} :
    reads.result py = .ok result ↔ result.cursor = reads.cursor ∧
      snapshotTranscripts py reads.segments (transcriptsOf reads.events) =
        .ok result.transcriptSegments ∧
      reads.meetings.mapM (snapshotSummary py (latest SyncEvent.key reads.events)) =
        .ok result.meetingSummaries ∧
      reads.memories.mapM (snapshotMemory py (latest SyncEvent.key reads.events)) =
        .ok result.memories := by
  unfold SnapshotReads.result
  constructor
  · intro h
    simp only [bind_eq_ok] at h
    obtain ⟨transcripts, htranscripts, summaries, hsummaries, memories, hmemories, h⟩ := h
    cases h
    exact ⟨rfl, htranscripts, hsummaries, hmemories⟩
  · rintro ⟨hcursor, htranscripts, hsummaries, hmemories⟩
    rw [htranscripts, ← hcursor]
    refine bind_eq_ok.2 ⟨_, rfl, bind_eq_ok.2 ⟨_, hsummaries, bind_eq_ok.2 ⟨_, hmemories, rfl⟩⟩⟩

theorem snapshot_eq_ok : snapshot py db scope = .ok result ↔ result.cursor = db.latestCursor scope ∧
      snapshotTranscripts py (db.tables.segments.ofScope scope) (transcriptEvents db scope) =
        .ok result.transcriptSegments ∧
      (summaryRows db scope).mapM (snapshotSummary py (latestEvents db scope)) =
        .ok result.meetingSummaries ∧
      (memoryRows db scope).mapM (snapshotMemory py (latestEvents db scope)) =
        .ok result.memories := result_eq_ok

theorem type_of_snapshot (h : snapshot py db scope = .ok result) (entityType : SyncEntityType) :
    ∀ record ∈ result.ofType entityType, record.entityType = entityType := by
  obtain ⟨-, htranscripts, hsummaries, hmemories⟩ := snapshot_eq_ok.1 h
  cases entityType with
  | transcriptSegment =>
    exact snapshotTranscripts_type (fun event h => (mem_transcriptEvents.1 h).1) htranscripts
  | meetingSummary =>
    exact type_of_section MeetingRow.id (fun _ _ => key_of_summaryRecord) hsummaries
  | memory => exact type_of_section MemoryRow.memoryId (fun _ _ => key_of_memoryRecord) hmemories

/-- A snapshot of a sound event log is its fold exactly when the tables and the
log name the same entities. -/
theorem snapshot_fold_iff (py : Python) (hs : EventsSound db) (scope : Scope) :
    (∃ result, snapshot py db scope = .ok result ∧ IsFold db scope result.records) ↔
      Agrees py db scope := by
  constructor
  · rintro ⟨result, hresult, hfold⟩
    have hsections := (isFold_iff (type_of_snapshot hresult)).1 hfold
    obtain ⟨-, htranscripts, hsummaries, hmemories⟩ := snapshot_eq_ok.1 hresult
    obtain ⟨hrows, hevents⟩ := (transcripts_section py hs scope).1
      ⟨_, htranscripts, hsections .transcriptSegment⟩
    exact {
      memories := (memories_section py db scope).1 ⟨_, hmemories, hsections .memory⟩
      summaries := (summaries_section py db scope).1 ⟨_, hsummaries, hsections .meetingSummary⟩
      rows := hrows
      transcripts := hevents }
  intro h
  obtain ⟨transcripts, htranscripts, hfold₁⟩ :=
    (transcripts_section py hs scope).2 ⟨h.rows, h.transcripts⟩
  obtain ⟨summaries, hsummaries, hfold₂⟩ := (summaries_section py db scope).2 h.summaries
  obtain ⟨memories, hmemories, hfold₃⟩ := (memories_section py db scope).2 h.memories
  have hresult : snapshot py db scope =
      .ok ⟨db.latestCursor scope, transcripts, summaries, memories⟩ :=
    snapshot_eq_ok.2 ⟨rfl, htranscripts, hsummaries, hmemories⟩
  refine ⟨_, hresult, (isFold_iff (type_of_snapshot hresult)).2 fun entityType => ?_⟩
  cases entityType with
  | transcriptSegment => exact hfold₁
  | meetingSummary => exact hfold₂
  | memory => exact hfold₃

/-- After any sequence of pushes of any devices, over any business tables. -/
theorem snapshot_isFold_iff (py : Python) (tables : Repository)
    (trace : List (Principal × PushRequest)) (scope : Scope) :
    (∃ result, snapshot py (run (pushStep (entities py)) (.fresh tables) trace) scope = .ok result ∧
      IsFold (run (pushStep (entities py)) (.fresh tables) trace) scope result.records) ↔
      Agrees py (run (pushStep (entities py)) (.fresh tables) trace) scope :=
  snapshot_fold_iff py (eventsSound_run (entities py) tables trace) scope

/-- A desktop pushes its memory `m1` under the entity id `desk:m1`. -/
def memoryTrace : List (Principal × PushRequest) :=
  [(⟨"t", "desk", "o"⟩,
    { operationId := "sync:desk:1", deviceId := "desk", entityType := .memory
      entityId := "desk:m1", baseRevision := 0, updatedAt := 0
      payload := [("memory_id", .str "m1"), ("content", .str "likes tea")] })]

/-- The snapshot has a record of the memory `m1`, which no event is about. -/
theorem snapshot_not_isFold_memory : ¬ ∃ result,
      snapshot .ascii (run (pushStep (entities .ascii)) (.fresh .empty) memoryTrace) ⟨"t", "o"⟩ =
        .ok result ∧
      IsFold (run (pushStep (entities .ascii)) (.fresh .empty) memoryTrace) ⟨"t", "o"⟩
        result.records := by
  rw [snapshot_fold_iff _ (eventsSound_run _ _ _)]
  intro h
  have hrow : ∃ row ∈ (run (pushStep (entities .ascii)) (.fresh .empty)
      memoryTrace).tables.memories.rows,
      row.scope = ⟨"t", "o"⟩ ∧ row.status = .active ∧ row.memoryId = "m1" := by decide +kernel
  have hevent : ((run (pushStep (entities .ascii)) (.fresh .empty) memoryTrace).latestEvent
      ⟨"t", "o"⟩ .memory "m1").isSome = false := by decide +kernel
  rw [(h.memories "m1").1 hrow] at hevent
  cases hevent

end Hub
