import EchoDesk.Desktop.PushResults
import EchoDesk.Desktop.Received
import EchoDesk.Desktop.Reconcile
import EchoDesk.Hub.ReadBack

/-! # From one desktop to another

A row of one desktop is queued, pushed, read back from the hub and applied by a
second desktop with an empty store (`Trip`). A transcript and a summary arrive as
they were when their texts fit the fields of the codecs; a memory never arrives,
since the hub does not keep when it was created.
-/

namespace Desktop

open EchoDesk Transaction Transition OrderedLog Hub List Dict Table SegmentFields MeetingRow Repository

/-! ## A desktop with an empty store -/

theorem classify_fresh (deviceId : String) (snapshot : Bool) (change : Change) {db : ClientDb}
    (hempty : db.entities = .empty) : classify deviceId snapshot change db = .write none [] := by
  unfold classify findLocalTranscriptAliases
  rw [hempty]
  show Verdict.write (if change.entityType = .transcriptSegment then [] else []).head?
    (if change.entityType = .transcriptSegment then [] else []) = _
  rw [ite_self]
  rfl

variable {py : Python}
variable {key : String} {canonical : Dict} {record : SyncChangeRecord} {repo : Repository}

/-- An empty store applies a record when it names its entity and its source, and the
entity can be written. -/
theorem applyChanges_fresh {deviceId : String} {snapshot : Bool} {drawn : Nat}
    {P : Repository → Prop} :
    (∃ db', applyChanges py deviceId snapshot [changeResponse py record] (.fresh drawn) =
        (.ok [.applied], db') ∧ P db'.repo) ↔
      (Written record.entityId ∧ Written record.sourceDeviceId) ∧ ∃ repo,
        Returns (applyEntity py record.entityType record.payload none) .empty () repo ∧ P repo := by
  constructor
  · rintro ⟨db', happly, hP⟩
    rw [applyChanges_eq_ok] at happly
    obtain ⟨result, db₁, more, hchange, hrest, hresults⟩ := applyAll_cons.1 happly
    obtain ⟨rfl, rfl⟩ := applyAll_nil.1 hrest
    obtain rfl : result = .applied := (cons.inj hresults).1
    cases applyChange_returns hchange with
    | new header revision _ _ hdecode _ _ happlied =>
      by_cases hnamed : Written record.entityId ∧ Written record.sourceDeviceId
      · rw [decodeHeader_response (written_standIn _ _ _) hnamed.1 hnamed.2] at hdecode
        have hheader := Option.some.inj (Except.ok.inj hdecode)
        cases happlied with
        | write current aliases repo hclass hrepo =>
          rw [classify_fresh deviceId snapshot _ rfl] at hclass
          obtain ⟨rfl, rfl⟩ := Verdict.write.inj hclass
          subst hheader
          rw [rememberOperation_repo] at hP
          rw [Option.map_none, ite_self] at hrepo
          exact ⟨hnamed, repo, hrepo, hP⟩
      · rw [decodeHeader_blank (not_and_or.1 hnamed)] at hdecode
        cases hdecode
  · rintro ⟨⟨hentity, hsource⟩, repo, hrepo, hP⟩
    have hchange := @applyChange_write py deviceId snapshot 0 record (.fresh drawn) none [] repo
      hentity hsource not_mem_nil (classify_fresh deviceId snapshot _ rfl)
      (by rw [Option.map_none, ite_self]; exact hrepo)
    refine ⟨_, applyChanges_eq_ok.2 (applyAll_cons.2 ⟨_, _, _, hchange, applyAll_nil.2 ⟨rfl, rfl⟩,
      rfl⟩), ?_⟩
    rw [rememberOperation_repo]
    exact hP

/-! ## What the second desktop stores -/

theorem ensureMeeting_empty (meetingId startedAt : String) (title : Option String)
    (state : MeetingState) : ∃ meetings : Table MeetingRow conflict,
      meetings.rows = [new localScope meetingId title state startedAt none "hub-remote"] ∧
      ∀ repo, Returns (ensureMeeting meetingId startedAt title state) .empty () repo ↔
        repo = ⟨meetings, .empty, empty⟩ := by
  obtain ⟨meetings, hins⟩ := insert?_of_fresh (t := empty.meetings)
    (r := new localScope meetingId title state startedAt none "hub-remote")
    fun a ha => absurd ha (not_mem_empty a)
  refine ⟨meetings, rows_of_insert? hins, fun repo => ?_⟩
  simp only [ensureMeeting, returns_get_bind]
  constructor
  · intro h
    rw [show empty.meeting localScope meetingId = none from rfl] at h
    simp only [insertMeeting?, hins, returns_bind, returns_orRaise, returns_set] at h
    obtain ⟨_, _, ⟨hsome, rfl⟩, rfl⟩ := h
    exact (Option.some.inj hsome).symm
  · rintro rfl
    rw [show empty.meeting localScope meetingId = none from rfl]
    simp only [insertMeeting?, hins, returns_bind, returns_orRaise, returns_set]
    exact ⟨_, _, ⟨rfl, rfl⟩, rfl⟩

variable {payload : Dict}

/-- A transcript is stored in an empty store with the fields it was decoded with. -/
theorem applySegment_empty {fields : SegmentFields} :
    (∃ repo, Returns (applySegment py payload none) .empty () repo ∧
        ∃ row ∈ localSegments repo, of row = fields) ↔
      decodeSegment py payload = .ok fields ∧ fields.bind = .ok fields := by
  have hlocal : ∀ (meetings : Table MeetingRow conflict) (segments : Segments)
      (stored : SegmentFields),
      segments.table.rows = [⟨stored.values localScope "hub-remote", 1⟩] →
      localSegments ⟨meetings, segments, empty⟩ = [⟨stored.values localScope "hub-remote", 1⟩] := by
    intro meetings segments stored hrows
    simp [localSegments, Segments.ofScope, hrows, values]
  constructor
  · rintro ⟨repo, happly, row, hrow, hfields⟩
    simp only [applySegment, returns_bind, returns_fromExcept, returns_get] at happly
    obtain ⟨decoded, _, ⟨hdecode, rfl⟩, _, repo₁, hmeeting, _, _, ⟨rfl, rfl⟩, existing, _,
      ⟨hexisting, rfl⟩, bound, _, ⟨hbind, rfl⟩, happly⟩ := happly
    cases hexisting
    obtain ⟨meetings, -, hensure⟩ := ensureMeeting_empty decoded.meetingId decoded.capturedAt
      (text py 512 (payload.read "meeting_title"))
      (safeState (py.str (payload.readOr "meeting_state" (.str "in_meeting"))))
    obtain rfl := (hensure _).1 hmeeting
    simp only [returns_bind, returns_orRaise, returns_set] at happly
    obtain ⟨⟨segments, id⟩, _, ⟨happend, rfl⟩, rfl⟩ := happly
    obtain ⟨-, hrows⟩ := Segments.rows_of_append? happend
    rw [hlocal meetings segments bound hrows, mem_singleton] at hrow
    obtain rfl : bound = fields := by rw [← hfields, hrow]; rfl
    obtain ⟨startMs, hstart, hrest⟩ := bind_eq_ok.1 hbind
    obtain ⟨endMs, hend, hrest⟩ := bind_eq_ok.1 hrest
    obtain rfl := Python.bindInt_ok hstart
    obtain rfl := Python.bindInt_ok hend
    cases hrest
    exact ⟨hdecode, hbind⟩
  · rintro ⟨hdecode, hbind⟩
    obtain ⟨meetings, -, hensure⟩ := ensureMeeting_empty fields.meetingId fields.capturedAt
      (text py 512 (payload.read "meeting_title"))
      (safeState (py.str (payload.readOr "meeting_state" (.str "in_meeting"))))
    obtain ⟨segments, happend⟩ := Segments.append?_of_lt (s := .empty) (by decide)
      (fields.values localScope "hub-remote")
    obtain ⟨-, hrows⟩ := Segments.rows_of_append? happend
    refine ⟨⟨meetings, segments, empty⟩, ?_, ⟨fields.values localScope "hub-remote", 1⟩, ?_, rfl⟩
    · simp only [applySegment, returns_bind, returns_fromExcept, returns_get]
      refine ⟨fields, _, ⟨hdecode, rfl⟩, ⟨⟩, _, (hensure _).2 rfl, _, _, ⟨rfl, rfl⟩, none, _,
        ⟨rfl, rfl⟩, fields, _, ⟨hbind, rfl⟩, ?_⟩
      simp only [returns_bind, returns_orRaise, returns_set]
      exact ⟨_, _, ⟨happend, rfl⟩, rfl⟩
    · rw [hlocal meetings segments fields hrows]
      exact mem_singleton_self _

/-- The meeting a summary makes in an empty store. -/
def SummaryFields.stored (fields : SummaryFields) : MeetingRow :=
  fields.write
    (MeetingRow.new localScope fields.meetingId fields.title fields.state fields.startedAt none
      "hub-remote")

/-- A summary is stored in an empty store with the columns it was decoded with. -/
theorem applySummary_empty {P : MeetingRow → Prop} :
    (∃ repo, Returns (applySummary py payload) .empty () repo ∧
        ∃ row ∈ repo.meetings, row.scope = localScope ∧ P row) ↔
      ∃ fields, decodeSummary py payload = .ok fields ∧ P fields.stored := by
  have hupdate : ∀ (fields : SummaryFields) (meetings : Table MeetingRow conflict),
      meetings.rows = [new localScope fields.meetingId fields.title fields.state
        fields.startedAt none "hub-remote"] →
      ∃ meetings' : Table MeetingRow conflict, meetings'.rows = [fields.stored] ∧
        (⟨meetings, .empty, empty⟩ : Repository).updateMeeting? localScope fields.meetingId
          fields.write = some ⟨meetings', .empty, empty⟩ := by
    intro fields meetings hrows
    refine ⟨⟨[fields.stored], pairwise_singleton _ _⟩, rfl, ?_⟩
    have hmap : (meetings.rows.map fun row =>
        if decide (row.scope = localScope ∧ row.id = fields.meetingId) then fields.write row
          else row) = [fields.stored] := by
      rw [hrows, map_singleton, if_pos (decide_eq_true ⟨rfl, rfl⟩)]
      rfl
    unfold updateMeeting? update?
    simp only [hmap]
    rw [dif_pos (pairwise_singleton _ _)]
    rfl
  constructor
  · rintro ⟨repo, happly, row, hrow, -, hP⟩
    simp only [applySummary, returns_bind, returns_fromExcept, returns_get, returns_orRaise,
      returns_set] at happly
    obtain ⟨fields, _, ⟨hdecode, rfl⟩, _, repo₁, hmeeting, _, _, ⟨rfl, rfl⟩, repo₂, _,
      ⟨hwrite, rfl⟩, rfl⟩ := happly
    obtain ⟨meetings, hrows, hensure⟩ := ensureMeeting_empty fields.meetingId fields.startedAt
      fields.title fields.state
    obtain rfl := (hensure _).1 hmeeting
    obtain ⟨meetings', hrows', hwrite'⟩ := hupdate fields meetings hrows
    cases hwrite'.symm.trans hwrite
    have hrow : row ∈ [fields.stored] := hrows' ▸ hrow
    rw [mem_singleton.1 hrow] at hP
    exact ⟨fields, hdecode, hP⟩
  · rintro ⟨fields, hdecode, hP⟩
    obtain ⟨meetings, hrows, hensure⟩ := ensureMeeting_empty fields.meetingId fields.startedAt
      fields.title fields.state
    obtain ⟨meetings', hrows', hwrite⟩ := hupdate fields meetings hrows
    refine ⟨⟨meetings', .empty, empty⟩, ?_, fields.stored, ?_, rfl, hP⟩
    · simp only [applySummary, returns_bind, returns_fromExcept, returns_get, returns_orRaise,
        returns_set]
      exact ⟨fields, _, ⟨hdecode, rfl⟩, ⟨⟩, _, (hensure _).2 rfl, _, _, ⟨rfl, rfl⟩, _, _,
        ⟨hwrite, rfl⟩, rfl⟩
    · show fields.stored ∈ meetings'.rows
      rw [hrows']
      exact mem_singleton_self _

variable {repo' : Repository} {fallbackId updatedAt : String}
variable {row : MeetingRow}

/-- A memory that does not say when it was created is not stored. -/
theorem applyMemory_uncreated (hcreated : payload.read "created_at" = .null) :
    ¬ Returns (applyMemory py payload) repo () repo' := by
  intro h
  simp only [applyMemory, returns_bind, returns_fromExcept] at h
  obtain ⟨row, _, ⟨hdecode, rfl⟩, -⟩ := h
  have hrequired := createdAt_of_decodeMemory hdecode
  rw [hcreated] at hrequired
  cases hrequired

/-! ## What arrives -/

/-- A transcript the hub kept is decoded as it was sent exactly when it fits. -/
theorem segment_arrives {py : Python} {fields : SegmentFields} {id : Nat} {updatedAt : String}
    (hbind : fields.bind = .ok fields) :
    decodeSegment py (canonicalTranscript (strip fields.meetingId) (strip fields.text)
        fields.startMs fields.endMs id (.ofText fields.speakerId) (.ofText fields.speakerLabel)
        (if fields.capturedAt = "" then updatedAt else fields.capturedAt)) = .ok fields ∧
      fields.bind = .ok fields ↔ fields.Fits := by
  rw [decodeSegment_eq_ok]
  constructor
  · rintro ⟨⟨hmeeting, hcaptured, htext, -, -, hspeaker, hlabel⟩, -⟩
    exact {
      meetingId := requiredText_str_eq_self.1 ((requiredText_strip _ _ _).symm.trans hmeeting)
      text := requiredText_str_eq_self.1 ((requiredText_strip _ _ _).symm.trans htext)
      capturedAt := requiredText_default_eq_self.1 hcaptured
      speakerId := text_ofText_eq_self.1 hspeaker
      speakerLabel := text_ofText_eq_self.1 hlabel }
  · intro h
    exact ⟨⟨(requiredText_strip _ _ _).trans (requiredText_str_eq_self.2 h.meetingId),
      requiredText_default_eq_self.2 h.capturedAt,
      (requiredText_strip _ _ _).trans (requiredText_str_eq_self.2 h.text), rfl, rfl,
      text_ofText_eq_self.2 h.speakerId, text_ofText_eq_self.2 h.speakerLabel⟩, hbind⟩

/-- The columns of a meeting that a summary sends. -/
structure SameSummary (a b : MeetingRow) : Prop where
  id : a.id = b.id
  title : a.title = b.title
  displayTitle : a.displayTitle = b.displayTitle
  startedAt : a.startedAt = b.startedAt
  endedAt : a.endedAt = b.endedAt
  finalizedAt : a.finalizedAt = b.finalizedAt
  minutesJson : a.minutesJson = b.minutesJson
  minutesStatus : a.minutesStatus = b.minutesStatus
  minutesError : a.minutesError = b.minutesError
  minutesClearedAt : a.minutesClearedAt = b.minutesClearedAt

/-- A payload of a summary that reads like the one of the row, but for the space
around its id and an `updated_at`. -/
structure SummarySent (payload : Dict) (row : MeetingRow) (fallbackId updatedAt : String) :
    Prop where
  id : payload.read "meeting_id" = .str (strip (if row.id = "" then fallbackId else row.id))
  updatedAt : payload.read "updated_at" = .str updatedAt
  rest : ∀ key, key ≠ "meeting_id" → key ≠ "updated_at" →
    payload.read key = (summaryPayload row).read key

theorem minutesStatus_eq_self {status : Option String}
    (h : payload.read "minutes_status" = .ofText status) :
    minutesStatus py payload = status ↔ ∀ s ∈ status, s ∈ validMinutesStates := by
  rw [minutesStatus, h]
  cases status with
  | none => exact ⟨fun _ s hs => (by cases hs), fun _ => rfl⟩
  | some s =>
    constructor
    · intro hfilter t ht
      cases ht
      exact of_decide_eq_true (Option.filter_eq_some_iff.1 hfilter).2
    · intro hvalid
      have hs := hvalid s rfl
      rw [Json.ofText, text_str_eq_self.2 ((by decide : ∀ status ∈ validMinutesStates, Fits 64 status) s hs)]
      exact Option.filter_eq_some_iff.2 ⟨rfl, decide_eq_true hs⟩

section

variable (h : SummarySent payload row fallbackId updatedAt)

include h

theorem minutesDeleted_sent : minutesDeleted payload = row.minutesJson.isNone := by
  rw [minutesDeleted, h.rest "deleted" (by decide) (by decide),
    h.rest "minutes_json" (by decide) (by decide)]
  show decide ((Json.bool row.minutesJson.isNone).truthy = true ∨
    Json.ofText row.minutesJson = .null) = _
  cases row.minutesJson <;> rfl

/-- The columns of a stored summary, from the payload it came with. -/
theorem stored_columns {fields : SummaryFields} (hdecode : decodeSummary py payload = .ok fields) :
    fields.stored.title = text py 512 (.ofText row.title) ∧
      fields.stored.displayTitle = text py 512 (.ofText row.displayTitle) ∧
      fields.stored.endedAt = text py 128 (.ofText row.endedAt) ∧
      fields.stored.finalizedAt = text py 128 (.ofText row.finalizedAt) ∧
      fields.stored.minutesJson = (if row.minutesJson.isNone then none
        else text py 1000000 (.ofText row.minutesJson)) ∧
      fields.stored.minutesStatus =
        (if row.minutesJson.isNone then none else minutesStatus py payload) ∧
      fields.stored.minutesError = (if row.minutesJson.isNone then none
        else text py 4000 (.ofText row.minutesError)) ∧
      fields.stored.minutesClearedAt = (if row.minutesJson.isNone then
        text py 128 (.ofText row.minutesClearedAt) else none) := by
  have hread : ∀ key, key ≠ "meeting_id" → key ≠ "updated_at" →
      payload.read key = (summaryPayload row).read key := h.rest
  obtain ⟨-, -, hfields⟩ := decodeSummary_eq_ok.1 hdecode
  unfold readSummary at hfields
  rw [minutesDeleted_sent h, hread "title" (by decide) (by decide),
    hread "display_title" (by decide) (by decide), hread "ended_at" (by decide) (by decide),
    hread "finalized_at" (by decide) (by decide), hread "minutes_json" (by decide) (by decide),
    hread "minutes_error" (by decide) (by decide),
    hread "minutes_cleared_at" (by decide) (by decide)] at hfields
  rw [hfields]
  exact ⟨rfl, rfl, rfl, rfl, rfl, rfl, rfl, rfl⟩

theorem startedAt_sent : payload.readOr "started_at" (payload.read "updated_at") =
      .str (if row.startedAt = "" then updatedAt else row.startedAt) := by
  rw [readOr, h.rest "started_at" (by decide) (by decide), h.updatedAt,
    show (summaryPayload row).read "started_at" = .str row.startedAt from rfl]
  by_cases hs : row.startedAt = ""
  · rw [if_pos hs, hs]
    rfl
  · rw [if_neg hs, if_pos]
    exact decide_eq_true hs

/-- A summary is decoded with the columns it was sent with exactly when it fits. -/
theorem summary_arrives :
    (∃ fields, decodeSummary py payload = .ok fields ∧ SameSummary fields.stored row) ↔
      SummaryFits row := by
  have hstatus : payload.read "minutes_status" = .ofText row.minutesStatus :=
    h.rest "minutes_status" (by decide) (by decide)
  constructor
  · rintro ⟨fields, hdecode, hsame⟩
    obtain ⟨hid, hstarted, -⟩ := decodeSummary_eq_ok.1 hdecode
    rw [h.id, requiredText_strip, show fields.meetingId = row.id from hsame.id] at hid
    rw [startedAt_sent h, show fields.startedAt = row.startedAt from hsame.startedAt] at hstarted
    obtain ⟨htitle, hdisplay, hended, hfinalized, hminutes, hstate, herror, hcleared⟩ :=
      stored_columns h hdecode
    rw [hsame.title] at htitle
    rw [hsame.displayTitle] at hdisplay
    rw [hsame.endedAt] at hended
    rw [hsame.finalizedAt] at hfinalized
    rw [hsame.minutesJson] at hminutes
    rw [hsame.minutesStatus] at hstate
    rw [hsame.minutesError] at herror
    rw [hsame.minutesClearedAt] at hcleared
    -- each field is read back as it was, so it passes its check
    refine {
      id := requiredText_default_eq_self.1 hid
      startedAt := requiredText_default_eq_self.1 hstarted
      title := text_ofText_eq_self.1 htitle.symm
      displayTitle := text_ofText_eq_self.1 hdisplay.symm
      endedAt := text_ofText_eq_self.1 hended.symm
      finalizedAt := text_ofText_eq_self.1 hfinalized.symm
      cleared := fun hnone => ?_
      written := fun hsome => ?_ }
    · have hisNone : row.minutesJson.isNone = true := by rw [hnone]; rfl
      rw [if_pos hisNone] at hstate herror hcleared
      exact ⟨hstate, herror, text_ofText_eq_self.1 hcleared.symm⟩
    have hisSome : ¬ row.minutesJson.isNone = true := by
      rw [Option.isNone_iff_eq_none, ← ne_eq, Option.ne_none_iff_isSome]
      exact hsome
    rw [if_neg hisSome] at hminutes hstate herror hcleared
    exact ⟨text_ofText_eq_self.1 hminutes.symm, (minutesStatus_eq_self hstatus).1 hstate.symm,
      text_ofText_eq_self.1 herror.symm, hcleared⟩
  intro hfits
  have hid : requiredText py 512 (payload.read "meeting_id") = .ok row.id := by
    rw [h.id, requiredText_strip]
    exact requiredText_default_eq_self.2 hfits.id
  have hstarted : requiredText py 128 (payload.readOr "started_at" (payload.read "updated_at")) =
      .ok row.startedAt := by
    rw [startedAt_sent h]
    exact requiredText_default_eq_self.2 hfits.startedAt
  have hdecode : decodeSummary py payload = .ok (readSummary py payload row.id row.startedAt) :=
    decodeSummary_eq_ok.2 ⟨hid, hstarted, rfl⟩
  obtain ⟨htitle, hdisplay, hended, hfinalized, hminutes, hstate, herror, hcleared⟩ :=
    stored_columns h hdecode
  have hminutesKept : (if row.minutesJson.isNone = true then none
        else text py 1000000 (.ofText row.minutesJson)) = row.minutesJson ∧
      (if row.minutesJson.isNone = true then none else minutesStatus py payload) =
        row.minutesStatus ∧
      (if row.minutesJson.isNone = true then none else text py 4000 (.ofText row.minutesError)) =
        row.minutesError ∧
      (if row.minutesJson.isNone = true then text py 128 (.ofText row.minutesClearedAt)
        else none) = row.minutesClearedAt := by
    by_cases hnone : row.minutesJson.isNone = true
    · obtain ⟨hnoStatus, hnoError, hclearedFits⟩ :=
        hfits.cleared (Option.isNone_iff_eq_none.1 hnone)
      simp only [if_pos hnone]
      exact ⟨(Option.isNone_iff_eq_none.1 hnone).symm, hnoStatus.symm, hnoError.symm,
        text_ofText_eq_self.2 hclearedFits⟩
    have hsome : row.minutesJson.isSome = true := by
      rwa [Option.isNone_iff_eq_none, ← ne_eq, Option.ne_none_iff_isSome] at hnone
    obtain ⟨hminutesFits, hvalid, herrorFits, hnotCleared⟩ := hfits.written hsome
    simp only [if_neg hnone]
    exact ⟨text_ofText_eq_self.2 hminutesFits, (minutesStatus_eq_self hstatus).2 hvalid,
      text_ofText_eq_self.2 herrorFits, hnotCleared.symm⟩
  obtain ⟨hminutesKept, hstatusKept, herrorKept, hclearedKept⟩ := hminutesKept
  exact ⟨_, hdecode, {
    id := rfl
    title := htitle.trans (text_ofText_eq_self.2 hfits.title)
    displayTitle := hdisplay.trans (text_ofText_eq_self.2 hfits.displayTitle)
    startedAt := rfl
    endedAt := hended.trans (text_ofText_eq_self.2 hfits.endedAt)
    finalizedAt := hfinalized.trans (text_ofText_eq_self.2 hfits.finalizedAt)
    minutesJson := hminutes.trans hminutesKept
    minutesStatus := hstate.trans hstatusKept
    minutesError := herror.trans herrorKept
    minutesClearedAt := hcleared.trans hclearedKept }⟩

end

/-! ## What the hub keeps of a pushed row -/

theorem read_dump_str {s : String} (h : payload.read key = .str s) :
    payload.dump.read key = .str s := by
  rw [read_dump, h]
  rfl

theorem read_dump_ofText {value : Option String} (h : payload.read key = .ofText value) :
    payload.dump.read key = .ofText value := by
  rw [read_dump, h]
  cases value <;> rfl

theorem textField_str {s : String} (default : String) (h : payload.read key = .str s) :
    textField py payload key default = if s = "" then default else s := by
  rw [textField, readOr, h]
  by_cases hs : s = ""
  · rw [if_pos hs, hs]
    rfl
  · rw [if_neg hs, if_pos (show (Json.str s).truthy = true from decide_eq_true hs)]
    rfl

theorem intField_int {n m default : Int} (h : payload.get? key = some (.int n))
    (hfield : intField py payload key default = .ok m) : m = n := by
  rw [intField, h] at hfield
  simp only [Option.getD_some, Python.int_int] at hfield
  split at hfield
  · cases hfield
  · exact (Except.ok.inj hfield).symm

/-- The payload the hub keeps of a transcript a desktop sent. -/
theorem kept_segment {row : SegmentRow} {scope : Scope} {startMs endMs : Int} {id : Nat}
    (h : TranscriptKept py (segmentPayload row).dump updatedAt repo' scope canonical startMs endMs
      id) :
    canonical = canonicalTranscript (strip row.meetingId) (strip row.text) row.startMs row.endMs id
        (.ofText row.speakerId) (.ofText row.speakerLabel)
        (if row.capturedAt = "" then updatedAt else row.capturedAt) ∧
      (of row).bind = .ok (of row) := by
  have hstart : startMs = row.startMs := by
    refine intField_int ?_ h.start
    rw [get?_dump]
    rfl
  have hend : endMs = row.endMs := by
    refine intField_int ?_ h.stop
    rw [get?_dump]
    rfl
  have hempty : ∀ s : String, (if s = "" then "" else s) = s := by
    intro s
    split
    · rename_i hs
      exact hs.symm
    · rfl
  constructor
  · rw [h.kept, textField_str "" (read_dump_str rfl), textField_str "" (read_dump_str rfl),
      textField_str updatedAt (read_dump_str rfl), hempty, hempty, hstart, hend,
      read_dump_ofText rfl, read_dump_ofText rfl]
  · obtain ⟨hboundStart, hboundEnd⟩ := h.bound
    rw [hstart] at hboundStart
    rw [hend] at hboundEnd
    exact bind_eq_ok.2 ⟨_, hboundStart, bind_eq_ok.2 ⟨_, hboundEnd, rfl⟩⟩

/-- The values of a summary are no dictionaries. -/
theorem read_dump_summary (row : MeetingRow) (key : String) :
    (summaryPayload row).dump.read key = (summaryPayload row).read key := by
  have hflat : ∀ entry ∈ summaryPayload row, entry.2.sortKeys = entry.2 := by
    have htext : ∀ value : Option String, (Json.ofText value).sortKeys = .ofText value := by
      intro value
      cases value <;> rfl
    intro entry hentry
    simp only [summaryPayload, mem_cons, not_mem_nil, or_false] at hentry
    rcases hentry with rfl | rfl | rfl | rfl | rfl | rfl | rfl | rfl | rfl | rfl | rfl <;>
      first | rfl | exact htext _
  rw [Dict.read_dump, Dict.read]
  rcases hget : (summaryPayload row).get? key with _ | value
  · rfl
  obtain ⟨before, after, hsplit, -⟩ := lookup_eq_some_iff.1 hget
  refine hflat (key, value) ?_
  rw [hsplit]
  exact mem_append_right _ mem_cons_self

/-- A summary the hub kept reads as it was sent. -/
theorem kept_summary {principal : Principal} {entityId : String}
    (h : SummaryKept py principal entityId (summaryPayload row).dump updatedAt repo repo'
      canonical) : SummarySent canonical row entityId updatedAt := by
  have hid : canonical.read "meeting_id" =
      .str (strip (if row.id = "" then entityId else row.id)) := by
    rw [h.kept, read_set, if_neg (by decide), read_set, if_pos rfl,
      textField_str entityId (read_dump_str rfl)]
  refine ⟨hid, ?_, fun key hmeeting hupdated => ?_⟩
  · rw [h.kept, read_set, if_pos rfl]
  · rw [h.kept, read_set, if_neg hupdated, read_set, if_neg hmeeting, read_dump_summary]

/-- The record of a summary's row reads as the event does. -/
theorem summaryRecord_reads (hwritten : Written updatedAt)
    (hminutes : row.minutesJson = some (py.dumps canonical))
    (hfinalized : row.finalizedAt = some updatedAt)
    (hid : canonical.read "meeting_id" = .str row.id)
    (hupdated : canonical.read "updated_at" = .str updatedAt)
    (h : summaryRecord py row = .ok record) (key : String) :
    record.payload.read key = canonical.read key := by
  obtain ⟨_, -, h⟩ := bind_eq_ok.1 h
  cases h
  have hne : updatedAt ≠ "" := by
    rintro rfl
    exact hwritten.strip_ne rfl
  have hoccurred : occurredAt row = updatedAt := by
    rw [occurredAt, hfinalized, orText, truthy, Option.filter_some, if_pos (decide_eq_true hne)]
    rfl
  rw [Hub.summaryPayload, hminutes, Option.bind_some, py.loads_dumps, hoccurred]
  rw [read_set, read_set]
  split
  · rename_i hkey
    rw [hkey, hupdated]
  split
  · rename_i hkey
    rw [hkey, hid]
  · rfl

/-! ## The trip of a row -/

/-- A row of one of the synced tables. -/
inductive LocalRow where
  | segment (row : SegmentRow)
  | summary (row : MeetingRow)
  | memory (row : MemoryRow)

def LocalRow.entity : LocalRow → LocalEntity
  | .segment row => .ofSegment row
  | .summary row => .ofMeeting row
  | .memory row => .ofMemory row

/-- The repository holds the row. -/
def LocalRow.In : LocalRow → Repository → Prop
  | .segment row, repo => row ∈ localSegments repo
  | .summary row, repo => row ∈ localSummaries repo
  | .memory row, repo => row ∈ localMemories repo

/-- The repository holds a row with the synced fields of this one. -/
def LocalRow.Stored : LocalRow → Repository → Prop
  | .segment row, repo => ∃ stored ∈ localSegments repo,
      SegmentFields.of stored = SegmentFields.of row
  | .summary row, repo => ∃ stored ∈ repo.meetings, stored.scope = localScope ∧
      SameSummary stored row
  | .memory row, repo => ∃ stored ∈ localMemories repo, memoryPayload stored = memoryPayload row

/-- The texts of the row fit the fields they are sent in. Nothing fits for a memory. -/
def LocalRow.Fits : LocalRow → Prop
  | .segment row => (SegmentFields.of row).Fits
  | .summary row => SummaryFits row
  | .memory _ => False

/-- A row is queued by one desktop, applied by the hub after any history of pushes,
read back, and given to a second desktop with an empty store. -/
structure Trip (py : Python) (datetime : String → Option Timestamp) where
  row : LocalRow
  deviceId : String
  now : Timestamp
  limit : Nat
  desktop : ClientDb
  desktop' : ClientDb
  queued : Nat
  stored : row.In desktop.repo
  reconciled : reconcileLocalChanges py deviceId now limit desktop = (.ok queued, desktop')
  operation : OutboxRow
  new : operation ∈ desktop'.outbox ∧ operation ∉ desktop.outbox
  about : operation.entityType = row.entity.entityType ∧
    operation.entityId = deviceId ++ ":" ++ row.entity.rawEntityId
  request : PushRequest
  sent : operation.request datetime = some request
  tables : Repository
  trace : List (Principal × PushRequest)
  principal : Principal
  result : PushResult
  hub' : HubDb Repository
  pushed : push (entities py) principal request
    (run (pushStep (entities py)) (.fresh tables) trace) = (.ok result, hub')
  applied : result.status = .applied
  event : SyncEvent
  produced : event ∈ hub'.events ∧
    event ∉ (run (pushStep (entities py)) (.fresh tables) trace).events
  record : SyncChangeRecord
  readBack : ReadBack py hub' event record
  other : String
  drawn : Nat
  snapshot : Bool

namespace Trip

variable {py : Python} {datetime : String → Option Timestamp}

/-- The hub before the push. -/
def hub (t : Trip py datetime) : HubDb Repository :=
  run (pushStep (entities py)) (.fresh t.tables) t.trace

/-- The device that the hub names as the source: the one that pushed the row, or, where
a snapshot makes the record of a meeting, the one the meeting belongs to. -/
def source (t : Trip py datetime) : String :=
  match t.row with
  | .summary row =>
    if t.record.cursor = 0 then meetingDevice t.hub.tables t.principal row.id
    else t.principal.deviceId
  | _ => t.principal.deviceId

/-- The second desktop applies the change and stores the row. -/
def Restores (t : Trip py datetime) : Prop :=
  ∃ db, applyChanges py t.other t.snapshot [changeResponse py t.record] (.fresh t.drawn) =
    (.ok [.applied], db) ∧ t.row.Stored db.repo

variable (t : Trip py datetime)

/-- The operation carries the row it is about. -/
theorem carries : t.operation.Carries t.deviceId t.row.entity := by
  obtain ⟨entity, hmem, hcarries⟩ := reconcile_carries t.reconciled t.new.1 t.new.2
  have hrow : t.row.entity ∈ localEntities t.desktop.repo := by
    have hstored := t.stored
    simp only [localEntities, mem_append, mem_map]
    cases hrow : t.row with
    | segment row => exact .inl (.inl ⟨row, by rwa [hrow] at hstored, rfl⟩)
    | summary row => exact .inl (.inr ⟨row, by rwa [hrow] at hstored, rfl⟩)
    | memory row => exact .inr ⟨row, by rwa [hrow] at hstored, rfl⟩
  have hid : entity.rawEntityId = t.row.entity.rawEntityId := by
    have happend := hcarries.entityId.symm.trans t.about.2
    rwa [String.append_right_inj] at happend
  rw [← localEntities_unique hmem hrow (hcarries.entityType.symm.trans t.about.1) hid]
  exact hcarries

theorem request_fields : t.request.entityType = t.row.entity.entityType ∧
      t.request.entityId = t.deviceId ++ ":" ++ t.row.entity.rawEntityId ∧
      t.request.payload = t.row.entity.payload.dump := by
  have hcarries := t.carries
  have hsent := t.sent
  unfold OutboxRow.request at hsent
  split at hsent
  · obtain ⟨_, -, hrequest⟩ := Option.map_eq_some_iff.1 hsent
    rw [← hrequest]
    exact ⟨hcarries.entityType, hcarries.entityId, hcarries.payloadJson⟩
  · cases hsent

theorem eventsSound : EventsSound t.hub' := by
  have hsound := eventsSound_push (entities py) t.principal t.request
    (eventsSound_run (entities py) t.tables t.trace)
  rwa [t.pushed] at hsound

/-- The event of the push, and how its payload came about. -/
theorem event_kept :
    t.event.scope = t.principal.scope ∧ t.event.entityType = t.row.entity.entityType ∧
      t.event.entityId = t.deviceId ++ ":" ++ t.row.entity.rawEntityId ∧
      t.event.sourceDeviceId = t.principal.deviceId ∧
      t.hub'.latestEvent t.event.scope t.event.entityType t.event.entityId = some t.event ∧
      ∃ revision current, Returns (applyEntityTx py t.principal t.row.entity.entityType
        t.event.entityId t.row.entity.payload.dump revision t.event.updatedAt current)
        t.hub.tables t.event.payload t.hub'.tables := by
  obtain ⟨htype, hid, hpayload⟩ := t.request_fields
  obtain ⟨hmem, hnew⟩ := t.produced
  have hpush := push_pushed (entities py) t.principal t.request
    (run (pushStep (entities py)) (.fresh t.tables) t.trace)
  have happlied := t.applied
  rw [t.pushed] at hpush
  unfold hub
  generalize run (pushStep (entities py)) (.fresh t.tables) t.trace = hub at hpush hnew
  generalize t.hub' = hub' at hpush hmem
  generalize t.result = result at hpush happlied
  cases hpush with
  | replayed | conflicting => cases happlied
  | applied current canonical tables events operations _ _ _ hwrite hevent _ =>
    rcases (mem_insert? hevent).1 hmem with hold | heq
    · exact absurd hold hnew
    rw [heq]
    refine ⟨rfl, htype, hid, rfl, ?_, current.1 + 1, current.2.2, ?_⟩
    · unfold HubDb.latestEvent
      have happend := @entityEvents_append _ hub ⟨events, operations, hub.deviceCursors, tables⟩
        _ (rows_of_insert? hevent) t.principal.scope t.request.entityType
        t.request.entityId
      rw [if_pos ⟨rfl, rfl, rfl⟩] at happend
      exact (congrArg List.getLast? happend).trans getLast?_concat
    · rw [← htype, ← hpayload]
      exact hwrite

/-- The id of the entity has the colon after the name of the desktop. -/
theorem event_written : Written t.event.entityId := by
  rw [t.event_kept.2.2.1]
  exact .append_left (.append_right ⟨':', by decide, by decide⟩)

/-- The second desktop gets the record of the event, unless the row is one that a
snapshot makes a record of. -/
theorem record_cases (hrow : t.row.entity.entityType = .transcriptSegment →
      ∃ id : Nat, t.event.payload.read "segment_id" = .int id) :
    t.record = t.event.toSyncChangeRecord ∨
      (t.row.entity.entityType = .meetingSummary ∧ ∃ row ∈ t.hub'.tables.meetings,
        row.scope = t.principal.scope ∧ row.id = t.event.rowId py ∧ row.minutesJson.isSome ∧
        summaryRecord py row = .ok t.record) ∨
      t.row.entity.entityType = .memory ∧ ∃ row, memoryRecord py row = .ok t.record := by
  obtain ⟨hscope, htype, -, -, hlatest, -⟩ := t.event_kept
  have hcases := readBack_cases t.eventsSound t.produced.1 hlatest (by rwa [htype]) t.readBack
  rwa [htype, hscope] at hcases

/-- What the second desktop makes of the row depends on the payload and the names of the
record it gets. -/
theorem restores_fresh : t.Restores ↔
    (Written t.record.entityId ∧ Written t.record.sourceDeviceId) ∧ ∃ repo,
      Returns (applyEntity py t.record.entityType t.record.payload none) .empty () repo ∧
        t.row.Stored repo := applyChanges_fresh

theorem restores_segment {row : SegmentRow} (hrow : t.row = .segment row) :
    t.Restores ↔ (of row).Fits ∧ Written t.source := by
  obtain ⟨-, htype, -, hdevice, -, revision, current, hwrite⟩ := t.event_kept
  rw [hrow] at htype hwrite
  have hkept : ∃ startMs endMs id, TranscriptKept py (segmentPayload row).dump
      (py.isoformat t.event.updatedAt) t.hub'.tables t.principal.scope t.event.payload startMs
      endMs id := by
    simp only [LocalRow.entity, LocalEntity.ofSegment, applyEntityTx] at hwrite
    exact applyTranscript_kept hwrite
  obtain ⟨startMs, endMs, id, hkept⟩ := hkept
  obtain ⟨hcanonical, hbind⟩ := kept_segment hkept
  have hrecord : t.record = t.event.toSyncChangeRecord := by
    rcases t.record_cases fun _ => ⟨id, by rw [hcanonical]; rfl⟩ with h | ⟨h, -⟩ | ⟨h, -⟩
    · exact h
    · rw [hrow] at h
      cases h
    · rw [hrow] at h
      cases h
  have hentity : Written t.record.entityId := by
    rw [hrecord]
    exact t.event_written
  have hsource : t.record.sourceDeviceId = t.source := by
    rw [hrecord, source, hrow]
    exact hdevice
  have hstored : (∃ repo, Returns (applySegment py t.record.payload none) .empty () repo ∧
      ∃ stored ∈ localSegments repo, of stored = of row) ↔
      (of row).Fits := by
    have harrives := @segment_arrives py (of row) id (py.isoformat t.event.updatedAt) hbind
    rw [show t.record.payload = t.event.payload by rw [hrecord], hcanonical, applySegment_empty]
    exact harrives
  have hfresh := t.restores_fresh
  rw [hrow, show t.record.entityType = .transcriptSegment by rw [hrecord]; exact htype,
    and_iff_right hentity, hsource] at hfresh
  exact hfresh.trans (and_comm.trans (and_congr_left' hstored))

/-- The record of a summary, of its event or of its row, reads as the hub kept it. -/
theorem summary_record (hrow : t.row = .summary row) :
    Written t.record.entityId ∧ t.record.entityType = .meetingSummary ∧
      (SummaryFits row → t.record.sourceDeviceId = t.source) ∧
      SummarySent t.record.payload row t.event.entityId (py.isoformat t.event.updatedAt) := by
  obtain ⟨-, htype, -, hdevice, -, revision, current, hwrite⟩ := t.event_kept
  rw [hrow] at htype hwrite
  have hkept : SummaryKept py t.principal t.event.entityId (summaryPayload row).dump
      (py.isoformat t.event.updatedAt) t.hub.tables t.hub'.tables t.event.payload := by
    exact applySummary_kept hwrite
  have hsent := kept_summary hkept
  rcases t.record_cases (fun h => (by rw [hrow] at h; cases h)) with
    h | ⟨-, stored, hmem, hscope, hstored, -, hrecord⟩ | ⟨h, -⟩
  · have hcursor : t.record.cursor ≠ 0 := by
      rw [h]
      exact Nat.ne_of_gt ((t.eventsSound.dense t.event.scope).pos_of_mem
        (HubDb.mem_eventsOf.2 ⟨t.produced.1, rfl⟩))
    rw [source, hrow]
    dsimp only
    rw [if_neg hcursor, h]
    exact ⟨t.event_written, htype, fun _ => hdevice, hsent⟩
  · have hid : t.event.payload.read "meeting_id" =
        .str (strip (textField py (summaryPayload row).dump "meeting_id" t.event.entityId)) := by
      rw [hkept.kept, read_set, if_neg (by decide), read_set, if_pos rfl]
    have hsame : stored.id =
        strip (textField py (summaryPayload row).dump "meeting_id" t.event.entityId) := by
      rw [hstored, SyncEvent.rowId, htype]
      show py.str (t.event.payload.read "meeting_id") = _
      rw [hid, Python.str_str]
    obtain ⟨hminutes, hfinalized, howner⟩ := hkept.row stored hmem hscope hsame
    have hreads := summaryRecord_reads (py.isoformat_written _) hminutes hfinalized
      (hid.trans (by rw [hsame])) hsent.updatedAt hrecord
    have hentity : Written stored.id := by
      rw [hsame, written_iff, stripped_strip]
      exact hkept.meetingId
    obtain ⟨_, -, hbuild⟩ := bind_eq_ok.1 hrecord
    have hbuild := Except.ok.inj hbuild
    refine ⟨hbuild ▸ hentity, hbuild ▸ rfl, fun hfits => ?_,
      (hreads _).trans hsent.id, (hreads _).trans hsent.updatedAt,
      fun key hmeeting hupdated => (hreads key).trans (hsent.rest key hmeeting hupdated)⟩
    have hown : stored.id = row.id := by
      have hread := hid.symm.trans hsent.id
      rw [if_neg hfits.id.ne, show strip row.id = row.id from hfits.id.stripped] at hread
      exact hsame.trans (Json.str.inj hread)
    rw [source, hrow, ← hbuild]
    dsimp only
    rw [if_pos rfl, howner, hown]
  · rw [hrow] at h
    cases h

theorem restores_summary (hrow : t.row = .summary row) :
    t.Restores ↔ SummaryFits row ∧ Written t.source := by
  obtain ⟨hentity, hsummary, hsource, hsent⟩ := t.summary_record hrow
  have hstored : (∃ repo, Returns (applySummary py t.record.payload) .empty () repo ∧
      ∃ stored ∈ repo.meetings, stored.scope = localScope ∧ SameSummary stored row) ↔
      SummaryFits row := by
    rw [← summary_arrives hsent]
    exact applySummary_empty
  have hfresh := t.restores_fresh
  rw [hrow, hsummary, and_iff_right hentity] at hfresh
  refine (hfresh.trans (and_comm.trans (and_congr_left' hstored))).trans ?_
  exact and_congr_right fun hfits => by rw [hsource hfits]

/-- The record of a memory does not say when it was created, and the second desktop
requires it. -/
theorem not_restores_memory {row : MemoryRow} (hrow : t.row = .memory row) : ¬ t.Restores := by
  obtain ⟨-, htype, -, -, -, revision, current, hwrite⟩ := t.event_kept
  rw [hrow] at htype hwrite
  have hkept : t.event.payload.read "created_at" = .null := by
    exact applyMemory_kept hwrite
  have hrecord : t.record.entityType = .memory ∧ t.record.payload.read "created_at" = .null := by
    rcases t.record_cases (fun h => (by rw [hrow] at h; cases h)) with
      h | ⟨h, -⟩ | ⟨-, stored, hrecord⟩
    · rw [h]
      exact ⟨htype, hkept⟩
    · rw [hrow] at h
      cases h
    · obtain ⟨_, -, hbuild⟩ := bind_eq_ok.1 hrecord
      rw [← Except.ok.inj hbuild]
      exact ⟨rfl, rfl⟩
  intro hrestores
  obtain ⟨-, repo, happly, -⟩ := t.restores_fresh.1 hrestores
  rw [hrecord.1] at happly
  exact applyMemory_uncreated hrecord.2 happly

/-- A row is restored exactly when it fits the fields it is sent in, which no memory does,
and the hub names a source. -/
theorem restores_iff (t : Trip py datetime) : t.Restores ↔ t.row.Fits ∧ Written t.source := by
  cases hrow : t.row with
  | segment row => exact t.restores_segment hrow
  | summary row => exact t.restores_summary hrow
  | memory row => exact ⟨fun h => (t.not_restores_memory hrow h).elim, fun h => h.1.elim⟩

end Trip

/-- A memory of the desktop `desk`. -/
def teaMemory : MemoryRow where
  scope := localScope
  memoryId := "m1"
  kind := .preference
  content := "likes tea"
  normalizedContent := "likes tea"
  canonicalKey := "tea"
  subject := none
  confidence := "0.9"
  salience := "0.5"
  memoryScope := "owner"
  status := .active
  hitCount := 1
  sourceCount := 1
  userConfirmed := false
  createdAt := "2024-01-01"
  lastSeenAt := "2024-01-01"
  updatedAt := "2024-01-01"
  confirmedAt := none
  supersededAt := none
  supersededBy := none
  deletedAt := none
  revision := 1
  metadata := []

def teaDesktop : ClientDb :=
  { ClientDb.fresh 0 with repo := ⟨Table.empty, .empty, ⟨[teaMemory], List.pairwise_singleton _ _⟩⟩ }

def teaOperation : OutboxRow where
  operationId := "sync:desk:"
  deviceId := "desk"
  entityType := .memory
  entityId := "desk:m1"
  baseRevision := 0
  updatedAt := "2024-01-01"
  payloadJson := (memoryPayload teaMemory).dump
  state := .pending
  attempts := 0
  lastError := none
  createdAt := 0
  stateUpdatedAt := 0

def teaRequest : PushRequest :=
  ⟨"sync:desk:", "desk", .memory, "desk:m1", 0, 0, (memoryPayload teaMemory).dump⟩

def teaHub : HubDb Repository :=
  (push (entities .ascii) ⟨"t", "desk", "o"⟩ teaRequest (.fresh .empty)).2

/-- The trip of the memory, with the answer to its push and the event read back. -/
def teaTrip {result : PushResult}
    (hpush : (push (entities .ascii) ⟨"t", "desk", "o"⟩ teaRequest (.fresh .empty)).1 = .ok result)
    (happlied : result.status = .applied) {event : SyncEvent}
    (hpage : event ∈ window (fun event => event.cursor) 0 10 (teaHub.eventsOf ⟨"t", "o"⟩)) :
    Trip .ascii fun _ => some 0 where
  row := .memory teaMemory
  deviceId := "desk"
  now := 0
  limit := 200
  desktop := teaDesktop
  desktop' := (reconcileLocalChanges .ascii "desk" 0 200 teaDesktop).2
  queued := 1
  stored := mem_localMemories.2 ⟨List.mem_singleton_self _, rfl⟩
  reconciled := Prod.ext (by decide +kernel) rfl
  operation := teaOperation
  new := ⟨Table.mem_def.2 (by decide +kernel), List.not_mem_nil⟩
  about := by decide +kernel
  request := teaRequest
  sent := rfl
  tables := .empty
  trace := []
  principal := ⟨"t", "desk", "o"⟩
  result := result
  hub' := teaHub
  pushed := Prod.ext hpush rfl
  applied := happlied
  event := event
  produced := ⟨(HubDb.mem_eventsOf.1 (mem_of_mem_window hpage).1).1, List.not_mem_nil⟩
  record := event.toSyncChangeRecord
  readBack := .listChanges 0 10 (by
    rw [(HubDb.mem_eventsOf.1 (mem_of_mem_window hpage).1).2]
    exact List.mem_map_of_mem hpage) rfl
  other := "laptop"
  drawn := 0
  snapshot := false

/-- The memory is pushed and read back, and the second desktop refuses it. -/
theorem not_restores_tea : ∃ t : Trip .ascii fun _ => some 0,
    t.row = .memory teaMemory ∧ ¬ t.Restores := by
  have hstatus : (push (entities .ascii) ⟨"t", "desk", "o"⟩ teaRequest
      (.fresh .empty)).1.toOption.map (·.status) = some .applied := by decide +kernel
  obtain ⟨result, hresult, happlied⟩ := Option.map_eq_some_iff.1 hstatus
  have hpush : (push (entities .ascii) ⟨"t", "desk", "o"⟩ teaRequest (.fresh .empty)).1 =
      .ok result := by
    revert hresult
    cases (push (entities .ascii) ⟨"t", "desk", "o"⟩ teaRequest (.fresh .empty)).1 with
    | error e => exact fun h => (by cases h)
    | ok found => exact fun h => congrArg Except.ok (Option.some.inj h)
  have hlength : (window (fun event => event.cursor) 0 10 (teaHub.eventsOf ⟨"t", "o"⟩)).length =
      1 := by decide +kernel
  obtain ⟨event, hpage⟩ := List.length_eq_one_iff.1 hlength
  have hpage : event ∈ window (fun event => event.cursor) 0 10 (teaHub.eventsOf ⟨"t", "o"⟩) := by
    rw [hpage]
    exact List.mem_singleton_self event
  exact ⟨teaTrip hpush happlied hpage, rfl, Trip.not_restores_memory _ rfl⟩

end Desktop
