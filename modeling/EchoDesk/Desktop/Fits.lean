import EchoDesk.Desktop.Codec

/-! # What fits the fields of a change

A text comes back from `_text` as it was exactly when it is not empty, has no
space at its ends and keeps to the limit (`Fits`). A row comes back from the
codec of the desktop when all its texts fit.
-/

namespace Desktop

open EchoDesk Transaction Hub

/-- `_text` keeps the text. -/
structure Fits (limit : Nat) (s : String) : Prop where
  ne : s ≠ ""
  stripped : Stripped s
  length : s.toList.length ≤ limit

instance (limit : Nat) (s : String) : Decidable (Fits limit s) :=
  decidable_of_iff (s ≠ "" ∧ Stripped s ∧ s.toList.length ≤ limit)
    ⟨fun h => ⟨h.1, h.2.1, h.2.2⟩, fun h => ⟨h.1, h.2, h.3⟩⟩

/-- `_text` keeps a nullable text. -/
def OptFits (limit : Nat) (value : Option String) : Prop := ∀ s ∈ value, Fits limit s

instance (limit : Nat) (value : Option String) : Decidable (OptFits limit value) :=
  match value with
  | none => .isTrue fun _ h => by cases h
  | some s => decidable_of_iff (Fits limit s)
      ⟨fun h t ht => by rwa [← Option.some.inj ht], fun h => h s rfl⟩

theorem text_str (py : Python) (limit : Nat) (s : String) :
    text py limit (.str s) = if strip s = "" then none else some (slice limit (strip s)) := by
  rw [text, if_neg (by simp)]
  rfl

/-- What was stripped reads as before. -/
theorem text_strip (py : Python) (limit : Nat) (s : String) :
    text py limit (.str (strip s)) = text py limit (.str s) := by
  rw [text_str, text_str, show strip (strip s) = strip s from stripped_strip s]

variable {limit : Nat} {s : String} {py : Python}
variable {payload : Dict}

theorem fits_of_slice (hne : s ≠ "") (h : slice limit (strip s) = s) : Fits limit s := by
  have hlist : (stripChars isSpace s.toList).take limit = s.toList := by
    rw [← toList_strip, ← toList_slice, h]
  have hlength := congrArg List.length hlist
  rw [List.length_take] at hlength
  have hle := length_stripChars_le isSpace s.toList
  refine ⟨hne, (stripped_iff s).2 (stripChars_eq_of_length (by omega)), by omega⟩

theorem text_str_eq_self : text py limit (.str s) = some s ↔ Fits limit s := by
  rw [text_str]
  constructor
  · intro h
    split at h
    · cases h
    rename_i hblank
    refine fits_of_slice (fun hs => hblank ?_) (Option.some.inj h)
    rw [hs]
    rfl
  · intro h
    have hstrip : strip s = s := h.stripped
    rw [hstrip, if_neg h.ne, slice_of_le h.length]

theorem text_ofText_eq_self {value : Option String} :
    text py limit (.ofText value) = value ↔ OptFits limit value := by
  cases value with
  | none => exact ⟨fun _ s h => (by cases h), fun _ => rfl⟩
  | some s =>
    constructor
    · intro h t ht
      rw [← Option.some.inj ht]
      exact text_str_eq_self.1 h
    · intro h
      exact text_str_eq_self.2 (h s rfl)

theorem requiredText_eq_ok {value : Json} :
    requiredText py limit value = .ok s ↔ text py limit value = some s ∧ s ≠ "" := by
  unfold requiredText
  constructor
  · intro h
    split at h
    · rename_i t htext
      split at h
      · cases h
      rename_i hne
      cases h
      exact ⟨htext, hne⟩
    · cases h
  · rintro ⟨htext, hne⟩
    rw [htext]
    exact if_neg hne

theorem requiredText_str_eq_self : requiredText py limit (.str s) = .ok s ↔ Fits limit s := by
  rw [requiredText_eq_ok, text_str_eq_self]
  exact ⟨And.left, fun h => ⟨h, h.ne⟩⟩

theorem requiredText_strip (py : Python) (limit : Nat) (s : String) :
    requiredText py limit (.str (strip s)) = requiredText py limit (.str s) := by
  rw [requiredText, text_strip]
  rfl

/-- A default that stands in for the empty text never reads as it. -/
theorem requiredText_default_eq_self {default : String} :
    requiredText py limit (.str (if s = "" then default else s)) = .ok s ↔ Fits limit s := by
  by_cases hs : s = ""
  · rw [if_pos hs]
    exact ⟨fun h => absurd hs (requiredText_eq_ok.1 h).2, fun h => absurd hs h.ne⟩
  · rw [if_neg hs, requiredText_str_eq_self]

/-! ## What the decoders read -/

theorem decodeSegment_eq_ok {fields : SegmentFields} : decodeSegment py payload = .ok fields ↔
      requiredText py 512 (payload.read "meeting_id") = .ok fields.meetingId ∧
      requiredText py 128 (payload.read "captured_at") = .ok fields.capturedAt ∧
      requiredText py 32000 (payload.read "text") = .ok fields.text ∧
      int py (payload.read "start_ms") 0 = .ok fields.startMs ∧
      int py (payload.read "end_ms") 0 = .ok fields.endMs ∧
      text py 8000 (payload.read "speaker_id") = fields.speakerId ∧
      text py 8000 (payload.read "speaker_label") = fields.speakerLabel := by
  unfold decodeSegment
  simp only [bind_eq_ok]
  constructor
  · rintro ⟨_, hmeeting, _, hcaptured, _, htext, _, hstart, _, hend, h⟩
    cases h
    exact ⟨hmeeting, hcaptured, htext, hstart, hend, rfl, rfl⟩
  · rintro ⟨hmeeting, hcaptured, htext, hstart, hend, hspeaker, hlabel⟩
    refine ⟨_, hmeeting, _, hcaptured, _, htext, _, hstart, _, hend, ?_⟩
    rw [hspeaker, hlabel]
    rfl

/-- The status a summary is stored with. -/
def minutesStatus (py : Python) (payload : Dict) : Option String :=
  (text py 64 (payload.read "minutes_status")).filter fun status => status ∈ validMinutesStates

/-- The payload says that there are no minutes. -/
def minutesDeleted (payload : Dict) : Bool :=
  (payload.read "deleted").truthy ∨ payload.read "minutes_json" = .null

/-- The fields of a summary, from its required ones. -/
def readSummary (py : Python) (payload : Dict) (meetingId startedAt : String) : SummaryFields where
  meetingId := meetingId
  startedAt := startedAt
  state := if (payload.read "finalized_at").truthy then .finalized else .ended
  title := text py 512 (payload.read "title")
  displayTitle := text py 512 (payload.read "display_title")
  endedAt := text py 128 (payload.read "ended_at")
  finalizedAt := text py 128 (payload.read "finalized_at")
  minutesJson :=
    if minutesDeleted payload then none else text py 1000000 (payload.read "minutes_json")
  minutesStatus := if minutesDeleted payload then none else minutesStatus py payload
  minutesError :=
    if minutesDeleted payload then none else text py 4000 (payload.read "minutes_error")
  minutesClearedAt :=
    if minutesDeleted payload then text py 128 (payload.read "minutes_cleared_at") else none

theorem decodeSummary_eq_ok {fields : SummaryFields} : decodeSummary py payload = .ok fields ↔
      requiredText py 512 (payload.read "meeting_id") = .ok fields.meetingId ∧
      requiredText py 128 (payload.readOr "started_at" (payload.read "updated_at")) =
        .ok fields.startedAt ∧
      fields = readSummary py payload fields.meetingId fields.startedAt := by
  unfold decodeSummary
  simp only [bind_eq_ok]
  have hdeleted : ∀ {α : Type} (a b : α),
      (if (payload.read "deleted").truthy = true ∨ payload.read "minutes_json" = .null then a
        else b) = if minutesDeleted payload = true then a else b := by
    intro α a b
    simp [minutesDeleted]
  constructor
  · rintro ⟨_, hmeeting, _, hstarted, h⟩
    cases h
    simp only [hdeleted]
    exact ⟨hmeeting, hstarted, rfl⟩
  · rintro ⟨hmeeting, hstarted, h⟩
    refine ⟨_, hmeeting, _, hstarted, ?_⟩
    simp only [hdeleted]
    rw [h]
    rfl

/-- A memory is not decoded without the time of its creation. -/
theorem createdAt_of_decodeMemory {scope : Scope} {row : MemoryRow}
    (h : decodeMemory py scope payload = .ok row) :
    requiredText py 128 (payload.read "created_at") = .ok row.createdAt := by
  unfold decodeMemory at h
  simp only [bind_eq_ok] at h
  obtain ⟨_, -, _, -, _, -, _, -, _, -, _, -, _, -, _, -, _, -, _, -, _, hcreated, _, -, _, -,
    _, -, _, -, _, -, _, -, h⟩ := h
  split at h
  · cases h
  · cases h
    exact hcreated

/-! ## The codecs of the rows -/

/-- A transcript comes back from `decodeSegment` as it was. -/
structure SegmentFields.Fits (fields : SegmentFields) : Prop where
  meetingId : Desktop.Fits 512 fields.meetingId
  text : Desktop.Fits 32000 fields.text
  capturedAt : Desktop.Fits 128 fields.capturedAt
  speakerId : OptFits 8000 fields.speakerId
  speakerLabel : OptFits 8000 fields.speakerLabel

/-- A meeting comes back from `decodeSummary` with the columns it was sent with. -/
structure SummaryFits (row : MeetingRow) : Prop where
  id : Fits 512 row.id
  startedAt : Fits 128 row.startedAt
  title : OptFits 512 row.title
  displayTitle : OptFits 512 row.displayTitle
  endedAt : OptFits 128 row.endedAt
  finalizedAt : OptFits 128 row.finalizedAt
  /-- A meeting without minutes has no status and no error of them. -/
  cleared : row.minutesJson = none → row.minutesStatus = none ∧ row.minutesError = none ∧
    OptFits 128 row.minutesClearedAt
  /-- Minutes have a known status, and were not cleared. -/
  written : row.minutesJson.isSome → OptFits 1000000 row.minutesJson ∧
    (∀ status ∈ row.minutesStatus, status ∈ validMinutesStates) ∧
    OptFits 4000 row.minutesError ∧ row.minutesClearedAt = none

end Desktop
