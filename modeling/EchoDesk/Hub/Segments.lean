import EchoDesk.Hub.Entities
import EchoDesk.Hub.Push

/-! # Which transcript writes which row

`meeting_segments` is one table for all scopes, and a desktop sends its own row
id as the `segment_id` of a transcript. The hub updates the row of the scope
with that id, inserts the row when there is none, and fails when the id is taken
in another scope. The rows of other scopes stay as they are in any case; the
rows of two transcripts of one scope are told apart only while their ids are.
-/

namespace Hub

open EchoDesk Transaction Transition List Option Table Python

/-! ## One write -/

/-- The row `id` was written with these values, and no other row. -/
structure Segments.Wrote (s s' : Segments) (id : Nat) (values : SegmentValues) : Prop where
  rows : ∀ row, row ∈ s' ↔ row = ⟨values, id⟩ ∨ row ∈ s ∧ row.id ≠ id
  scope : ∀ row ∈ s, row.id = id → row.scope = values.scope
  seq : s.seq ≤ s'.seq
  bounded : id ≤ s'.seq

/-- The row that the first numeral among some values stands for. -/
def numeralRow (py : Python) : List Json → Option Nat
  | [] => none
  | value :: values =>
    if value ≠ .null ∧ py.isdigit (py.str value) then (py.int value).toOption.map Int.toNat
    else numeralRow py values

/-- The checks that a payload of a transcript passes before a row is touched: it names a meeting
and has a text, its times are in order, and the driver takes its columns. -/
def WritableTranscript (py : Python) (payload : Dict) : Prop :=
  strip (textField py payload "meeting_id" "") ≠ "" ∧ strip (textField py payload "text" "") ≠ "" ∧
    (∃ startMs ∈ (intField py payload "start_ms" 0).toOption,
      ∃ endMs ∈ (intField py payload "end_ms" startMs).toOption, startMs ≤ endMs ∧
        (Python.bindInt startMs).isOk ∧ (Python.bindInt endMs).isOk) ∧
    (py.bindText (payload.read "speaker_id")).isOk ∧
    (py.bindText (payload.read "speaker_label")).isOk

instance (py : Python) (payload : Dict) : Decidable (WritableTranscript py payload) :=
  inferInstanceAs (Decidable (_ ∧ _))

/-- A transcript that passes the checks and names the row `id`, with a number that the driver
takes. -/
def NamesRow (py : Python) (entityId : String) (payload : Dict) (current : Option Dict)
    (id : Nat) : Prop :=
  WritableTranscript py payload ∧ (Python.bindInt id).isOk ∧
    numeralRow py (segmentIdCandidates py entityId payload current) = some id

variable {s : Segments} {repo repo' : Repository} {principal : Principal}
variable {meetingId entityId updatedAt : String} {e : SyncHubError} {py : Python} {revision : Nat}
variable {db : HubDb Repository}
variable {values : SegmentValues} {current : Option Dict} {request : PushRequest}
  {canonical payload : Dict}
variable {δ : Type} {event : SyncEvent} {id : Nat} {operation : SyncOperation} {occurredAt : String}
  {s' : Segments}

/-- An insert writes a row whose id was free. -/
theorem wrote_insert? (h : s.insert? ⟨values, id⟩ = some s') : Segments.Wrote s s' id values := by
  obtain ⟨hins, hseq⟩ := Segments.insert?_eq_some h
  have hfree : ∀ row ∈ s, row.id ≠ id := fun row hrow => fresh_of_insert? hins hrow
  refine ⟨fun row => ?_, fun row hrow hid => absurd hid (hfree row hrow), by omega, ?_⟩
  · rw [show row ∈ s' ↔ row ∈ s'.table from Iff.rfl, mem_insert? hins, or_comm]
    exact or_congr_right ⟨fun hrow => ⟨hrow, hfree row hrow⟩, And.left⟩
  · rw [hseq]
    exact Nat.le_max_right _ _

/-- An update of the row of a scope with an id writes that row. -/
theorem wrote_update {old : SegmentRow} (hold : old ∈ s) (hid : old.id = id)
    (hscope : old.scope = values.scope) :
    Segments.Wrote s
      (s.update (fun row => row.id = id ∧ row.scope = values.scope) fun _ => values) id values := by
  have hunique : ∀ row ∈ s, row.id = id → row = old := fun row hrow h =>
    eq_of_conflict hrow hold (h.trans hid.symm)
  have hsel : ∀ row ∈ s, row.id = id → row.scope = values.scope := fun row hrow h => by
    rw [hunique row hrow h, hscope]
  refine ⟨fun row => ?_, hsel, le_rfl, hid ▸ s.bounded old hold⟩
  rw [Segments.mem_update]
  constructor
  · rintro ⟨row', hrow', rfl⟩
    by_cases h : row'.id = id
    · exact .inl (by simp [h, hsel row' hrow' h])
    · exact .inr ⟨by simpa [h] using hrow', by simp [h]⟩
  · rintro (rfl | ⟨hrow, hne⟩)
    · exact ⟨old, hold, by simp [hid, hscope]⟩
    · exact ⟨row, hrow, by simp [hne]⟩

theorem isOk_of_eq {ε α : Type} {x : Except ε α} {a : α} (h : x = .ok a) : x.isOk = true := by
  rw [h]
  rfl

/-- `writeSegment` writes one row: the one of its id, or a new one. -/
theorem writeSegment_returns {id : Option Nat} {written : Nat}
    (h : Returns (writeSegment id values) repo written repo') :
    Segments.Wrote repo.segments repo'.segments written values ∧
      (id = some written ∧ (bindInt written).isOk ∨
        id = none ∧ written = repo.segments.seq + 1) := by
  simp only [writeSegment, returns_get_bind] at h
  split at h
  · simp only [returns_bind, returns_orRaise, returns_set, returns_pure] at h
    obtain ⟨⟨segments, id⟩, _, ⟨happend, rfl⟩, _, _, rfl, rfl, rfl⟩ := h
    unfold Segments.append? at happend
    split at happend
    · obtain ⟨s', hins, heq⟩ := map_eq_some_iff.1 happend
      cases heq
      exact ⟨wrote_insert? hins, .inr ⟨rfl, rfl⟩⟩
    · cases happend
  rename_i n
  simp only [returns_bind, returns_fromExcept] at h
  obtain ⟨m, _, ⟨hbind, rfl⟩, h⟩ := h
  rw [library_eq_ok] at hbind
  obtain rfl : m = (n : Int) := bindInt_ok hbind
  rw [Int.toNat_natCast] at h
  split at h
  · rename_i hany
    obtain ⟨_, _, rfl, rfl, rfl⟩ := h
    obtain ⟨old, hold, hsel⟩ := any_eq_true.1 hany
    obtain ⟨hid, hscope⟩ := of_decide_eq_true hsel
    exact ⟨wrote_update hold hid hscope, .inl ⟨rfl, isOk_of_eq hbind⟩⟩
  · simp only [returns_bind, returns_orRaise, returns_set, returns_pure] at h
    obtain ⟨segments, _, ⟨hins, rfl⟩, _, _, rfl, rfl, rfl⟩ := h
    exact ⟨wrote_insert? hins, .inl ⟨rfl, isOk_of_eq hbind⟩⟩

/-- It fails on a unique index only when the id is taken in another scope. -/
theorem writeSegment_raises {id : Option Nat}
    (h : Raises (writeSegment id values) repo .integrityError) :
    ∃ n, (id = some n ∧ (bindInt n).isOk) ∧
      ∃ row ∈ repo.segments, row.id = n ∧ row.scope ≠ values.scope := by
  simp only [writeSegment, raises_get_bind] at h
  split at h
  · simp only [raises_bind, raises_orRaise, raises_set, raises_pure, reduceCtorEq, and_false,
      exists_false, or_false] at h
  rename_i n
  simp only [raises_bind, raises_fromExcept, returns_fromExcept] at h
  rcases h with h | ⟨m, _, ⟨hbind, rfl⟩, h⟩
  · exact absurd h (library_ne_integrityError _)
  rw [library_eq_ok] at hbind
  obtain rfl : m = (n : Int) := bindInt_ok hbind
  rw [Int.toNat_natCast] at h
  split at h
  · simp only [raises_bind, raises_set, raises_pure, exists_false, and_false, or_false] at h
  rename_i hany
  simp only [raises_bind, raises_orRaise, raises_set, raises_pure, exists_false, and_false,
    or_false, and_true] at h
  obtain ⟨row, hrow, hid⟩ := Segments.insert?_eq_none h
  refine ⟨n, ⟨rfl, isOk_of_eq hbind⟩, row, hrow, hid, fun hscope => hany ?_⟩
  exact any_eq_true.2 ⟨row, hrow, decide_eq_true ⟨hid, hscope⟩⟩

/-! ## One transcript -/

/-- The meeting of a transcript can always be inserted: it is not active. -/
theorem ensureMeeting_raises : ¬ Raises (ensureMeeting principal meetingId occurredAt) repo e := by
  intro h
  simp only [ensureMeeting, raises_get_bind] at h
  split at h
  · exact raises_pure.1 h
  rename_i hnone
  simp only [raises_bind, raises_orRaise, raises_set, and_false, exists_false, or_false,
    Repository.insertMeeting?, map_eq_none_iff] at h
  obtain ⟨row, hrow, hscope, hsame⟩ := insert?_eq_none h.1
  rcases hsame with hid | ⟨-, hstate⟩
  · have := lookup_eq_none.1 hnone row hrow
    exact of_decide_eq_false this ⟨hscope, hid⟩
  · cases hstate

theorem ensureMeeting_returns {u : Unit}
    (h : Returns (ensureMeeting principal meetingId occurredAt) repo u repo') :
    repo'.segments = repo.segments := by
  simp only [ensureMeeting, returns_get_bind] at h
  split at h
  · rw [(returns_pure.1 h).2]
  simp only [returns_bind, returns_orRaise, returns_set] at h
  obtain ⟨_, _, ⟨hins, rfl⟩, rfl⟩ := h
  obtain ⟨meetings, -, rfl⟩ := map_eq_some_iff.1 hins
  rfl

theorem segmentValues_ok {text : String} {startMs endMs : Int} {capturedAt : String}
    (h : segmentValues py principal payload meetingId text startMs endMs capturedAt = .ok values) :
    values.scope = principal.scope ∧ (bindInt startMs).isOk ∧ (bindInt endMs).isOk ∧
      (py.bindText (payload.read "speaker_id")).isOk ∧
      (py.bindText (payload.read "speaker_label")).isOk := by
  simp only [segmentValues, bind_eq_ok] at h
  obtain ⟨_, hstart, _, hend, _, hid, _, hlabel, h⟩ := h
  cases h
  exact ⟨rfl, isOk_of_eq hstart, isOk_of_eq hend, isOk_of_eq hid, isOk_of_eq hlabel⟩

/-- What the code takes for the row of a transcript is what its first numeral stands for. -/
theorem numeralRow_of_segmentId (h : segmentId py entityId payload current = .ok (some id)) :
    numeralRow py (segmentIdCandidates py entityId payload current) = some id := by
  dsimp only [segmentId] at h
  revert h
  induction segmentIdCandidates py entityId payload current with
  | nil => exact fun h => (by cases h)
  | cons value values ih =>
    intro h
    rw [numeralRow]
    by_cases hnumeral : value ≠ .null ∧ py.isdigit (py.str value)
    · rw [if_pos hnumeral]
      rw [find?_cons_of_pos (by simpa using hnumeral)] at h
      obtain ⟨n, hn, h⟩ := bind_eq_ok.1 h
      cases h
      rw [hn]
      rfl
    · rw [if_neg hnumeral]
      rw [find?_cons_of_neg (by simpa using hnumeral)] at h
      exact ih h

/-- The checks of `applyTranscript`, in its order. -/
theorem writable_of_checked {startMs endMs : Int}
    (hnamed : ¬ (strip (textField py payload "meeting_id" "") = "" ∨
      strip (textField py payload "text" "") = ""))
    (hstart : intField py payload "start_ms" 0 = .ok startMs)
    (hend : intField py payload "end_ms" startMs = .ok endMs) (horder : ¬ endMs < startMs)
    (hcolumns : (bindInt startMs).isOk ∧ (bindInt endMs).isOk ∧
      (py.bindText (payload.read "speaker_id")).isOk ∧
      (py.bindText (payload.read "speaker_label")).isOk) : WritableTranscript py payload := by
  obtain ⟨hmeeting, htext⟩ := not_or.1 hnamed
  obtain ⟨hstartMs, hendMs, hspeakers⟩ := hcolumns
  refine ⟨hmeeting, htext, ⟨startMs, ?_, endMs, ?_, Int.not_lt.1 horder, hstartMs, hendMs⟩,
    hspeakers⟩
  · rw [hstart]
    rfl
  · rw [hend]
    rfl

/-- A transcript writes one row, and says which. -/
theorem applyTranscript_returns
    (h : Returns (applyTranscript py principal entityId payload updatedAt current) repo canonical
      repo') :
    ∃ id values, Segments.Wrote repo.segments repo'.segments id values ∧
      values.scope = principal.scope ∧ canonical.read "segment_id" = .int id ∧
      (NamesRow py entityId payload current id ∨ id = repo.segments.seq + 1) := by
  obtain ⟨hnamed, h⟩ := returns_guard.1 h
  simp only [returns_bind, returns_fromExcept, returns_ite, returns_throw, and_false, false_or] at h
  obtain ⟨startMs, _, ⟨hstart, rfl⟩, endMs, _, ⟨hend, rfl⟩, horder, claimed, _, ⟨hclaimed, rfl⟩, _,
    repo₁, hmeeting, values, _, ⟨hvalues, rfl⟩, id, repo₂, hwrite, h⟩ := h
  obtain ⟨rfl, rfl⟩ := returns_pure.1 h
  obtain ⟨hwrote, hid⟩ := writeSegment_returns hwrite
  rw [ensureMeeting_returns hmeeting] at hwrote hid
  obtain ⟨hscope, hcolumns⟩ := segmentValues_ok (library_eq_ok.1 hvalues)
  refine ⟨id, values, hwrote, hscope, rfl, ?_⟩
  rcases hid with ⟨rfl, hbind⟩ | ⟨-, rfl⟩
  · refine .inl ⟨writable_of_checked hnamed hstart hend horder hcolumns, hbind, ?_⟩
    exact numeralRow_of_segmentId (library_eq_ok.1 hclaimed)
  · exact .inr rfl

/-- It fails on a unique index only when it claims a row of another scope. -/
theorem applyTranscript_raises
    (h : Raises (applyTranscript py principal entityId payload updatedAt current) repo
      .integrityError) :
    ∃ id, NamesRow py entityId payload current id ∧
      ∃ row ∈ repo.segments, row.id = id ∧ row.scope ≠ principal.scope := by
  rcases raises_ite.1 h with ⟨-, h⟩ | ⟨hnamed, h⟩
  · cases raises_throw.1 h
  simp only [raises_bind, raises_fromExcept, returns_fromExcept, raises_ite, raises_throw,
    raises_pure, intField_ne_integrityError, library_ne_integrityError, ensureMeeting_raises,
    false_or, or_false, and_false, exists_false, reduceCtorEq] at h
  obtain ⟨startMs, _, ⟨hstart, rfl⟩, endMs, _, ⟨hend, rfl⟩, horder, claimed, _, ⟨hclaimed, rfl⟩, _,
    repo₁, hmeeting, values, _, ⟨hvalues, rfl⟩, hwrite⟩ := h
  obtain ⟨id, ⟨rfl, hbind⟩, row, hrow, hid, hscope⟩ := writeSegment_raises hwrite
  rw [ensureMeeting_returns hmeeting] at hrow
  obtain ⟨howner, hcolumns⟩ := segmentValues_ok (library_eq_ok.1 hvalues)
  rw [howner] at hscope
  refine ⟨id, ⟨writable_of_checked hnamed hstart hend horder hcolumns, hbind, ?_⟩, row, hrow, hid,
    hscope⟩
  exact numeralRow_of_segmentId (library_eq_ok.1 hclaimed)

theorem applySummary_returns
    (h : Returns (applySummary py principal entityId payload updatedAt) repo canonical repo') :
    repo'.segments = repo.segments := by
  obtain ⟨-, h⟩ := returns_guard.1 h
  simp only [returns_bind, returns_get] at h
  obtain ⟨_, repo₁, hmeeting, _, _, ⟨rfl, rfl⟩, h⟩ := h
  split at h
  · exact (returns_throw.1 h).elim
  simp only [returns_bind, returns_orRaise, returns_set, returns_pure] at h
  obtain ⟨repo₂, _, ⟨hupdate, rfl⟩, _, _, rfl, -, rfl⟩ := h
  obtain ⟨meetings, -, rfl⟩ := map_eq_some_iff.1 hupdate
  show repo₁.segments = repo.segments
  exact ensureMeeting_returns hmeeting

theorem applyMemory_returns
    (h : Returns (applyMemory py principal entityId payload revision updatedAt) repo canonical
      repo') : repo'.segments = repo.segments := by
  simp only [applyMemory, returns_bind, returns_fromExcept, returns_get, returns_orRaise,
    returns_set, returns_pure] at h
  obtain ⟨values, _, ⟨-, rfl⟩, _, _, ⟨rfl, rfl⟩, repo₁, _, ⟨hwrite, rfl⟩, _, _, rfl, -, rfl⟩ := h
  split at hwrite
  · unfold Repository.insertMemory? at hwrite
    split at hwrite
    · obtain ⟨memories, -, rfl⟩ := map_eq_some_iff.1 hwrite
      rfl
    · cases hwrite
  · unfold Repository.updateMemory? at hwrite
    split at hwrite
    · obtain ⟨memories, -, rfl⟩ := map_eq_some_iff.1 hwrite
      rfl
    · cases hwrite

/-! ## One push -/

/-- The event is of a transcript that was written to the row `id`. -/
def SyncEvent.WroteRow (event : SyncEvent) (id : Nat) : Prop :=
  event.entityType = .transcriptSegment ∧ event.payload.read "segment_id" = .int id

instance (event : SyncEvent) (id : Nat) : Decidable (event.WroteRow id) :=
  inferInstanceAs (Decidable (_ ∧ _))

/-- The checks of `push` before its transaction, and that its operation is new. -/
def Admitted (db : HubDb Repository) (principal : Principal) (request : PushRequest) : Prop :=
  request.deviceId = principal.deviceId ∧
    ¬ "capture:".toList.isPrefixOf request.operationId.toList ∧
    ∀ operation ∈ db.operations.rows, operation.operationId ≠ request.operationId

instance (db : HubDb Repository) (principal : Principal) (request : PushRequest) :
    Decidable (Admitted db principal request) :=
  inferInstanceAs (Decidable (_ ∧ _))

/-- The row that a push of a transcript names and touches: it passes every check before that. -/
def claimedRow (py : Python) (db : HubDb Repository) (principal : Principal)
    (request : PushRequest) : Option Nat :=
  match request.entityType, db.currentEntity (entities py) principal.scope request.entityType
      request.entityId with
  | .transcriptSegment, .ok current =>
    if Admitted db principal request ∧ request.baseRevision = current.1 ∧
        WritableTranscript py request.payload then
      (numeralRow py (segmentIdCandidates py request.entityId request.payload current.2.2)).filter
        fun id => (Python.bindInt id).isOk
    else none
  | _, _ => none

/-- The row a push names belongs to its scope, and no other transcript was written
to it. -/
def OwnRow (py : Python) (db : HubDb Repository) (l : Principal × PushRequest) : Prop :=
  ∀ id ∈ claimedRow py db l.1 l.2,
    (∀ row ∈ db.tables.segments.table.rows, row.id = id → row.scope = l.1.scope) ∧
    ∀ event ∈ db.events.rows, event.WroteRow id →
      event.scope = l.1.scope ∧ event.entityId = l.2.entityId

instance (py : Python) (db : HubDb Repository) (l : Principal × PushRequest) :
    Decidable (OwnRow py db l) :=
  inferInstanceAs (Decidable (∀ _ ∈ _, _))

theorem mem_claimedRow {current : Nat × Nat × Option Dict}
    (htype : request.entityType = .transcriptSegment)
    (hcurrent : db.currentEntity (entities py) principal.scope request.entityType
      request.entityId = .ok current)
    (hadmitted : Admitted db principal request) (hbase : request.baseRevision = current.1)
    (hnames : NamesRow py request.entityId request.payload current.2.2 id) :
    id ∈ claimedRow py db principal request := by
  obtain ⟨hwritable, hbind, hrow⟩ := hnames
  unfold claimedRow
  rw [hcurrent, htype]
  show id ∈ if _ then Option.filter _ _ else none
  rw [if_pos ⟨hadmitted, hbase, hwritable⟩, hrow]
  exact mem_filter_iff.2 ⟨rfl, hbind⟩

/-- No two transcripts were written to one row. -/
def RowsIsolated (db : HubDb Repository) : Prop :=
  ∀ a ∈ db.events, ∀ b ∈ db.events, ∀ id, a.WroteRow id → b.WroteRow id →
    a.scope = b.scope ∧ a.entityId = b.entityId

/-- A push keeps to the rows of its scope. -/
structure IsolatedPush (py : Python) (db : HubDb Repository) (principal : Principal)
    (request : PushRequest) : Prop where
  /-- The rows of other scopes stay as they are. -/
  others : ∀ row : SegmentRow, row.scope ≠ principal.scope →
    (row ∈ (push (entities py) principal request db).2.tables.segments ↔ row ∈ db.tables.segments)
  /-- A transcript does not fail on the key of the table. -/
  unblocked : request.entityType = .transcriptSegment →
    (push (entities py) principal request db).1 ≠ .error .integrityError
  /-- The event of a transcript names the one row that was written. -/
  named : ∀ event ∈ (push (entities py) principal request db).2.events, event ∉ db.events →
    event.entityType = .transcriptSegment → ∃ id values, event.WroteRow id ∧
      Segments.Wrote db.tables.segments
        (push (entities py) principal request db).2.tables.segments id values

/-- What an applied push did to the segments. -/
theorem applyEntity_segments
    (h : (entities py).applyEntity principal request.entityType request.entityId request.payload
      revision request.updatedAt current repo = (.ok canonical, repo')) :
    (request.entityType ≠ .transcriptSegment ∧ repo'.segments = repo.segments) ∨
      request.entityType = .transcriptSegment ∧ ∃ id values,
        Segments.Wrote repo.segments repo'.segments id values ∧
        values.scope = principal.scope ∧ canonical.read "segment_id" = .int id ∧
        (NamesRow py request.entityId request.payload current id ∨ id = repo.segments.seq + 1) := by
  have h : Returns (applyEntityTx py principal request.entityType request.entityId
    request.payload revision request.updatedAt current) repo canonical repo' := h
  unfold applyEntityTx at h
  split at h
  · rename_i htype
    exact .inr ⟨htype, applyTranscript_returns h⟩
  · rename_i htype
    rw [htype]
    exact .inl ⟨by decide, applySummary_returns h⟩
  · rename_i htype
    rw [htype]
    exact .inl ⟨by decide, applyMemory_returns h⟩

theorem wrote_others (h : Segments.Wrote s s' id values) {row : SegmentRow}
    (hscope : row.scope ≠ values.scope) : row ∈ s' ↔ row ∈ s := by
  rw [h.rows]
  constructor
  · rintro (rfl | ⟨hrow, -⟩)
    · exact absurd rfl hscope
    · exact hrow
  · intro hrow
    exact .inr ⟨hrow, fun hid => hscope (h.scope row hrow hid)⟩

/-- A push never touches the rows of another scope, and the event of a transcript
names its row. -/
theorem push_segments (py : Python) (principal : Principal) (request : PushRequest)
    (db : HubDb Repository) :
    (∀ row : SegmentRow, row.scope ≠ principal.scope →
      (row ∈ (push (entities py) principal request db).2.tables.segments ↔
        row ∈ db.tables.segments)) ∧
    ∀ event ∈ (push (entities py) principal request db).2.events, event ∉ db.events →
      event.entityType = .transcriptSegment → ∃ id values, event.WroteRow id ∧
        Segments.Wrote db.tables.segments
          (push (entities py) principal request db).2.tables.segments id values := by
  have h := push_pushed (entities py) principal request db
  generalize push (entities py) principal request db = out at h
  obtain ⟨outcome, db'⟩ := out
  cases h with
  | raised e | replayed | conflicting =>
    exact ⟨fun _ _ => Iff.rfl, fun event hev hnew => absurd hev hnew⟩
  | applied current canonical tables events operations hcurrent hbase hnew happly hevent hop =>
    rcases applyEntity_segments happly with ⟨htype, hsame⟩ | ⟨htype, id, values, hwrote, hscope,
      hid, -⟩
    · refine ⟨fun row _ => ?_, fun event hev hold hetype => ?_⟩
      · rw [hsame]
      rcases (mem_insert? hevent).1 hev with hev | rfl
      · exact absurd hev hold
      · exact absurd hetype htype
    · refine ⟨fun row hrow => wrote_others hwrote (hscope ▸ hrow), fun event hev hold _ => ?_⟩
      rcases (mem_insert? hevent).1 hev with hev | rfl
      · exact absurd hev hold
      · exact ⟨id, values, ⟨htype, hid⟩, hwrote⟩

/-! ## A push that names its own row does not fail -/

theorem insertEvent_raises {db : HubDb δ} (h : Raises (insertEvent event) db e) :
    db.events.insert? event = none := by
  simp only [insertEvent, raises_get_bind] at h
  split at h
  · exact (raises_set.1 h).elim
  · rename_i hnone
    exact hnone

theorem insertOperation_raises {db : HubDb δ} (h : Raises (insertOperation operation) db e) :
    db.operations.insert? operation = none := by
  simp only [insertOperation, raises_get_bind] at h
  split at h
  · exact (raises_set.1 h).elim
  · rename_i hnone
    exact hnone

theorem applyEntity_raises {adapter : Adapter δ} {db : HubDb δ}
    (h : Raises (applyEntity adapter principal request revision current) db e) :
    ∃ tables, adapter.applyEntity principal request.entityType request.entityId request.payload
      revision request.updatedAt current db.tables = (.error e, tables) := by
  simp only [applyEntity, raises_bind, raises_get, returns_get, raises_set, returns_set,
    false_or] at h
  obtain ⟨_, _, ⟨rfl, rfl⟩, _, _, rfl, h⟩ := h
  split at h
  · exact (raises_pure.1 h).elim
  rename_i e' herror
  rw [raises_throw] at h
  exact ⟨_, Prod.ext (herror.trans (congrArg _ h)) rfl⟩

/-- The next event of a scope collides with no event. -/
theorem insert?_nextCursor {db : HubDb δ} (hcursor : event.cursor = db.nextCursor event.scope) :
    db.events.insert? event ≠ none := by
  intro hnone
  obtain ⟨old, hold, hscope, hsame⟩ := insert?_eq_none hnone
  have hle := HubDb.le_latestCursor (HubDb.mem_eventsOf.2 ⟨hold, hscope⟩)
  have hnext : old.cursor = db.latestCursor event.scope + 1 := hsame.trans hcursor
  omega

/-- An operation with a new id collides with no operation. -/
theorem insert?_unknown {db : HubDb δ} (hnew : db.Unknown operation.operationId) :
    db.operations.insert? operation ≠ none := by
  intro hnone
  obtain ⟨old, hold, hsame⟩ := insert?_eq_none hnone
  exact hnew old hold hsame

/-- The reads of the business tables fail on no index. -/
theorem currentEntity_ne_integrityError (py : Python) (db : HubDb Repository) (scope : Scope)
    (entityType : SyncEntityType) (entityId : String) :
    db.currentEntity (entities py) scope entityType entityId ≠ .error .integrityError := by
  unfold HubDb.currentEntity
  split
  · exact fun h => (by cases h)
  have hstored : (entities py).storedEntity db.tables scope entityType entityId ≠
      .error .integrityError := by
    show storedEntity py db.tables scope entityType entityId ≠ _
    unfold storedEntity
    split
    · split
      · cases py.int (.str entityId) with
        | error e => exact fun h => (by cases h)
        | ok id =>
          show (library (bindInt id) >>= _) ≠ _
          cases bindInt id <;> exact fun h => (by cases h)
      · exact fun h => (by cases h)
    · exact fun h => (by cases h)
    · split <;> exact fun h => (by cases h)
  split
  · exact fun h => (by cases h)
  rename_i e herror
  intro h
  rw [herror, Except.error.inj h] at hstored
  exact hstored rfl

theorem pushTx_unblocked (hown : OwnRow py db (principal, request))
    (hdevice : request.deviceId = principal.deviceId)
    (hreserved : ¬ "capture:".toList.isPrefixOf request.operationId.toList)
    (htype : request.entityType = .transcriptSegment) :
    ¬ Raises (pushTx (entities py) principal request) db .integrityError := by
  intro h
  simp only [pushTx, raises_get_bind] at h
  split at h
  · split at h
    · cases raises_throw.1 h
    · exact raises_pure.1 h
  rename_i hfound
  have hnew : db.Unknown request.operationId := fun operation hmem =>
    of_decide_eq_false (lookup_eq_none.1 hfound operation hmem)
  rcases raises_bind.1 h with h | ⟨current, _, hread, h⟩
  · exact currentEntity_ne_integrityError _ _ _ _ _ (raises_fromExcept.1 h)
  obtain ⟨hcurrent, rfl⟩ := returns_fromExcept.1 hread
  split at h
  · -- a conflict is recorded under a new id
    rcases raises_bind.1 h with h | ⟨_, _, -, h⟩
    · exact insert?_unknown hnew (insertOperation_raises h)
    · exact raises_pure.1 h
  rename_i hbase
  rcases raises_bind.1 h with h | ⟨canonical, db₁, happly, h⟩
  · obtain ⟨tables, hraise⟩ := applyEntity_raises h
    have hraise : Raises (applyEntityTx py principal request.entityType request.entityId
      request.payload (current.1 + 1) request.updatedAt current.2.2) db.tables
      .integrityError := ⟨tables, hraise⟩
    rw [htype] at hraise
    obtain ⟨id, hnames, row, hrow, hrid, hscope⟩ := applyTranscript_raises hraise
    have hclaimed : id ∈ claimedRow py db principal request :=
      mem_claimedRow htype hcurrent ⟨hdevice, hreserved, hnew⟩ (not_not.1 hbase) hnames
    exact hscope ((hown id hclaimed).1 row hrow hrid)
  obtain ⟨tables, -, rfl⟩ := applyEntity_cases happly
  simp only [raises_bind, raises_get, returns_get, raises_set, raises_pure, false_or,
    and_false, exists_false, or_false] at h
  obtain ⟨_, _, ⟨rfl, rfl⟩, h⟩ := h
  rcases h with h | ⟨_, db₂, hevent, h⟩
  · exact insert?_nextCursor rfl (insertEvent_raises h)
  · obtain ⟨events, -, rfl⟩ := insertEvent_cases hevent
    exact insert?_unknown hnew (insertOperation_raises h)

theorem push_unblocked (hown : OwnRow py db (principal, request))
    (htype : request.entityType = .transcriptSegment) :
    (push (entities py) principal request db).1 ≠ .error .integrityError := by
  unfold push
  split
  · exact fun h => (by cases h)
  rename_i hdevice
  split
  · exact fun h => (by cases h)
  rename_i hreserved
  exact fun h => pushTx_unblocked hown (not_not.1 hdevice) hreserved htype (atomically_raises.1 h)

/-! ## Every history of pushes -/

/-- The rows of different transcripts differ, and all were given out. -/
structure RowsInv (db : HubDb Repository) : Prop where
  isolated : RowsIsolated db
  bounded : ∀ event ∈ db.events, ∀ id, event.WroteRow id → id ≤ db.tables.segments.seq

theorem wroteRow_unique {id' : Nat} (h : event.WroteRow id) (h' : event.WroteRow id') :
    id = id' := by
  have := h.2.symm.trans h'.2
  injection this with this
  exact Int.ofNat.inj this

/-- A push that names its own row keeps the rows of the transcripts apart. -/
theorem rowsInv_push {l : Principal × PushRequest} (hown : OwnRow py db l) (hinv : RowsInv db) :
    RowsInv (pushStep (entities py) db l) := by
  obtain ⟨principal, request⟩ := l
  show RowsInv (push (entities py) principal request db).2
  by_cases hdevice : request.deviceId = principal.deviceId
  swap
  · rw [push, if_pos hdevice]
    exact hinv
  by_cases hreserved : "capture:".toList.isPrefixOf request.operationId.toList
  · rw [push, if_neg (not_not_intro hdevice), if_pos hreserved]
    exact hinv
  have h := push_pushed (entities py) principal request db
  generalize push (entities py) principal request db = out at h
  obtain ⟨outcome, db'⟩ := out
  cases h with
  | raised e | replayed => exact hinv
  | conflicting => exact ⟨hinv.isolated, hinv.bounded⟩
  | applied current canonical tables events operations hcurrent hbase hnew happly hevent hop =>
    rcases applyEntity_segments happly with ⟨htype, hsame⟩ | ⟨htype, id, values, hwrote, hscope,
      hid, hclaim⟩
    · -- no transcript: the new event was written to no row
      have hold : ∀ event ∈ events, ∀ id, event.WroteRow id → event ∈ db.events := by
        intro event hev id hwrote
        rcases (mem_insert? hevent).1 hev with hev | rfl
        · exact hev
        · exact absurd hwrote.1 htype
      refine ⟨fun a ha b hb id hwa hwb => ?_, fun event hev id hwrote => ?_⟩
      · exact hinv.isolated a (hold a ha id hwa) b (hold b hb id hwb) id hwa hwb
      · rw [hsame]
        exact hinv.bounded event (hold event hev id hwrote) id hwrote
    -- an older event of this row is one of the same transcript
    have hrow : ∀ event ∈ db.events, event.WroteRow id →
        event.scope = principal.scope ∧ event.entityId = request.entityId := by
      intro event hev hw
      rcases hclaim with hnames | rfl
      · have hclaimed : id ∈ claimedRow py db principal request :=
          mem_claimedRow htype hcurrent ⟨hdevice, hreserved, hnew⟩ hbase hnames
        exact (hown id hclaimed).2 event hev hw
      · have := hinv.bounded event hev _ hw
        omega
    refine ⟨fun a ha b hb row hwa hwb => ?_, fun event hev row hw => ?_⟩
    · rcases (mem_insert? hevent).1 ha with ha | rfl <;>
        rcases (mem_insert? hevent).1 hb with hb | rfl
      · exact hinv.isolated a ha b hb row hwa hwb
      · obtain rfl : row = id := wroteRow_unique hwb ⟨htype, hid⟩
        exact hrow a ha hwa
      · obtain rfl : row = id := wroteRow_unique hwa ⟨htype, hid⟩
        obtain ⟨hs, he⟩ := hrow b hb hwb
        exact ⟨hs.symm, he.symm⟩
      · exact ⟨rfl, rfl⟩
    · rcases (mem_insert? hevent).1 hev with hev | rfl
      · exact Nat.le_trans (hinv.bounded event hev row hw) hwrote.seq
      · rw [wroteRow_unique hw ⟨htype, hid⟩]
        exact hwrote.bounded

/-- In every history whose pushes name rows of their own, two transcripts never
share a row, and every further such push keeps to the rows of its scope. -/
theorem rows_isolated (py : Python) (tables : Repository) (trace : List (Principal × PushRequest))
    (hown : Meets (pushStep (entities py)) (OwnRow py) (.fresh tables) trace) :
    RowsIsolated (run (pushStep (entities py)) (.fresh tables) trace) ∧ ∀ principal request,
        OwnRow py (run (pushStep (entities py)) (.fresh tables) trace) (principal, request) →
        IsolatedPush py (run (pushStep (entities py)) (.fresh tables) trace) principal request := by
  have hinv := run_invariant_of_meets (fun _ _ => rowsInv_push) hown
    ⟨fun a ha => absurd ha (not_mem_empty a), fun a ha => absurd ha (not_mem_empty a)⟩
  refine ⟨hinv.isolated, fun principal request hnext => ?_⟩
  obtain ⟨hothers, hnamed⟩ := push_segments py principal request
    (run (pushStep (entities py)) (.fresh tables) trace)
  exact ⟨hothers, push_unblocked hnext, hnamed⟩

/-- The transcript `segment_id` of a device, pushed under the id of the device. -/
def transcriptPush (device : String) (segmentId : Json) : Principal × PushRequest :=
  (⟨"t", device, "o"⟩,
    { operationId := "sync:" ++ device, deviceId := device, entityType := .transcriptSegment
      entityId := device ++ ":1", baseRevision := 0, updatedAt := 0
      payload := [("segment_id", segmentId), ("meeting_id", .str "m"), ("text", .str "hi")] })

/-- Two desktops whose row ids differ. -/
theorem rows_isolated_distinct : RowsIsolated (run (pushStep (entities .ascii)) (.fresh .empty)
      [transcriptPush "a" (.str "1"), transcriptPush "b" (.str "2")]) :=
  (rows_isolated .ascii .empty [transcriptPush "a" (.str "1"), transcriptPush "b" (.str "2")]
    (by decide +kernel)).1

/-- Two desktops that both have a row 1 share the row of the hub. -/
theorem not_rows_isolated_same : ¬ RowsIsolated (run (pushStep (entities .ascii)) (.fresh .empty)
      [transcriptPush "a" (.str "1"), transcriptPush "b" (.str "1")]) := by
  intro h
  have hshared : ∃ a ∈ (run (pushStep (entities .ascii)) (.fresh .empty)
        [transcriptPush "a" (.str "1"), transcriptPush "b" (.str "1")]).events.rows,
      ∃ b ∈ (run (pushStep (entities .ascii)) (.fresh .empty)
        [transcriptPush "a" (.str "1"), transcriptPush "b" (.str "1")]).events.rows,
      a.WroteRow 1 ∧ b.WroteRow 1 ∧ a.entityId ≠ b.entityId := by decide +kernel
  obtain ⟨a, ha, b, hb, hwa, hwb, hne⟩ := hshared
  exact hne (h a ha b hb 1 hwa hwb).2

end Hub
