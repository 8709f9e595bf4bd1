import EchoDesk.Desktop.Reconcile

/-! # The row a change writes

A change that is applied writes one row of the synced tables, which its payload and
the previous payload determine (`writtenEntity`). The other rows stay as they were;
the meeting that may be added for it is none that a reconcile is about.
-/

namespace Desktop

open EchoDesk Transaction Hub List

/-- The two rows are the same row of a table. -/
def LocalEntity.SameRow (a b : LocalEntity) : Prop :=
  a.entityType = b.entityType ∧ a.rawEntityId = b.rawEntityId

instance (a b : LocalEntity) : Decidable (a.SameRow b) :=
  inferInstanceAs (Decidable (_ ∧ _))

/-- The transcript as it is written: over the row with the previous payload, or under
the next row id. -/
def writtenSegment (py : Python) (repo : Repository) (payload : Dict)
    (previousPayload : Option Dict) : Except PyError SegmentRow := do
  let fields ← decodeSegment py payload
  let existing ← previousRow py repo previousPayload
  let fields ← fields.bind
  return ⟨fields.values localScope "hub-remote", (existing.map (·.id)).getD (repo.segments.seq + 1)⟩

/-- The meeting with the columns of a summary. -/
def writtenMeeting (py : Python) (repo : Repository) (payload : Dict) :
    Except PyError MeetingRow := do
  let fields ← decodeSummary py payload
  return fields.write <| (repo.meeting localScope fields.meetingId).getD <|
    MeetingRow.new localScope fields.meetingId fields.title fields.state fields.startedAt none
      "hub-remote"

def writtenEntity (py : Python) (repo : Repository) (entityType : SyncEntityType) (payload : Dict)
    (previousPayload : Option Dict) : Except PyError LocalEntity :=
  match entityType with
  | .transcriptSegment => (writtenSegment py repo payload previousPayload).map .ofSegment
  | .meetingSummary => (writtenMeeting py repo payload).map .ofMeeting
  | .memory => (decodeMemory py localScope payload).map .ofMemory

/-- The rows of the second repository are this one and the other rows of the first. -/
def Wrote (entity : LocalEntity) (repo repo' : Repository) : Prop :=
  ∀ other ∈ localEntities repo',
    other = entity ∨ other ∈ localEntities repo ∧ ¬ other.SameRow entity

/-! ## The tables -/

variable {repo repo' : Repository} {py : Python}
variable {payload : Dict} {previousPayload : Option Dict} {title : Option String}
  {state : MeetingState} {meetingId startedAt : String}

theorem mem_localEntities {entity : LocalEntity} :
    entity ∈ localEntities repo ↔ (∃ row ∈ localSegments repo, .ofSegment row = entity) ∨
      (∃ row ∈ localSummaries repo, .ofMeeting row = entity) ∨
      ∃ row ∈ localMemories repo, .ofMemory row = entity := by
  simp only [localEntities, mem_append, mem_map, or_assoc]

/-- The meeting of a transcript or of a summary is added without minutes. -/
theorem ensureMeeting_rows
    (h : Returns (ensureMeeting meetingId startedAt title state) repo () repo') :
    repo'.segments = repo.segments ∧ repo'.memories = repo.memories ∧
      ∀ row ∈ repo'.meetings, row ∈ repo.meetings ∨ repo.meeting localScope meetingId = none ∧
        row = MeetingRow.new localScope meetingId title state startedAt none "hub-remote" := by
  simp only [ensureMeeting, returns_get_bind] at h
  split at h
  · obtain ⟨-, rfl⟩ := returns_pure.1 h
    exact ⟨rfl, rfl, fun row hrow => .inl hrow⟩
  rename_i hnone
  simp only [returns_bind, returns_orRaise, returns_set] at h
  obtain ⟨_, _, ⟨hins, rfl⟩, rfl⟩ := h
  obtain ⟨meetings, hmeetings, rfl⟩ := Option.map_eq_some_iff.1 hins
  exact ⟨rfl, rfl, fun row hrow =>
    ((Table.mem_insert? hmeetings).1 hrow).imp_right fun heq => ⟨hnone, heq⟩⟩

theorem ensureMeeting_localSummaries
    (h : Returns (ensureMeeting meetingId startedAt title state) repo () repo') {row : MeetingRow}
    (hrow : row ∈ localSummaries repo') : row ∈ localSummaries repo := by
  obtain ⟨hmem, hscope, hminutes⟩ := mem_localSummaries.1 hrow
  rcases (ensureMeeting_rows h).2.2 row hmem with hold | ⟨-, rfl⟩
  · exact mem_localSummaries.2 ⟨hold, hscope, hminutes⟩
  · simp [MeetingRow.new] at hminutes

theorem localSegments_congr (h : repo'.segments = repo.segments) :
    localSegments repo' = localSegments repo := by rw [localSegments, h, localSegments]

theorem localMemories_congr (h : repo'.memories = repo.memories) :
    localMemories repo' = localMemories repo := by rw [localMemories, h, localMemories]

theorem previousRow_congr (h : repo'.segments = repo.segments) (previousPayload : Option Dict) :
    previousRow py repo' previousPayload = previousRow py repo previousPayload := by
  unfold previousRow
  rw [localSegments_congr h]

/-! ## The row of each type -/

theorem applySegment_wrote (h : Returns (applySegment py payload previousPayload) repo () repo') :
    ∃ row, writtenSegment py repo payload previousPayload = .ok row ∧
      Wrote (.ofSegment row) repo repo' := by
  simp only [applySegment, returns_bind, returns_fromExcept, returns_get] at h
  obtain ⟨fields, _, ⟨hdecode, rfl⟩, _, repo₁, hensure, _, _, ⟨rfl, rfl⟩, existing, _,
    ⟨hexisting, rfl⟩, bound, _, ⟨hbind, rfl⟩, h⟩ := h
  obtain ⟨hsegments, hmemories, -⟩ := ensureMeeting_rows hensure
  rw [previousRow_congr hsegments] at hexisting
  have hwritten : writtenSegment py repo payload previousPayload =
      .ok ⟨bound.values localScope "hub-remote",
        (existing.map (·.id)).getD (repo.segments.seq + 1)⟩ :=
    bind_eq_ok.2 ⟨_, hdecode, bind_eq_ok.2 ⟨_, hexisting, bind_eq_ok.2 ⟨_, hbind, rfl⟩⟩⟩
  refine ⟨_, hwritten, ?_⟩
  -- it suffices to know the segments of the new repository
  have hrows : ∀ repo' : Repository, repo'.meetings = repo₁.meetings →
      repo'.memories = repo₁.memories →
      (∀ row ∈ localSegments repo', LocalEntity.ofSegment row = .ofSegment
          ⟨bound.values localScope "hub-remote",
            (existing.map (·.id)).getD (repo.segments.seq + 1)⟩ ∨
        row ∈ localSegments repo ∧ row.id ≠ (existing.map (·.id)).getD (repo.segments.seq + 1)) →
      Wrote (.ofSegment ⟨bound.values localScope "hub-remote",
        (existing.map (·.id)).getD (repo.segments.seq + 1)⟩) repo repo' := by
    intro repo' hmeetings' hmemories' hsegments' other hother
    rcases mem_localEntities.1 hother with ⟨row, hrow, rfl⟩ | ⟨row, hrow, rfl⟩ | ⟨row, hrow, rfl⟩
    · rcases hsegments' row hrow with heq | ⟨hold, hne⟩
      · exact .inl heq
      · refine .inr ⟨mem_localEntities.2 (.inl ⟨row, hold, rfl⟩), fun hsame => hne ?_⟩
        exact natText_injective hsame.2
    · refine .inr ⟨mem_localEntities.2 (.inr (.inl ⟨row, ?_, rfl⟩)), fun hsame => (by cases hsame.1)⟩
      have hrow : row ∈ localSummaries repo₁ := by rwa [localSummaries, hmeetings'] at hrow
      exact ensureMeeting_localSummaries hensure hrow
    · refine .inr ⟨mem_localEntities.2 (.inr (.inr ⟨row, ?_, rfl⟩)), fun hsame => (by cases hsame.1)⟩
      rwa [localMemories_congr hmemories', localMemories_congr hmemories] at hrow
  split at h
  · rename_i row
    obtain rfl := returns_set.1 h
    refine hrows _ rfl rfl fun other hother => ?_
    obtain ⟨hother, hscope⟩ := mem_localSegments.1 hother
    obtain ⟨old, hold, rfl⟩ := Segments.mem_update.1 hother
    rw [hsegments] at hold
    split
    · rename_i hsel
      obtain ⟨hid, -⟩ := of_decide_eq_true hsel
      refine .inl ?_
      rw [hid]
      rfl
    · rename_i hsel
      rw [if_neg hsel] at hscope
      refine .inr ⟨mem_localSegments.2 ⟨hold, hscope⟩, fun hid => hsel ?_⟩
      exact decide_eq_true ⟨hid, hscope⟩
  · simp only [returns_bind, returns_orRaise, returns_set] at h
    obtain ⟨⟨segments, id⟩, _, ⟨happend, rfl⟩, rfl⟩ := h
    obtain ⟨-, hnew⟩ := Segments.rows_of_append? happend
    rw [hsegments] at hnew
    refine hrows _ rfl rfl fun other hother => ?_
    obtain ⟨hother, hscope⟩ := mem_localSegments.1 hother
    have hother : other ∈ repo.segments.table.rows ++
        [⟨bound.values localScope "hub-remote", repo.segments.seq + 1⟩] := hnew ▸ hother
    rcases mem_append.1 hother with hold | heq
    · refine .inr ⟨mem_localSegments.2 ⟨hold, hscope⟩, fun hid => ?_⟩
      have hle := repo.segments.bounded other hold
      have hid : other.id = repo.segments.seq + 1 := hid
      omega
    · rw [mem_singleton.1 heq]
      exact .inl rfl

theorem applySummary_wrote (h : Returns (applySummary py payload) repo () repo') :
    ∃ row, writtenMeeting py repo payload = .ok row ∧ Wrote (.ofMeeting row) repo repo' := by
  simp only [applySummary, returns_bind, returns_fromExcept, returns_get, returns_orRaise,
    returns_set] at h
  obtain ⟨fields, _, ⟨hdecode, rfl⟩, _, repo₁, hensure, _, _, ⟨rfl, rfl⟩, repo₂, _,
    ⟨hupdate, rfl⟩, rfl⟩ := h
  obtain ⟨hsegments, hmemories, hmeetings⟩ := ensureMeeting_rows hensure
  refine ⟨_, bind_eq_ok.2 ⟨_, hdecode, rfl⟩, fun other hother => ?_⟩
  obtain ⟨table, htable, rfl⟩ := Option.map_eq_some_iff.1 hupdate
  rcases mem_localEntities.1 hother with ⟨row, hrow, rfl⟩ | ⟨row, hrow, rfl⟩ | ⟨row, hrow, rfl⟩
  · refine .inr ⟨mem_localEntities.2 (.inl ⟨row, ?_, rfl⟩), fun hsame => (by cases hsame.1)⟩
    exact localSegments_congr hsegments ▸ hrow
  · obtain ⟨hmem, hscope, hminutes⟩ := mem_localSummaries.1 hrow
    obtain ⟨old, hold, rfl⟩ := (Table.mem_update? htable).1 hmem
    split
    · rename_i hsel
      obtain ⟨hscope', hid⟩ := of_decide_eq_true hsel
      refine .inl (congrArg (fun row => LocalEntity.ofMeeting (fields.write row)) ?_)
      rcases hmeetings old hold with hold | ⟨hnone, rfl⟩
      · have hfound : repo.meeting localScope fields.meetingId = some old := by
          refine (Table.lookup_eq_some fun a b ha hb => ?_).2 ⟨hold, decide_eq_true ⟨hscope', hid⟩⟩
          obtain ⟨ha, haid⟩ := of_decide_eq_true ha
          obtain ⟨hb, hbid⟩ := of_decide_eq_true hb
          exact ⟨ha.trans hb.symm, .inl (haid.trans hbid.symm)⟩
        rw [hfound, Option.getD_some]
      · rw [hnone, Option.getD_none]
    · rename_i hsel
      rw [if_neg hsel] at hscope hminutes
      have hsummary : old ∈ localSummaries repo :=
        ensureMeeting_localSummaries hensure (mem_localSummaries.2 ⟨hold, hscope, hminutes⟩)
      refine .inr ⟨mem_localEntities.2 (.inr (.inl ⟨old, hsummary, rfl⟩)), fun hsame => hsel ?_⟩
      refine decide_eq_true ⟨hscope, hsame.2.trans ?_⟩
      cases hfound : repo.meeting localScope fields.meetingId with
      | none => rfl
      | some found => exact (of_decide_eq_true (Table.mem_of_lookup hfound).2).2
  · refine .inr ⟨mem_localEntities.2 (.inr (.inr ⟨row, ?_, rfl⟩)), fun hsame => (by cases hsame.1)⟩
    exact localMemories_congr hmemories ▸ hrow

theorem applyMemory_wrote (h : Returns (applyMemory py payload) repo () repo') :
    ∃ row, decodeMemory py localScope payload = .ok row ∧ Wrote (.ofMemory row) repo repo' := by
  simp only [applyMemory, returns_bind, returns_fromExcept, returns_get, returns_orRaise,
    returns_set] at h
  obtain ⟨row, _, ⟨hdecode, rfl⟩, _, _, ⟨rfl, rfl⟩, repo₁, _, ⟨hwrite, rfl⟩, rfl⟩ := h
  -- only the memories changed, and those with another id did not
  have hrows : repo₁.meetings = repo.meetings ∧ repo₁.segments = repo.segments ∧
      ∀ memory ∈ repo₁.memories, memory.scope = localScope →
        memory = row ∨ memory ∈ repo.memories ∧ memory.memoryId ≠ row.memoryId := by
    split at hwrite
    · rename_i hnone
      unfold Repository.insertMemory? at hwrite
      split at hwrite
      · obtain ⟨memories, hins, rfl⟩ := Option.map_eq_some_iff.1 hwrite
        refine ⟨rfl, rfl, fun memory hmemory hscope => ?_⟩
        rcases (Table.mem_insert? hins).1 hmemory with hold | rfl
        · refine .inr ⟨hold, fun hid => ?_⟩
          exact of_decide_eq_false (Table.lookup_eq_none.1 hnone memory hold) ⟨hscope, hid⟩
        · exact .inl rfl
      · cases hwrite
    unfold Repository.updateMemory? at hwrite
    split at hwrite
    · obtain ⟨memories, hupdate, rfl⟩ := Option.map_eq_some_iff.1 hwrite
      refine ⟨rfl, rfl, fun memory hmemory hscope => ?_⟩
      obtain ⟨old, hold, rfl⟩ := (Table.mem_update? hupdate).1 hmemory
      split
      · exact .inl rfl
      rename_i hsel
      rw [if_neg hsel] at hscope
      exact .inr ⟨hold, fun hid => hsel (decide_eq_true ⟨hscope, hid⟩)⟩
    · cases hwrite
  obtain ⟨hmeetings, hsegments, hmemories⟩ := hrows
  refine ⟨row, hdecode, fun other hother => ?_⟩
  rcases mem_localEntities.1 hother with ⟨found, hfound, rfl⟩ | ⟨found, hfound, rfl⟩ |
    ⟨found, hfound, rfl⟩
  · refine .inr ⟨mem_localEntities.2 (.inl ⟨found, ?_, rfl⟩), fun hsame => (by cases hsame.1)⟩
    exact localSegments_congr hsegments ▸ hfound
  · refine .inr ⟨mem_localEntities.2 (.inr (.inl ⟨found, ?_, rfl⟩)), fun hsame => (by cases hsame.1)⟩
    rwa [localSummaries, hmeetings] at hfound
  obtain ⟨hmem, hscope⟩ := mem_localMemories.1 hfound
  rcases hmemories found hmem hscope with rfl | ⟨hold, hne⟩
  · exact .inl rfl
  · exact .inr ⟨mem_localEntities.2 (.inr (.inr ⟨found, mem_localMemories.2 ⟨hold, hscope⟩, rfl⟩)),
      fun hsame => hne hsame.2⟩

theorem applyEntity_wrote {entityType : SyncEntityType}
    (h : Returns (applyEntity py entityType payload previousPayload) repo () repo') :
    ∃ entity, writtenEntity py repo entityType payload previousPayload = .ok entity ∧
      Wrote entity repo repo' := by
  cases entityType with
  | transcriptSegment =>
    obtain ⟨row, hrow, hwrote⟩ := applySegment_wrote h
    exact ⟨_, congrArg (Except.map _) hrow, hwrote⟩
  | meetingSummary =>
    obtain ⟨row, hrow, hwrote⟩ := applySummary_wrote h
    exact ⟨_, congrArg (Except.map _) hrow, hwrote⟩
  | memory =>
    obtain ⟨row, hrow, hwrote⟩ := applyMemory_wrote h
    exact ⟨_, congrArg (Except.map _) hrow, hwrote⟩

end Desktop
