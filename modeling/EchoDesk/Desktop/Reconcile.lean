import EchoDesk.Desktop.Steps

/-! # What a reconcile queues

A reconcile queues the rows it looks at that the entity table does not represent.
-/

namespace Desktop

open EchoDesk Transaction Hub LastWrite List

/-! ## The rows of the scope -/

/-- Every row of the scope that a reconcile is about. -/
def localEntities (repo : Repository) : List LocalEntity :=
  (localSegments repo).map .ofSegment ++ (localSummaries repo).map .ofMeeting ++
    (localMemories repo).map .ofMemory

variable {repo : Repository}
variable {deviceId : String} {now : Timestamp} {row : OutboxRow} {db db' : ClientDb} {limit : Nat}
  {py : Python}

theorem mem_scanned {entity : LocalEntity} (h : entity ∈ scanned repo limit) :
    entity ∈ localEntities repo := by
  have hsub : ∀ {α : Type} (l : List α) (f : α → LocalEntity) {e : LocalEntity},
      e ∈ (l.take limit).map f → e ∈ l.map f := by
    intro α l f e he
    obtain ⟨a, ha, rfl⟩ := mem_map.1 he
    exact mem_map_of_mem (mem_of_mem_take ha)
  simp only [scanned, localEntities, mem_append] at h ⊢
  rcases h with (h | h) | h
  · exact .inl (.inl (hsub _ _ h))
  · exact .inl (.inr (hsub _ _ h))
  · exact .inr (hsub _ _ h)

theorem mem_localSegments {row : SegmentRow} :
    row ∈ localSegments repo ↔ row ∈ repo.segments ∧ row.scope = localScope := by
  rw [localSegments, Segments.ofScope, mem_insertionSort, mem_filter, decide_eq_true_iff]
  rfl

theorem mem_localSummaries {row : MeetingRow} :
    row ∈ localSummaries repo ↔ row ∈ repo.meetings ∧ row.scope = localScope ∧
      (row.minutesJson.isSome ∨ row.minutesStatus.isSome ∨ row.minutesClearedAt.isSome) := by
  rw [localSummaries, mem_insertionSort, mem_filter, decide_eq_true_iff]
  rfl

theorem mem_localMemories {row : MemoryRow} :
    row ∈ localMemories repo ↔ row ∈ repo.memories ∧ row.scope = localScope := by
  rw [localMemories, mem_insertionSort, mem_filter, decide_eq_true_iff]
  rfl

/-- The rows of a table have different ids. -/
theorem localEntities_unique {a b : LocalEntity} (ha : a ∈ localEntities repo)
    (hb : b ∈ localEntities repo) (htype : a.entityType = b.entityType)
    (hid : a.rawEntityId = b.rawEntityId) : a = b := by
  simp only [localEntities, mem_append, mem_map] at ha hb
  rcases ha with (⟨row, hrow, rfl⟩ | ⟨row, hrow, rfl⟩) | ⟨row, hrow, rfl⟩ <;>
    rcases hb with (⟨row', hrow', rfl⟩ | ⟨row', hrow', rfl⟩) | ⟨row', hrow', rfl⟩ <;>
    try cases htype
  · have hsame : row = row' := Table.eq_of_conflict (mem_localSegments.1 hrow).1
      (mem_localSegments.1 hrow').1 (natText_injective hid)
    rw [hsame]
  · obtain ⟨hmem, hscope, -⟩ := mem_localSummaries.1 hrow
    obtain ⟨hmem', hscope', -⟩ := mem_localSummaries.1 hrow'
    have hsame : row = row' :=
      Table.eq_of_conflict hmem hmem' ⟨hscope.trans hscope'.symm, .inl hid⟩
    rw [hsame]
  · obtain ⟨hmem, hscope⟩ := mem_localMemories.1 hrow
    obtain ⟨hmem', hscope'⟩ := mem_localMemories.1 hrow'
    have hsame : row = row' :=
      Table.eq_of_conflict hmem hmem' ⟨hscope.trans hscope'.symm, .inl hid⟩
    rw [hsame]

/-! ## The operations of a reconcile -/

/-- The operation carries the row. -/
structure OutboxRow.Carries (row : OutboxRow) (deviceId : String) (entity : LocalEntity) :
    Prop where
  device : row.deviceId = deviceId
  entityType : row.entityType = entity.entityType
  entityId : row.entityId = deviceId ++ ":" ++ entity.rawEntityId
  payloadJson : row.payloadJson = entity.payload.dump

/-- A new operation carries one of the rows. -/
theorem queueAll_carries {entities : List LocalEntity} {n : Nat}
    (h : Returns (queueAll py deviceId now entities) db n db') (hrow : row ∈ db'.outbox) :
    row ∈ db.outbox ∨ ∃ entity ∈ entities, row.Carries deviceId entity := by
  induction entities generalizing db n with
  | nil =>
    rw [(returns_pure.1 h).2]
    exact .inl hrow
  | cons entity rest ih =>
    simp only [queueAll, returns_bind, returns_pure] at h
    obtain ⟨queued, db₁, hfirst, more, _, hrest, rfl, rfl⟩ := h
    rcases ih hrest with hold | ⟨found, hmem, hcarries⟩
    · rcases queueLocalEntity_returns hfirst with ⟨-, rfl, -⟩ | ⟨-, -, hqueued⟩
      · exact .inl hold
      obtain ⟨new, hins, -, -, hdevice, htype, hid, hpayload, -⟩ := hqueued.outbox
      rcases (Table.mem_insert? hins).1 hold with hold | rfl
      · exact .inl hold
      · exact .inr ⟨entity, mem_cons_self, hdevice, htype, hid, hpayload⟩
    · exact .inr ⟨found, mem_cons_of_mem _ hmem, hcarries⟩

theorem reconcile_carries {n : Nat}
    (h : reconcileLocalChanges py deviceId now limit db = (.ok n, db')) (hrow : row ∈ db'.outbox)
    (hnew : row ∉ db.outbox) : ∃ entity ∈ localEntities db.repo, row.Carries deviceId entity := by
  rcases queueAll_carries (reconcile_eq_ok.1 h) hrow with hold | ⟨entity, hmem, hcarries⟩
  · exact absurd hold hnew
  · exact ⟨entity, mem_scanned hmem, hcarries⟩

end Desktop
