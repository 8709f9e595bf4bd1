import EchoDesk.Core.Python
import EchoDesk.Foundations.Table
import Mathlib.Data.List.Sort

/-! # The business tables

`meetings`, `meeting_segments` and `memory_nodes`, which a hub and a desktop
migrate alike. A table keeps its unique indexes and checks: a statement that
would break one is refused.
-/

namespace EchoDesk

/-! ## meetings -/

inductive MeetingState where
  | inMeeting
  | ended
  | finalized
deriving DecidableEq

structure MeetingRow where
  scope : Scope
  id : String
  title : Option String
  displayTitle : Option String
  state : MeetingState
  startedAt : String
  endedAt : Option String
  finalizedAt : Option String
  minutesJson : Option String
  minutesStatus : Option String
  minutesError : Option String
  minutesClearedAt : Option String
  deviceId : String

/-- The primary key, and the index on the active meeting of an owner. -/
def MeetingRow.conflict (a b : MeetingRow) : Prop :=
  a.scope = b.scope ∧ (a.id = b.id ∨ a.state = .inMeeting ∧ b.state = .inMeeting)

instance : DecidableRel MeetingRow.conflict :=
  fun _ _ => inferInstanceAs (Decidable (_ ∧ (_ ∨ _)))

instance : Std.Symm MeetingRow.conflict :=
  ⟨fun _ _ h => ⟨h.1.symm, h.2.imp Eq.symm And.symm⟩⟩

/-- A meeting before its optional columns are written. -/
def MeetingRow.new (scope : Scope) (id : String) (title : Option String) (state : MeetingState)
    (startedAt : String) (endedAt : Option String) (deviceId : String) : MeetingRow where
  scope := scope
  id := id
  title := title
  displayTitle := none
  state := state
  startedAt := startedAt
  endedAt := endedAt
  finalizedAt := none
  minutesJson := none
  minutesStatus := none
  minutesError := none
  minutesClearedAt := none
  deviceId := deviceId

/-! ## meeting_segments -/

/-- The columns of `meeting_segments` besides its row id. -/
structure SegmentValues where
  scope : Scope
  deviceId : String
  meetingId : String
  text : String
  startMs : Int
  endMs : Int
  speakerId : Option String
  speakerLabel : Option String
  capturedAt : String

structure SegmentRow extends SegmentValues where
  id : Nat

def SegmentRow.conflict (a b : SegmentRow) : Prop := a.id = b.id

instance : DecidableRel SegmentRow.conflict := fun _ _ => inferInstanceAs (Decidable (_ = _))

instance : Std.Symm SegmentRow.conflict := ⟨fun _ _ h => Eq.symm h⟩

/-- The table with its `AUTOINCREMENT` counter, which no row id exceeds. -/
structure Segments where
  table : Table SegmentRow SegmentRow.conflict
  seq : Nat
  bounded : ∀ row ∈ table, row.id ≤ seq

namespace Segments

instance : Membership SegmentRow Segments := ⟨fun s row => row ∈ s.table⟩

def empty : Segments := ⟨Table.empty, 0, fun row h => absurd h (Table.not_mem_empty row)⟩

/-- The rows of a scope, `ORDER BY id ASC`. -/
def ofScope (s : Segments) (scope : Scope) : List SegmentRow :=
  (s.table.rows.filter fun row => row.scope = scope).insertionSort fun a b => a.id ≤ b.id

/-- `INSERT` with a row id: refused when the id is taken, by a row of any scope. -/
def insert? (s : Segments) (row : SegmentRow) : Option Segments :=
  match h : s.table.insert? row with
  | none => none
  | some table => some ⟨table, max s.seq row.id, fun a ha => by
      rcases (Table.mem_insert? h).1 ha with hold | rfl
      · exact Nat.le_trans (s.bounded a hold) (Nat.le_max_left _ _)
      · exact Nat.le_max_right _ _⟩

/-- `INSERT` without a row id: the next one is given out, up to the largest. -/
def append? (s : Segments) (values : SegmentValues) : Option (Segments × Nat) :=
  if s.seq + 1 < 2 ^ 63 then
    (s.insert? ⟨values, s.seq + 1⟩).map fun s' => (s', s.seq + 1)
  else none

/-- `UPDATE … WHERE sel` of columns besides the row id. -/
def update (s : Segments) (sel : SegmentRow → Bool) (f : SegmentValues → SegmentValues) :
    Segments where
  table :=
    { rows := s.table.rows.map fun row => if sel row then ⟨f row.toSegmentValues, row.id⟩ else row
      sound := by
        refine s.table.sound.map _ fun a b h => ?_
        by_cases ha : sel a <;> by_cases hb : sel b <;> simpa [SegmentRow.conflict, ha, hb] using h }
  seq := s.seq
  bounded := by
    intro row hrow
    obtain ⟨old, hold, rfl⟩ := List.mem_map.1 hrow
    have hle := s.bounded old hold
    by_cases hsel : sel old <;> simpa [hsel] using hle

variable {s : Segments} {row : SegmentRow}

theorem mem_update {sel : SegmentRow → Bool} {f : SegmentValues → SegmentValues} :
    row ∈ s.update sel f ↔
      ∃ old ∈ s, row = if sel old then ⟨f old.toSegmentValues, old.id⟩ else old := by
  show row ∈ s.table.rows.map _ ↔ _
  rw [List.mem_map]
  exact exists_congr fun old => and_congr_right fun _ => eq_comm

variable {s' : Segments}

theorem insert?_eq_some (h : s.insert? row = some s') :
    s.table.insert? row = some s'.table ∧ s'.seq = max s.seq row.id := by
  unfold insert? at h
  split at h
  · cases h
  rename_i table hins
  cases h
  exact ⟨hins, rfl⟩

theorem insert?_eq_none (h : s.insert? row = none) : ∃ a ∈ s, a.id = row.id := by
  unfold insert? at h
  split at h
  · rename_i hnone
    exact Table.insert?_eq_none hnone
  · cases h

theorem rows_of_append? {values : SegmentValues} {id : Nat} (h : s.append? values = some (s', id)) :
    id = s.seq + 1 ∧ s'.table.rows = s.table.rows ++ [⟨values, s.seq + 1⟩] := by
  unfold append? at h
  split at h
  · obtain ⟨t, hins, ht⟩ := Option.map_eq_some_iff.1 h
    cases ht
    exact ⟨rfl, Table.rows_of_insert? (insert?_eq_some hins).1⟩
  · cases h

/-- A row id is left to give out: no row has the next one. -/
theorem append?_of_lt (h : s.seq + 1 < 2 ^ 63) (values : SegmentValues) :
    ∃ s', s.append? values = some (s', s.seq + 1) := by
  rw [append?, if_pos h]
  rcases hins : s.insert? ⟨values, s.seq + 1⟩ with _ | s'
  · obtain ⟨a, ha, hid⟩ := insert?_eq_none hins
    have hle := s.bounded a ha
    have hid : a.id = s.seq + 1 := hid
    omega
  · exact ⟨s', rfl⟩

end Segments

/-! ## memory_nodes -/

inductive MemoryKind where
  | fact
  | preference
  | decision
  | todo
  | relationship
deriving DecidableEq

inductive MemoryStatus where
  | active
  | superseded
  | deleted
deriving DecidableEq

def MemoryKind.text : MemoryKind → String
  | .fact => "fact"
  | .preference => "preference"
  | .decision => "decision"
  | .todo => "todo"
  | .relationship => "relationship"

def MemoryKind.ofText? (s : String) : Option MemoryKind :=
  [.fact, .preference, .decision, .todo, .relationship].find? fun kind => kind.text = s

def MemoryStatus.text : MemoryStatus → String
  | .active => "active"
  | .superseded => "superseded"
  | .deleted => "deleted"

def MemoryStatus.ofText? (s : String) : Option MemoryStatus :=
  [.active, .superseded, .deleted].find? fun status => status.text = s

structure MemoryRow where
  scope : Scope
  memoryId : String
  kind : MemoryKind
  content : String
  normalizedContent : String
  canonicalKey : String
  subject : Option String
  confidence : String
  salience : String
  /-- The column `scope`: whom the memory is about. -/
  memoryScope : String
  status : MemoryStatus
  hitCount : Int
  sourceCount : Int
  userConfirmed : Bool
  createdAt : String
  lastSeenAt : String
  updatedAt : String
  confirmedAt : Option String
  supersededAt : Option String
  supersededBy : Option String
  deletedAt : Option String
  revision : Int
  /-- The column `metadata_json`, as the dictionary its readers load from it. -/
  metadata : Dict

/-- The primary key, and the index on the active memory of a kind and a key. -/
def MemoryRow.conflict (a b : MemoryRow) : Prop :=
  a.scope = b.scope ∧ (a.memoryId = b.memoryId ∨
    (a.status = .active ∧ b.status = .active) ∧ a.kind = b.kind ∧ a.canonicalKey = b.canonicalKey)

instance : DecidableRel MemoryRow.conflict :=
  fun _ _ => inferInstanceAs (Decidable (_ ∧ (_ ∨ _)))

instance : Std.Symm MemoryRow.conflict :=
  ⟨fun _ _ h => ⟨h.1.symm, h.2.imp Eq.symm fun h => ⟨h.1.symm, h.2.1.symm, h.2.2.symm⟩⟩⟩

/-- The checks of the table on its numbers. -/
def MemoryRow.Checked (py : Python) (row : MemoryRow) : Prop :=
  py.inUnit row.confidence ∧ py.inUnit row.salience ∧ 1 ≤ row.hitCount ∧ 1 ≤ row.sourceCount ∧
    0 ≤ row.revision

instance (py : Python) (row : MemoryRow) : Decidable (row.Checked py) :=
  inferInstanceAs (Decidable (_ ∧ _))

/-! ## The three tables -/

structure Repository where
  meetings : Table MeetingRow MeetingRow.conflict
  segments : Segments
  memories : Table MemoryRow MemoryRow.conflict

namespace Repository

def empty : Repository := ⟨Table.empty, Segments.empty, Table.empty⟩

/-- The meeting of a scope with this id. -/
def meeting (repo : Repository) (scope : Scope) (id : String) : Option MeetingRow :=
  repo.meetings.lookup fun row => row.scope = scope ∧ row.id = id

/-- The memory of a scope with this id. -/
def memory (repo : Repository) (scope : Scope) (id : String) : Option MemoryRow :=
  repo.memories.lookup fun row => row.scope = scope ∧ row.memoryId = id

/-- The segment of a scope with this row id. -/
def segment (repo : Repository) (scope : Scope) (id : Nat) : Option SegmentRow :=
  repo.segments.table.lookup fun row => row.scope = scope ∧ row.id = id

/-- `INSERT` into `memory_nodes`, with its checks. -/
def insertMemory? (py : Python) (repo : Repository) (row : MemoryRow) : Option Repository :=
  if row.Checked py then
    (repo.memories.insert? row).map fun memories => { repo with memories := memories }
  else none

/-- `UPDATE memory_nodes SET … WHERE tenant_id = ? AND owner_id = ? AND memory_id = ?`. -/
def updateMemory? (py : Python) (repo : Repository) (scope : Scope) (id : String)
    (f : MemoryRow → MemoryRow) : Option Repository :=
  if ∀ row ∈ repo.memories.rows, row.scope = scope ∧ row.memoryId = id → (f row).Checked py then
    (repo.memories.update? (fun row => row.scope = scope ∧ row.memoryId = id) f).map
      fun memories => { repo with memories := memories }
  else none

/-- `INSERT INTO meetings`. -/
def insertMeeting? (repo : Repository) (row : MeetingRow) : Option Repository :=
  (repo.meetings.insert? row).map fun meetings => { repo with meetings := meetings }

/-- `UPDATE meetings SET … WHERE id = ? AND tenant_id = ? AND owner_id = ?`. -/
def updateMeeting? (repo : Repository) (scope : Scope) (id : String)
    (f : MeetingRow → MeetingRow) : Option Repository :=
  (repo.meetings.update? (fun row => row.scope = scope ∧ row.id = id) f).map
    fun meetings => { repo with meetings := meetings }

end Repository

end EchoDesk
