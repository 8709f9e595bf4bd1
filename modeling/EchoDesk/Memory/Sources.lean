import EchoDesk.Memory.Forgetting
import Mathlib.Algebra.Order.Group.Int

/-! # The sources of a memory

`source_count` is adjusted by hand beside the inserts of provenance rows. An upsert adds what it
has inserted; the insert of `update_node` is not counted.
-/

namespace EchoDesk.Memory

open Transition List Option Bool Table

variable {py : Python} {maxReal : String → String → String}
variable {d d' : Db} {scope scope' : Scope} {id id' : String} {k : Int}
variable {now : String}
variable {sel : MemoryRow → Bool} {c : MemoryWriteCandidate} {provenanceId : String} {drawn : Drawn}
  {u : Pending}

/-! ## Provenance rows -/

/-- The rows of the provenance of a memory. -/
def Db.sources (d : Db) (scope : Scope) (memoryId : String) : Nat :=
  d.provenance.rows.countP fun row => row.scope = scope ∧ row.memoryId = memoryId

instance : Std.Symm ProvenanceRow.conflict := by
  refine ⟨?_⟩
  rintro a b ⟨hscope, hid | ⟨h₁, h₂, h₃, h₄, h₅⟩⟩
  · exact ⟨hscope.symm, .inl hid.symm⟩
  · exact ⟨hscope.symm, .inr ⟨h₁.symm, h₂.symm, h₃.symm, h₄.symm, h₅.symm⟩⟩

/-! ## Counters -/

/-- Every memory that is not deleted counts its sources, the named one with `k` more, and every
source is one of a stored memory. -/
structure Counts (scope : Scope) (id : String) (k : Int) (d : Db) : Prop where
  owned : ∀ p ∈ d.provenance, ∃ row ∈ d.nodes, row.scope = p.scope ∧ row.memoryId = p.memoryId
  counted : ∀ row ∈ d.nodes, row.status ≠ .deleted → row.sourceCount =
    d.sources row.scope row.memoryId + if row.scope = scope ∧ row.memoryId = id then k else 0

/-- Without a surplus the named memory does not matter. -/
theorem Counts.zero (h : Counts scope id 0 d) : Counts scope' id' 0 d := by
  refine ⟨h.owned, ?_⟩
  intro row hrow hstatus
  have hcount := h.counted row hrow hstatus
  rw [ite_self] at hcount ⊢
  exact hcount

variable {f : MemoryRow → MemoryRow} {nodes : Table MemoryRow MemoryRow.conflict}
variable {p : ProvenanceInput}

section

variable (h : Counts scope id k d)

include h

/-- An update that keeps the keys and counts `c` more for the named memory. -/
theorem Counts.update {c : Int} (hupdate : d.nodes.update? sel f = some nodes)
    (hkey : ∀ row, (f row).scope = row.scope ∧ (f row).memoryId = row.memoryId)
    (hf : ∀ row ∈ d.nodes, (if sel row then f row else row).status ≠ .deleted →
      row.status ≠ .deleted ∧ (if sel row then f row else row).sourceCount =
        row.sourceCount + if row.scope = scope ∧ row.memoryId = id then c else 0) :
    Counts scope id (k + c) { d with nodes := nodes } := by
  have hkeys : ∀ row, (if sel row then f row else row).scope = row.scope ∧
      (if sel row then f row else row).memoryId = row.memoryId := by
    intro row
    split
    · exact hkey row
    · exact ⟨rfl, rfl⟩
  constructor
  · intro p hp
    obtain ⟨row, hrow, hscope, hid⟩ := h.owned p hp
    refine ⟨_, (mem_update? hupdate).2 ⟨row, hrow, rfl⟩, ?_⟩
    rw [(hkeys row).1, (hkeys row).2]
    exact ⟨hscope, hid⟩
  intro row hrow hstatus
  obtain ⟨old, hold, rfl⟩ := (mem_update? hupdate).1 hrow
  obtain ⟨hlive, hcount⟩ := hf old hold hstatus
  rw [hcount, h.counted old hold hlive, (hkeys old).1, (hkeys old).2]
  show _ = (d.sources old.scope old.memoryId : Int) + _
  split <;> omega

/-- An update that touches no counter. -/
theorem Counts.keep (hupdate : d.nodes.update? sel f = some nodes)
    (hkey : ∀ row, (f row).scope = row.scope ∧ (f row).memoryId = row.memoryId)
    (hcount : ∀ row, (f row).sourceCount = row.sourceCount)
    (hstatus : ∀ row ∈ d.nodes, sel row = true → (f row).status ≠ .deleted → row.status ≠ .deleted) :
    Counts scope id k { d with nodes := nodes } := by
  have hkept := h.update (c := 0) hupdate hkey ?_
  · rwa [add_zero] at hkept
  intro row hrow hlive
  rw [ite_self, add_zero]
  split at hlive
  · rename_i hsel
    rw [if_pos hsel]
    exact ⟨hstatus row hrow hsel hlive, hcount row⟩
  · rename_i hsel
    rw [if_neg hsel]
    exact ⟨hlive, rfl⟩

theorem Counts.updateNode (hupdate : d.updateNode scope' id' f = some d')
    (hkey : ∀ row, (f row).scope = row.scope ∧ (f row).memoryId = row.memoryId)
    (hcount : ∀ row, (f row).sourceCount = row.sourceCount)
    (hstatus : ∀ row ∈ d.nodes, row.scope = scope' ∧ row.memoryId = id' →
      (f row).status ≠ .deleted → row.status ≠ .deleted) : Counts scope id k d' := by
  obtain ⟨nodes, hnodes, rfl⟩ := map_eq_some_iff.1 hupdate
  exact h.keep hnodes hkey hcount fun row hrow hsel => hstatus row hrow (isNode_iff.1 hsel)

/-- A source that is inserted uses up one of the surplus. -/
theorem Counts.insertProvenance {inserted : Bool}
    (hinsert : insertProvenanceTx py d scope id p now = some (d', inserted)) :
    Counts scope id (k - if inserted then 1 else 0) d' := by
  obtain ⟨hnode, ⟨rfl, provenance, hprovenance, rfl⟩ | ⟨rfl, -, rfl⟩⟩ :=
    insertProvenanceTx_cases hinsert
  · constructor
    · intro q hq
      rcases (mem_insert? hprovenance).1 hq with hq | rfl
      · exact h.owned q hq
      · exact hnode
    intro row hrow hstatus
    have hcount := h.counted row hrow hstatus
    have hsources : (Db.sources { d with provenance := provenance } row.scope row.memoryId) =
        d.sources row.scope row.memoryId +
          if row.scope = scope ∧ row.memoryId = id then 1 else 0 := by
      unfold Db.sources
      rw [rows_of_insert? hprovenance, countP_append, countP_singleton]
      simp only [provenanceRow, decide_eq_true_eq, @eq_comm _ scope, @eq_comm _ id]
    rw [hsources, hcount, if_pos rfl]
    split <;> push_cast <;> omega
  · have hk : k - (if (false = true) then (1 : Int) else 0) = k := by simp
    rw [hk]
    exact h

/-- The relations of a memory are no sources. -/
theorem Counts.setRelations (relations : Table RelationRow RelationRow.conflict) :
    Counts scope id k { d with relations := relations } := ⟨h.owned, h.counted⟩

theorem Counts.insertRelation {relationId sourceId targetId kind confidence : String}
    (hinsert : insertRelationTx d scope' relationId sourceId targetId kind confidence now =
      some d') : Counts scope id k d' := by
  rcases insertRelationTx_cases hinsert with rfl | ⟨_, relations, -, -, -, rfl⟩
  · exact h
  · exact h.setRelations relations

end

/-- A new node counts one source, and has none yet. -/
theorem Counts.insertNode (h : Counts scope id 0 d) {row : MemoryRow}
    (hinsert : d.nodes.insert? row = some nodes) (hcount : row.sourceCount = 1) :
    Counts row.scope row.memoryId 1 { d with nodes := nodes } := by
  constructor
  · intro p hp
    obtain ⟨old, hold, hkey⟩ := h.owned p hp
    exact ⟨old, (mem_insert? hinsert).2 (.inl hold), hkey⟩
  intro other hother hstatus
  rcases (mem_insert? hinsert).1 hother with hother | rfl
  · have hne : ¬ (other.scope = row.scope ∧ other.memoryId = row.memoryId) := by
      intro hkey
      exact fresh_of_insert? hinsert hother (conflict_of_key hkey ⟨rfl, rfl⟩)
    have hold := h.counted other hother hstatus
    rw [ite_self] at hold
    rw [if_neg hne]
    exact hold
  -- a source of the new node would be one of a stored node with its id
  have hsources : d.sources other.scope other.memoryId = 0 := by
    refine countP_eq_zero.2 ?_
    intro p hp hkey
    simp only [decide_eq_true_eq] at hkey
    obtain ⟨old, hold, hscope, hid⟩ := h.owned p hp
    exact fresh_of_insert? hinsert hold
      (conflict_of_key ⟨hscope.trans hkey.1, hid.trans hkey.2⟩ ⟨rfl, rfl⟩)
  show _ = (d.sources other.scope other.memoryId : Int) + _
  rw [hsources, if_pos ⟨rfl, rfl⟩, hcount]
  rfl

/-! ## What the writes keep -/

/-- An update of the node of a row that is active. -/
theorem Counts.updateActive (h : Counts scope id k d) {old : MemoryRow} (hold : old ∈ d.nodes)
    (hactive : old.status = .active) (hupdate : d.updateNode old.scope old.memoryId f = some d')
    (hkey : ∀ row, (f row).scope = row.scope ∧ (f row).memoryId = row.memoryId)
    (hcount : ∀ row, (f row).sourceCount = row.sourceCount) : Counts scope id k d' := by
  refine h.updateNode hupdate hkey hcount ?_
  intro row hrow hnode _
  rw [eq_of_conflict hrow hold (conflict_of_key hnode ⟨rfl, rfl⟩), hactive]
  exact nofun

/-- The id drawn for a source is new in its scope. -/
def NewSource (d : Db) (scope : Scope) (provenanceId : String) : Prop :=
  ∀ row ∈ d.provenance.rows, row.scope = scope → row.provenanceId ≠ provenanceId

theorem Counts.insertNew (h : Counts scope id 0 d) {old : Option MemoryRow} {memoryId : String}
    (hold : ∀ row ∈ old, row ∈ d.nodes ∧ row.scope = scope ∧ row.status = .active)
    (hnew : NewSource d scope p.provenanceId)
    (hinsert : insertNewTx py d scope c p old drawn now = some (d', memoryId)) :
    Counts scope id 0 d' := by
  obtain ⟨d₁, hsupersede, hinsert⟩ := bind_eq_some_iff.1 hinsert
  obtain ⟨nodes, hnodes, hinsert⟩ := bind_eq_some_iff.1 hinsert
  obtain ⟨⟨d₂, inserted⟩, hprovenance, hinsert⟩ := bind_eq_some_iff.1 hinsert
  obtain ⟨d₃, hlink, hinsert⟩ := bind_eq_some_iff.1 hinsert
  cases hinsert
  have h₁ : Counts scope id 0 d₁ ∧ d₁.provenance = d.provenance := by
    cases old with
    | none =>
      cases hsupersede
      exact ⟨h, rfl⟩
    | some row =>
      obtain ⟨hrow, rfl, hactive⟩ := hold row rfl
      refine ⟨h.updateActive hrow hactive hsupersede (fun _ => ⟨rfl, rfl⟩) fun _ => rfl, ?_⟩
      obtain ⟨_, -, rfl⟩ := map_eq_some_iff.1 hsupersede
      rfl
  have h₂ := (h₁.1.insertNode hnodes rfl).insertProvenance hprovenance
  -- the source of a new node collides with none
  obtain ⟨-, ⟨rfl, provenance, -, rfl⟩ | ⟨-, hnone, -⟩⟩ := insertProvenanceTx_cases hprovenance
  · have h₃ : Counts scope id 0 { d₁ with nodes := nodes, provenance := provenance } := h₂.zero
    cases old with
    | none =>
      cases hlink
      exact h₃
    | some row =>
      obtain ⟨d₄, hupdate, hrelation⟩ := bind_eq_some_iff.1 hlink
      refine (h₃.updateNode hupdate (fun _ => ⟨rfl, rfl⟩) (fun _ => rfl) ?_).insertRelation
        hrelation
      intro _ _ _ hstatus
      exact hstatus
  · obtain ⟨q, hq, hscope, hid | ⟨hid, -⟩⟩ := insert?_eq_none hnone
    · rw [h₁.2] at hq
      exact absurd hid (hnew q hq hscope)
    · obtain ⟨row, hrow, hkey⟩ := h₁.1.owned q hq
      exact absurd (conflict_of_key ⟨hkey.1.trans hscope, hkey.2.trans hid⟩ ⟨rfl, rfl⟩)
        (fresh_of_insert? hnodes hrow)

theorem Counts.upsert (h : Counts scope id 0 d) (hnew : NewSource d scope p.provenanceId)
    (hupsert : upsertCandidate py maxReal d scope c p drawn now = some d') :
    Counts scope id 0 d' := by
  unfold upsertCandidate at hupsert
  split at hupsert
  · cases hupsert
    exact h
  obtain ⟨⟨d₁, memoryId⟩, hwrite, hrelations⟩ := bind_eq_some_iff.1 hupsert
  obtain ⟨relations, rfl⟩ := insertRelationsTx_eq hrelations
  refine Counts.setRelations ?_ relations
  have hselected : ∀ row, selectExistingTx py d scope c = some row → _ :=
    fun _ => selectExistingTx_mem
  unfold writeCandidateTx at hwrite
  split at hwrite
  · refine h.insertNew ?_ hnew hwrite
    intro row hrow
    cases hrow
  rename_i row hrow
  obtain ⟨hmem, hscope, hactive⟩ := hselected row hrow
  split at hwrite
  · refine h.insertNew ?_ hnew hwrite
    rintro _ ⟨⟩
    exact ⟨hmem, hscope, hactive⟩
  -- the counter takes what the insert has given
  obtain ⟨⟨d₂, inserted⟩, hprovenance, hwrite⟩ := bind_eq_some_iff.1 hwrite
  obtain ⟨d₃, hupdate, hwrite⟩ := bind_eq_some_iff.1 hwrite
  cases hwrite
  have h₂ : Counts scope row.memoryId _ d₂ := (h.zero).insertProvenance hprovenance
  obtain ⟨nodes, hnodes, rfl⟩ := map_eq_some_iff.1 hupdate
  have h₃ := h₂.update (c := if inserted then 1 else 0) hnodes (fun _ => ⟨rfl, rfl⟩) ?_
  · rw [sub_add_cancel] at h₃
    exact h₃.zero
  intro other _ hstatus
  simp only [isNode, decide_eq_true_eq] at hstatus ⊢
  split at hstatus
  · rename_i hkey
    rw [if_pos hkey, if_pos hkey]
    exact ⟨hstatus, rfl⟩
  · rename_i hkey
    rw [if_neg hkey, if_neg hkey, add_zero]
    exact ⟨hstatus, rfl⟩

theorem Counts.confirm (h : Counts scope id k d)
    (hconfirm : confirmNode d scope' id' now = some d') : Counts scope id k d' := by
  obtain ⟨nodes, hnodes, rfl⟩ := map_eq_some_iff.1 hconfirm
  exact h.keep hnodes (fun _ => ⟨rfl, rfl⟩) (fun _ => rfl) fun _ _ _ hstatus => hstatus

theorem Counts.delete (h : Counts scope id 0 d) (hdelete : deleteNode d scope' id' now = some d') :
    Counts scope id 0 d' := by
  obtain ⟨nodes, hnodes, rfl⟩ := map_eq_some_iff.1 hdelete
  have hkept := h.keep hnodes (fun _ => ⟨rfl, rfl⟩) (fun _ => rfl) fun _ _ _ hstatus =>
    absurd rfl hstatus
  constructor
  · intro p hp
    exact hkept.owned p (mem_delete.1 hp).1
  intro row hrow hstatus
  rw [hkept.counted row hrow hstatus]
  -- the erased node is deleted, and no other node has its sources
  have hother : ¬ (row.scope = scope' ∧ row.memoryId = id') := by
    obtain ⟨old, -, rfl⟩ := (mem_update? hnodes).1 hrow
    intro hkey
    split at hstatus
    · exact hstatus rfl
    rename_i hleft
    rw [if_neg hleft] at hkey
    exact hleft (by simp [isLeft, isNode, hkey, hstatus])
  have hsources : d.provenance.rows.countP
        (fun p => p.scope = row.scope ∧ p.memoryId = row.memoryId) =
      (d.provenance.delete fun p => p.scope = scope' ∧ p.memoryId = id').rows.countP
        fun p => p.scope = row.scope ∧ p.memoryId = row.memoryId := by
    show _ = List.countP _ (List.filter _ _)
    rw [countP_filter]
    refine countP_congr ?_
    intro p _
    simp only [decide_eq_true_eq, and_eq_true, not_eq_true', decide_eq_false_iff_not]
    constructor
    · intro hkey
      refine ⟨hkey, ?_⟩
      rw [hkey.1, hkey.2]
      exact hother
    · exact And.left
  show ((d.provenance.rows.countP _ : Nat) : Int) + _ = _
  rw [hsources]
  rfl

/-! ## Edits -/

/-- The kind and the key that an edit writes. -/
def Pending.kind (u : Pending) : MemoryKind := u.edit.kind.getD u.current.kind

def Pending.key (py : Python) (u : Pending) : String :=
  py.normalizeKey ((truthy u.edit.canonicalKey).getD u.current.canonicalKey)

/-- The row is that of the active memory of a kind and a key. -/
def ActiveAt (scope : Scope) (kind : MemoryKind) (key : String) (row : MemoryRow) : Prop :=
  row.scope = scope ∧ row.status = .active ∧ row.kind = kind ∧ row.canonicalKey = key

instance (scope : Scope) (kind : MemoryKind) (key : String) (row : MemoryRow) :
    Decidable (ActiveAt scope kind key row) := inferInstanceAs (Decidable (_ ∧ _ ∧ _ ∧ _))

/-- The edited memory is active, and another one has the kind and the key. -/
def Taken (py : Python) (d : Db) (u : Pending) : Prop :=
  (∃ row ∈ d.nodes.rows, (row.scope = u.scope ∧ row.memoryId = u.memoryId) ∧ row.status = .active) ∧
  ∃ row ∈ d.nodes.rows, row.memoryId ≠ u.memoryId ∧ ActiveAt u.scope u.kind (u.key py) row

instance (u : Pending) : Decidable (Taken py d u) :=
  inferInstanceAs (Decidable ((∃ _ ∈ _, _) ∧ ∃ _ ∈ _, _))

/-- An edit onto the key of another memory breaks the index. -/
theorem writeEdit_taken (h : Taken py d u) : writeEdit py d u provenanceId now = none := by
  obtain ⟨⟨row, hrow, hkey, hactive⟩, other, hother, hne, hscope, hstatus, hkind, hcanonical⟩ := h
  rcases hwrite : writeEdit py d u provenanceId now with _ | d'
  · rfl
  exfalso
  obtain ⟨nodes, hnodes, -⟩ := bind_eq_some_iff.1 hwrite
  have hsel : (isNode u.scope u.memoryId row && row.status = .active) = true := by
    rw [isNode_iff.2 hkey, hactive]
    rfl
  have hnew := (mem_update? hnodes).2 ⟨row, hrow, rfl⟩
  have hkept := (mem_update? hnodes).2 ⟨other, hother, rfl⟩
  rw [if_pos hsel] at hnew
  rw [if_neg (by simp [isNode, hne])] at hkept
  have heq := eq_of_conflict hkept hnew ?_
  · rw [heq] at hne
    exact hne hkey.2
  refine ⟨hscope.trans hkey.1.symm, .inr ⟨⟨hstatus, hactive⟩, hkind, ?_⟩⟩
  dsimp only
  rw [← Pending.key]
  exact hcanonical

/-- The edit inserts no source of a memory that is there: the memory is deleted, the source is
known, or the edit is refused. -/
def Sourceless (py : Python) (d : Db) (u : Pending) (provenanceId now : String) : Prop :=
  (∀ row ∈ d.nodes.rows, row.scope = u.scope ∧ row.memoryId = u.memoryId → row.status = .deleted) ∨
  (∃ row ∈ d.provenance.rows, row.conflict (provenanceRow py u.scope u.memoryId
    (editProvenance u provenanceId now) now)) ∨
  Taken py d u

instance (u : Pending) (provenanceId now : String) :
    Decidable (Sourceless py d u provenanceId now) :=
  inferInstanceAs (Decidable ((∀ _ ∈ _, _) ∨ (∃ _ ∈ _, _) ∨ _))

theorem Counts.writeEdit (h : Counts scope id 0 d) (hnone : Sourceless py d u provenanceId now)
    (hwrite : writeEdit py d u provenanceId now = some d') : Counts scope id 0 d' := by
  rcases hnone with hdeleted | hknown | htaken
  · obtain ⟨nodes, hnodes, hwrite⟩ := bind_eq_some_iff.1 hwrite
    obtain ⟨⟨d₁, inserted⟩, hprovenance, hwrite⟩ := bind_eq_some_iff.1 hwrite
    cases hwrite
    have h₁ := (h.keep hnodes (fun _ => ⟨rfl, rfl⟩) (fun _ => rfl) fun _ _ _ hstatus =>
      hstatus).zero.insertProvenance hprovenance
    refine ⟨h₁.owned, ?_⟩
    intro row hrow hstatus
    have hother : ¬ (row.scope = u.scope ∧ row.memoryId = u.memoryId) := by
      intro hkey
      rw [nodes_insertProvenanceTx hprovenance] at hrow
      obtain ⟨old, hold, rfl⟩ := (mem_update? hnodes).1 hrow
      split at hstatus
      · rename_i hsel
        rw [and_eq_true, isNode_iff, decide_eq_true_eq] at hsel
        rw [hdeleted old hold hsel.1] at hsel
        cases hsel.2
      · rename_i hsel
        rw [if_neg hsel] at hkey
        exact hstatus (hdeleted old hold hkey)
    have hcount := h₁.counted row hrow hstatus
    rw [if_neg hother] at hcount
    rw [hcount, ite_self]
  · obtain ⟨nodes, hnodes, hwrite⟩ := bind_eq_some_iff.1 hwrite
    obtain ⟨⟨d₁, inserted⟩, hprovenance, hwrite⟩ := bind_eq_some_iff.1 hwrite
    cases hwrite
    have hkept := h.keep hnodes (fun _ => ⟨rfl, rfl⟩) (fun _ => rfl) fun _ _ _ hstatus => hstatus
    obtain ⟨-, ⟨-, provenance, hinsert, -⟩ | ⟨-, -, rfl⟩⟩ := insertProvenanceTx_cases hprovenance
    · obtain ⟨row, hrow, hconflict⟩ := hknown
      exact absurd hconflict (fresh_of_insert? hinsert hrow)
    · exact hkept
  · rw [writeEdit_taken htaken] at hwrite
    cases hwrite

/-! ## Runs -/

/-- An upsert draws a new id for its source, and an edit inserts none. -/
def Sourced (py : Python) (s : System) : Label → Prop
  | .upsert scope _ p _ _ => NewSource s.db scope p.provenanceId
  | .writeEdit t provenanceId now => ∀ u ∈ s.edits t, Sourceless py s.db u provenanceId now
  | _ => True

instance (s : System) : (l : Label) → Decidable (Sourced py s l)
  | .upsert _ _ _ _ _ => inferInstanceAs (Decidable (∀ _ ∈ _, _))
  | .writeEdit _ _ _ => inferInstanceAs (Decidable (∀ _ ∈ _, _))
  | .confirm _ _ _ | .readEdit _ _ _ _ | .delete _ _ _ => .isTrue trivial

theorem counts_step (s : System) (l : Label) (hl : Sourced py s l)
    (h : Counts scope id 0 s.db) : Counts scope id 0 (step py maxReal s l).db := by
  cases l with
  | upsert scope' c p drawn now =>
    have hzero : Counts scope' id 0 s.db := h.zero
    exact commit_keeps h fun _ hd => (hzero.upsert hl hd).zero
  | confirm => exact commit_keeps h fun _ hd => h.confirm hd
  | readEdit => exact h
  | writeEdit t provenanceId now =>
    unfold step
    dsimp only
    split
    · exact h
    · rename_i u hu
      exact commit_keeps h fun _ hd => h.writeEdit (hl u hu) hd
  | delete => exact commit_keeps h fun _ hd => h.delete hd

/-- In a run whose edits insert no source, every memory that is not deleted counts its sources. -/
theorem source_counts (py : Python) (maxReal : String → String → String) (trace : List Label)
    (hmeets : Meets (step py maxReal) (Sourced py) System.initial trace) (row : MemoryRow)
    (hrow : row ∈ (run (step py maxReal) System.initial trace).db.nodes)
    (hstatus : row.status ≠ .deleted) :
    row.sourceCount = ((run (step py maxReal) System.initial trace).db.sources row.scope
      row.memoryId : Int) := by
  have hinit : Counts row.scope row.memoryId 0 System.initial.db := by
    constructor
    · intro p hp
      exact absurd hp (Table.not_mem_empty p)
    · intro row hrow
      exact absurd hrow (Table.not_mem_empty row)
  have hstep : ∀ s l, Sourced py s l → Counts row.scope row.memoryId 0 s.db →
      Counts row.scope row.memoryId 0 (step py maxReal s l).db := fun s l hl h => counts_step s l hl h
  have hcount := (run_invariant_of_meets hstep hmeets hinit).counted row hrow hstatus
  rwa [ite_self, add_zero] at hcount

/-- A memory is heard twice, the second time with another quote. -/
def heardTwice : List Label :=
  [.upsert owner said (heard "p1") ⟨"m1", "r1"⟩ "t1",
    .upsert owner said { heard "p2" with sourceId := "s2" } ⟨"m2", "r2"⟩ "t2"]

theorem source_counts_heardTwice :
    ∃ row ∈ (run (step Python.ascii fun a _ => a) System.initial heardTwice).db.nodes,
      row.sourceCount = 2 ∧ row.sourceCount = ((run (step Python.ascii fun a _ => a) System.initial
        heardTwice).db.sources row.scope row.memoryId : Int) := by
  have hrows : ∃ row ∈ (run (step Python.ascii fun a _ => a) System.initial
      heardTwice).db.nodes.rows, row.status ≠ .deleted ∧ row.sourceCount = 2 := by decide +kernel
  obtain ⟨row, hrow, hstatus, hcount⟩ := hrows
  exact ⟨row, hrow, hcount, source_counts Python.ascii (fun a _ => a) heardTwice
    (by decide +kernel) row hrow hstatus⟩

theorem source_counts_breaks : ¬ ∀ (py : Python) (maxReal : String → String → String)
    (trace : List Label) (row : MemoryRow),
    row ∈ (run (step py maxReal) System.initial trace).db.nodes → row.status ≠ .deleted →
    row.sourceCount = ((run (step py maxReal) System.initial trace).db.sources row.scope
      row.memoryId : Int) := by
  intro h
  -- the edited memory has two sources and counts one
  have hrows : ∃ row ∈ (run (step Python.ascii fun a _ => a) System.initial
      (edited ++ [.writeEdit 0 "p2" "t2"])).db.nodes.rows, row.status ≠ .deleted ∧
      row.sourceCount ≠ ((run (step Python.ascii fun a _ => a) System.initial
        (edited ++ [.writeEdit 0 "p2" "t2"])).db.sources row.scope row.memoryId : Int) := by
    decide +kernel
  obtain ⟨row, hrow, hstatus, hne⟩ := hrows
  exact hne (h Python.ascii (fun a _ => a) (edited ++ [.writeEdit 0 "p2" "t2"]) row hrow hstatus)

end EchoDesk.Memory
