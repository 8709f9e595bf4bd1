import EchoDesk.Memory.Sources

/-! # The key of an active memory

`idx_memory_nodes_active_key` allows one active memory for each scope, kind and canonical key. An
upsert looks its memory up by its id, by its key or by its content, and writes a key of its own:
the memory it replaces need not be the one that has this key. An edit looks no key up at all.
-/

namespace EchoDesk.Memory

open Transition List Table

variable {py : Python} {maxReal : String → String → String}
variable {d d' : Db} {scope : Scope} {kind : MemoryKind} {key id : String}
variable {row : MemoryRow} {now : String} {drawn : Drawn}
variable {old : Option MemoryRow} {accepted : Prop} {a' b : MemoryRow} {o : Option Db} {u : Pending}

/-! ## What the index sees of a row -/

structure Slot where
  scope : Scope
  memoryId : String
  status : MemoryStatus
  kind : MemoryKind
  canonicalKey : String
  normalizedContent : String

/-- The columns of the keys, and the content as lookups compare it. -/
def slot (row : MemoryRow) : Slot :=
  ⟨row.scope, row.memoryId, row.status, row.kind, row.canonicalKey, row.normalizedContent⟩

variable {a : MemoryRow} {f : MemoryRow → MemoryRow} {c : MemoryWriteCandidate}
variable {p : ProvenanceInput}

theorem conflict_slot {b' : MemoryRow} (ha : slot a' = slot a) (hb : slot b' = slot b) :
    a'.conflict b' ↔ a.conflict b := by
  simp only [slot, Slot.mk.injEq] at ha hb
  obtain ⟨ha₁, ha₂, ha₃, ha₄, ha₅, -⟩ := ha
  obtain ⟨hb₁, hb₂, hb₃, hb₄, hb₅, -⟩ := hb
  unfold MemoryRow.conflict
  rw [ha₁, ha₂, ha₃, ha₄, ha₅, hb₁, hb₂, hb₃, hb₄, hb₅]

theorem activeAt_slot (h : slot a' = slot a) :
    ActiveAt scope kind key a' ↔ ActiveAt scope kind key a := by
  simp only [slot, Slot.mk.injEq] at h
  obtain ⟨h₁, -, h₃, h₄, h₅, -⟩ := h
  unfold ActiveAt
  rw [h₁, h₃, h₄, h₅]

theorem conflict_of_activeAt (ha : ActiveAt scope kind key a) (hb : ActiveAt scope kind key b) :
    a.conflict b :=
  ⟨ha.1.trans hb.1.symm, .inr ⟨⟨ha.2.1, hb.2.1⟩, ha.2.2.1.trans hb.2.2.1.symm,
    ha.2.2.2.trans hb.2.2.2.symm⟩⟩

theorem activeAt_newNode (c : MemoryWriteCandidate) (occurredAt now : String) :
    ActiveAt scope c.kind (py.normalizeKey c.canonicalKey)
      (newNode py scope c id occurredAt now) := by
  simp only [ActiveAt, newNode, and_self]

/-- The rows of two databases agree on their slots. -/
def SameSlots (d d' : Db) : Prop := d'.nodes.rows.map slot = d.nodes.rows.map slot

theorem SameSlots.of_mem (h : SameSlots d d') (hrow : row ∈ d.nodes) :
    ∃ row' ∈ d'.nodes, slot row' = slot row := by
  have hmem : slot row ∈ d'.nodes.rows.map slot := by
    rw [h]
    exact mem_map_of_mem hrow
  exact mem_map.1 hmem

/-- An update that keeps the slots is done. -/
theorem exists_updateNode (d : Db) (scope : Scope) (id : String)
    (hf : ∀ row, slot (f row) = slot row) :
    ∃ d', d.updateNode scope id f = some d' ∧ SameSlots d d' := by
  have hslot : ∀ row, slot (if isNode scope id row then f row else row) = slot row := by
    intro row
    split
    · exact hf row
    · rfl
  obtain ⟨nodes, hnodes⟩ := exists_update? d.nodes (isNode scope id) f
    fun a b h => (conflict_slot (hslot a) (hslot b)).1 h
  refine ⟨{ d with nodes := nodes }, by rw [Db.updateNode, hnodes]; rfl, ?_⟩
  show nodes.rows.map slot = _
  rw [rows_of_update? hnodes, map_map]
  exact map_congr_left fun row _ => hslot row

/-! ## Writes beside the nodes -/

section

variable (hrow : row ∈ d.nodes) (hkey : row.scope = scope ∧ row.memoryId = id)

include hrow hkey

theorem exists_insertProvenanceTx (py : Python) (p : ProvenanceInput) (now : String) :
    ∃ d' inserted, insertProvenanceTx py d scope id p now = some (d', inserted) ∧
      d'.nodes = d.nodes := by
  rcases hinsert : insertProvenanceTx py d scope id p now with _ | ⟨d', inserted⟩
  · exfalso
    unfold insertProvenanceTx at hinsert
    rw [node?_eq_some.2 ⟨hrow, hkey⟩] at hinsert
    dsimp only at hinsert
    split at hinsert
    · cases hinsert
    · cases hinsert
  · exact ⟨d', inserted, rfl, nodes_insertProvenanceTx hinsert⟩

theorem exists_insertRelationTx (relationId targetId relationKind confidence now : String) :
    ∃ d', insertRelationTx d scope relationId id targetId relationKind confidence now = some d' ∧
      d'.nodes = d.nodes := by
  rcases hinsert : insertRelationTx d scope relationId id targetId relationKind confidence now
    with _ | d'
  · exfalso
    unfold insertRelationTx at hinsert
    rw [node?_eq_some.2 ⟨hrow, hkey⟩] at hinsert
    split at hinsert
    · cases hinsert
    split at hinsert
    · cases hinsert
    split at hinsert
    · cases hinsert
    rw [if_neg (by simp)] at hinsert
    split at hinsert
    · cases hinsert
    · cases hinsert
  · exact ⟨d', rfl, nodes_insertRelationTx hinsert⟩

theorem exists_insertRelationsTx (confidence now : String) (targets : List (String × String)) :
    ∃ d', insertRelationsTx scope id confidence now targets d = some d' ∧ d'.nodes = d.nodes := by
  induction targets generalizing d with
  | nil => exact ⟨d, rfl, rfl⟩
  | cons entry rest ih =>
    obtain ⟨targetId, relationId⟩ := entry
    obtain ⟨d₁, hfirst, hnodes⟩ :=
      exists_insertRelationTx hrow hkey relationId targetId "related_to" confidence now
    rw [← hnodes] at hrow
    obtain ⟨d₂, hrest, hnodes'⟩ := ih hrow
    exact ⟨d₂, Option.bind_eq_some_iff.2 ⟨d₁, hfirst, hrest⟩, hnodes'.trans hnodes⟩

end

/-! ## Inserting a memory -/

/-- The memories that have the key are what the insert supersedes. -/
def GivenWay (d : Db) (scope : Scope) (kind : MemoryKind) (key : String)
    (old : Option MemoryRow) : Prop :=
  ∀ row ∈ d.nodes.rows, ActiveAt scope kind key row → ∃ r ∈ old, r.memoryId = row.memoryId

/-- The id drawn for a memory is new in its scope. -/
def NewMemory (d : Db) (scope : Scope) (memoryId : String) : Prop :=
  ∀ row ∈ d.nodes.rows, row.scope = scope → row.memoryId ≠ memoryId

/-- Superseding leaves the other rows, and keeps every id. -/
theorem exists_supersedeTx (d : Db) (scope : Scope) (old : Option MemoryRow) (now : String) :
    ∃ d₁, supersedeTx d scope old now = some d₁ ∧
      (∀ row ∈ d.nodes, (∀ r ∈ old, r.memoryId ≠ row.memoryId) → row ∈ d₁.nodes) ∧
      ∀ row ∈ d₁.nodes, (∃ row' ∈ d.nodes, row'.scope = row.scope ∧ row'.memoryId = row.memoryId) ∧
        (row.status = .active → row.scope = scope → row ∈ d.nodes ∧
          ∀ r ∈ old, r.memoryId ≠ row.memoryId) := by
  cases old with
  | none =>
    refine ⟨d, rfl, fun row hrow _ => hrow, ?_⟩
    intro row hrow
    refine ⟨⟨row, hrow, rfl, rfl⟩, fun _ _ => ⟨hrow, ?_⟩⟩
    intro r hr
    cases hr
  | some old =>
    obtain ⟨nodes, hnodes⟩ := exists_update? d.nodes (isNode scope old.memoryId)
      (fun row => { row with
        status := .superseded
        supersededAt := some now
        updatedAt := now
        revision := row.revision + 1 }) (by
        intro a b h
        -- a superseded row can collide by its id only
        split at h <;> split at h
        all_goals first
          | exact h
          | exact ⟨h.1, h.2.imp_right fun hkey => by cases hkey.1.1⟩
          | exact ⟨h.1, h.2.imp_right fun hkey => by cases hkey.1.2⟩)
    refine ⟨{ d with nodes := nodes }, by rw [supersedeTx, Db.updateNode, hnodes]; rfl, ?_, ?_⟩
    · intro row hrow hother
      refine (mem_update? hnodes).2 ⟨row, hrow, ?_⟩
      rw [if_neg]
      intro hsel
      exact hother old rfl (isNode_iff.1 hsel).2.symm
    intro row hrow
    obtain ⟨row', hrow', rfl⟩ := (mem_update? hnodes).1 hrow
    split
    · refine ⟨⟨row', hrow', rfl, rfl⟩, ?_⟩
      intro hactive
      cases hactive
    · rename_i hsel
      refine ⟨⟨row', hrow', rfl, rfl⟩, fun _ hscope => ⟨hrow', ?_⟩⟩
      rintro _ ⟨⟩ hid
      exact hsel (isNode_iff.2 ⟨hscope, hid.symm⟩)

/-- Linking the old memory and the new one moves no slot. -/
theorem exists_linkTx (scope : Scope) (c : MemoryWriteCandidate) (old : Option MemoryRow)
    (drawn : Drawn) (now : String) (hrow : row ∈ d.nodes)
    (hkey : row.scope = scope ∧ row.memoryId = drawn.memoryId) :
    ∃ d', linkTx d scope c old drawn now = some d' ∧ SameSlots d d' := by
  cases old with
  | none => exact ⟨d, rfl, rfl⟩
  | some old =>
    obtain ⟨d₁, hupdate, hslots⟩ := exists_updateNode d scope old.memoryId
      (f := fun row => { row with supersededBy := some drawn.memoryId }) fun _ => rfl
    obtain ⟨row', hrow', hslot⟩ := hslots.of_mem hrow
    simp only [slot, Slot.mk.injEq] at hslot
    obtain ⟨d₂, hrelation, hnodes⟩ := exists_insertRelationTx hrow'
      ⟨hslot.1.trans hkey.1, hslot.2.1.trans hkey.2⟩ drawn.relationId old.memoryId "supersedes"
      c.confidence now
    refine ⟨d₂, Option.bind_eq_some_iff.2 ⟨d₁, hupdate, hrelation⟩, ?_⟩
    rw [SameSlots, hnodes]
    exact hslots

/-- A memory is inserted exactly when the memories of its key have given way, and it is there
then. -/
theorem insertNewTx_iff {c : MemoryWriteCandidate} {p : ProvenanceInput} {old : Option MemoryRow}
    {drawn : Drawn} {now : String} (hnew : NewMemory d scope drawn.memoryId) :
    (∃ result, insertNewTx py d scope c p old drawn now = some result) ↔
      GivenWay d scope c.kind (py.normalizeKey c.canonicalKey) old := by
  obtain ⟨d₁, hsupersede, hkept, hback⟩ := exists_supersedeTx d scope old now
  constructor
  · rintro ⟨result, hinsert⟩ row hrow hactive
    by_contra hother
    obtain ⟨d₂, hd₂, hinsert⟩ := Option.bind_eq_some_iff.1 hinsert
    obtain ⟨nodes, hnodes, -⟩ := Option.bind_eq_some_iff.1 hinsert
    rw [hsupersede] at hd₂
    cases hd₂
    -- the row of the key is still there when the new one is inserted
    have hrow₁ := hkept row hrow fun r hr hid => hother ⟨r, hr, hid⟩
    exact fresh_of_insert? hnodes hrow₁
      (conflict_of_activeAt hactive (activeAt_newNode c p.occurredAt now))
  intro hgiven
  obtain ⟨nodes, hnodes⟩ := insert?_of_fresh (t := d₁.nodes)
    (r := newNode py scope c drawn.memoryId p.occurredAt now) (by
      rintro a ha ⟨hscope, hid | ⟨⟨hactive, -⟩, hkey⟩⟩
      · obtain ⟨row', hrow', hscope', hid'⟩ := (hback a ha).1
        exact hnew row' hrow' (hscope'.trans hscope) (hid'.trans hid)
      obtain ⟨hrow, hother⟩ := (hback a ha).2 hactive hscope
      have hslot : ActiveAt scope c.kind (py.normalizeKey c.canonicalKey)
          (newNode py scope c drawn.memoryId p.occurredAt now) := activeAt_newNode c _ _
      obtain ⟨r, hr, hid⟩ := hgiven a hrow ⟨hscope, hactive, hkey.1.trans hslot.2.2.1,
        hkey.2.trans hslot.2.2.2⟩
      exact hother r hr hid)
  have hmem := (mem_insert? hnodes).2 (.inr rfl)
  obtain ⟨d₂, inserted, hprovenance, hnodes₂⟩ :=
    exists_insertProvenanceTx (d := { d₁ with nodes := nodes }) hmem ⟨rfl, rfl⟩ py p now
  have hmem₂ : newNode py scope c drawn.memoryId p.occurredAt now ∈ d₂.nodes := by
    rw [hnodes₂]
    exact hmem
  obtain ⟨d₃, hlink, -⟩ := exists_linkTx scope c old drawn now hmem₂ ⟨rfl, rfl⟩
  exact ⟨_, Option.bind_eq_some_iff.2 ⟨d₁, hsupersede, Option.bind_eq_some_iff.2 ⟨nodes, hnodes,
    Option.bind_eq_some_iff.2 ⟨_, hprovenance, Option.bind_eq_some_iff.2 ⟨d₃, hlink, rfl⟩⟩⟩⟩⟩

/-- What an insert has inserted. -/
theorem insertNewTx_mem (h : insertNewTx py d scope c p old drawn now = some (d', id)) :
    ∃ row ∈ d'.nodes, (row.scope = scope ∧ row.memoryId = id) ∧
      ActiveAt scope c.kind (py.normalizeKey c.canonicalKey) row ∧
      row.normalizedContent = py.normalizeText c.content := by
  obtain ⟨d₁, -, h⟩ := Option.bind_eq_some_iff.1 h
  obtain ⟨nodes, hnodes, h⟩ := Option.bind_eq_some_iff.1 h
  obtain ⟨⟨d₂, inserted⟩, hprovenance, h⟩ := Option.bind_eq_some_iff.1 h
  obtain ⟨d₃, hlink, h⟩ := Option.bind_eq_some_iff.1 h
  cases h
  have hmem : newNode py scope c drawn.memoryId p.occurredAt now ∈ d₂.nodes := by
    rw [nodes_insertProvenanceTx hprovenance]
    exact (mem_insert? hnodes).2 (.inr rfl)
  obtain ⟨d₄, hlink', hslots⟩ := exists_linkTx scope c old drawn now hmem ⟨rfl, rfl⟩
  rw [hlink] at hlink'
  cases hlink'
  obtain ⟨row, hrow, hslot⟩ := hslots.of_mem hmem
  have hactive := (activeAt_slot hslot).2 (activeAt_newNode c p.occurredAt now)
  simp only [slot, Slot.mk.injEq] at hslot
  exact ⟨row, hrow, ⟨hslot.1, hslot.2.1⟩, hactive, hslot.2.2.2.2.2⟩

/-! ## Upserts -/

/-- The write is done, and then no two active memories of a scope share a kind and a key; where a
content was accepted, the active memory of its key holds it. -/
def Respects (py : Python) (scope : Scope) (kind : MemoryKind) (key content : String)
    (accepted : Prop) (d : Option Db) : Prop :=
  ∃ d', d = some d' ∧ (∀ a ∈ d'.nodes, ∀ b ∈ d'.nodes, ∀ kind key, ActiveAt a.scope kind key a →
      ActiveAt a.scope kind key b → a = b) ∧
    (accepted → ∀ row ∈ d'.nodes, ActiveAt scope kind key row →
      row.normalizedContent = py.normalizeText content)

/-- What is left of the rule when the write is done: the index forbids the rest. -/
theorem respects_iff {content : String} :
    Respects py scope kind key content accepted o ↔ ∃ d', o = some d' ∧
      (accepted → ∀ row ∈ d'.nodes, ActiveAt scope kind key row →
        row.normalizedContent = py.normalizeText content) := by
  refine exists_congr fun d' => and_congr_right fun _ => and_iff_right ?_
  intro a ha b hb kind key hactive hactive'
  exact eq_of_conflict ha hb (conflict_of_activeAt hactive hactive')

/-- What a write may find under its key: a candidate that supersedes, only the memory it
supersedes; another one, only its own content. -/
def UpsertFree (py : Python) (d : Db) (scope : Scope) (c : MemoryWriteCandidate) : Prop :=
  c.action ≠ .ignore → ∀ row ∈ d.nodes.rows,
    ActiveAt scope c.kind (py.normalizeKey c.canonicalKey) row → if c.action = .supersede then
        ∃ r ∈ selectExistingTx py d scope c, r.memoryId = row.memoryId
      else row.normalizedContent = py.normalizeText c.content

/-- When nothing is found, nothing has the key. -/
theorem not_activeAt_of_none (h : selectExistingTx py d scope c = none) (hrow : row ∈ d.nodes) :
    ¬ ActiveAt scope c.kind (py.normalizeKey c.canonicalKey) row := by
  rintro ⟨hscope, hactive, hkind, hkey⟩
  unfold selectExistingTx at h
  rw [Option.or_eq_none_iff] at h
  have hempty : ∀ rows, firstOf rows = none → rows = [] := by
    intro rows hnone
    cases rows with
    | nil => rfl
    | cons head rest =>
      rw [firstOf] at hnone
      split at hnone
      · cases hnone
      split at hnone
      · cases hnone
      · cases hnone
  have hfilter := filter_eq_nil_iff.1 (hempty _ h.2) row hrow
  simp only [decide_eq_true_eq] at hfilter
  exact hfilter ⟨hscope, hactive, hkind, .inl hkey⟩

/-- A memory that is heard again keeps its slot. -/
theorem exists_reinforce (maxReal : String → String → String) (p : ProvenanceInput) (drawn : Drawn)
    (now : String) (hrow : row ∈ d.nodes) (hscope : row.scope = scope)
    (haction : c.action ≠ .supersede) :
    ∃ d', writeCandidateTx py maxReal d scope c p (some row) drawn now =
      some (d', row.memoryId) ∧ SameSlots d d' := by
  obtain ⟨d₁, inserted, hprovenance, hnodes⟩ :=
    exists_insertProvenanceTx hrow ⟨hscope, rfl⟩ py p now
  obtain ⟨d₂, hupdate, hslots⟩ := exists_updateNode d₁ scope row.memoryId
    (f := fun row => { row with
      hitCount := row.hitCount + 1
      sourceCount := row.sourceCount + if inserted then 1 else 0
      confidence := maxReal row.confidence c.confidence
      salience := maxReal row.salience c.salience
      lastSeenAt := p.occurredAt
      updatedAt := now
      revision := row.revision + 1 }) fun _ => rfl
  refine ⟨d₂, ?_, by rw [SameSlots, hslots, hnodes]⟩
  unfold writeCandidateTx
  dsimp only
  rw [if_neg haction]
  exact Option.bind_eq_some_iff.2 ⟨_, hprovenance, Option.bind_eq_some_iff.2 ⟨d₂, hupdate, rfl⟩⟩

/-- An upsert that inserts a memory. -/
theorem insert_respects_iff (hnew : NewMemory d scope drawn.memoryId) :
    Respects py scope c.kind (py.normalizeKey c.canonicalKey) c.content accepted
        ((insertNewTx py d scope c p old drawn now).bind fun r =>
          insertRelationsTx scope r.2 c.confidence now (fromKeys c.relationMemoryIds) r.1) ↔
      GivenWay d scope c.kind (py.normalizeKey c.canonicalKey) old := by
  rw [← @insertNewTx_iff py d scope c p old drawn now hnew, respects_iff]
  constructor
  · rintro ⟨d', hd', -⟩
    obtain ⟨result, hinsert, -⟩ := Option.bind_eq_some_iff.1 hd'
    exact ⟨result, hinsert⟩
  rintro ⟨⟨d₁, id⟩, hinsert⟩
  obtain ⟨row, hrow, hkey, hactive, hcontent⟩ := insertNewTx_mem hinsert
  obtain ⟨d₂, hrelations, hnodes⟩ := exists_insertRelationsTx hrow hkey c.confidence now
    (fromKeys c.relationMemoryIds)
  refine ⟨d₂, Option.bind_eq_some_iff.2 ⟨_, hinsert, hrelations⟩, ?_⟩
  intro _ other hother hactive'
  -- the new memory is the one that has the key
  rw [hnodes] at hother
  rw [eq_of_conflict hother hrow (conflict_of_activeAt hactive' hactive)]
  exact hcontent

theorem upsert_respects_iff (hnew : NewMemory d scope drawn.memoryId) :
    Respects py scope c.kind (py.normalizeKey c.canonicalKey) c.content (c.action ≠ .ignore)
      (upsertCandidate py maxReal d scope c p drawn now) ↔ UpsertFree py d scope c := by
  by_cases hignore : c.action = .ignore
  · rw [upsertCandidate, if_pos hignore, respects_iff]
    refine iff_of_true ⟨d, rfl, fun haccepted => absurd hignore haccepted⟩ ?_
    exact fun haccepted => absurd hignore haccepted
  rw [upsertCandidate, if_neg hignore]
  rcases hselect : selectExistingTx py d scope c with _ | old
  · refine (insert_respects_iff hnew).trans (iff_of_true ?_ ?_)
    · intro row hrow hactive
      exact absurd hactive (not_activeAt_of_none hselect hrow)
    · intro _ row hrow hactive
      exact absurd hactive (not_activeAt_of_none hselect hrow)
  obtain ⟨hold, hscope, -⟩ := selectExistingTx_mem hselect
  by_cases hsupersede : c.action = .supersede
  · unfold writeCandidateTx UpsertFree
    simp only [hsupersede, if_true, hselect]
    refine (insert_respects_iff hnew).trans ?_
    exact ⟨fun hgiven _ => hgiven, fun hfree => hfree nofun⟩
  obtain ⟨d₁, hwrite, hslots⟩ :=
    exists_reinforce maxReal p drawn now hold hscope hsupersede
  obtain ⟨row, hrow, hslot⟩ := hslots.of_mem hold
  simp only [slot, Slot.mk.injEq] at hslot
  obtain ⟨d₂, hrelations, hnodes⟩ := exists_insertRelationsTx hrow
    ⟨hslot.1.trans hscope, hslot.2.1⟩ c.confidence now (fromKeys c.relationMemoryIds)
  have hback : SameSlots d₁ d := hslots.symm
  rw [hwrite, respects_iff]
  constructor
  · rintro ⟨d', hd', hcontent⟩ haccepted other hother hactive
    have hd' : insertRelationsTx scope old.memoryId c.confidence now
      (fromKeys c.relationMemoryIds) d₁ = some d' := hd'
    rw [hrelations] at hd'
    cases hd'
    rw [if_neg hsupersede]
    obtain ⟨other', hother', hslot'⟩ := hslots.of_mem hother
    rw [← hnodes] at hother'
    have hsame := hcontent haccepted other' hother' ((activeAt_slot hslot').2 hactive)
    rw [← hsame]
    exact (congrArg Slot.normalizedContent hslot').symm
  · intro hfree
    refine ⟨d₂, hrelations, ?_⟩
    intro haccepted other hother hactive
    rw [hnodes] at hother
    obtain ⟨other', hother', hslot'⟩ := hback.of_mem hother
    have hsame := hfree haccepted other' hother' ((activeAt_slot hslot').2 hactive)
    rw [if_neg hsupersede] at hsame
    rw [← hsame]
    exact (congrArg Slot.normalizedContent hslot').symm

/-! ## Edits -/

/-- The update of an edit, and what it makes of a slot. -/
theorem writeEdit_eq (py : Python) (u : Pending) (now : String) : ∃ f : MemoryRow → MemoryRow,
    (∀ row, slot (f row) = ⟨row.scope, row.memoryId, row.status, u.kind, u.key py,
      py.normalizeText u.content⟩) ∧
    ∀ d provenanceId, writeEdit py d u provenanceId now =
      (d.nodes.update? (fun row => isNode u.scope u.memoryId row && row.status = .active) f).bind
        fun nodes => (insertProvenanceTx py { d with nodes := nodes } u.scope u.memoryId
          (editProvenance u provenanceId now) now).bind fun r => some r.1 := by
  refine ⟨_, ?_, fun _ _ => rfl⟩
  intro row
  simp only [slot, Pending.kind, Pending.key]

/-- An edit whose key is not taken breaks no index. -/
theorem exists_edit_update
    (hf : ∀ row, slot (f row) = ⟨row.scope, row.memoryId, row.status, u.kind, u.key py,
      py.normalizeText u.content⟩) (hfree : ¬ Taken py d u) :
    ∃ nodes, d.nodes.update?
      (fun row => isNode u.scope u.memoryId row && row.status = .active) f = some nodes := by
  -- an active row with the new slot collides with an unchanged one only if the key is taken
  have hother : ∀ a ∈ d.nodes, ∀ b ∈ d.nodes,
      (isNode u.scope u.memoryId a && a.status = .active) = true →
      ¬ (isNode u.scope u.memoryId b && b.status = .active) = true →
      MemoryRow.conflict (f a) b → a.conflict b := by
    rintro a ha b hb hsel hnot ⟨hscope, hid | ⟨⟨hactive, hactive'⟩, hkind, hkey⟩⟩
    all_goals
      rw [Bool.and_eq_true, isNode_iff, decide_eq_true_eq] at hsel hnot
      have hslot := hf a
      simp only [slot, Slot.mk.injEq] at hslot
      rw [hslot.1] at hscope
    · exact ⟨hscope, .inl (hslot.2.1.symm.trans hid)⟩
    rw [hslot.2.2.2.1] at hkind
    rw [hslot.2.2.2.2.1] at hkey
    have hbscope := hscope.symm.trans hsel.1.1
    exact absurd ⟨⟨a, ha, hsel⟩, b, hb, fun hid => hnot ⟨⟨hbscope, hid⟩, hactive'⟩, hbscope,
      hactive', hkind.symm, hkey.symm⟩ hfree
  refine exists_update?_of_mem _ _ _ ?_
  intro a ha b hb h
  split at h
  · rename_i ha'
    split at h
    · rename_i hb'
      rw [Bool.and_eq_true, isNode_iff] at ha' hb'
      exact conflict_of_key ha'.1 hb'.1
    · rename_i hb'
      exact hother a ha b hb ha' hb' h
  · rename_i ha'
    split at h
    · rename_i hb'
      exact symm (hother b hb a ha hb' ha' (symm h))
    · exact h

theorem writeEdit_respects_iff {provenanceId : String}
    (hnode : ∃ row ∈ d.nodes, row.scope = u.scope ∧ row.memoryId = u.memoryId) :
    Respects py u.scope u.kind (u.key py) u.content
      (∃ row ∈ d.nodes, (row.scope = u.scope ∧ row.memoryId = u.memoryId) ∧ row.status = .active)
      (writeEdit py d u provenanceId now) ↔ ¬ Taken py d u := by
  obtain ⟨f, hf, hwrite⟩ := writeEdit_eq py u now
  rw [respects_iff]
  constructor
  · rintro ⟨d', hd', -⟩ htaken
    rw [writeEdit_taken htaken] at hd'
    cases hd'
  intro hfree
  obtain ⟨nodes, hnodes⟩ := exists_edit_update hf hfree
  have hkey : ∀ row, (f row).scope = row.scope ∧ (f row).memoryId = row.memoryId := by
    intro row
    have hslot := hf row
    simp only [slot, Slot.mk.injEq] at hslot
    exact ⟨hslot.1, hslot.2.1⟩
  have hstored : ∃ row ∈ nodes, row.scope = u.scope ∧ row.memoryId = u.memoryId := by
    obtain ⟨row, hrow, hnode⟩ := hnode
    refine ⟨_, (mem_update? hnodes).2 ⟨row, hrow, rfl⟩, ?_⟩
    split
    · rw [(hkey row).1, (hkey row).2]
      exact hnode
    · exact hnode
  obtain ⟨row, hrow, hstored⟩ := hstored
  obtain ⟨d', inserted, hprovenance, hd'⟩ :=
    exists_insertProvenanceTx (d := { d with nodes := nodes }) hrow hstored py
      (editProvenance u provenanceId now) now
  refine ⟨d', ?_, ?_⟩
  · rw [hwrite, hnodes]
    exact Option.bind_eq_some_iff.2 ⟨nodes, rfl, Option.bind_eq_some_iff.2 ⟨_, hprovenance, rfl⟩⟩
  rintro ⟨old, hold, hnode, hactive⟩ other hother hactive'
  rw [hd'] at hother
  -- the edited memory has the key now
  have hedited : f old ∈ nodes := by
    refine (mem_update? hnodes).2 ⟨old, hold, ?_⟩
    rw [if_pos (by rw [isNode_iff.2 hnode, hactive]; rfl)]
  have hslot := hf old
  simp only [slot, Slot.mk.injEq] at hslot
  have hactive₂ : ActiveAt u.scope u.kind (u.key py) (f old) :=
    ⟨hslot.1.trans hnode.1, hslot.2.2.1.trans hactive, hslot.2.2.2.1, hslot.2.2.2.2.1⟩
  rw [eq_of_conflict hother hedited (conflict_of_activeAt hactive' hactive₂)]
  exact hslot.2.2.2.2.2

/-! ## Memories stay -/

/-- No id is lost. -/
def Grows (d d' : Db) : Prop :=
  ∀ row ∈ d.nodes, ∃ row' ∈ d'.nodes, row'.scope = row.scope ∧ row'.memoryId = row.memoryId

theorem grows_update {sel : MemoryRow → Bool} {nodes : Table MemoryRow MemoryRow.conflict}
    (hupdate : d.nodes.update? sel f = some nodes)
    (hkey : ∀ row, (f row).scope = row.scope ∧ (f row).memoryId = row.memoryId) :
    ∀ row ∈ d.nodes, ∃ row' ∈ nodes, row'.scope = row.scope ∧ row'.memoryId = row.memoryId := by
  intro row hrow
  refine ⟨_, (mem_update? hupdate).2 ⟨row, hrow, rfl⟩, ?_⟩
  split
  · exact hkey row
  · exact ⟨rfl, rfl⟩

theorem Grows.trans {d₁ d₂ d₃ : Db} (h : Grows d₁ d₂) (h' : Grows d₂ d₃) : Grows d₁ d₃ := by
  intro row hrow
  obtain ⟨row₂, hrow₂, hscope₂, hid₂⟩ := h row hrow
  obtain ⟨row₃, hrow₃, hscope₃, hid₃⟩ := h' row₂ hrow₂
  exact ⟨row₃, hrow₃, hscope₃.trans hscope₂, hid₃.trans hid₂⟩

theorem grows_of_nodes (h : d'.nodes = d.nodes) : Grows d d' :=
  fun row hrow => ⟨row, by rwa [h], rfl, rfl⟩

theorem grows_write (h : Write py d d') : Grows d d' := by
  cases h with
  | update hupdate hkey => exact grows_update hupdate hkey
  | insert hinsert => exact fun row hrow => ⟨row, (mem_insert? hinsert).2 (.inl hrow), rfl, rfl⟩
  | source _ hinsert => exact grows_of_nodes (nodes_insertProvenanceTx hinsert)
  | relate _ hinsert => exact grows_of_nodes (nodes_insertRelationTx hinsert)

/-! ## Runs -/

/-- The memory of every edit under way is stored. -/
def EditsStored (s : System) : Prop :=
  ∀ t, ∀ u ∈ s.edits t, ∃ row ∈ s.db.nodes, row.scope = u.scope ∧ row.memoryId = u.memoryId

/-- What a commit loses no id of. -/
theorem EditsStored.commit {s : System} (h : EditsStored s)
    (ho : ∀ d', o = some d' → Grows s.db d') : EditsStored (s.commit o) := by
  intro t u hu
  obtain ⟨row, hrow, hkey⟩ := h t u hu
  obtain ⟨row', hrow', hkey'⟩ := commit_keeps (s := s) (P := fun d' => ∃ row' ∈ d'.nodes,
    row'.scope = row.scope ∧ row'.memoryId = row.memoryId) ⟨row, hrow, rfl, rfl⟩
    fun d' hd' => ho d' hd' row hrow
  exact ⟨row', hrow', hkey'.1.trans hkey.1, hkey'.2.trans hkey.2⟩

theorem editsStored_step (s : System) (l : Label) (h : EditsStored s) :
    EditsStored (step py maxReal s l) := by
  cases l with
  | upsert =>
    exact h.commit fun _ hd => (writes_upsert hd).keeps (grows_of_nodes rfl)
      fun hwrite hgrows => hgrows.trans (grows_write hwrite)
  | confirm => exact h.commit fun _ hd => grows_write (write_confirm py hd)
  | readEdit t scope memoryId edit =>
    intro t' u hu
    by_cases ht : t' = t
    · subst ht
      change Function.update s.edits t' _ t' = some u at hu
      rw [Function.update_self] at hu
      obtain ⟨row, hrow, rfl⟩ := Option.map_eq_some_iff.1 hu
      exact ⟨row, node?_eq_some.1 (Option.filter_eq_some_iff.1 hrow).1⟩
    · change Function.update s.edits t _ t' = some u at hu
      rw [Function.update_of_ne ht] at hu
      exact h t' u hu
  | writeEdit t provenanceId now =>
    unfold step
    dsimp only
    split
    · exact h
    rename_i u hu
    have hcommit : EditsStored (s.commit (writeEdit py s.db u provenanceId now)) := by
      refine h.commit fun d' hd => ?_
      obtain ⟨_, _, hwrite, hinsert⟩ := write_edit hd
      exact (grows_write hwrite).trans (grows_of_nodes (nodes_insertProvenanceTx hinsert))
    intro t' v hv
    by_cases ht : t' = t
    · subst ht
      change Function.update s.edits t' none t' = some v at hv
      rw [Function.update_self] at hv
      cases hv
    · change Function.update s.edits t none t' = some v at hv
      rw [Function.update_of_ne ht] at hv
      exact hcommit t' v hv
  | delete =>
    refine h.commit fun _ hd => ?_
    obtain ⟨nodes, hnodes, rfl⟩ := Option.map_eq_some_iff.1 hd
    exact grows_update hnodes fun _ => ⟨rfl, rfl⟩

/-- The id that an upsert draws is new. -/
def DrawsNew (s : System) : Label → Prop
  | .upsert scope _ _ drawn _ => NewMemory s.db scope drawn.memoryId
  | _ => True

/-- What the step promises of the keys of active memories: it does not fail on their index, and
the accepted content is the one of its key. -/
def KeyRule (py : Python) (maxReal : String → String → String) (s : System) : Label → Prop
  | .upsert scope c p drawn now =>
    Respects py scope c.kind (py.normalizeKey c.canonicalKey) c.content (c.action ≠ .ignore)
      (upsertCandidate py maxReal s.db scope c p drawn now)
  | .writeEdit t provenanceId now => ∀ u ∈ s.edits t,
    Respects py u.scope u.kind (u.key py) u.content (∃ row ∈ s.db.nodes,
      (row.scope = u.scope ∧ row.memoryId = u.memoryId) ∧ row.status = .active)
      (writeEdit py s.db u provenanceId now)
  | _ => True

/-- What the step finds under the key that it writes does not stand in its way. -/
def KeyFree (py : Python) (s : System) : Label → Prop
  | .upsert scope c _ _ _ => UpsertFree py s.db scope c
  | .writeEdit t _ _ => ∀ u ∈ s.edits t, ¬ Taken py s.db u
  | _ => True

/-- In every reachable state a write keeps the rule of the keys exactly when no third memory has
its key, and a memory that is heard again has its content. -/
theorem keyRule_iff (py : Python) (maxReal : String → String → String) (trace : List Label)
    (l : Label) (hnew : DrawsNew (run (step py maxReal) System.initial trace) l) :
    KeyRule py maxReal (run (step py maxReal) System.initial trace) l ↔
      KeyFree py (run (step py maxReal) System.initial trace) l := by
  have hinit : EditsStored System.initial := by
    intro t u hu
    cases hu
  have hstep : ∀ s l, EditsStored s → EditsStored (step py maxReal s l) :=
    fun s l h => editsStored_step s l h
  have hstored := run_invariant hstep hinit trace
  generalize run (step py maxReal) System.initial trace = s at *
  cases l with
  | upsert scope c p drawn now => exact upsert_respects_iff hnew
  | writeEdit t provenanceId now =>
    exact forall₂_congr fun u hu => writeEdit_respects_iff (hstored t u hu)
  | _ => exact Iff.rfl

/-- Two memories, and an edit that would give the second one the key of the first. -/
def rekeyed : List Label :=
  [.upsert owner said (heard "p1") ⟨"m1", "r1"⟩ "t1",
    .upsert owner { said with content := "works in Bonn", canonicalKey := "work" } (heard "p2")
      ⟨"m2", "r2"⟩ "t2",
    .readEdit 0 owner "m2" ⟨none, none, some "home", none, none⟩]

/-- The first memory gives way to a newer one. -/
def moved : MemoryWriteCandidate :=
  { said with content := "lives in Bonn", action := .supersede, existingMemoryId := some "m1" }

theorem keyRule_iff_moved :
    KeyRule Python.ascii (fun a _ => a) (run (step Python.ascii fun a _ => a) System.initial
      rekeyed) (.upsert owner moved (heard "p3") ⟨"m3", "r3"⟩ "t3") ↔
    KeyFree Python.ascii (run (step Python.ascii fun a _ => a) System.initial rekeyed)
      (.upsert owner moved (heard "p3") ⟨"m3", "r3"⟩ "t3") := by
  have hnew : ∀ row ∈ (run (step Python.ascii fun a _ => a) System.initial rekeyed).db.nodes.rows,
      row.scope = owner → row.memoryId ≠ "m3" := by decide +kernel
  exact keyRule_iff Python.ascii (fun a _ => a) rekeyed _ hnew

theorem keyRule_breaks : ¬ ∀ (py : Python) (maxReal : String → String → String)
    (trace : List Label) (l : Label),
    DrawsNew (run (step py maxReal) System.initial trace) l →
    KeyRule py maxReal (run (step py maxReal) System.initial trace) l := by
  intro h
  have hrule := h Python.ascii (fun a _ => a) rekeyed (.writeEdit 0 "p3" "t3") trivial
  -- the edit is refused with an integrity error
  have hfails : ∃ u ∈ (run (step Python.ascii fun a _ => a) System.initial rekeyed).edits 0,
      (writeEdit Python.ascii (run (step Python.ascii fun a _ => a) System.initial rekeyed).db u
        "p3" "t3").isNone = true := by decide +kernel
  obtain ⟨u, hu, hnone⟩ := hfails
  obtain ⟨d', hd', -⟩ := hrule u hu
  rw [hd'] at hnone
  cases hnone

end EchoDesk.Memory
