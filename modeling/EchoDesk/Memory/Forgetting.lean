import EchoDesk.Memory.Repository

/-! # Forgetting a memory

A deleted node keeps its row, with its texts erased, and loses its provenance and its
relations. Every other write takes an active node or draws a new id, with one exception:
`update_node` inserts its provenance whether its update has found the node active or not.
-/

namespace EchoDesk.Memory

open Transition List Option Table

variable {py : Python} {maxReal : String → String → String}
variable {d d' : Db} {scope scope' : Scope} {id id' : String} {row : MemoryRow}
variable {now : String} {drawn : Drawn} {old : Option MemoryRow} {targets : List (String × String)}
variable {P : Db → Prop} {a b : MemoryRow} {kind : String}

/-! ## Nodes by their id -/

/-- The texts of the row are erased. -/
structure Erased (row : MemoryRow) : Prop where
  status : row.status = .deleted
  content : row.content = "[已删除]"
  normalizedContent : row.normalizedContent = ""
  canonicalKey : row.canonicalKey = "deleted:" ++ row.memoryId
  subject : row.subject = none
  metadata : row.metadata = []

/-- The node is deleted and erased, and nothing refers to it. -/
structure Forgotten (d : Db) (scope : Scope) (id : String) (row : MemoryRow) : Prop where
  mem : row ∈ d.nodes
  key : row.scope = scope ∧ row.memoryId = id
  erased : Erased row
  provenance : ∀ p ∈ d.provenance, ¬ (p.scope = scope ∧ p.memoryId = id)
  relations : ∀ r ∈ d.relations,
    ¬ (r.scope = scope ∧ (r.sourceMemoryId = id ∨ r.targetMemoryId = id))

theorem isNode_iff : isNode scope id row = true ↔ row.scope = scope ∧ row.memoryId = id := by
  simp [isNode]

theorem conflict_of_key (ha : a.scope = scope ∧ a.memoryId = id)
    (hb : b.scope = scope ∧ b.memoryId = id) : a.conflict b :=
  ⟨ha.1.trans hb.1.symm, .inl (ha.2.trans hb.2.symm)⟩

theorem node?_eq_some : d.node? scope id = some row ↔
    row ∈ d.nodes ∧ row.scope = scope ∧ row.memoryId = id := by
  unfold Db.node?
  rw [lookup_eq_some, isNode_iff]
  intro a b ha hb
  exact conflict_of_key (isNode_iff.1 ha) (isNode_iff.1 hb)

/-! ## Inserts -/

/-- The row that `_insert_provenance_tx` inserts. -/
def provenanceRow (py : Python) (scope : Scope) (memoryId : String) (p : ProvenanceInput)
    (now : String) : ProvenanceRow :=
  ⟨scope, p.provenanceId, memoryId, p.sourceKind, p.sourceId, p.sourceSegmentId, p.meetingId,
    p.artifactId, p.excerpt, py.sha256 p.excerpt, p.confidence, p.occurredAt, now, p.metadata⟩

variable {p : ProvenanceInput} {inserted : Bool}
variable {relationId sourceId targetId confidence memoryId : String}
variable {nodes : Table MemoryRow MemoryRow.conflict} {f : MemoryRow → MemoryRow}
variable {c : MemoryWriteCandidate}

theorem insertProvenanceTx_cases
    (h : insertProvenanceTx py d scope id p now = some (d', inserted)) :
    (∃ row ∈ d.nodes, row.scope = scope ∧ row.memoryId = id) ∧ ((inserted = true ∧ ∃ provenance,
          d.provenance.insert? (provenanceRow py scope id p now) = some provenance ∧
            d' = { d with provenance := provenance }) ∨
        (inserted = false ∧ d.provenance.insert? (provenanceRow py scope id p now) = none ∧
          d' = d)) := by
  unfold insertProvenanceTx at h
  split at h
  · cases h
  rename_i row hrow
  refine ⟨⟨row, node?_eq_some.1 hrow⟩, ?_⟩
  split at h
  · rename_i provenance hprovenance
    cases h
    exact .inl ⟨rfl, provenance, hprovenance, rfl⟩
  · rename_i hprovenance
    cases h
    exact .inr ⟨rfl, hprovenance, rfl⟩

theorem insertRelationTx_cases
    (h : insertRelationTx d scope relationId sourceId targetId kind confidence now = some d') :
    d' = d ∨ ∃ target relations, d.node? scope targetId = some target ∧
      target.status ≠ .deleted ∧ d.relations.insert? ⟨scope, relationId, sourceId, targetId, kind,
        confidence, now, none⟩ = some relations ∧ d' = { d with relations := relations } := by
  unfold insertRelationTx at h
  split at h
  · cases h
    exact .inl rfl
  split at h
  · cases h
    exact .inl rfl
  rename_i target htarget
  split at h
  · cases h
    exact .inl rfl
  rename_i hstatus
  split at h
  · cases h
  split at h
  · rename_i relations hrelations
    cases h
    exact .inr ⟨target, relations, htarget, hstatus, hrelations, rfl⟩
  · cases h
    exact .inl rfl

/-- The relations of an upsert touch no other table. -/
theorem insertRelationsTx_eq
    (h : insertRelationsTx scope memoryId confidence now targets d = some d') :
    ∃ relations, d' = { d with relations := relations } := by
  induction targets generalizing d with
  | nil =>
    cases h
    exact ⟨_, rfl⟩
  | cons entry rest ih =>
    obtain ⟨d₁, hfirst, hrest⟩ := bind_eq_some_iff.1 h
    obtain ⟨relations, rfl⟩ := ih hrest
    rcases insertRelationTx_cases hfirst with rfl | ⟨_, _, _, _, _, rfl⟩
    · exact ⟨relations, rfl⟩
    · exact ⟨relations, rfl⟩

theorem nodes_insertProvenanceTx
    (h : insertProvenanceTx py d scope id p now = some (d', inserted)) : d'.nodes = d.nodes := by
  obtain ⟨-, ⟨-, _, -, rfl⟩ | ⟨-, -, rfl⟩⟩ := insertProvenanceTx_cases h
  · rfl
  · rfl

theorem nodes_insertRelationTx
    (h : insertRelationTx d scope relationId sourceId targetId kind confidence now = some d') :
    d'.nodes = d.nodes := by
  rcases insertRelationTx_cases h with rfl | ⟨_, _, -, -, -, rfl⟩
  · rfl
  · rfl

/-! ## Single writes -/

/-- No stored node of the id is deleted. -/
def Db.Live (d : Db) (scope : Scope) (id : String) : Prop :=
  ∀ row ∈ d.nodes, row.scope = scope ∧ row.memoryId = id → row.status ≠ .deleted

/-- The single writes of the transactions, a delete apart: none takes a deleted node. -/
inductive Write (py : Python) (d : Db) : Db → Prop
  | update {sel : MemoryRow → Bool} {f : MemoryRow → MemoryRow}
    {nodes : Table MemoryRow MemoryRow.conflict} (hupdate : d.nodes.update? sel f = some nodes)
    (hkey : ∀ row, (f row).scope = row.scope ∧ (f row).memoryId = row.memoryId)
    (hsel : ∀ row ∈ d.nodes, sel row = true → row.status ≠ .deleted ∧
      (f row).status ≠ .deleted) : Write py d { d with nodes := nodes }
  | insert {row : MemoryRow} {nodes : Table MemoryRow MemoryRow.conflict}
    (hinsert : d.nodes.insert? row = some nodes)
    (hstatus : row.status ≠ .deleted) : Write py d { d with nodes := nodes }
  | source {scope : Scope} {id now : String} {p : ProvenanceInput} {d' : Db} {inserted : Bool}
    (hlive : d.Live scope id)
    (hinsert : insertProvenanceTx py d scope id p now = some (d', inserted)) : Write py d d'
  | relate {scope : Scope} {relationId sourceId targetId kind confidence now : String} {d' : Db}
    (hlive : d.Live scope sourceId) (hinsert : insertRelationTx d scope relationId sourceId
      targetId kind confidence now = some d') : Write py d d'

theorem live_of_mem (hmem : row ∈ d.nodes) (hkey : row.scope = scope ∧ row.memoryId = id)
    (hstatus : row.status ≠ .deleted) : d.Live scope id := by
  intro other hother hkey'
  rw [eq_of_conflict hother hmem (conflict_of_key hkey' hkey)]
  exact hstatus

theorem Write.live (h : Write py d d') (hlive : d.Live scope id) : d'.Live scope id := by
  intro row hrow hkey
  cases h with
  | update hupdate _ hsel =>
    rcases update?_cases hupdate hrow with ⟨old, hold, hold', rfl⟩ | ⟨hrow, -⟩
    · exact (hsel old hold hold').2
    · exact hlive row hrow hkey
  | insert hinsert hstatus =>
    rcases (mem_insert? hinsert).1 hrow with hrow | rfl
    · exact hlive row hrow hkey
    · exact hstatus
  | source _ hinsert =>
    rw [nodes_insertProvenanceTx hinsert] at hrow
    exact hlive row hrow hkey
  | relate _ hinsert =>
    rw [nodes_insertRelationTx hinsert] at hrow
    exact hlive row hrow hkey

theorem write_updateNode (hlive : d.Live scope id) (hupdate : d.updateNode scope id f = some d')
    (hkey : ∀ row, (f row).scope = row.scope ∧ (f row).memoryId = row.memoryId)
    (hf : ∀ row : MemoryRow, row.status ≠ .deleted → (f row).status ≠ .deleted) :
    Write py d d' := by
  obtain ⟨nodes, hnodes, rfl⟩ := map_eq_some_iff.1 hupdate
  refine .update hnodes hkey ?_
  intro row hrow hsel
  have hstatus := hlive row hrow (isNode_iff.1 hsel)
  exact ⟨hstatus, hf row hstatus⟩

/-- An update of active nodes that leaves their status. -/
theorem write_updateActive
    (hupdate : d.nodes.update? (fun row => isNode scope id row && row.status = .active) f =
      some nodes) (hkey : ∀ row, (f row).scope = row.scope ∧ (f row).memoryId = row.memoryId)
    (hf : ∀ row, (f row).status = row.status) : Write py d { d with nodes := nodes } := by
  refine .update hupdate hkey ?_
  intro row _ hsel
  rw [Bool.and_eq_true, decide_eq_true_eq] at hsel
  rw [hf, hsel.2]
  exact ⟨nofun, nofun⟩

/-- A path of single writes that keeps the ids of live nodes live. -/
def Writes (py : Python) (d d' : Db) : Prop := Relation.ReflTransGen (Write py) d d'

/-- What every single write keeps, a path of them keeps. -/
theorem Writes.keeps (hwrites : Writes py d d') (h : P d)
    (hwrite : ∀ {d d'}, Write py d d' → P d → P d') : P d' := by
  induction hwrites with
  | refl => exact h
  | tail _ hlast ih => exact hwrite hlast ih

theorem Writes.live (h : Writes py d d') (hlive : d.Live scope id) : d'.Live scope id :=
  h.keeps (P := (Db.Live · scope id)) hlive Write.live

theorem firstOf_mem {rows : List MemoryRow} (h : firstOf rows = some row) : row ∈ rows := by
  induction rows generalizing row with
  | nil => cases h
  | cons head rest ih =>
    rw [firstOf] at h
    split at h
    · injection h with h
      rw [h]
      exact mem_cons_self ..
    rename_i best hbest
    split at h
    · injection h with h
      rw [← h]
      exact mem_cons_of_mem _ (ih hbest)
    · injection h with h
      rw [h]
      exact mem_cons_self ..

/-- What an upsert finds is an active node of its scope. -/
theorem selectExistingTx_mem (h : selectExistingTx py d scope c = some row) :
    row ∈ d.nodes ∧ row.scope = scope ∧ row.status = .active := by
  unfold selectExistingTx at h
  rw [or_eq_some_iff] at h
  rcases h with hnamed | ⟨-, hfirst⟩
  · obtain ⟨named, -, hfilter⟩ := bind_eq_some_iff.1 hnamed
    obtain ⟨hnode, hstatus⟩ := filter_eq_some_iff.1 hfilter
    obtain ⟨hmem, hscope, -⟩ := node?_eq_some.1 hnode
    exact ⟨hmem, hscope, by simpa using hstatus⟩
  · have hmem := firstOf_mem hfirst
    rw [mem_filter] at hmem
    simp only [decide_eq_true_eq] at hmem
    exact ⟨hmem.1, hmem.2.1, hmem.2.2.1⟩

/-! ## The writes of an upsert -/

section

variable (hold : ∀ r ∈ old, d.Live scope r.memoryId)

include hold

theorem writes_supersede
    (hsupersede : supersedeTx d scope old now = some d') : Writes py d d' := by
  cases old with
  | none =>
    cases hsupersede
    exact .refl
  | some r =>
    exact .single (write_updateNode (hold r rfl) hsupersede (fun _ => ⟨rfl, rfl⟩) fun _ _ => nofun)

theorem writes_link
    (hdrawn : d.Live scope drawn.memoryId) (hlink : linkTx d scope c old drawn now = some d') :
    Writes py d d' := by
  cases old with
  | none =>
    cases hlink
    exact .refl
  | some r =>
    obtain ⟨d₁, hupdate, hrelation⟩ := bind_eq_some_iff.1 hlink
    have hfirst : Write py d d₁ :=
      write_updateNode (hold r rfl) hupdate (fun _ => ⟨rfl, rfl⟩) fun _ hstatus => hstatus
    exact .tail (.single hfirst) (.relate (hfirst.live hdrawn) hrelation)

theorem writes_insertNew
    (hinsert : insertNewTx py d scope c p old drawn now = some (d', memoryId)) :
    Writes py d d' ∧ d'.Live scope memoryId := by
  obtain ⟨d₁, hsupersede, hinsert⟩ := bind_eq_some_iff.1 hinsert
  obtain ⟨nodes, hnodes, hinsert⟩ := bind_eq_some_iff.1 hinsert
  obtain ⟨⟨d₂, inserted⟩, hprovenance, hinsert⟩ := bind_eq_some_iff.1 hinsert
  obtain ⟨d₃, hlink, hinsert⟩ := bind_eq_some_iff.1 hinsert
  cases hinsert
  have hnew : Db.Live { d₁ with nodes := nodes } scope drawn.memoryId :=
    live_of_mem ((mem_insert? hnodes).2 (.inr rfl)) ⟨rfl, rfl⟩ nofun
  have hsource : Write py { d₁ with nodes := nodes } d₂ := .source hnew hprovenance
  have h₂ : Writes py d d₂ :=
    .tail (.tail (writes_supersede hold hsupersede) (.insert hnodes nofun)) hsource
  have h₃ : Writes py d₂ d' :=
    writes_link (fun r hr => h₂.live (hold r hr)) (hsource.live hnew) hlink
  exact ⟨h₂.trans h₃, h₃.live (hsource.live hnew)⟩

end

theorem writes_insertRelations (hlive : d.Live scope memoryId)
    (hinsert : insertRelationsTx scope memoryId confidence now targets d = some d') :
    Writes py d d' := by
  induction targets generalizing d with
  | nil =>
    cases hinsert
    exact .refl
  | cons entry rest ih =>
    obtain ⟨d₁, hfirst, hrest⟩ := bind_eq_some_iff.1 hinsert
    have hwrite : Write py d d₁ := .relate hlive hfirst
    exact .head hwrite (ih (hwrite.live hlive) hrest)

theorem writes_writeCandidate {existing : Option MemoryRow}
    (hexisting : ∀ r ∈ existing, d.Live scope r.memoryId)
    (hwrite : writeCandidateTx py maxReal d scope c p existing drawn now = some (d', memoryId)) :
    Writes py d d' ∧ d'.Live scope memoryId := by
  unfold writeCandidateTx at hwrite
  cases existing with
  | none =>
    refine writes_insertNew ?_ hwrite
    intro r hr
    cases hr
  | some r =>
    dsimp only at hwrite
    split at hwrite
    · exact writes_insertNew hexisting hwrite
    obtain ⟨⟨d₁, inserted⟩, hprovenance, hwrite⟩ := bind_eq_some_iff.1 hwrite
    obtain ⟨d₂, hupdate, hwrite⟩ := bind_eq_some_iff.1 hwrite
    cases hwrite
    have hlive := hexisting r rfl
    have hfirst : Write py d d₁ := .source hlive hprovenance
    have hlast : Write py d₁ d' := write_updateNode (hfirst.live hlive) hupdate
      (fun _ => ⟨rfl, rfl⟩) fun _ hstatus => hstatus
    exact ⟨.tail (.single hfirst) hlast, hlast.live (hfirst.live hlive)⟩

theorem writes_upsert (hupsert : upsertCandidate py maxReal d scope c p drawn now = some d') :
    Writes py d d' := by
  unfold upsertCandidate at hupsert
  split at hupsert
  · cases hupsert
    exact .refl
  obtain ⟨⟨d₁, memoryId⟩, hwrite, hrelations⟩ := bind_eq_some_iff.1 hupsert
  have hexisting : ∀ r ∈ selectExistingTx py d scope c, d.Live scope r.memoryId := by
    intro r hr
    obtain ⟨hmem, hscope, hactive⟩ := selectExistingTx_mem hr
    exact live_of_mem hmem ⟨hscope, rfl⟩ (by rw [hactive]; exact nofun)
  obtain ⟨hwrites, hlive⟩ := writes_writeCandidate hexisting hwrite
  exact hwrites.trans (writes_insertRelations hlive hrelations)

theorem write_confirm (py : Python) (hconfirm : confirmNode d scope id now = some d') :
    Write py d d' := by
  obtain ⟨nodes, hnodes, rfl⟩ := map_eq_some_iff.1 hconfirm
  exact write_updateActive hnodes (fun _ => ⟨rfl, rfl⟩) fun _ => rfl

/-- An edit is an update of active nodes and the insert of a source. -/
theorem write_edit {u : Pending} {provenanceId : String}
    (hwrite : writeEdit py d u provenanceId now = some d') :
    ∃ d₁ inserted, Write py d d₁ ∧ insertProvenanceTx py d₁ u.scope u.memoryId
      (editProvenance u provenanceId now) now = some (d', inserted) := by
  obtain ⟨nodes, hnodes, hwrite⟩ := bind_eq_some_iff.1 hwrite
  obtain ⟨⟨d₁, inserted⟩, hprovenance, hwrite⟩ := bind_eq_some_iff.1 hwrite
  cases hwrite
  exact ⟨_, inserted, write_updateActive hnodes (fun _ => ⟨rfl, rfl⟩) fun _ => rfl, hprovenance⟩

/-! ## Forgotten nodes -/

section

variable (h : Forgotten d scope id row)

include h

theorem Forgotten.not_live : ¬ d.Live scope id :=
  fun hlive => hlive row h.mem h.key h.erased.status

theorem Forgotten.setNodes (hmem : row ∈ nodes) :
    Forgotten { d with nodes := nodes } scope id row :=
  ⟨hmem, h.key, h.erased, h.provenance, h.relations⟩

/-- An update that does not select the node. -/
theorem Forgotten.update {sel : MemoryRow → Bool}
    (hupdate : d.nodes.update? sel f = some nodes) (hsel : sel row ≠ true) :
    Forgotten { d with nodes := nodes } scope id row := by
  refine h.setNodes ?_
  rw [mem_update? hupdate]
  exact ⟨row, h.mem, by rw [if_neg hsel]⟩

theorem Forgotten.write (hwrite : Write py d d') :
    Forgotten d' scope id row := by
  cases hwrite with
  | update hupdate _ hsel =>
    exact h.update hupdate fun hrow => (hsel row h.mem hrow).1 h.erased.status
  | insert hinsert => exact h.setNodes ((mem_insert? hinsert).2 (.inl h.mem))
  | source hlive hinsert =>
    obtain ⟨-, ⟨-, provenance, hprovenance, rfl⟩ | ⟨-, -, rfl⟩⟩ := insertProvenanceTx_cases hinsert
    · refine ⟨h.mem, h.key, h.erased, ?_, h.relations⟩
      intro q hq
      rcases (mem_insert? hprovenance).1 hq with hq | rfl
      · exact h.provenance q hq
      · rintro ⟨rfl, rfl⟩
        exact h.not_live hlive
    · exact h
  | relate hlive hinsert =>
    rcases insertRelationTx_cases hinsert with
      rfl | ⟨target, relations, htarget, hstatus, hrelations, rfl⟩
    · exact h
    refine ⟨h.mem, h.key, h.erased, h.provenance, ?_⟩
    intro r hr
    rcases (mem_insert? hrelations).1 hr with hr | rfl
    · exact h.relations r hr
    rintro ⟨rfl, rfl | rfl⟩
    · exact h.not_live hlive
    -- the target is there and is not deleted
    obtain ⟨hmem, hkey⟩ := node?_eq_some.1 htarget
    exact h.not_live (live_of_mem hmem hkey hstatus)

theorem Forgotten.delete
    (hdelete : deleteNode d scope' id' now = some d') : Forgotten d' scope id row := by
  obtain ⟨nodes, hnodes, rfl⟩ := map_eq_some_iff.1 hdelete
  have hmem := (h.update hnodes (by simp [isLeft, h.erased.status])).mem
  refine ⟨hmem, h.key, h.erased, ?_, ?_⟩
  · intro p hp
    exact h.provenance p (mem_delete.1 hp).1
  · intro r hr
    exact h.relations r (mem_delete.1 hr).1

end

/-! ## Deleted nodes are erased -/

/-- Every deleted node is erased. -/
def Clean (d : Db) : Prop := ∀ row ∈ d.nodes, row.status = .deleted → Erased row

theorem Clean.congr (h : Clean d) (hnodes : d'.nodes = d.nodes) : Clean d' := by
  intro row hrow
  rw [hnodes] at hrow
  exact h row hrow

theorem Clean.write (h : Clean d) (hwrite : Write py d d') : Clean d' := by
  cases hwrite with
  | update hupdate _ hsel =>
    intro row hrow hstatus
    rcases update?_cases hupdate hrow with ⟨old, hold, hold', rfl⟩ | ⟨hrow, -⟩
    · exact absurd hstatus (hsel old hold hold').2
    · exact h row hrow hstatus
  | insert hinsert hlive =>
    intro row hrow hstatus
    rcases (mem_insert? hinsert).1 hrow with hrow | rfl
    · exact h row hrow hstatus
    · exact absurd hstatus hlive
  | source _ hinsert => exact h.congr (nodes_insertProvenanceTx hinsert)
  | relate _ hinsert => exact h.congr (nodes_insertRelationTx hinsert)

theorem erased_erase (now : String) (row : MemoryRow) : Erased (erase now row) :=
  ⟨rfl, rfl, rfl, rfl, rfl, rfl⟩

theorem Clean.delete (h : Clean d) (hdelete : deleteNode d scope id now = some d') : Clean d' := by
  obtain ⟨nodes, hnodes, rfl⟩ := map_eq_some_iff.1 hdelete
  intro row hrow hstatus
  rcases update?_cases hnodes hrow with ⟨old, -, -, rfl⟩ | ⟨hrow, -⟩
  · exact erased_erase now old
  · exact h row hrow hstatus

/-- Erased rows collide only where they did before: the index on active memories leaves them
out. -/
theorem conflict_of_erase (sel : MemoryRow → Bool) (now : String)
    (h : (if sel a then erase now a else a).conflict (if sel b then erase now b else b)) :
    a.conflict b := by
  have hkey : ∀ a : MemoryRow, (if sel a then erase now a else a).scope = a.scope ∧
      (if sel a then erase now a else a).memoryId = a.memoryId := by
    intro a
    split
    · exact ⟨rfl, rfl⟩
    · exact ⟨rfl, rfl⟩
  have hactive : ∀ a : MemoryRow, (if sel a then erase now a else a).status = .active →
      (if sel a then erase now a else a) = a := by
    intro a ha
    split at ha
    · cases ha
    · rename_i hsel
      rw [if_neg hsel]
  obtain ⟨hscope, hid | ⟨⟨ha, hb⟩, hkind⟩⟩ := h
  · rw [(hkey a).1, (hkey b).1] at hscope
    rw [(hkey a).2, (hkey b).2] at hid
    exact ⟨hscope, .inl hid⟩
  · rw [hactive a ha, hactive b hb] at hscope hkind
    rw [hactive a ha] at ha
    rw [hactive b hb] at hb
    exact ⟨hscope, .inr ⟨⟨ha, hb⟩, hkind⟩⟩

theorem exists_deleteNode (d : Db) (scope : Scope) (id now : String) :
    ∃ d', deleteNode d scope id now = some d' := by
  obtain ⟨nodes, hnodes⟩ := exists_update? d.nodes (isLeft scope id) (erase now)
    fun _ _ h => conflict_of_erase (isLeft scope id) now h
  exact ⟨_, by rw [deleteNode, hnodes]; rfl⟩

/-- A delete forgets its node. -/
theorem forgotten_of_delete (h : Clean d) (hnode : d.node? scope id = some row)
    (hdelete : deleteNode d scope id now = some d') : ∃ row, Forgotten d' scope id row := by
  obtain ⟨nodes, hnodes, rfl⟩ := map_eq_some_iff.1 hdelete
  obtain ⟨hmem, hkey⟩ := node?_eq_some.1 hnode
  have hrows : ∃ row', row' ∈ nodes ∧ (row'.scope = scope ∧ row'.memoryId = id) ∧
      Erased row' := by
    by_cases hstatus : row.status = .deleted
    · refine ⟨row, ?_, hkey, h row hmem hstatus⟩
      rw [mem_update? hnodes]
      exact ⟨row, hmem, by simp [isLeft, hstatus]⟩
    · refine ⟨erase now row, ?_, hkey, erased_erase now row⟩
      rw [mem_update? hnodes]
      exact ⟨row, hmem, by simp [isLeft, hstatus, isNode, hkey.1, hkey.2]⟩
  obtain ⟨row', hmem', hkey', herased⟩ := hrows
  refine ⟨row', hmem', hkey', herased, ?_, ?_⟩
  · intro p hp hrefers
    have hkept := (mem_delete.1 hp).2
    rw [hrefers.1, hrefers.2] at hkept
    simp at hkept
  · intro r hr hrefers
    have hkept := (mem_delete.1 hr).2
    simp only [decide_eq_false_iff_not] at hkept
    exact hkept hrefers

/-! ## Runs -/

/-- When `update_node` writes, its node is not deleted. -/
def Spared (s : System) : Label → Prop
  | .writeEdit t _ _ =>
    ∀ u ∈ s.edits t, ∀ row ∈ s.db.node? u.scope u.memoryId, row.status ≠ .deleted
  | _ => True

instance (s : System) : (l : Label) → Decidable (Spared s l)
  | .writeEdit t _ _ => inferInstanceAs (Decidable
      (∀ u ∈ s.edits t, ∀ row ∈ s.db.node? u.scope u.memoryId, row.status ≠ .deleted))
  | .upsert _ _ _ _ _ | .confirm _ _ _ | .readEdit _ _ _ _ | .delete _ _ _ => .isTrue trivial

/-- What holds of the database and of every one that is committed. -/
theorem commit_keeps {s : System} {d : Option Db} (hs : P s.db) (hd : ∀ d', d = some d' → P d') :
    P (s.commit d).db := by
  cases d with
  | none => exact hs
  | some d' => exact hd d' rfl

theorem clean_step (s : System) (l : Label) (h : Clean s.db) : Clean (step py maxReal s l).db := by
  cases l with
  | upsert =>
    exact commit_keeps h fun _ hd => (writes_upsert hd).keeps h fun hwrite h => h.write hwrite
  | confirm => exact commit_keeps h fun _ hd => h.write (write_confirm py hd)
  | readEdit => exact h
  | writeEdit t provenanceId now =>
    unfold step
    dsimp only
    split
    · exact h
    refine commit_keeps h fun _ hd => ?_
    obtain ⟨_, _, hwrite, hinsert⟩ := write_edit hd
    exact (h.write hwrite).congr (nodes_insertProvenanceTx hinsert)
  | delete => exact commit_keeps h fun _ hd => h.delete hd

theorem forgotten_step (s : System) (l : Label) (hl : Spared s l)
    (h : Forgotten s.db scope id row) : Forgotten (step py maxReal s l).db scope id row := by
  have hcommit : ∀ {d : Option Db}, (∀ d', d = some d' → Forgotten d' scope id row) →
      Forgotten (s.commit d).db scope id row :=
    commit_keeps (P := (Forgotten · scope id row)) h
  cases l with
  | upsert =>
    exact hcommit fun _ hd => (writes_upsert hd).keeps (P := (Forgotten · scope id row)) h
      fun hwrite h => h.write hwrite
  | confirm => exact hcommit fun _ hd => h.write (write_confirm py hd)
  | readEdit => exact h
  | writeEdit t provenanceId now =>
    unfold step
    dsimp only
    split
    · exact h
    rename_i u hu
    refine hcommit fun _ hd => ?_
    obtain ⟨_, _, hwrite, hinsert⟩ := write_edit hd
    refine (h.write hwrite).write (.source (hwrite.live ?_) hinsert)
    intro row hrow hkey
    exact hl u hu row (node?_eq_some.2 ⟨hrow, hkey⟩)
  | delete => exact hcommit fun _ hd => h.delete hd

variable (py maxReal)

theorem clean_run (trace : List Label) : Clean (run (step py maxReal) System.initial trace).db := by
  have hinit : Clean System.initial.db := by
    intro row hrow
    exact absurd hrow (not_mem_empty row)
  have hstep : ∀ s l, Clean s.db → Clean (step py maxReal s l).db := fun s l h => clean_step s l h
  exact run_invariant hstep hinit trace

/-- Forgetting is final: once a delete of a node is committed, the node stays deleted and
erased, and no provenance and no relation refers to it. -/
theorem delete_final (before after : List Label) (scope : Scope) (id now : String)
    (hnode : ((run (step py maxReal) System.initial before).db.node? scope id).isSome = true)
    (hmeets : Meets (step py maxReal) Spared
      (run (step py maxReal) System.initial (before ++ [.delete scope id now])) after) :
    ∃ row, Forgotten (run (step py maxReal) System.initial
      (before ++ .delete scope id now :: after)).db scope id row := by
  have hclean := clean_run py maxReal before
  rw [run_append, run_cons, run_nil] at hmeets
  rw [run_append, run_cons]
  generalize run (step py maxReal) System.initial before = s at *
  obtain ⟨row, hrow⟩ := Option.isSome_iff_exists.1 hnode
  obtain ⟨d, hd⟩ := exists_deleteNode s.db scope id now
  have hdb : (step py maxReal s (.delete scope id now)).db = d := by
    show (s.commit (deleteNode s.db scope id now)).db = d
    rw [hd]
    rfl
  obtain ⟨row', hforgotten⟩ := forgotten_of_delete hclean hrow hd
  rw [← hdb] at hforgotten
  have hstep : ∀ s l, Spared s l → Forgotten s.db scope id row' →
      Forgotten (step py maxReal s l).db scope id row' := fun s l hl h => forgotten_step s l hl h
  exact ⟨row', run_invariant_of_meets hstep hmeets hforgotten⟩

/-! ## Runs -/

def owner : Scope := ⟨"t", "o"⟩

def said : MemoryWriteCandidate :=
  ⟨.fact, "lives in Berlin", "home", none, "0.8", "0.5", "global", .add, none, []⟩

def heard (provenanceId : String) : ProvenanceInput :=
  ⟨provenanceId, "meeting_segment", "s1", none, none, none, "I live in Berlin", "0.8", "t0", []⟩

/-- A memory is heard and confirmed. -/
def remembered : List Label :=
  [.upsert owner said (heard "p1") ⟨"m1", "r1"⟩ "t1", .confirm owner "m1" "t2"]

/-- After its delete the same is heard again, and edited. -/
def heardAgain : List Label :=
  [.upsert owner said (heard "p2") ⟨"m2", "r2"⟩ "t4",
    .readEdit 0 owner "m2" ⟨some "lives in Bonn", none, none, none, none⟩, .writeEdit 0 "p3" "t5"]

theorem delete_final_heardAgain :
    ∃ row, Forgotten (run (step Python.ascii fun a _ => a) System.initial
      (remembered ++ .delete owner "m1" "t3" :: heardAgain)).db owner "m1" row :=
  delete_final Python.ascii (fun a _ => a) remembered heardAgain owner "m1" "t3"
    (by decide +kernel) (by decide +kernel)

/-- An edit has read the node when it is deleted. -/
def edited : List Label :=
  [.upsert owner said (heard "p1") ⟨"m1", "r1"⟩ "t1",
    .readEdit 0 owner "m1" ⟨some "lives in Bonn", none, none, none, none⟩]

theorem delete_breaks : ¬ ∀ (py : Python) (maxReal : String → String → String)
    (before after : List Label) (scope : Scope) (id now : String),
    ((run (step py maxReal) System.initial before).db.node? scope id).isSome = true →
    ∃ row, Forgotten (run (step py maxReal) System.initial
      (before ++ .delete scope id now :: after)).db scope id row := by
  intro h
  obtain ⟨row, hforgotten⟩ := h Python.ascii (fun a _ => a) edited [.writeEdit 0 "p2" "t3"]
    owner "m1" "t2" (by decide +kernel)
  -- The provenance of the edit carries the text that was being given.
  have hleft : ∃ p ∈ (run (step Python.ascii fun a _ => a) System.initial
      (edited ++ .delete owner "m1" "t2" :: [.writeEdit 0 "p2" "t3"])).db.provenance.rows,
      p.scope = owner ∧ p.memoryId = "m1" ∧ p.excerpt = "lives in Bonn" := by decide +kernel
  obtain ⟨p, hp, hscope, hid, -⟩ := hleft
  exact hforgotten.provenance p hp ⟨hscope, hid⟩

end EchoDesk.Memory
