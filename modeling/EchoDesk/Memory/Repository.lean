import EchoDesk.Core.Repository
import EchoDesk.Foundations.Transition
import Mathlib.Data.List.Infix

/-! # The memory repository

The writes of `app/memory/repository.py`. Each runs in one transaction, which is done as a
whole or, when it raises, not at all; `update_node` reads the node in a transaction before.
The ids that are drawn and the clock readings are given to the step.
-/

namespace EchoDesk.Memory

open Transition

/-! ## Rows -/

structure ProvenanceRow where
  scope : Scope
  provenanceId : String
  memoryId : String
  sourceKind : String
  sourceId : String
  sourceSegmentId : Option String
  meetingId : Option String
  artifactId : Option String
  excerpt : String
  excerptSha256 : String
  confidence : String
  occurredAt : String
  createdAt : String
  metadata : Dict

/-- The primary key, and `idx_memory_provenance_dedupe`. -/
def ProvenanceRow.conflict (a b : ProvenanceRow) : Prop :=
  a.scope = b.scope ∧ (a.provenanceId = b.provenanceId ∨
    a.memoryId = b.memoryId ∧ a.sourceKind = b.sourceKind ∧ a.sourceId = b.sourceId ∧
      a.sourceSegmentId.getD "" = b.sourceSegmentId.getD "" ∧ a.excerptSha256 = b.excerptSha256)

instance : DecidableRel ProvenanceRow.conflict :=
  fun _ _ => inferInstanceAs (Decidable (_ ∧ (_ ∨ _ ∧ _ ∧ _ ∧ _ ∧ _)))

structure RelationRow where
  scope : Scope
  relationId : String
  sourceMemoryId : String
  targetMemoryId : String
  relationKind : String
  confidence : String
  createdAt : String
  deletedAt : Option String

/-- The primary key, and `idx_memory_relations_dedupe`. -/
def RelationRow.conflict (a b : RelationRow) : Prop :=
  a.scope = b.scope ∧ (a.relationId = b.relationId ∨
    (a.deletedAt = none ∧ b.deletedAt = none) ∧ a.sourceMemoryId = b.sourceMemoryId ∧
      a.targetMemoryId = b.targetMemoryId ∧ a.relationKind = b.relationKind)

instance : DecidableRel RelationRow.conflict :=
  fun _ _ => inferInstanceAs (Decidable (_ ∧ (_ ∨ (_ ∧ _) ∧ _ ∧ _ ∧ _)))

/-- What a delete reads and writes of `memory_extraction_runs`. -/
structure RunRow where
  scope : Scope
  runId : String
  outputJson : String

structure Db where
  nodes : Table MemoryRow MemoryRow.conflict
  provenance : Table ProvenanceRow ProvenanceRow.conflict
  relations : Table RelationRow RelationRow.conflict
  runs : List RunRow

def Db.empty : Db := ⟨Table.empty, Table.empty, Table.empty, []⟩

/-- The row is that of a memory of the scope. -/
def isNode (scope : Scope) (memoryId : String) (row : MemoryRow) : Bool :=
  row.scope = scope ∧ row.memoryId = memoryId

/-- `SELECT * FROM memory_nodes WHERE tenant_id = ? AND owner_id = ? AND memory_id = ?`. -/
def Db.node? (d : Db) (scope : Scope) (memoryId : String) : Option MemoryRow :=
  d.nodes.lookup (isNode scope memoryId)

/-! ## Inputs -/

/-- `ProvenanceInput`, and what is drawn for its row. -/
structure ProvenanceInput where
  provenanceId : String
  sourceKind : String
  sourceId : String
  sourceSegmentId : Option String
  meetingId : Option String
  artifactId : Option String
  excerpt : String
  confidence : String
  occurredAt : String
  metadata : Dict

inductive Action where
  | add | reaffirm | supersede | ignore
deriving DecidableEq

structure MemoryWriteCandidate where
  kind : MemoryKind
  content : String
  canonicalKey : String
  subject : Option String
  confidence : String
  salience : String
  scope : String
  action : Action
  existingMemoryId : Option String
  /-- The memories it is related to, each with the id of its row. -/
  relationMemoryIds : List (String × String)

/-! ## Writes -/

section Writes

variable (py : Python) (maxReal : String → String → String)

/-- `_insert_provenance_tx`: refused without its node, ignored when it is there already. -/
def insertProvenanceTx (d : Db) (scope : Scope) (memoryId : String) (p : ProvenanceInput)
    (now : String) : Option (Db × Bool) :=
  match d.node? scope memoryId with
  | none => none
  | some _ =>
    match d.provenance.insert? ⟨scope, p.provenanceId, memoryId, p.sourceKind, p.sourceId,
        p.sourceSegmentId, p.meetingId, p.artifactId, p.excerpt, py.sha256 p.excerpt,
        p.confidence, p.occurredAt, now, p.metadata⟩ with
    | some provenance => some ({ d with provenance := provenance }, true)
    | none => some (d, false)

/-- `_insert_relation_tx`: only to a node that is not deleted. -/
def insertRelationTx (d : Db) (scope : Scope) (relationId sourceId targetId relationKind : String)
    (confidence now : String) : Option Db :=
  if sourceId = targetId then some d
  else
    match d.node? scope targetId with
    | none => some d
    | some target =>
      if target.status = .deleted then some d
      else if (d.node? scope sourceId).isNone then none
      else
        match d.relations.insert? ⟨scope, relationId, sourceId, targetId, relationKind, confidence,
            now, none⟩ with
        | some relations => some { d with relations := relations }
        | none => some d

/-- `UPDATE memory_nodes SET … WHERE tenant_id = ? AND owner_id = ? AND memory_id = ?`. -/
def Db.updateNode (d : Db) (scope : Scope) (memoryId : String) (f : MemoryRow → MemoryRow) :
    Option Db :=
  (d.nodes.update? (isNode scope memoryId) f).map fun nodes => { d with nodes := nodes }

/-- The order of `_select_existing_tx`. -/
def precedes (a b : MemoryRow) : Bool :=
  (b.userConfirmed = false ∧ a.userConfirmed = true) ∨
    (a.userConfirmed = b.userConfirmed ∧ b.updatedAt < a.updatedAt)

def firstOf : List MemoryRow → Option MemoryRow
  | [] => none
  | row :: rest =>
    match firstOf rest with
    | none => some row
    | some best => if precedes best row then some best else some row

/-- `_select_existing_tx`. -/
def selectExistingTx (d : Db) (scope : Scope) (c : MemoryWriteCandidate) : Option MemoryRow :=
  let named := (truthy c.existingMemoryId).bind fun id =>
    (d.node? scope id).filter fun row => row.status = .active
  named.or (firstOf (d.nodes.rows.filter fun row =>
    row.scope = scope ∧ row.status = .active ∧ row.kind = c.kind ∧
      (row.canonicalKey = py.normalizeKey c.canonicalKey ∨
        row.normalizedContent = py.normalizeText c.content)))

/-- The ids that an upsert draws besides those of its provenance and relations. -/
structure Drawn where
  memoryId : String
  relationId : String

/-- The row of a new memory. -/
def newNode (scope : Scope) (c : MemoryWriteCandidate) (memoryId occurredAt now : String) :
    MemoryRow where
  scope := scope
  memoryId := memoryId
  kind := c.kind
  content := strip c.content
  normalizedContent := py.normalizeText c.content
  canonicalKey := py.normalizeKey c.canonicalKey
  subject := c.subject
  confidence := c.confidence
  salience := c.salience
  memoryScope := c.scope
  status := .active
  hitCount := 1
  sourceCount := 1
  userConfirmed := false
  createdAt := now
  lastSeenAt := occurredAt
  updatedAt := now
  confirmedAt := none
  supersededAt := none
  supersededBy := none
  deletedAt := none
  revision := 0
  metadata := []

/-- The old memory gives way. -/
def supersedeTx (d : Db) (scope : Scope) (old : Option MemoryRow) (now : String) : Option Db :=
  match old with
  | none => some d
  | some row => d.updateNode scope row.memoryId fun row => { row with
      status := .superseded
      supersededAt := some now
      updatedAt := now
      revision := row.revision + 1 }

/-- The old memory names the new one, and the new one the old one. -/
def linkTx (d : Db) (scope : Scope) (c : MemoryWriteCandidate) (old : Option MemoryRow)
    (drawn : Drawn) (now : String) : Option Db :=
  match old with
  | none => some d
  | some row => do
    let d ← d.updateNode scope row.memoryId fun row => { row with
      supersededBy := some drawn.memoryId }
    insertRelationTx d scope drawn.relationId drawn.memoryId row.memoryId "supersedes"
      c.confidence now

/-- The insert of a new memory, in the place of the old one. -/
def insertNewTx (d : Db) (scope : Scope) (c : MemoryWriteCandidate) (p : ProvenanceInput)
    (old : Option MemoryRow) (drawn : Drawn) (now : String) : Option (Db × String) := do
  let d ← supersedeTx d scope old now
  let nodes ← d.nodes.insert? (newNode py scope c drawn.memoryId p.occurredAt now)
  let (d, _) ← insertProvenanceTx py { d with nodes := nodes } scope drawn.memoryId p now
  let d ← linkTx d scope c old drawn now
  return (d, drawn.memoryId)

/-- `_write_candidate_tx`. -/
def writeCandidateTx (d : Db) (scope : Scope) (c : MemoryWriteCandidate) (p : ProvenanceInput)
    (existing : Option MemoryRow) (drawn : Drawn) (now : String) : Option (Db × String) :=
  match existing with
  | none => insertNewTx py d scope c p none drawn now
  | some row =>
    if c.action = .supersede then insertNewTx py d scope c p (some row) drawn now
    else do
      let (d, inserted) ← insertProvenanceTx py d scope row.memoryId p now
      let d ← d.updateNode scope row.memoryId fun row => { row with
        hitCount := row.hitCount + 1
        sourceCount := row.sourceCount + if inserted then 1 else 0
        confidence := maxReal row.confidence c.confidence
        salience := maxReal row.salience c.salience
        lastSeenAt := p.occurredAt
        updatedAt := now
        revision := row.revision + 1 }
      return (d, row.memoryId)

/-- The relations of an upsert. -/
def insertRelationsTx (scope : Scope) (memoryId confidence now : String) :
    List (String × String) → Db → Option Db
  | [], d => some d
  | (targetId, relationId) :: rest, d => do
    let d ← insertRelationTx d scope relationId memoryId targetId "related_to" confidence now
    insertRelationsTx scope memoryId confidence now rest d

/-- `dict.fromkeys`: the first entry of each id. -/
def fromKeys : List (String × String) → List (String × String)
  | [] => []
  | entry :: rest => entry :: (fromKeys rest).filter fun other => other.1 ≠ entry.1

/-- `upsert_candidate`; none when its transaction raises. -/
def upsertCandidate (d : Db) (scope : Scope) (c : MemoryWriteCandidate) (p : ProvenanceInput)
    (drawn : Drawn) (now : String) : Option Db :=
  if c.action = .ignore then some d
  else do
    let (d, memoryId) ←
      writeCandidateTx py maxReal d scope c p (selectExistingTx py d scope c) drawn now
    insertRelationsTx scope memoryId c.confidence now (fromKeys c.relationMemoryIds) d

/-- `confirm_node`. -/
def confirmNode (d : Db) (scope : Scope) (memoryId now : String) : Option Db :=
  (d.nodes.update? (fun row => isNode scope memoryId row && row.status = .active) fun row =>
    { row with
      userConfirmed := true
      confidence := "1.0"
      confirmedAt := some now
      updatedAt := now
      revision := row.revision + 1 }).map fun nodes => { d with nodes := nodes }

/-- The texts a delete leaves of a node. -/
def erase (now : String) (row : MemoryRow) : MemoryRow :=
  { row with
    status := .deleted
    content := "[已删除]"
    normalizedContent := ""
    canonicalKey := "deleted:" ++ row.memoryId
    subject := none
    metadata := []
    deletedAt := some now
    updatedAt := now
    revision := row.revision + 1 }

/-- The node that a delete erases. -/
def isLeft (scope : Scope) (memoryId : String) (row : MemoryRow) : Bool :=
  isNode scope memoryId row && row.status ≠ .deleted

/-- `delete_node`. -/
def deleteNode (d : Db) (scope : Scope) (memoryId now : String) : Option Db :=
  (d.nodes.update? (isLeft scope memoryId) (erase now)).map fun nodes =>
      { nodes := nodes
        relations := d.relations.delete fun row =>
          row.scope = scope ∧ (row.sourceMemoryId = memoryId ∨ row.targetMemoryId = memoryId)
        provenance := d.provenance.delete fun row => row.scope = scope ∧ row.memoryId = memoryId
        runs := d.runs.map fun run =>
          if run.scope = scope ∧ memoryId.toList <:+: run.outputJson.toList then
            { run with outputJson := "{}" }
          else run }

/-! ## `update_node` -/

/-- The arguments of `update_node`. -/
structure Edit where
  content : Option String
  kind : Option MemoryKind
  canonicalKey : Option String
  salience : Option String
  memoryScope : Option String

/-- An edit between its read and its write: the node that was read. -/
structure Pending where
  scope : Scope
  memoryId : String
  edit : Edit
  current : MemoryRow

/-- `updated_content`. -/
def Pending.content (u : Pending) : String := (u.edit.content.map strip).getD u.current.content

/-- The read of `update_node`. -/
def readEdit (d : Db) (scope : Scope) (memoryId : String) (edit : Edit) : Option Pending :=
  ((d.node? scope memoryId).filter fun row => row.status = .active).map
    fun row => ⟨scope, memoryId, edit, row⟩

/-- The provenance of an edit. -/
def editProvenance (u : Pending) (provenanceId now : String) : ProvenanceInput where
  provenanceId := provenanceId
  sourceKind := "user_explicit"
  sourceId := "edit:" ++ u.memoryId ++ ":" ++ toString (u.current.revision + 1)
  sourceSegmentId := none
  meetingId := none
  artifactId := none
  excerpt := u.content
  confidence := "1.0"
  occurredAt := now
  metadata := [("action", .str "user_edit"), ("revision", .int (u.current.revision + 1))]

/-- The write of `update_node`. -/
def writeEdit (d : Db) (u : Pending) (provenanceId now : String) : Option Db := do
  let nodes ← d.nodes.update? (fun row => isNode u.scope u.memoryId row && row.status = .active)
    fun row =>
      { row with
        content := u.content
        normalizedContent := py.normalizeText u.content
        kind := u.edit.kind.getD u.current.kind
        canonicalKey :=
          py.normalizeKey ((truthy u.edit.canonicalKey).getD u.current.canonicalKey)
        salience := u.edit.salience.getD u.current.salience
        memoryScope := (truthy u.edit.memoryScope).getD u.current.memoryScope
        userConfirmed := true
        confidence := "1.0"
        confirmedAt := some now
        updatedAt := now
        revision := row.revision + 1 }
  let (d, _) ← insertProvenanceTx py { d with nodes := nodes } u.scope u.memoryId
    (editProvenance u provenanceId now) now
  return d

/-! ## Steps -/

structure System where
  db : Db
  /-- The edits between their read and their write. -/
  edits : Nat → Option Pending

def System.initial : System := ⟨Db.empty, fun _ => none⟩

inductive Label where
  | upsert (scope : Scope) (c : MemoryWriteCandidate) (p : ProvenanceInput) (drawn : Drawn)
      (now : String)
  | confirm (scope : Scope) (memoryId now : String)
  | readEdit (t : Nat) (scope : Scope) (memoryId : String) (edit : Edit)
  | writeEdit (t : Nat) (provenanceId now : String)
  | delete (scope : Scope) (memoryId now : String)

/-- A transaction that raises is rolled back. -/
def System.commit (s : System) (d : Option Db) : System := { s with db := d.getD s.db }

def step (s : System) : Label → System
  | .upsert scope c p drawn now => s.commit (upsertCandidate py maxReal s.db scope c p drawn now)
  | .confirm scope memoryId now => s.commit (confirmNode s.db scope memoryId now)
  | .readEdit t scope memoryId edit =>
    { s with edits := Function.update s.edits t (readEdit s.db scope memoryId edit) }
  | .writeEdit t provenanceId now =>
    match s.edits t with
    | none => s
    | some u =>
      { s.commit (writeEdit py s.db u provenanceId now) with
        edits := Function.update s.edits t none }
  | .delete scope memoryId now => s.commit (deleteNode s.db scope memoryId now)

end Writes

end EchoDesk.Memory
