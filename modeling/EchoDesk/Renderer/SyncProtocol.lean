import EchoDesk.Hub.Api

/-! # The sync client of the renderer

`syncProtocol.ts` and `syncWorkerCore.ts`: how the replies of the hub are read. The client casts
a parsed body and checks a few of its fields; a change stays the JSON object it came as. A number
of a body is an integer here when it is one in JavaScript, and reading one up to `2 ^ 53` is
exact.
-/

namespace Renderer

open EchoDesk List

/-! ## Cursors -/

/-- The characters `String.prototype.trim` removes. -/
def isTrimmed (c : Char) : Bool :=
  c ∈ ['\t', '\n', '\x0b', '\x0c', '\r', ' '] ∨
    c.toNat ∈ [0xa0, 0x1680, 0x2028, 0x2029, 0x202f, 0x205f, 0x3000, 0xfeff] ∨
    (0x2000 ≤ c.toNat ∧ c.toNat ≤ 0x200a)

def trim (s : String) : String := String.ofList (stripChars isTrimmed s.toList)

/-- `normalizeSyncCursor`; a missing value reads as `null`. -/
def normalizeSyncCursor : Json → Except String (Option String)
  | .null => .ok none
  | .int n =>
    if 0 ≤ n ∧ n < 2 ^ 53 then .ok (some (toString n))
    else .error "同步 cursor 必须是非负整数或非空字符串"
  | .float _ => .error "同步 cursor 必须是非负整数或非空字符串"
  | .str s => if trim s = "" then .error "同步 cursor 不能为空" else .ok (some (trim s))
  | _ => .error "同步 cursor 类型无效"

def normalizeChangesCursor : Json → Except String (Option String)
  | .null => .ok none
  | .str s => .ok (if trim s = "" then none else some (trim s))
  | .int n =>
    if 0 ≤ n then .ok (some (toString n)) else .error "同步变更响应包含无效的同步游标"
  | _ => .error "同步变更响应包含无效的同步游标"

/-! ## Changes -/

def isSyncEntityType : Json → Bool
  | .str s => s ∈ ["transcript_segment", "meeting_summary", "memory"]
  | _ => false

/-- `typeof value === "object"`, and not `null`. -/
def isObject : Json → Bool
  | .obj _ => true
  | .arr _ => true
  | _ => false

def isString : Json → Bool
  | .str _ => true
  | _ => false

/-- A property of a parsed value. -/
def property : Json → String → Json
  | .obj fields, key => Dict.read fields key
  | _, _ => .null

/-- A change that `normalizeChanges` does not filter out. -/
def validChange (change : Json) : Bool :=
  isString (property change "entity_id") && isSyncEntityType (property change "entity_type") &&
    isObject (property change "payload")

structure SyncChangesResponse where
  changes : List Json
  cursor : Option String
  resetRequired : Bool := false
  snapshotRequired : Bool := false

def normalizeChanges : Json → Except String SyncChangesResponse
  | .arr changes => .ok { changes := changes.filter validChange, cursor := none }
  | body =>
    match property body "changes" with
    | .arr changes => do
      let cursor ← normalizeChangesCursor (property body "cursor")
      return {
        changes := changes.filter validChange
        cursor
        resetRequired := property body "reset_required" = .bool true
        snapshotRequired := property body "snapshot_required" = .bool true }
    | _ => .error "同步变更响应格式无效"

/-! ## What a change says -/

/-- A change as the applier reads it: `entity_type`, `entity_id`, `revision` and `payload`. -/
structure Shows (change : Json) (entityType : Hub.SyncEntityType) (entityId : String)
    (revision : Nat) (payload : Dict) : Prop where
  entityType : property change "entity_type" = .str entityType.value
  entityId : property change "entity_id" = .str entityId
  revision : property change "revision" = .int revision
  payload : property change "payload" = .obj payload

/-- A decoded reply holds these records, each once and in this order, and this cursor. -/
def Decodes (reply : Except String SyncChangesResponse) (cursor : Nat)
    (records : List Hub.SyncChangeRecord) : Prop :=
  ∃ response, reply = .ok response ∧ response.cursor = some (toString cursor) ∧
    List.Forall₂ (fun change (record : Hub.SyncChangeRecord) =>
      Shows change record.entityType record.entityId record.revision record.payload)
      response.changes records

variable {py : Python}

theorem validChange_syncChangeResponse (record : Hub.SyncChangeRecord) :
    validChange (.obj (Hub.syncChangeResponse py record)) = true := by
  cases record with
  | mk cursor sourceDeviceId entityType entityId revision updatedAt payload =>
    cases entityType <;> rfl

/-- The changes of the hub are decoded to its records. -/
theorem decodes_changes (py : Python) (cursor : Nat) (records : List Hub.SyncChangeRecord) :
    Decodes (normalizeChanges (.obj (Hub.syncChangesResponse py cursor records))) cursor records := by
  have hvalid : (records.map fun record => Json.obj (Hub.syncChangeResponse py record)).filter
      validChange = records.map fun record => Json.obj (Hub.syncChangeResponse py record) := by
    refine filter_eq_self.2 fun change hchange => ?_
    obtain ⟨record, -, rfl⟩ := mem_map.1 hchange
    exact validChange_syncChangeResponse record
  have hcursor : normalizeChangesCursor (.int cursor) = .ok (some (toString cursor)) := by
    have hpos : (0 : Int) ≤ cursor := Int.natCast_nonneg cursor
    rfl
  have hbody : normalizeChanges (.obj (Hub.syncChangesResponse py cursor records)) = .ok {
      changes := records.map fun record => .obj (Hub.syncChangeResponse py record)
      cursor := some (toString cursor) } := by
    rw [← hvalid]
    show (normalizeChangesCursor (.int cursor) >>= _) = _
    rw [hcursor]
    rfl
  refine ⟨_, hbody, rfl, ?_⟩
  refine forall₂_map_left_iff.2 ?_
  exact forall₂_same.2 fun _ _ => ⟨rfl, rfl, rfl, rfl⟩

/-- The body of a snapshot has its records under three names, none of which the client reads. -/
theorem normalizeChanges_snapshot (py : Python) (record : Hub.SnapshotResult) :
    normalizeChanges (.obj (Hub.syncSnapshotResponse py record)) = .error "同步变更响应格式无效" := rfl

end Renderer
