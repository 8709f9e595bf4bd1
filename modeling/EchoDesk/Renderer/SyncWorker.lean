import EchoDesk.Renderer.SyncProtocol
import EchoDesk.Renderer.SyncState

/-! # Pushing the outbox

`SyncWorkerCore.pushBatch`, fed with the bodies the push route answers. The worker classifies a
reply by its field `result`, and the hub writes its verdict under `status`; a snapshot is asked
for `changes`, which its body does not have. So the two sides agree on a push or a snapshot only
where there is no reply to read.
-/

namespace Renderer

open EchoDesk Hub

/-- What `client.push` gives: the parsed body of a reply that is `ok`, or an exception. -/
inductive PushReply where
  | body (value : Json)
  | thrown (message : Option String)

/-- The change applier: what it throws on a change, `none` when it returns. -/
abbrev Applier : Type := Json → Option String

/-- A value used as a condition in JavaScript. -/
def isTruthy : Json → Bool
  | .null => false
  | .bool b => b
  | .int n => n ≠ 0
  | .str s => s ≠ ""
  | _ => true

def errorText (message : Option String) : String := message.getD "同步请求失败，请稍后重试"

/-- The state after a part of a batch, the changes given to the applier and the counters. -/
structure PushBatch where
  state : SyncState
  given : List Json := []
  completed : Nat := 0
  duplicates : Nat := 0
  conflicts : Nat := 0

namespace PushBatch

def fail (b : PushBatch) (item : SyncOutboxItem) (error : String) (retryable : Bool) : PushBatch :=
  { b with state := b.state.failSyncOperation item.operationId error retryable }

def complete (b : PushBatch) (item : SyncOutboxItem) : PushBatch :=
  { b with
    state := b.state.completeSyncOperation item.operationId
    completed := b.completed + 1 }

/-- The `conflict` branch. -/
def conflict (apply : Applier) (b : PushBatch) (item : SyncOutboxItem) (current : Json) :
    PushBatch :=
  let b := { b with conflicts := b.conflicts + 1 }
  if isTruthy current then
    let b := { b with given := b.given ++ [current] }
    match apply current with
    | some message => b.fail item message true
    | none => b.complete item
  else b.fail item "同步冲突响应缺少服务端当前值" false

/-- One round of the loop. -/
def pushItem (apply : Applier) (b : PushBatch) (item : SyncOutboxItem) (reply : PushReply) :
    PushBatch :=
  let b := { b with state := b.state.markSyncOperationSending item.operationId }
  match reply with
  | .thrown message => b.fail item (errorText message) true
  | .body .null => b.fail item "Cannot read properties of null (reading 'result')" true
  | .body body =>
    match property body "result" with
    | .str "conflict" => b.conflict apply item (property body "current")
    | .str "duplicate" => { b with duplicates := b.duplicates + 1 }.complete item
    | .str "applied" => b.complete item
    | _ => b.fail item "同步服务响应格式无效" true

end PushBatch

/-- `pushBatch`, with the reply to each operation. -/
def pushBatch (apply : Applier) (state : SyncState) (limit : Nat)
    (replies : SyncOutboxItem → PushReply) : PushBatch :=
  let items :=
    if (truthy state.syncToken).isSome then state.pendingSyncOperations limit else []
  items.foldl (fun b item => b.pushItem apply item (replies item)) { state }

/-- The request that `SyncHubClient.push` makes of an item. -/
def SyncOutboxItem.request (item : SyncOutboxItem) (updatedAt : Timestamp) : PushRequest where
  operationId := item.operationId
  deviceId := item.deviceId
  entityType := item.entityType
  entityId := item.entityId
  baseRevision := item.baseRevision
  updatedAt := updatedAt
  payload := item.payload

/-! ## One protocol -/

/-- The worker does with an operation what the hub decided. -/
def SameVerdict (item : SyncOutboxItem) (record : PushResult) (before after : PushBatch) : Prop :=
  match record.status with
  | .conflict => ∃ change payload, after.given = before.given ++ [change] ∧
      record.current = some payload ∧ Shows change item.entityType item.entityId record.revision
        payload
  | _ => after.completed = before.completed + 1 ∧
      ∀ other ∈ after.state.outbox, other.operationId ≠ item.operationId

/-- Every reply of the hub in this state means the same on both sides. -/
structure SpeaksProtocol (py : Python) (adapter : Adapter Repository) (db : HubDb Repository)
    (principal : Principal) (apply : Applier) (b : PushBatch) (item : SyncOutboxItem)
    (updatedAt : Timestamp) : Prop where
  push : ∀ record, (Hub.push adapter principal (item.request updatedAt) db).1 = .ok record →
    SameVerdict item record b (b.pushItem apply item (.body (.obj (syncPushResponse record))))
  changes : ∀ cursor limit, Decodes (normalizeChanges (.obj (syncChangesResponse py
      (db.returnedCursor principal.scope cursor limit)
      (db.listChanges principal.scope cursor limit))))
    (db.returnedCursor principal.scope cursor limit)
    (db.listChanges principal.scope cursor limit)
  snapshot : ∀ record, Hub.snapshot py db principal.scope = .ok record →
    Decodes (normalizeChanges (.obj (syncSnapshotResponse py record))) record.cursor record.records

/-! ## What the worker makes of a reply of the hub -/

variable {py : Python} {apply : Applier} {b : PushBatch} {item : SyncOutboxItem}

/-- No reply to a push has a field `result`. -/
theorem result_syncPushResponse (record : PushResult) :
    property (.obj (syncPushResponse record)) "result" = .null := by
  cases record with
  | mk status revision cursor current =>
    cases cursor <;> cases current <;> rfl

/-- Every reply of the hub fails the operation it answers. -/
theorem pushItem_hub (record : PushResult) :
    b.pushItem apply item (.body (.obj (syncPushResponse record))) = { b with
        state := (b.state.markSyncOperationSending item.operationId).failSyncOperation
          item.operationId "同步服务响应格式无效" true } := by
  unfold PushBatch.pushItem
  dsimp only
  rw [result_syncPushResponse]
  rfl

theorem not_sameVerdict (record : PushResult) : ¬ SameVerdict item record b
    (b.pushItem apply item (.body (.obj (syncPushResponse record)))) := by
  rw [pushItem_hub]
  unfold SameVerdict
  split
  · rintro ⟨change, payload, hgiven, -⟩
    have hlength := congrArg List.length hgiven
    simp at hlength
  · rintro ⟨hcompleted, -⟩
    dsimp only at hcompleted
    omega

/-- The renderer and the hub agree on an operation in a state of the hub exactly when the hub
answers neither the push nor the request of a snapshot. -/
theorem speaksProtocol_iff (py : Python) (adapter : Adapter Repository) (db : HubDb Repository)
    (principal : Principal) (apply : Applier) (b : PushBatch) (item : SyncOutboxItem)
    (updatedAt : Timestamp) :
    SpeaksProtocol py adapter db principal apply b item updatedAt ↔
      (∀ record, (Hub.push adapter principal (item.request updatedAt) db).1 ≠ .ok record) ∧
      ∀ record, Hub.snapshot py db principal.scope ≠ .ok record := by
  constructor
  · intro h
    constructor
    · intro record hanswer
      exact not_sameVerdict record (h.push record hanswer)
    intro record hanswer
    obtain ⟨response, hok, -⟩ := h.snapshot record hanswer
    rw [normalizeChanges_snapshot] at hok
    cases hok
  rintro ⟨hpush, hsnapshot⟩
  constructor
  · intro record hanswer
    exact absurd hanswer (hpush record)
  · intro cursor limit
    exact decodes_changes py _ _
  · intro record hanswer
    exact absurd hanswer (hsnapshot record)

/-- A memory of this device, not pushed yet. -/
def likesTea : SyncOutboxItem where
  operationId := "sync:desk:1"
  deviceId := "desk"
  entityType := .memory
  entityId := "m1"
  baseRevision := 0
  updatedAt := "1970-01-01T00:00:00+00:00"
  payload := [("memory_id", .str "m1"), ("content", .str "likes tea")]
  status := .pending
  retryCount := 0
  lastError := none
  retryable := true

/-- The renderer of the device, with that memory in its outbox. -/
def oneMemory : PushBatch where
  state := ⟨"desk", some "token", some "0", .synced, none, [likesTea]⟩

/-- An empty hub applies the memory, and the renderer fails the operation. -/
theorem applied_memory_fails :
    ¬ SpeaksProtocol .ascii (entities .ascii) (.fresh .empty) ⟨"t", "desk", "o"⟩ (fun _ => none)
      oneMemory likesTea 0 := by
  intro h
  have hstatus : ((Hub.push (entities .ascii) ⟨"t", "desk", "o"⟩ (likesTea.request 0)
      (.fresh .empty)).1.toOption.map PushResult.status) = some .applied := by
    decide +kernel
  obtain ⟨record, hrecord, -⟩ := Option.map_eq_some_iff.1 hstatus
  refine not_sameVerdict record (h.push record ?_)
  generalize (Hub.push (entities .ascii) ⟨"t", "desk", "o"⟩ (likesTea.request 0)
    (.fresh .empty)).1 = answer at hrecord
  cases answer with
  | ok value => exact congrArg Except.ok (Option.some.inj hrecord)
  | error e => cases hrecord

end Renderer
