import EchoDesk.Hub.Store

/-! # The sync state of the renderer

`syncState.ts`: the pairing, the cursor and the outbox that the renderer keeps in its local
storage. Every update loads the stored state, changes it and saves it.
-/

namespace Renderer

open EchoDesk

inductive SyncOutboxStatus where
  | pending
  | sending
  | failed
deriving DecidableEq

inductive SyncStatus where
  | unpaired
  | syncing
  | synced
  | failed

structure SyncOutboxItem where
  operationId : String
  deviceId : String
  entityType : Hub.SyncEntityType
  entityId : String
  baseRevision : Nat
  updatedAt : String
  payload : Dict
  status : SyncOutboxStatus
  retryCount : Nat
  lastError : Option String
  retryable : Bool

/-- An error text is kept here whole; `errorText` cuts it after 160 UTF-16 units. -/
structure SyncState where
  deviceId : String
  syncToken : Option String
  cursor : Option String
  status : SyncStatus
  lastError : Option String
  outbox : List SyncOutboxItem

namespace SyncState

/-- `normalizeOutboxItem`: what was being sent is pending again. -/
def loadItem (item : SyncOutboxItem) : SyncOutboxItem :=
  { item with status := if item.status = .failed then .failed else .pending }

/-- `loadSyncState`. An operation of a capture is dropped. -/
def load (state : SyncState) : SyncState :=
  { state with
    outbox := (state.outbox.filter fun item =>
      !"capture:".toList.isPrefixOf item.operationId.toList).map loadItem }

/-- An update of one item by its operation id. -/
def updateItem (state : SyncState) (operationId : String)
    (assign : SyncOutboxItem → SyncOutboxItem) : SyncState :=
  { state with
    outbox := state.outbox.map fun item =>
      if item.operationId = operationId then assign item else item }

def pendingSyncOperations (state : SyncState) (limit : Nat) : List SyncOutboxItem :=
  (state.load.outbox.filter fun item =>
    item.status = .pending ∨ item.status = .failed ∧ item.retryable).take limit

def markSyncOperationSending (state : SyncState) (operationId : String) : SyncState :=
  let sending := state.load.updateItem operationId fun item => { item with status := .sending }
  { sending with status := .syncing }

def completeSyncOperation (state : SyncState) (operationId : String) : SyncState :=
  { state.load with
    outbox := state.load.outbox.filter fun item => item.operationId ≠ operationId
    status := .synced
    lastError := none }

def failSyncOperation (state : SyncState) (operationId error : String) (retryable : Bool) :
    SyncState :=
  let failed := state.load.updateItem operationId fun item => { item with
    status := .failed
    retryCount := item.retryCount + 1
    lastError := some error
    retryable := retryable }
  { failed with status := .failed, lastError := some error }

end SyncState

end Renderer
