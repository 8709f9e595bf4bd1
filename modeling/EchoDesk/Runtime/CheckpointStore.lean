import EchoDesk.Foundations.Keyed
import EchoDesk.Foundations.Transition
import EchoDesk.Runtime.CheckpointFormat

/-! # The session and checkpoint store

`SessionCheckpointRepository`: each write is one transaction, and a failed one leaves the
tables as they are. A resume reads the session and then its checkpoint without a transaction,
so that other calls may come between the two reads.
-/

namespace SessionCheckpoints

open EchoDesk Transaction Transition

/-! ## Tables -/

inductive SessionState where
  | opened
  | paused
  | closed
  | stale
deriving DecidableEq

def RESUMABLE_SESSION_STATES : List SessionState := [.opened, .paused]

/-- A row of `agent_runtime_sessions`. -/
structure SessionRow where
  sessionId : String
  taskId : String
  operationKey : String
  modelConfigRevision : Int
  grantRevision : Int
  grantSnapshot : Dict
  kernelBuildIdentity : Dict
  state : SessionState := .opened
  latestCheckpointId : Option String := none
  lastDurableEventSeq : Int := 0
  createdAt : String
  updatedAt : String

/-- A row of `agent_runtime_events`. -/
structure EventRow where
  sessionId : String
  eventSeq : Int
  eventType : String
  payload : Dict
  occurredAt : String
  durableEventSeq : Int
  checksum : String

/-- A row of `agent_runtime_checkpoints`. -/
structure CheckpointRow where
  sessionId : String
  checkpointId : String
  taskId : String
  operationKey : String
  modelConfigRevision : Int
  grantRevision : Int
  lastDurableEventSeq : Int
  payload : Dict
  checksum : String
  createdAt : Json
  savedAt : String

def EventRow.key (e : EventRow) : String × Int := (e.sessionId, e.eventSeq)

def CheckpointRow.key (c : CheckpointRow) : String × String := (c.sessionId, c.checkpointId)

structure Store where
  sessions : Keyed SessionRow.sessionId := Keyed.empty
  events : Keyed EventRow.key := Keyed.empty
  checkpoints : Keyed CheckpointRow.key := Keyed.empty

def Store.saved (d : Store) (sessionId : String) : List CheckpointRow :=
  d.checkpoints.rows.filter fun c => c.sessionId = sessionId

variable (lib : Library)

def requireSession (d : Store) (sessionId : String) : Checked SessionRow :=
  match d.sessions.get? sessionId with
  | some session => .ok session
  | none => .error ⟨.sessionNotFound, "session does not exist"⟩

@[simp] theorem requireSession_eq_ok {d : Store} {sessionId : String} {session : SessionRow} :
    requireSession d sessionId = .ok session ↔ d.sessions.get? sessionId = some session := by
  unfold requireSession
  cases d.sessions.get? sessionId <;> simp

/-! ## Sessions -/

def SessionRow.identity (row : SessionRow) : ResumeIdentity where
  sessionId := row.sessionId
  taskId := row.taskId
  operationKey := row.operationKey
  modelConfigRevision := row.modelConfigRevision
  grantSnapshot := .obj row.grantSnapshot
  kernelBuildIdentity := .obj row.kernelBuildIdentity

/-- `INSERT … ON CONFLICT(session_id) DO NOTHING`, under `UNIQUE(task_id, operation_key)` and
the check on the grant's id. -/
def insertSession (d : Store) (row : SessionRow) (grantId : Json) : Checked Store :=
  match d.sessions.get? row.sessionId with
  | some _ => .ok d
  | none => do
    require (grantId.truthy ∧ ∀ other ∈ d.sessions,
        ¬ (other.taskId = row.taskId ∧ other.operationKey = row.operationKey))
      .integrityError "constraint failed"
    return { d with sessions := d.sessions.put row }

def isText : Json → Bool
  | .str s => s ≠ ""
  | _ => false

def createSession (d : Store) (identity : IdentityInput) (createdAt : String) :
    Checked Store := do
  let bound ← identityFromMapping identity
  let _ ← parseTimestamp lib (.str createdAt) "created_at"
  let grant ← jsonObject bound.grantSnapshot "grant snapshot"
  let grantRevision ←
    requiredRevision (lookup grant "revision" "grant_revision") "grant revision"
  let build ← jsonObject bound.kernelBuildIdentity "kernel build identity"
  require (isText (lookup build "buildId" "build_id")) .runtimeBuildMismatch
    "kernel build id is missing"
  let row : SessionRow := {
    sessionId := bound.sessionId
    taskId := bound.taskId
    operationKey := bound.operationKey
    modelConfigRevision := bound.modelConfigRevision
    grantRevision
    grantSnapshot := grant
    kernelBuildIdentity := build
    createdAt
    updatedAt := createdAt }
  let d ← insertSession d row (lookup grant "grantId" "grant_id")
  let stored ← requireSession d bound.sessionId
  let storedJson ← stored.identity.asJson
  let boundJson ← bound.asJson
  require (lib.same (.obj storedJson) (.obj boundJson)) .checkpointIdentityMismatch
    "session identity is already bound"
  return d

def setSessionState (d : Store) (sessionId : String) (state : SessionState)
    (updatedAt : String) : Checked Store := do
  let _ ← requiredString (.str sessionId) "session_id"
  let _ ← parseTimestamp lib (.str updatedAt) "updated_at"
  let session ← requireSession d sessionId
  return { d with sessions := d.sessions.put { session with state, updatedAt } }

/-! ## Events -/

def eventEnvelope (eventSeq : Int) (eventType : String) (payload : Dict) (occurredAt : String)
    (durableEventSeq : Int) : Dict :=
  [("schemaVersion", PERSISTENCE_SCHEMA_VERSION), ("eventSeq", .int eventSeq),
    ("eventType", .str eventType), ("payload", .obj payload), ("occurredAt", .str occurredAt),
    ("durableEventSeq", .int durableEventSeq)]

structure AppendRequest where
  sessionId : String
  eventSeq : Int
  eventType : String
  payload : Json
  durableEventSeq : Option Int := none
  occurredAt : String

def insertEvent (d : Store) (session : SessionRow) (row : EventRow) : Store :=
  { d with
    events := d.events.put row
    sessions := d.sessions.put { session with
      lastDurableEventSeq := max session.lastDurableEventSeq row.durableEventSeq
      updatedAt := row.occurredAt } }

/-- An event whose sequence is bound must be the same one. -/
def storeEvent (d : Store) (session : SessionRow) (row : EventRow) : Checked Store :=
  match d.events.get? row.key with
  | some existing => do
    require (existing.checksum = row.checksum) .persistenceConflict
      "event sequence is already bound"
    return d
  | none => .ok (insertEvent d session row)

def appendEvent (d : Store) (request : AppendRequest) : Checked Store := do
  let _ ← requiredString (.str request.sessionId) "session_id"
  let _ ← requiredNonNegativeInt (.int request.eventSeq) "event sequence"
  require (1 ≤ request.eventSeq) .persistenceInvalidInput "event sequence must be positive"
  require (request.eventType ∈ SUPPORTED_EVENT_TYPES) .persistenceEventUnsupported
    "event type is not durable in B11"
  let payload ← jsonObject request.payload "event payload"
  let _ ← parseTimestamp lib (.str request.occurredAt) "occurred_at"
  let durableSeq := request.durableEventSeq.getD request.eventSeq
  let _ ← requiredNonNegativeInt (.int durableSeq) "durable event sequence"
  let envelope :=
    eventEnvelope request.eventSeq request.eventType payload request.occurredAt durableSeq
  let session ← requireSession d request.sessionId
  storeEvent d session {
    sessionId := request.sessionId
    eventSeq := request.eventSeq
    eventType := request.eventType
    payload
    occurredAt := request.occurredAt
    durableEventSeq := durableSeq
    checksum := checksum lib envelope }

/-! ## Checkpoints -/

/-- The checks of `save_checkpoint`; the row that is to be stored. -/
def checkSave (d : Store) (sessionId : String) (checkpoint : Json) (savedAt : String) :
    Checked (SessionRow × CheckpointRow) := do
  let _ ← requiredString (.str sessionId) "session_id"
  let (payload, sum) ← serializeCheckpoint lib checkpoint
  let _ ← parseTimestamp lib (.str savedAt) "saved_at"
  let taskId ← requiredString (lookup payload "taskId" "task_id") "task_id"
  let operationKey ←
    requiredString (lookup payload "operationKey" "operation_key") "operation_key"
  let modelRevision ←
    requiredRevision (lookup payload "modelConfigRevision" "model_config_revision") "model revision"
  let grantRevision ←
    requiredRevision (lookup payload "grantRevision" "grant_revision") "grant revision"
  let eventSeq ← lastDurableEventSeq payload
  let checkpointId ←
    requiredString (lookup payload "checkpointId" "checkpoint_id") "checkpoint_id"
  let grant ← checkpointGrantSnapshot lib payload taskId operationKey grantRevision
  let session ← requireSession d sessionId
  require (session.taskId = taskId ∧ session.operationKey = operationKey)
    .checkpointTaskMismatch "checkpoint task identity does not match"
  require (session.modelConfigRevision = modelRevision) .checkpointModelRevisionMissing
    "checkpoint model revision does not match"
  require (session.grantRevision = grantRevision) .grantRevisionMismatch
    "checkpoint grant revision does not match"
  let storedGrant ← jsonObject (.obj session.grantSnapshot) "session grant snapshot"
  require (lib.same (.obj storedGrant) (.obj grant)) .checkpointIdentityMismatch
    "checkpoint grantSnapshot does not match the session identity"
  require (eventSeq ≤ session.lastDurableEventSeq) .checkpointEventSeqAhead
    "checkpoint durable sequence is ahead of the session"
  require (∀ existing ∈ d.checkpoints.get? (sessionId, checkpointId), existing.checksum = sum)
    .persistenceConflict "checkpoint id is already bound"
  return (session, {
    sessionId
    checkpointId
    taskId
    operationKey
    modelConfigRevision := modelRevision
    grantRevision
    lastDurableEventSeq := eventSeq
    payload := payload.dump
    checksum := sum
    createdAt := lookup payload "createdAt" "created_at"
    savedAt })

/-- `INSERT … ON CONFLICT DO UPDATE SET saved_at`: a bound checkpoint keeps its row but for
the time. -/
def upsertCheckpoint (d : Store) (row : CheckpointRow) : Store :=
  match d.checkpoints.get? row.key with
  | some existing =>
    { d with checkpoints := d.checkpoints.put { existing with savedAt := row.savedAt } }
  | none => { d with checkpoints := d.checkpoints.put row }

def saveCheckpoint (d : Store) (sessionId : String) (checkpoint : Json) (savedAt : String) :
    Checked (Store × String) := do
  let (session, row) ← checkSave lib d sessionId checkpoint savedAt
  let d := upsertCheckpoint d row
  let session :=
    { session with latestCheckpointId := some row.checkpointId, updatedAt := savedAt }
  return ({ d with sessions := d.sessions.put session }, row.checkpointId)

/-! ## Resuming -/

structure ResumeRequest where
  sessionId : String
  currentIdentity : IdentityInput
  currentDurableEventSeq : Int
  now : String
  maxAgeSeconds : Option Int := none

/-- A resume between its two reads. -/
structure Resuming where
  request : ResumeRequest
  stored : ResumeIdentity
  expected : ResumeIdentity
  session : SessionRow
  checkpointId : String
  now : Int

/-- The checks up to the first read, and those on the session's row. -/
def readSession (d : Store) (request : ResumeRequest) : Checked Resuming := do
  let expected ← identityFromMapping request.currentIdentity
  require (expected.sessionId = request.sessionId) .checkpointTaskMismatch
    "resume session identity does not match"
  let _ ← requiredNonNegativeInt (.int request.currentDurableEventSeq)
    "current durable event sequence"
  let now ← parseTimestamp lib (.str request.now) "now"
  require (∀ age ∈ request.maxAgeSeconds, 1 ≤ age) .persistenceInvalidInput
    "max checkpoint age is invalid"
  let session ← requireSession d request.sessionId
  require (session.state ∈ RESUMABLE_SESSION_STATES) .sessionNotResumable "session is not resumable"
  let storedGrant ← jsonObject (.obj session.grantSnapshot) "session grant snapshot"
  let storedBuild ← jsonObject (.obj session.kernelBuildIdentity) "kernel build identity"
  let stored := { session.identity with
    grantSnapshot := .obj storedGrant, kernelBuildIdentity := .obj storedBuild }
  let storedJson ← stored.asJson
  let expectedJson ← expected.asJson
  require (lib.same (.obj storedJson) (.obj expectedJson)) .checkpointIdentityMismatch
    "resume identity does not match"
  let checkpointId ← requiredLatest session
  return { request, stored, expected, session, checkpointId, now }
where
  requiredLatest (session : SessionRow) : Checked String :=
    match session.latestCheckpointId with
    | some id => .ok id
    | none => .error ⟨.checkpointNotFound, "session has no checkpoint"⟩

def requireCheckpoint (d : Store) (key : String × String) : Checked CheckpointRow :=
  match d.checkpoints.get? key with
  | some row => .ok row
  | none => .error ⟨.checkpointNotFound, "latest checkpoint is missing"⟩

/-- The grant's end, when the snapshot names one. -/
def checkGrantExpiry (grant : Dict) (now : Int) : Checked Unit :=
  match lookup grant "expiresAt" "expires_at" with
  | .null => .ok ()
  | expiresAt => do
    let moment ← parseTimestamp lib expiresAt "grant expiry"
    require (now < moment) .grantExpired "grant snapshot is expired"

def fieldsOf : Json → Dict
  | .obj fields => fields
  | _ => []

/-- The second read and the checks after it; the payload that is resumed. -/
def readCheckpoint (d : Store) (r : Resuming) : Checked Dict := do
  let row ← requireCheckpoint d (r.request.sessionId, r.checkpointId)
  let payload ← deserializeCheckpoint lib row.payload row.checksum
  validateCheckpointIdentity lib payload r.stored r.expected
  let eventSeq ← lastDurableEventSeq payload
  require (eventSeq ≤ r.request.currentDurableEventSeq) .checkpointEventSeqAhead
    "checkpoint durable sequence is ahead"
  let created ← parseTimestamp lib (lookup payload "createdAt" "created_at") "created_at"
  require (∀ age ∈ r.request.maxAgeSeconds, r.now - created ≤ age * 1000000) .checkpointStale
    "checkpoint is stale"
  checkGrantExpiry lib (fieldsOf r.expected.grantSnapshot) r.now
  return payload

end SessionCheckpoints
