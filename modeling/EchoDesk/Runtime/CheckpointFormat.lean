import EchoDesk.Core.JsonText
import EchoDesk.Foundations.Transaction

/-! # The checkpoint format

`app/runtime/session_checkpoint_persistence.py`: what is checked of an identity and of a
checkpoint before they are stored, and again before a session is resumed from them. A field is
looked up by its camel case name and, when that is missing, by its snake case name.

A JSON text in canonical form is kept as the dictionary with its keys sorted.
-/

namespace SessionCheckpoints

open EchoDesk Transaction

/-! ## Errors -/

inductive PersistenceCode where
  | persistenceInvalidInput
  | persistenceSchemaUnsupported
  | persistenceEventUnsupported
  | persistenceConflict
  | persistenceWriteFailed
  | checkpointCorrupt
  | checkpointTaskMismatch
  | checkpointOperationMismatch
  | checkpointModelRevisionMissing
  | checkpointIdentityMismatch
  | checkpointEventSeqAhead
  | checkpointNotFound
  | checkpointStale
  | grantRevisionMismatch
  | grantExpired
  | runtimeBuildMismatch
  | sessionNotFound
  | sessionNotResumable
  /-- The database refuses the row (`sqlite3.IntegrityError`). -/
  | integrityError

structure PersistenceError where
  code : PersistenceCode
  message : String := "persistence operation rejected"

abbrev Checked (α : Type) := Except PersistenceError α

/-- What has to hold, or the error is raised. -/
def require (p : Prop) [Decidable p] (code : PersistenceCode) (message : String) :
    Checked Unit :=
  if p then .ok () else .error ⟨code, message⟩

@[simp] theorem require_eq_ok {p : Prop} [Decidable p] {code : PersistenceCode}
    {message : String} {u : Unit} : require p code message = .ok u ↔ p := by
  by_cases h : p <;> simp [require, h]

/-! ## The standard library -/

/-- What the module takes from the standard library: the hex digest of a text, the equality of
Python values, and the moment (in microseconds) of an ISO text with a time zone. -/
structure Library where
  sha256 : String → String
  same : Json → Json → Bool
  /-- `datetime.fromisoformat`; a time without a zone has no moment. -/
  fromIso : String → Option (Option Int)

def PERSISTENCE_SCHEMA_VERSION : Json := .int 1

def SUPPORTED_EVENT_TYPES : List String :=
  ["agent.brief", "agent.summary.updated", "agent.compaction.started",
    "agent.compaction.completed", "agent.compaction.failed"]

def FORBIDDEN_KEYS : List String :=
  ["apiKey", "api_key", "credential", "globalConfig", "global_config", "HOME", "PATH", "pid",
    "processId", "rawCredential", "raw_credential", "sessionFile", "sessionPath",
    "temporaryPort", "tempPort"]

mutual

/-- The keys of a value, at every depth. -/
def keys : Json → List String
  | .arr xs => keysList xs
  | .obj fields => keysFields fields
  | _ => []

def keysList : List Json → List String
  | [] => []
  | x :: xs => keys x ++ keysList xs

def keysFields : List (String × Json) → List String
  | [] => []
  | (k, v) :: fields => k :: keys v ++ keysFields fields

end

def rejectForbidden (value : Json) : Checked Unit :=
  match (keys value).find? (· ∈ FORBIDDEN_KEYS) with
  | some key =>
    .error ⟨.checkpointCorrupt, "persisted payload contains forbidden field: " ++ key⟩
  | none => .ok ()

/-- `_json_object`. -/
def jsonObject (value : Json) (label : String) : Checked Dict :=
  match value with
  | .obj fields => do
    rejectForbidden (.obj (Dict.dump fields))
    return Dict.dump fields
  | _ => .error ⟨.persistenceInvalidInput, label ++ " must be an object"⟩

def isMapping : Json → Bool
  | .obj _ => true
  | _ => false

def isList : Json → Bool
  | .arr _ => true
  | _ => false

variable (lib : Library)
variable {value : Json} {field : String}

/-- The digest of the canonical text, after its prefix. -/
def digest (value : Dict) : String := lib.sha256 (JsonText.dumps value.dump)

def checksum (value : Dict) : String := "sha256:" ++ digest lib value

/-! ## Fields -/

/-- `_lookup`. -/
def lookup (mapping : Dict) (camel snake : String) : Json :=
  match mapping.get? camel with
  | some value => value
  | none => mapping.read snake

def requiredString (value : Json) (field : String) : Checked String :=
  match value with
  | .str s => do
    require (s ≠ "" ∧ Char.ofNat 0 ∉ s.toList) .checkpointCorrupt
      ("checkpoint " ++ field ++ " is invalid")
    return s
  | _ => .error ⟨.checkpointCorrupt, "checkpoint " ++ field ++ " is invalid"⟩

/-- An integer from `least` on. -/
def requiredInt (least : Int) (value : Json) (field : String) : Checked Int :=
  match value with
  | .int n => do
    require (least ≤ n) .checkpointCorrupt ("checkpoint " ++ field ++ " is invalid")
    return n
  | _ => .error ⟨.checkpointCorrupt, "checkpoint " ++ field ++ " is invalid"⟩

def requiredRevision (value : Json) (field : String) : Checked Int := requiredInt 1 value field

def requiredNonNegativeInt (value : Json) (field : String) : Checked Int :=
  requiredInt 0 value field

def parseTimestamp (value : Json) (field : String) : Checked Int :=
  match value with
  | .str s =>
    match lib.fromIso s with
    | some (some moment) => .ok moment
    | some none => .error ⟨.checkpointCorrupt, "checkpoint " ++ field ++ " must be timezone-aware"⟩
    | none => .error ⟨.checkpointCorrupt, "checkpoint " ++ field ++ " is invalid"⟩
  | _ => .error ⟨.checkpointCorrupt, "checkpoint " ++ field ++ " is invalid"⟩

def lastDurableEventSeq (payload : Dict) : Checked Int :=
  requiredNonNegativeInt (lookup payload "lastDurableEventSeq" "last_durable_event_seq")
    "last durable event sequence"

@[simp] theorem requiredString_eq_ok {s : String} : requiredString value field = .ok s ↔
      value = .str s ∧ s ≠ "" ∧ Char.ofNat 0 ∉ s.toList := by
  cases value with
  | str t =>
    simp only [requiredString, bind_eq_ok, require_eq_ok, Json.str.injEq]
    constructor
    · rintro ⟨_, hvalid, heq⟩
      cases heq
      exact ⟨rfl, hvalid⟩
    · rintro ⟨rfl, hvalid⟩
      exact ⟨(), hvalid, rfl⟩
  | _ => simp [requiredString]

@[simp] theorem requiredInt_eq_ok {least n : Int} :
    requiredInt least value field = .ok n ↔ value = .int n ∧ least ≤ n := by
  cases value with
  | int m =>
    simp only [requiredInt, bind_eq_ok, require_eq_ok, Json.int.injEq]
    constructor
    · rintro ⟨_, hleast, heq⟩
      cases heq
      exact ⟨rfl, hleast⟩
    · rintro ⟨rfl, hleast⟩
      exact ⟨(), hleast, rfl⟩
  | _ => simp [requiredInt]

theorem jsonObject_eq_ok {label : String} {d : Dict} (h : jsonObject value label = .ok d) :
    ∃ fields, value = .obj fields ∧ d = Dict.dump fields := by
  cases value with
  | obj fields =>
    obtain ⟨_, _, h⟩ := bind_eq_ok.1 h
    exact ⟨fields, rfl, (Except.ok.inj h).symm⟩
  | _ => exact absurd h (by simp [jsonObject])

/-! ## Identities -/

/-- The immutable identity that a checkpoint is allowed to resume under. -/
structure ResumeIdentity where
  sessionId : String
  taskId : String
  operationKey : String
  modelConfigRevision : Int
  grantSnapshot : Json
  kernelBuildIdentity : Json

def ResumeIdentity.asJson (identity : ResumeIdentity) : Checked Dict := do
  let grant ← jsonObject identity.grantSnapshot "grant snapshot"
  let build ← jsonObject identity.kernelBuildIdentity "kernel build identity"
  return [("schemaVersion", PERSISTENCE_SCHEMA_VERSION), ("sessionId", .str identity.sessionId),
    ("taskId", .str identity.taskId), ("operationKey", .str identity.operationKey),
    ("modelConfigRevision", .int identity.modelConfigRevision), ("grantSnapshot", .obj grant),
    ("kernelBuildIdentity", .obj build)]

/-- An identity as it is passed: the record itself or a mapping of its fields. -/
inductive IdentityInput where
  | identity (identity : ResumeIdentity)
  | mapping (fields : Dict)

def readIdentity : IdentityInput → Checked ResumeIdentity
  | .identity identity => .ok identity
  | .mapping value => do
    let sessionId ← requiredString (lookup value "sessionId" "session_id") "session_id"
    let taskId ← requiredString (lookup value "taskId" "task_id") "task_id"
    let operationKey ←
      requiredString (lookup value "operationKey" "operation_key") "operation_key"
    let modelConfigRevision ←
      requiredRevision (lookup value "modelConfigRevision" "model_config_revision")
        "model_config_revision"
    let grant ← jsonObject (lookup value "grantSnapshot" "grant_snapshot") "grant snapshot"
    let build ← jsonObject (lookup value "kernelBuildIdentity" "kernel_build_identity")
      "kernel build identity"
    return { sessionId, taskId, operationKey, modelConfigRevision,
             grantSnapshot := .obj grant, kernelBuildIdentity := .obj build }

/-- `_identity_from_mapping`. -/
def identityFromMapping (value : IdentityInput) : Checked ResumeIdentity := do
  let identity ← readIdentity value
  let _ ← requiredString (.str identity.sessionId) "session_id"
  let _ ← requiredString (.str identity.taskId) "task_id"
  let _ ← requiredString (.str identity.operationKey) "operation_key"
  let _ ← requiredRevision (.int identity.modelConfigRevision) "model_config_revision"
  let grant ← jsonObject identity.grantSnapshot "grant snapshot"
  let build ← jsonObject identity.kernelBuildIdentity "kernel build identity"
  require (lookup grant "taskId" "task_id" = .str identity.taskId ∧
      lookup grant "operationKey" "operation_key" = .str identity.operationKey)
    .checkpointTaskMismatch "grant snapshot is not bound to the task"
  let _ ← requiredRevision (lookup grant "revision" "grant_revision") "grant revision"
  require (build ≠ []) .runtimeBuildMismatch "kernel build identity is empty"
  return { identity with grantSnapshot := .obj grant, kernelBuildIdentity := .obj build }

/-! ## Checkpoints -/

/-- `_checkpoint_grant_snapshot`. -/
def checkpointGrantSnapshot (payload : Dict) (taskId operationKey : String)
    (grantRevision : Int) : Checked Dict := do
  let raw := payload.read "grantSnapshot"
  require (isMapping raw) .checkpointCorrupt "checkpoint grantSnapshot must be an object"
  let grant ← jsonObject raw "checkpoint grantSnapshot"
  require (lib.same (grant.read "schemaVersion") PERSISTENCE_SCHEMA_VERSION) .checkpointCorrupt
    "checkpoint grantSnapshot schema is invalid"
  let _ ← requiredString (lookup grant "grantId" "grant_id") "grantSnapshot.grantId"
  let grantTask ← requiredString (lookup grant "taskId" "task_id") "grantSnapshot.taskId"
  let grantOperation ← requiredString (lookup grant "operationKey" "operation_key")
    "grantSnapshot.operationKey"
  let persistedRevision ← requiredRevision (lookup grant "revision" "grant_revision")
    "grantSnapshot.revision"
  require (grantTask = taskId ∧ grantOperation = operationKey ∧ persistedRevision = grantRevision)
    .checkpointIdentityMismatch "checkpoint grantSnapshot identity does not match"
  return grant

/-- A supplied checksum that is not there, or `null`. -/
def suppliedChecksum (payload : Dict) : Checked (Option String) :=
  match payload.read "checksum" with
  | .null => .ok none
  | .str supplied => .ok (some supplied)
  | _ => .error ⟨.checkpointCorrupt, "checkpoint checksum is invalid"⟩

/-- The checks of `serialize_checkpoint` on the fields of a checkpoint. -/
def checkCheckpoint (payload : Dict) : Checked Unit := do
  require (lib.same (lookup payload "schemaVersion" "schema_version") PERSISTENCE_SCHEMA_VERSION)
    .persistenceSchemaUnsupported "checkpoint schema version is unsupported"
  let _ ← requiredString (lookup payload "checkpointId" "checkpoint_id") "checkpointId"
  let taskId ← requiredString (lookup payload "taskId" "task_id") "taskId"
  let operationKey ← requiredString (lookup payload "operationKey" "operation_key") "operationKey"
  let _ ← requiredString (lookup payload "createdAt" "created_at") "createdAt"
  let _ ← requiredRevision (lookup payload "modelConfigRevision" "model_config_revision")
    "model revision"
  let grantRevision ← requiredRevision (lookup payload "grantRevision" "grant_revision")
    "grant revision"
  let _ ← checkpointGrantSnapshot lib payload taskId operationKey grantRevision
  let _ ← lastDurableEventSeq payload
  let _ ← parseTimestamp lib (lookup payload "createdAt" "created_at") "created_at"
  require (isList (lookup payload "messages" "messages")) .checkpointCorrupt
    "checkpoint messages are invalid"
  require (isMapping (lookup payload "compactState" "compact_state")) .checkpointCorrupt
    "checkpoint compact state is invalid"
  require (isMapping (lookup payload "budgetState" "budget_state")) .checkpointCorrupt
    "checkpoint budget state is invalid"

/-- `serialize_checkpoint`: the payload with its checksum, and the checksum of both. -/
def serializeCheckpoint (checkpoint : Json) : Checked (Dict × String) := do
  let payload ← jsonObject checkpoint "checkpoint"
  checkCheckpoint lib payload
  let supplied ← suppliedChecksum payload
  let body := payload.pop "checksum"
  require (∀ text ∈ supplied, text = checksum lib body ∨ text = digest lib body)
    .checkpointCorrupt "checkpoint checksum mismatch"
  let payload := payload.set "checksum" (.str (supplied.getD (checksum lib body)))
  return (payload, checksum lib payload)

/-- `deserialize_checkpoint`; the stored text is that of a dictionary. -/
def deserializeCheckpoint (raw : Dict) (expectedChecksum : String) : Checked Dict := do
  let (payload, sum) ← serializeCheckpoint lib (.obj raw)
  require (sum = expectedChecksum) .checkpointCorrupt "stored checkpoint checksum mismatch"
  return payload

/-- `_validate_checkpoint_identity`. -/
def validateCheckpointIdentity (payload : Dict) (stored expected : ResumeIdentity) :
    Checked Unit := do
  let taskId ← requiredString (lookup payload "taskId" "task_id") "task_id"
  let operationKey ←
    requiredString (lookup payload "operationKey" "operation_key") "operation_key"
  let modelRevision ←
    requiredRevision (lookup payload "modelConfigRevision" "model_config_revision") "model revision"
  let grantRevision ←
    requiredRevision (lookup payload "grantRevision" "grant_revision") "grant revision"
  let grant ← checkpointGrantSnapshot lib payload taskId operationKey grantRevision
  let storedGrant ← jsonObject stored.grantSnapshot "session grant snapshot"
  let expectedGrant ← jsonObject expected.grantSnapshot "current grant snapshot"
  require (taskId = stored.taskId ∧ taskId = expected.taskId) .checkpointTaskMismatch
    "checkpoint task identity does not match"
  require (operationKey = stored.operationKey ∧ operationKey = expected.operationKey)
    .checkpointOperationMismatch "checkpoint operation identity does not match"
  require (modelRevision = stored.modelConfigRevision ∧
      modelRevision = expected.modelConfigRevision)
    .checkpointModelRevisionMissing "checkpoint model revision does not match"
  let expectedGrantRevision ←
    requiredRevision (lookup expectedGrant "revision" "grant_revision") "current grant revision"
  let storedGrantRevision ←
    requiredRevision (lookup storedGrant "revision" "grant_revision") "stored grant revision"
  require (grantRevision = storedGrantRevision ∧ grantRevision = expectedGrantRevision)
    .grantRevisionMismatch "checkpoint grant revision does not match"
  require (lib.same (.obj grant) (.obj storedGrant) ∧ lib.same (.obj grant) (.obj expectedGrant))
    .checkpointIdentityMismatch
    "checkpoint grantSnapshot does not match the current identity"

/-! ## What a stored checkpoint reads as -/

theorem lookup_set_checksum (payload : Dict) (value : Json) {camel snake : String}
    (hcamel : camel ≠ "checksum") (hsnake : snake ≠ "checksum") :
    lookup (payload.set "checksum" value) camel snake = lookup payload camel snake := by
  unfold lookup Dict.read
  rw [Dict.get?_set, if_neg hcamel, Dict.get?_set, if_neg hsnake]

/-- Sorting the keys of a text keeps its integers and strings. -/
theorem lookup_dump (payload : Dict) (camel snake : String) :
    lookup payload.dump camel snake = (lookup payload camel snake).sortKeys := by
  unfold lookup
  rw [Dict.get?_dump]
  cases payload.get? camel with
  | none => exact Dict.read_dump payload snake
  | some value => rfl

end SessionCheckpoints
