import EchoDesk.Core.Data
import EchoDesk.Foundations.Table
import Mathlib.Data.List.Sort

/-! # The identity tables

Tenants, users, devices, session families and what is issued to them: credentials, bearers
and resource tickets; and the tables whose rows refer to a tenant, a user or a device. A
database is its tables together with the proof that no foreign key dangles: a statement that
would leave one dangling is refused.
-/

namespace Sessions

open EchoDesk

/-! ## Rows -/

/-- `(tenant_id, user_id, device_id)`. -/
structure DeviceKey where
  scope : Scope
  deviceId : String
deriving DecidableEq

/-- The status of a tenant or of a user. -/
inductive Status where
  | active | suspended
deriving DecidableEq

structure TenantRow where
  tenantId : String
  status : Status

def TenantRow.conflict (a b : TenantRow) : Prop := a.tenantId = b.tenantId

instance : DecidableRel TenantRow.conflict := fun _ _ => inferInstanceAs (Decidable (_ = _))

instance : Std.Symm TenantRow.conflict := ⟨fun _ _ h => Eq.symm h⟩

structure UserRow where
  scope : Scope
  status : Status

def UserRow.conflict (a b : UserRow) : Prop := a.scope = b.scope

instance : DecidableRel UserRow.conflict := fun _ _ => inferInstanceAs (Decidable (_ = _))

instance : Std.Symm UserRow.conflict := ⟨fun _ _ h => Eq.symm h⟩

structure DeviceRow where
  key : DeviceKey
  legacyClaimedAt : Option Nat
  revokedAt : Option Nat

def DeviceRow.conflict (a b : DeviceRow) : Prop := a.key = b.key

instance : DecidableRel DeviceRow.conflict := fun _ _ => inferInstanceAs (Decidable (_ = _))

instance : Std.Symm DeviceRow.conflict := ⟨fun _ _ h => Eq.symm h⟩

/-- A row of `session_families`. -/
structure FamilyRow where
  familyId : String
  device : DeviceKey
  generation : Nat
  revokedAt : Option Nat
deriving DecidableEq

def FamilyRow.conflict (a b : FamilyRow) : Prop := a.familyId = b.familyId

instance : DecidableRel FamilyRow.conflict := fun _ _ => inferInstanceAs (Decidable (_ = _))

instance : Std.Symm FamilyRow.conflict := ⟨fun _ _ h => Eq.symm h⟩

/-- A row of `device_credentials`. -/
structure CredentialRow where
  credentialId : String
  credentialHash : String
  familyId : String
  device : DeviceKey
  expiresAt : Nat
  revokedAt : Option Nat
  rotatedToCredentialId : Option String

/-- The primary key, the unique hash and `idx_device_credentials_one_active_family`. -/
def CredentialRow.conflict (a b : CredentialRow) : Prop :=
  a.credentialId = b.credentialId ∨ a.credentialHash = b.credentialHash ∨
    (a.revokedAt = none ∧ b.revokedAt = none) ∧ a.familyId = b.familyId

instance : DecidableRel CredentialRow.conflict :=
  fun _ _ => inferInstanceAs (Decidable (_ ∨ _ ∨ (_ ∧ _) ∧ _))

instance : Std.Symm CredentialRow.conflict :=
  ⟨fun _ _ h => h.imp Eq.symm (Or.imp Eq.symm (And.imp And.symm Eq.symm))⟩

/-- A row of `public_enrollments`. -/
structure EnrollmentRow where
  enrollmentIdHash : String
  deviceSecretHash : String
  peerKeyHash : String
  familyId : String
  device : DeviceKey
  createdAt : Nat

def EnrollmentRow.conflict (a b : EnrollmentRow) : Prop :=
  a.enrollmentIdHash = b.enrollmentIdHash

instance : DecidableRel EnrollmentRow.conflict := fun _ _ => inferInstanceAs (Decidable (_ = _))

instance : Std.Symm EnrollmentRow.conflict := ⟨fun _ _ h => Eq.symm h⟩

/-- A row of `principal_sessions`: a bearer. -/
structure SessionRow where
  sessionId : String
  tokenHash : String
  device : DeviceKey
  expiresAt : Nat
  revokedAt : Option Nat
  familyId : String
  generation : Nat

/-- The primary key, the unique hash and `idx_principal_sessions_one_active_family`. -/
def SessionRow.conflict (a b : SessionRow) : Prop :=
  a.sessionId = b.sessionId ∨ a.tokenHash = b.tokenHash ∨
    (a.revokedAt = none ∧ b.revokedAt = none) ∧ a.familyId = b.familyId

instance : DecidableRel SessionRow.conflict :=
  fun _ _ => inferInstanceAs (Decidable (_ ∨ _ ∨ (_ ∧ _) ∧ _))

instance : Std.Symm SessionRow.conflict :=
  ⟨fun _ _ h => h.imp Eq.symm (Or.imp Eq.symm (And.imp And.symm Eq.symm))⟩

inductive ResourceType where
  | meeting | artifact
deriving DecidableEq

/-- A row of `resource_tickets`. -/
structure TicketRow where
  ticketId : String
  tokenHash : String
  sessionId : String
  device : DeviceKey
  resourceType : ResourceType
  resourceId : String
  expiresAt : Nat
  revokedAt : Option Nat

def TicketRow.conflict (a b : TicketRow) : Prop :=
  a.ticketId = b.ticketId ∨ a.tokenHash = b.tokenHash

instance : DecidableRel TicketRow.conflict := fun _ _ => inferInstanceAs (Decidable (_ ∨ _))

instance : Std.Symm TicketRow.conflict := ⟨fun _ _ h => h.imp Eq.symm Eq.symm⟩

/-- A row of `public_enrollment_admissions`. -/
structure AdmissionRow where
  enrollmentIdHash : String
  peerKeyHash : String
  admittedAt : Nat

/-- A row of `sync_devices`. -/
structure SyncDeviceRow where
  device : DeviceKey
  syncTokenHash : String
  revokedAt : Option Nat

def SyncDeviceRow.conflict (a b : SyncDeviceRow) : Prop :=
  a.device = b.device ∨ a.syncTokenHash = b.syncTokenHash

instance : DecidableRel SyncDeviceRow.conflict := fun _ _ => inferInstanceAs (Decidable (_ ∨ _))

instance : Std.Symm SyncDeviceRow.conflict := ⟨fun _ _ h => h.imp Eq.symm Eq.symm⟩

/-- A row of `device_pairings`. -/
structure PairingRow where
  pairingId : String
  sourceDevice : DeviceKey
  pairingCodeHash : String
  expiresAt : Nat
  claimedAt : Option Nat
  claimedDeviceId : Option String

def PairingRow.conflict (a b : PairingRow) : Prop :=
  a.pairingId = b.pairingId ∨ a.pairingCodeHash = b.pairingCodeHash

instance : DecidableRel PairingRow.conflict := fun _ _ => inferInstanceAs (Decidable (_ ∨ _))

instance : Std.Symm PairingRow.conflict := ⟨fun _ _ h => h.imp Eq.symm Eq.symm⟩

/-- The tables with a `tenant_id` and an `owner_id` that hold what its owner stored. -/
inductive OwnerTable where
  | meetings | meetingSegments | meetingSpeakerLabels | ambientSegments | speakers
  | workflowRuns | workflowEvents | workflowOutbox | workflowOutboxConsumerScopeRecovery
  | workflowOutboxGlobalScopeRecovery | artifacts | artifactLinks | agentTasks | agentTaskEvents
  | agentCommandOutbox | agentRunnerGrants | agentArtifactContextProjections
  | agentSkillReceiptProjections | ragDocuments | ragContentOwners | bm25IndexDocuments
  | bm25DocumentProjectionFences | ambientAudioFiles | memoryNodes | memoryProvenance
  | memoryRelations | memoryProfileSettings | memoryExtractionRuns | syncOperations | syncEvents
  | captureSelections | meetingStateMigrationAudit | migrationOrphanQuarantine
deriving DecidableEq

/-- The table that the rows of a table hang on, with `ON DELETE CASCADE`. -/
def OwnerTable.parent? : OwnerTable → Option OwnerTable
  | .meetingSegments | .meetingSpeakerLabels => some .meetings
  | .workflowEvents => some .workflowRuns
  | .artifactLinks | .agentArtifactContextProjections => some .artifacts
  | .agentTaskEvents | .agentCommandOutbox => some .agentTasks
  | .memoryProvenance | .memoryRelations => some .memoryNodes
  | _ => none

/-- What the identity tables see of a row of such a table. -/
structure ResourceRow where
  table : OwnerTable
  scope : Scope
  rowId : String
  deviceId : String
  /-- The row of the parent table it hangs on. -/
  parentId : String

/-! ## Foreign keys -/

structure Tables where
  tenants : Table TenantRow TenantRow.conflict
  users : Table UserRow UserRow.conflict
  devices : Table DeviceRow DeviceRow.conflict
  families : Table FamilyRow FamilyRow.conflict
  credentials : Table CredentialRow CredentialRow.conflict
  enrollments : Table EnrollmentRow EnrollmentRow.conflict
  sessions : Table SessionRow SessionRow.conflict
  tickets : Table TicketRow TicketRow.conflict
  admissions : List AdmissionRow
  syncDevices : Table SyncDeviceRow SyncDeviceRow.conflict
  pairings : Table PairingRow PairingRow.conflict
  resources : List ResourceRow
  /-- The owners of the rows of `execution_leases` and `principal_quota_ledger`. -/
  leases : List Scope
  quotas : List Scope

/-- No foreign key dangles. -/
structure Tables.ForeignKeys (t : Tables) : Prop where
  user : ∀ u ∈ t.users.rows, ∃ x ∈ t.tenants.rows, x.tenantId = u.scope.tenantId
  device : ∀ x ∈ t.devices.rows, ∃ u ∈ t.users.rows, u.scope = x.key.scope
  family : ∀ f ∈ t.families.rows, ∃ x ∈ t.devices.rows, x.key = f.device
  credential : ∀ c ∈ t.credentials.rows, ∃ f ∈ t.families.rows,
    f.familyId = c.familyId ∧ f.device = c.device
  rotation : ∀ c ∈ t.credentials.rows, ∀ id ∈ c.rotatedToCredentialId,
    ∃ c' ∈ t.credentials.rows, c'.credentialId = id
  enrollment : ∀ e ∈ t.enrollments.rows, ∃ f ∈ t.families.rows,
    f.familyId = e.familyId ∧ f.device = e.device
  session : ∀ a ∈ t.sessions.rows, ∃ f ∈ t.families.rows,
    f.familyId = a.familyId ∧ f.device = a.device
  ticket : ∀ k ∈ t.tickets.rows, ∃ a ∈ t.sessions.rows,
    a.sessionId = k.sessionId ∧ a.device = k.device
  syncDevice : ∀ y ∈ t.syncDevices.rows, ∃ x ∈ t.devices.rows, x.key = y.device
  pairing : ∀ p ∈ t.pairings.rows, ∃ x ∈ t.devices.rows, x.key = p.sourceDevice
  grant : ∀ r ∈ t.resources, r.table = .agentRunnerGrants →
    ∃ x ∈ t.devices.rows, x.key = ⟨r.scope, r.deviceId⟩
  parent : ∀ r ∈ t.resources, ∀ table ∈ r.table.parent?,
    ∃ q ∈ t.resources, q.table = table ∧ q.scope = r.scope ∧ q.rowId = r.parentId
  quota : ∀ scope ∈ t.quotas, ∃ u ∈ t.users.rows, u.scope = scope

instance (t : Tables) : Decidable t.ForeignKeys :=
  decidable_of_iff ((∀ u ∈ t.users.rows, ∃ x ∈ t.tenants.rows, x.tenantId = u.scope.tenantId) ∧
      (∀ x ∈ t.devices.rows, ∃ u ∈ t.users.rows, u.scope = x.key.scope) ∧
      (∀ f ∈ t.families.rows, ∃ x ∈ t.devices.rows, x.key = f.device) ∧
      (∀ c ∈ t.credentials.rows, ∃ f ∈ t.families.rows,
        f.familyId = c.familyId ∧ f.device = c.device) ∧
      (∀ c ∈ t.credentials.rows, ∀ id ∈ c.rotatedToCredentialId,
        ∃ c' ∈ t.credentials.rows, c'.credentialId = id) ∧
      (∀ e ∈ t.enrollments.rows, ∃ f ∈ t.families.rows,
        f.familyId = e.familyId ∧ f.device = e.device) ∧
      (∀ a ∈ t.sessions.rows, ∃ f ∈ t.families.rows,
        f.familyId = a.familyId ∧ f.device = a.device) ∧
      (∀ k ∈ t.tickets.rows, ∃ a ∈ t.sessions.rows,
        a.sessionId = k.sessionId ∧ a.device = k.device) ∧
      (∀ y ∈ t.syncDevices.rows, ∃ x ∈ t.devices.rows, x.key = y.device) ∧
      (∀ p ∈ t.pairings.rows, ∃ x ∈ t.devices.rows, x.key = p.sourceDevice) ∧
      (∀ r ∈ t.resources, r.table = .agentRunnerGrants →
        ∃ x ∈ t.devices.rows, x.key = ⟨r.scope, r.deviceId⟩) ∧
      (∀ r ∈ t.resources, ∀ table ∈ r.table.parent?,
        ∃ q ∈ t.resources, q.table = table ∧ q.scope = r.scope ∧ q.rowId = r.parentId) ∧
      ∀ scope ∈ t.quotas, ∃ u ∈ t.users.rows, u.scope = scope)
    (by
      constructor
      · rintro ⟨h₁, h₂, h₃, h₄, h₅, h₆, h₇, h₈, h₉, h₁₀, h₁₁, h₁₂, h₁₃⟩
        exact ⟨h₁, h₂, h₃, h₄, h₅, h₆, h₇, h₈, h₉, h₁₀, h₁₁, h₁₂, h₁₃⟩
      · intro h
        exact ⟨h.user, h.device, h.family, h.credential, h.rotation, h.enrollment, h.session,
          h.ticket, h.syncDevice, h.pairing, h.grant, h.parent, h.quota⟩)

/-- A database: tables in which no foreign key dangles. -/
structure Db extends Tables where
  sound : toTables.ForeignKeys

/-! ## Statements -/

inductive SessionError where
  | invalidSession | expiredSession | revokedSession
  | invalidDeviceCredential | expiredDeviceCredential | revokedDeviceCredential
  | deviceIdentityAlreadyClaimed | identityAlreadyEnrolled
  | enrollmentAdmissionLimit (reason : String) (retryAfterS : Nat)
  | resourceTicket | valueError
  | pairingNotFound | deviceAlreadyExists | syncDeviceNotFound
  /-- `IntegrityError`, of a unique index or of a foreign key. -/
  | uniqueConstraint | foreignKeyConstraint
deriving DecidableEq

/-- A statement leaves these tables, unless a foreign key dangles in them. -/
def exec (t : Tables) : Except SessionError Db :=
  if h : t.ForeignKeys then .ok ⟨t, h⟩ else .error .foreignKeyConstraint

theorem exec_eq_ok {t : Tables} {d : Db} : exec t = .ok d ↔ d.toTables = t := by
  unfold exec
  split
  · constructor
    · intro hd
      cases hd
      rfl
    · rintro rfl
      rfl
  rename_i h
  constructor
  · intro hd
    cases hd
  · rintro rfl
    exact absurd d.sound h

/-- What a unique index refuses raises. -/
def unique {α : Type} : Option α → Except SessionError α
  | some a => .ok a
  | none => .error .uniqueConstraint

@[simp] theorem unique_eq_ok {α : Type} {o : Option α} {a : α} : unique o = .ok a ↔ o = some a := by
  cases o with
  | none => exact ⟨fun h => (by cases h), fun h => (by cases h)⟩
  | some b => exact ⟨fun h => congrArg some (Except.ok.inj h), fun h => (by cases h; rfl)⟩

/-- What has to hold, or the error is raised. -/
def require (p : Prop) [Decidable p] (e : SessionError) : Except SessionError Unit :=
  if p then .ok () else .error e

@[simp] theorem require_eq_ok {p : Prop} [Decidable p] {e : SessionError} {u : Unit} :
    require p e = .ok u ↔ p := by
  by_cases h : p <;> simp [require, h]

def insertTenant (d : Db) (row : TenantRow) : Except SessionError Db := do
  exec { d.toTables with tenants := ← unique (d.tenants.insert? row) }

def insertUser (d : Db) (row : UserRow) : Except SessionError Db := do
  exec { d.toTables with users := ← unique (d.users.insert? row) }

def insertDevice (d : Db) (row : DeviceRow) : Except SessionError Db := do
  exec { d.toTables with devices := ← unique (d.devices.insert? row) }

def insertFamily (d : Db) (row : FamilyRow) : Except SessionError Db := do
  exec { d.toTables with families := ← unique (d.families.insert? row) }

def insertCredential (d : Db) (row : CredentialRow) : Except SessionError Db := do
  exec { d.toTables with credentials := ← unique (d.credentials.insert? row) }

def insertEnrollment (d : Db) (row : EnrollmentRow) : Except SessionError Db := do
  exec { d.toTables with enrollments := ← unique (d.enrollments.insert? row) }

def insertSession (d : Db) (row : SessionRow) : Except SessionError Db := do
  exec { d.toTables with sessions := ← unique (d.sessions.insert? row) }

def insertTicket (d : Db) (row : TicketRow) : Except SessionError Db := do
  exec { d.toTables with tickets := ← unique (d.tickets.insert? row) }

end Sessions
