import EchoDesk.Core.Python
import EchoDesk.Foundations.Transition
import EchoDesk.Security.Governor
import EchoDesk.Security.Identity

/-! # The session store

The transactions of `app/security/sessions.py`, and those of the sync hub that write devices.
Each is done as a whole or, when it raises, not at all. What a transaction draws at random
is numbered by the transaction, and a moment is counted in microseconds.
-/

namespace Sessions

open EchoDesk List
open Security (PrincipalMode)

/-! ## Drawn values -/

/-- The hashes of secrets, and what `secrets` draws: no id is drawn twice, nor a secret with
the hash of another. -/
structure Secrets where
  tokenHash : String → String
  /-- `_binding_hash` of a domain and a value. -/
  bindingHash : String → String → String
  tokenHex : Nat → String
  tokenUrlsafe : Nat → String
  tokenHex_injective : ∀ m n, tokenHex m = tokenHex n → m = n
  tokenHash_injective : ∀ kind m n,
    tokenHash (kind ++ "_" ++ tokenUrlsafe m) = tokenHash (kind ++ "_" ++ tokenUrlsafe n) → m = n

/-- `_new_id`. -/
def Secrets.newId (σ : Secrets) (kind : String) (n : Nat) : String := kind ++ "_" ++ σ.tokenHex n

/-- `_new_secret`. -/
def Secrets.newSecret (σ : Secrets) (kind : String) (n : Nat) : String :=
  kind ++ "_" ++ σ.tokenUrlsafe n

/-! ## Settings -/

def second : Nat := 1000000

def hour : Nat := 3600 * second

def day : Nat := 24 * hour

structure EnrollmentAdmissionPolicy where
  window : Nat := hour
  peerMaxPerWindow : Nat := 12
  globalMaxPerWindow : Nat := 1000
  peerMaxPerDay : Nat := 64
  globalMaxPerDay : Nat := 10000
  totalActiveMax : Nat := 10000
  cleanupBatchSize : Nat := 100
  positive : 0 < window ∧ 0 < peerMaxPerWindow ∧ 0 < globalMaxPerWindow ∧ 0 < peerMaxPerDay ∧
    0 < globalMaxPerDay ∧ 0 < totalActiveMax ∧ 0 < cleanupBatchSize := by decide

/-- The arguments of `SessionStore`. -/
structure Settings where
  defaultTtl : Nat := hour
  credentialTtl : Nat := 180 * day
  admissionPolicy : EnrollmentAdmissionPolicy := {}
  bounds : 0 < defaultTtl ∧ defaultTtl ≤ hour ∧ 0 < credentialTtl := by decide

/-! ## Principals -/

structure Principal where
  device : DeviceKey
  sessionId : String
  mode : PrincipalMode
  familyId : Option String

structure IssuedSession where
  token : String
  principal : Principal
  expiresAt : Nat

structure IssuedDeviceIdentity where
  session : IssuedSession
  deviceCredential : String
  credentialId : String
  credentialExpiresAt : Nat

/-! ## What is valid -/

/-- The rows that a credential, a bearer or a ticket is joined with. -/
structure Identity where
  family : FamilyRow
  device : DeviceRow
  user : UserRow
  tenant : TenantRow

def Db.identity? (d : Db) (familyId : String) (device : DeviceKey) : Option Identity := do
  let family ← d.families.lookup fun f => f.familyId = familyId ∧ f.device = device
  let deviceRow ← d.devices.lookup fun x => x.key = device
  let user ← d.users.lookup fun u => u.scope = device.scope
  let tenant ← d.tenants.lookup fun x => x.tenantId = device.scope.tenantId
  return ⟨family, deviceRow, user, tenant⟩

/-- The family or the device is revoked, or the user or the tenant is not active. -/
def Identity.revoked (i : Identity) : Bool :=
  i.family.revokedAt.isSome ∨ i.device.revokedAt.isSome ∨ i.user.status ≠ .active ∨
    i.tenant.status ≠ .active

section Store

variable (σ : Secrets)

/-- `_credential_row_tx`. -/
def credentialRowTx (d : Db) (now : Nat) (credential : String) :
    Except SessionError (CredentialRow × Identity) :=
  if strip credential = "" then .error .invalidDeviceCredential
  else
    match d.credentials.lookup fun c => c.credentialHash = σ.tokenHash credential with
    | none => .error .invalidDeviceCredential
    | some c =>
      match d.identity? c.familyId c.device with
      | none => .error .invalidDeviceCredential
      | some i =>
        if c.revokedAt.isSome ∨ i.revoked then .error .revokedDeviceCredential
        else if c.expiresAt ≤ now then .error .expiredDeviceCredential
        else .ok (c, i)

/-- `validate_public_token`. -/
def validatePublicToken (d : Db) (now : Nat) (token : String) : Except SessionError Principal :=
  if strip token = "" then .error .invalidSession
  else
    match d.sessions.lookup fun a => a.tokenHash = σ.tokenHash token with
    | none => .error .invalidSession
    | some a =>
      match d.identity? a.familyId a.device with
      | none => .error .invalidSession
      | some i =>
        if a.revokedAt.isSome ∨ i.revoked then .error .revokedSession
        else if a.expiresAt ≤ now then .error .expiredSession
        else .ok ⟨a.device, a.sessionId, .publicMode, some a.familyId⟩

/-- `assert_active_principal`. -/
def assertActivePrincipal (d : Db) (now : Nat) (p : Principal) : Except SessionError Unit :=
  match truthy p.familyId with
  | none => .ok ()
  | some familyId =>
    if p.mode ≠ .publicMode then .ok ()
    else
      match d.sessions.lookup fun a =>
          a.sessionId = p.sessionId ∧ a.device = p.device ∧ a.familyId = familyId with
      | none => .error .invalidSession
      | some a =>
        match d.identity? a.familyId a.device with
        | none => .error .invalidSession
        | some i =>
          if a.revokedAt.isSome ∨ i.revoked ∨ a.generation ≠ i.family.generation then
            .error .revokedSession
          else if a.expiresAt ≤ now then .error .expiredSession
          else .ok ()

/-- `validate_resource_ticket`. -/
def validateResourceTicket (d : Db) (now : Nat) (token : String) (resourceType : ResourceType)
    (resourceId : String) : Except SessionError Principal :=
  if token = "" then .error .resourceTicket
  else
    match d.tickets.lookup fun k => k.tokenHash = σ.tokenHash token ∧
        k.resourceType = resourceType ∧ k.resourceId = resourceId with
    | none => .error .resourceTicket
    | some k =>
      match d.sessions.lookup fun a => a.sessionId = k.sessionId ∧ a.device = k.device with
      | none => .error .resourceTicket
      | some a =>
        match d.identity? a.familyId a.device with
        | none => .error .resourceTicket
        | some i =>
          if k.revokedAt.isSome ∨ a.revokedAt.isSome ∨ i.revoked then .error .resourceTicket
          else if k.expiresAt ≤ now ∨ a.expiresAt ≤ now then .error .resourceTicket
          else .ok ⟨k.device, k.sessionId, .publicMode, some a.familyId⟩

/-! ## Issuing -/

variable (cfg : Settings)

/-- `ttl or self._default_ttl`, at most an hour. -/
def effectiveTtl (ttl : Option Int) : Except SessionError Nat :=
  let effective := (ttl.filter (· ≠ 0)).getD cfg.defaultTtl
  if effective ≤ 0 ∨ hour < effective then .error .valueError else .ok effective.toNat

/-- `_insert_session_tx`. -/
def insertSessionTx (d : Db) (now n : Nat) (device : DeviceKey) (familyId : String)
    (generation ttl : Nat) : Except SessionError (Db × IssuedSession) := do
  let token := σ.newSecret "eds" n
  let principal : Principal := ⟨device, σ.newId "session" n, .publicMode, some familyId⟩
  let d ← insertSession d ⟨principal.sessionId, σ.tokenHash token, device, now + ttl, none,
    familyId, generation⟩
  return (d, ⟨token, principal, now + ttl⟩)

/-- `_insert_credential_tx`: the credential's id and its expiry. -/
def insertCredentialTx (d : Db) (now n : Nat) (device : DeviceKey) (familyId credential : String) :
    Except SessionError (Db × String × Nat) := do
  let credentialId := σ.newId "credential" n
  let expiresAt := now + cfg.credentialTtl
  let d ← insertCredential d ⟨credentialId, σ.tokenHash credential, familyId, device, expiresAt,
    none, none⟩
  return (d, credentialId, expiresAt)

/-- The bearers of the family are revoked. -/
def revokeBearers (d : Db) (now : Nat) (familyId : String) : Except SessionError Db := do
  exec { d.toTables with
    sessions := ← unique (d.sessions.update? (fun a => a.familyId = familyId ∧ a.revokedAt = none)
      fun a => { a with revokedAt := some now }) }

def setGeneration (d : Db) (sel : FamilyRow → Bool) (generation : Nat) :
    Except SessionError Db := do
  exec { d.toTables with
    families := ← unique (d.families.update? sel fun f => { f with generation := generation }) }

/-- `_renew_credential_row_tx`. -/
def renewCredentialRowTx (d : Db) (now n : Nat) (row : CredentialRow × Identity) (ttl : Nat) :
    Except SessionError (Db × IssuedSession) := do
  let generation := row.2.family.generation + 1
  let d ← revokeBearers d now row.1.familyId
  let d ← setGeneration d (fun f => f.familyId = row.1.familyId ∧ f.revokedAt = none) generation
  insertSessionTx σ d now n row.1.device row.1.familyId generation ttl

/-! ## Orphaned enrollments -/

def CredentialRow.usable (now : Nat) (c : CredentialRow) : Bool :=
  c.revokedAt = none ∧ now < c.expiresAt

def SessionRow.usable (now : Nat) (a : SessionRow) : Bool := a.revokedAt = none ∧ now < a.expiresAt

/-- The enrollment has a credential or a bearer that is usable. -/
def Db.active (d : Db) (now : Nat) (e : EnrollmentRow) : Bool :=
  (∃ c ∈ d.credentials.rows, c.familyId = e.familyId ∧ c.device = e.device ∧ c.usable now) ∨
    ∃ a ∈ d.sessions.rows, a.familyId = e.familyId ∧ a.device = e.device ∧ a.usable now

/-- `_USER_RESOURCE_TABLES`. -/
def userResourceTables : List OwnerTable :=
  [.meetings, .ambientSegments, .speakers, .workflowRuns, .workflowOutbox, .artifacts,
    .agentTasks, .agentRunnerGrants, .ragDocuments, .ragContentOwners, .ambientAudioFiles]

/-- `_user_has_resources_tx`. -/
def Db.userHasResources (d : Db) (scope : Scope) : Bool :=
  ∃ table ∈ userResourceTables, ∃ r ∈ d.resources, r.table = table ∧ r.scope = scope

/-- The bearers of the family are deleted, and with them their tickets. -/
def deleteBearers (d : Db) (familyId : String) : Except SessionError Db :=
  exec { d.toTables with
    sessions := d.sessions.delete fun a => a.familyId = familyId
    tickets := d.tickets.delete fun k =>
      ∃ a ∈ d.sessions.rows, a.familyId = familyId ∧ a.sessionId = k.sessionId ∧
        a.device = k.device }

def clearRotations (d : Db) (familyId : String) : Except SessionError Db := do
  exec { d.toTables with
    credentials := ← unique (d.credentials.update? (fun c => c.familyId = familyId)
      fun c => { c with rotatedToCredentialId := none }) }

def deleteCredentials (d : Db) (familyId : String) : Except SessionError Db :=
  exec { d.toTables with credentials := d.credentials.delete fun c => c.familyId = familyId }

def deleteEnrollment (d : Db) (enrollmentIdHash : String) : Except SessionError Db :=
  exec { d.toTables with
    enrollments := d.enrollments.delete fun e => e.enrollmentIdHash = enrollmentIdHash }

def deleteFamily (d : Db) (familyId : String) : Except SessionError Db :=
  exec { d.toTables with families := d.families.delete fun f => f.familyId = familyId }

def deleteDevice (d : Db) (device : DeviceKey) : Except SessionError Db :=
  exec { d.toTables with devices := d.devices.delete fun x => x.key = device }

/-- The leases and quotas of a user without a device, the user, and a tenant without users. -/
def deleteUser (d : Db) (scope : Scope) : Except SessionError Db := do
  let d ← exec { d.toTables with
    leases := d.leases.filter (· ≠ scope)
    quotas := d.quotas.filter (· ≠ scope) }
  let d ← exec { d.toTables with users := d.users.delete fun u => u.scope = scope }
  exec { d.toTables with
    tenants := d.tenants.delete fun x => x.tenantId = scope.tenantId ∧
      ¬ ∃ u ∈ d.users.rows, u.scope.tenantId = x.tenantId }

/-- One round of `_cleanup_orphaned_enrollments_tx`. -/
def removeEnrollment (d : Db) (e : EnrollmentRow) : Except SessionError Db := do
  let d ← deleteBearers d e.familyId
  let d ← clearRotations d e.familyId
  let d ← deleteCredentials d e.familyId
  let d ← deleteEnrollment d e.enrollmentIdHash
  let d ← deleteFamily d e.familyId
  let d ← deleteDevice d e.device
  if ∃ x ∈ d.devices.rows, x.key.scope = e.device.scope then return d
  else deleteUser d e.device.scope

/-- The rounds of `_cleanup_orphaned_enrollments_tx`, and how many removed an enrollment. -/
def removeEnrollments (batchSize : Nat) :
    List EnrollmentRow → Nat → Db → Except SessionError (Db × Nat)
  | [], removed, d => .ok (d, removed)
  | e :: rest, removed, d =>
    if batchSize ≤ removed then .ok (d, removed)
    else if d.userHasResources e.device.scope then removeEnrollments batchSize rest removed d
    else do
      let d ← removeEnrollment d e
      removeEnrollments batchSize rest (removed + 1) d

/-- The enrollments that are read for a cleanup. -/
def Db.orphans (d : Db) (policy : EnrollmentAdmissionPolicy) (now : Nat) : List EnrollmentRow :=
  ((d.enrollments.rows.filter fun e => !d.active now e).insertionSort
    fun a b => a.createdAt ≤ b.createdAt).take (policy.cleanupBatchSize * 10)

/-- `_cleanup_orphaned_enrollments_tx`. -/
def cleanupOrphanedEnrollmentsTx (d : Db) (policy : EnrollmentAdmissionPolicy) (now : Nat) :
    Except SessionError (Db × Nat) :=
  removeEnrollments policy.cleanupBatchSize (d.orphans policy now) 0 d

/-- Admissions that no window reaches are forgotten. -/
def forgetAdmissions (d : Db) (policy : EnrollmentAdmissionPolicy) (now : Nat) :
    Except SessionError Db :=
  exec { d.toTables with
    admissions := d.admissions.filter fun r => now ≤ r.admittedAt + max policy.window day }

/-- `cleanup_orphaned_enrollments`. -/
def cleanupOrphanedEnrollments (d : Db) (now : Nat)
    (admissionPolicy : Option EnrollmentAdmissionPolicy) : Except SessionError (Db × Nat) := do
  let policy := admissionPolicy.getD cfg.admissionPolicy
  let (d, removed) ← cleanupOrphanedEnrollmentsTx d policy now
  let d ← forgetAdmissions d policy now
  return (d, removed)

/-! ## Enrollment -/

/-- `math.ceil(max(1.0, …))` of a duration, in seconds. -/
def ceilSeconds (duration : Nat) : Nat := max 1 ((duration + (second - 1)) / second)

/-- `_check_admission_window_tx`. -/
def checkAdmissionWindowTx (d : Db) (now duration limit : Nat) (reason : String)
    (peerHash : Option String) : Except SessionError Unit :=
  let counted := d.admissions.filter fun r =>
    (∀ peer ∈ peerHash, r.peerKeyHash = peer) ∧ now < r.admittedAt + duration
  let oldest := ((counted.map fun r => r.admittedAt).min?).getD (now - duration)
  require (counted.length < limit)
    (.enrollmentAdmissionLimit reason (ceilSeconds (oldest + duration - now)))

/-- `_active_enrollment_count_tx`. -/
def Db.activeEnrollments (d : Db) (now : Nat) : Nat :=
  (d.enrollments.rows.filter fun e => d.active now e).length

/-- `_admit_new_enrollment_tx`. -/
def admitNewEnrollmentTx (d : Db) (now : Nat) (enrollmentHash peerHash : String)
    (policy : EnrollmentAdmissionPolicy) : Except SessionError Db := do
  let (d, _) ← cleanupOrphanedEnrollmentsTx d policy now
  let d ← forgetAdmissions d policy now
  checkAdmissionWindowTx d now policy.window policy.peerMaxPerWindow "peer_window" (some peerHash)
  checkAdmissionWindowTx d now policy.window policy.globalMaxPerWindow "global_window" none
  checkAdmissionWindowTx d now day policy.peerMaxPerDay "peer_day" (some peerHash)
  checkAdmissionWindowTx d now day policy.globalMaxPerDay "global_day" none
  require (d.activeEnrollments now < policy.totalActiveMax)
    (.enrollmentAdmissionLimit "total_active" (ceilSeconds policy.window))
  exec { d.toTables with admissions := d.admissions ++ [⟨enrollmentHash, peerHash, now⟩] }

/-- The arguments of `enroll_public_device`. -/
structure EnrollRequest where
  enrollmentId : Option String
  deviceSecret : Option String
  peerKey : String
  tenantId : Option String
  deviceId : Option String
  userId : Option String
  ttl : Option Int
  admissionPolicy : Option EnrollmentAdmissionPolicy

/-- An installation that has enrolled before resumes its identity. -/
def resumeEnrollmentTx (d : Db) (now n : Nat) (existing : EnrollmentRow) (credential : String)
    (peerHash : String) (ttl : Nat) : Except SessionError (Db × IssuedDeviceIdentity) := do
  require (existing.deviceSecretHash = σ.tokenHash credential) .identityAlreadyEnrolled
  let row ← credentialRowTx σ d now credential
  require (row.1.familyId = existing.familyId ∧ row.1.device = existing.device)
    .invalidDeviceCredential
  let (d, session) ← renewCredentialRowTx σ d now n row ttl
  let d ← exec { d.toTables with
    enrollments := ← unique (d.enrollments.update?
      (fun e => e.enrollmentIdHash = existing.enrollmentIdHash)
      fun e => { e with peerKeyHash := peerHash }) }
  return (d, ⟨session, credential, row.1.credentialId, row.1.expiresAt⟩)

/-- The device of a new enrollment, with its family, its credential and its first bearer. -/
def insertEnrolledTx (d : Db) (now n : Nat) (device : DeviceKey) (credential : String)
    (enrollmentHash peerHash : String) (ttl : Nat) :
    Except SessionError (Db × IssuedDeviceIdentity) := do
  let familyId := σ.newId "family" n
  let d ← insertDevice d ⟨device, none, none⟩
  let d ← insertFamily d ⟨familyId, device, 0, none⟩
  let (d, credentialId, expiresAt) ← insertCredentialTx σ cfg d now n device familyId credential
  let d ← insertEnrollment d
    ⟨enrollmentHash, σ.tokenHash credential, peerHash, familyId, device, now⟩
  let (d, session) ← insertSessionTx σ d now n device familyId 0 ttl
  return (d, ⟨session, credential, credentialId, expiresAt⟩)

/-- `enroll_public_device`. -/
def enrollPublicDevice (d : Db) (now n : Nat) (r : EnrollRequest) :
    Except SessionError (Db × IssuedDeviceIdentity) := do
  let ttl ← effectiveTtl cfg r.ttl
  let enrollment := (truthy r.enrollmentId).getD (σ.newSecret "enrollment" n)
  let credential := (truthy r.deviceSecret).getD (σ.newSecret "edc" n)
  require (32 ≤ enrollment.length ∧ 32 ≤ credential.length) .valueError
  let enrollmentHash := σ.bindingHash "enrollment-id" enrollment
  let peerHash := σ.bindingHash "enrollment-peer" r.peerKey
  let tenant := (truthy r.tenantId).getD (σ.newId "tenant" n)
  let user := (truthy r.userId).getD (σ.newId "owner" n)
  let device := (truthy r.deviceId).getD (σ.newId "device" n)
  match d.enrollments.lookup fun e => e.enrollmentIdHash = enrollmentHash with
  | some existing => resumeEnrollmentTx σ d now n existing credential peerHash ttl
  | none => do
    let d ← admitNewEnrollmentTx d now enrollmentHash peerHash
      (r.admissionPolicy.getD cfg.admissionPolicy)
    let d ← insertTenant d ⟨tenant, .active⟩
    let d ← insertUser d ⟨⟨tenant, user⟩, .active⟩
    insertEnrolledTx σ cfg d now n ⟨⟨tenant, user⟩, device⟩ credential enrollmentHash peerHash ttl

/-- The family of a public principal. -/
def Principal.publicFamily? (p : Principal) : Option String :=
  if p.mode = .publicMode then truthy p.familyId else none

/-- The credential of a principal, or an error. -/
def authorize (d : Db) (now : Nat) (p : Principal) (credential : String) :
    Except SessionError (CredentialRow × Identity) := do
  let row ← credentialRowTx σ d now credential
  require (p.familyId = some row.1.familyId ∧ row.1.device = p.device) .invalidDeviceCredential
  return row

/-- The arguments of `enroll_additional_device`. -/
structure EnrollAdditionalRequest where
  currentCredential : String
  enrollmentId : String
  deviceSecret : String
  peerKey : String
  ttl : Option Int
  admissionPolicy : Option EnrollmentAdmissionPolicy

/-- Another device of the user that has enrolled before. -/
def resumeAdditionalTx (d : Db) (now n : Nat) (p : Principal) (existing : EnrollmentRow)
    (deviceSecret : String) (ttl : Nat) : Except SessionError (Db × IssuedDeviceIdentity) := do
  require (existing.deviceSecretHash = σ.tokenHash deviceSecret) .identityAlreadyEnrolled
  require (existing.device.scope = p.device.scope) .identityAlreadyEnrolled
  let row ← credentialRowTx σ d now deviceSecret
  let (d, session) ← renewCredentialRowTx σ d now n row ttl
  return (d, ⟨session, deviceSecret, row.1.credentialId, row.1.expiresAt⟩)

/-- `enroll_additional_device`. -/
def enrollAdditionalDevice (d : Db) (now n : Nat) (p : Principal) (r : EnrollAdditionalRequest) :
    Except SessionError (Db × IssuedDeviceIdentity) := do
  require p.publicFamily?.isSome .invalidDeviceCredential
  let ttl ← effectiveTtl cfg r.ttl
  require (32 ≤ r.enrollmentId.length ∧ 32 ≤ r.deviceSecret.length) .valueError
  let enrollmentHash := σ.bindingHash "enrollment-id" r.enrollmentId
  let peerHash := σ.bindingHash "enrollment-peer" r.peerKey
  let _ ← authorize σ d now p r.currentCredential
  match d.enrollments.lookup fun e => e.enrollmentIdHash = enrollmentHash with
  | some existing => resumeAdditionalTx σ d now n p existing r.deviceSecret ttl
  | none => do
    let d ← admitNewEnrollmentTx d now enrollmentHash peerHash
      (r.admissionPolicy.getD cfg.admissionPolicy)
    insertEnrolledTx σ cfg d now n ⟨p.device.scope, σ.newId "device" n⟩ r.deviceSecret
      enrollmentHash peerHash ttl

/-! ## Renewal and rotation -/

/-- `renew_public_session`. -/
def renewPublicSession (d : Db) (now n : Nat) (credential : String) (ttl : Option Int) :
    Except SessionError (Db × IssuedSession) := do
  let ttl ← effectiveTtl cfg ttl
  let row ← credentialRowTx σ d now credential
  renewCredentialRowTx σ d now n row ttl

def updateCredential (d : Db) (sel : CredentialRow → Bool) (f : CredentialRow → CredentialRow) :
    Except SessionError Db := do
  exec { d.toTables with credentials := ← unique (d.credentials.update? sel f) }

/-- The writes of a rotation. -/
def rotateTx (d : Db) (now n : Nat) (p : Principal) (familyId : String) (old : CredentialRow)
    (newCredential : String) : Except SessionError (Db × String × Nat) := do
  let newId := σ.newId "credential" n
  let expiresAt := now + cfg.credentialTtl
  let d ← updateCredential d (fun c => c.credentialId = old.credentialId ∧ c.revokedAt = none)
    fun c => { c with revokedAt := some now }
  let d ← insertCredential d
    ⟨newId, σ.tokenHash newCredential, familyId, p.device, expiresAt, none, none⟩
  let d ← updateCredential d (fun c => c.credentialId = old.credentialId)
    fun c => { c with rotatedToCredentialId := some newId }
  let d ← exec { d.toTables with
    enrollments := ← unique (d.enrollments.update?
      (fun e => e.familyId = familyId ∧ e.device = p.device)
      fun e => { e with deviceSecretHash := σ.tokenHash newCredential }) }
  return (d, newId, expiresAt)

/-- `rotate_device_credential`. -/
def rotateDeviceCredential (d : Db) (now n : Nat) (p : Principal)
    (currentCredential newCredential : String) : Except SessionError (Db × String × Nat) := do
  match p.publicFamily? with
  | none => .error .invalidDeviceCredential
  | some familyId => do
    require (32 ≤ newCredential.length ∧ σ.tokenHash currentCredential ≠ σ.tokenHash newCredential)
      .invalidDeviceCredential
    let old ← authorize σ d now p currentCredential
    rotateTx σ cfg d now n p familyId old.1 newCredential

/-- The device and the family of the bearer that `claim_legacy_identity` reads. -/
def Db.legacyRow? (d : Db) (p : Principal) : Option (DeviceRow × FamilyRow) := do
  let a ← d.sessions.lookup fun a =>
    a.sessionId = p.sessionId ∧ a.device = p.device ∧ a.revokedAt = none
  let family ← d.families.lookup fun f =>
    f.familyId = a.familyId ∧ f.device = a.device ∧ f.revokedAt = none
  let device ← d.devices.lookup fun x => x.key = a.device
  return (device, family)

/-- The writes of `claim_legacy_identity`. -/
def claimTx (d : Db) (now n : Nat) (p : Principal) (familyId : String) (generation : Nat) :
    Except SessionError (Db × IssuedDeviceIdentity) := do
  let credential := σ.newSecret "edc" n
  let (d, credentialId, expiresAt) ← insertCredentialTx σ cfg d now n p.device familyId credential
  let d ← exec { d.toTables with
    devices := ← unique (d.devices.update? (fun x => x.key = p.device)
      fun x => { x with legacyClaimedAt := some now }) }
  let d ← revokeBearers d now familyId
  let d ← setGeneration d (fun f => f.familyId = familyId) generation
  let (d, session) ← insertSessionTx σ d now n p.device familyId generation cfg.defaultTtl
  return (d, ⟨session, credential, credentialId, expiresAt⟩)

/-- `claim_legacy_identity`. -/
def claimLegacyIdentity (d : Db) (now n : Nat) (p : Principal) :
    Except SessionError (Db × IssuedDeviceIdentity) := do
  match p.publicFamily? with
  | none => .error .invalidSession
  | some familyId =>
    match d.legacyRow? p with
    | none => .error .invalidSession
    | some (device, family) => do
      require (device.legacyClaimedAt = none ∧
        ¬ ∃ c ∈ d.credentials.rows, c.familyId = familyId) .deviceIdentityAlreadyClaimed
      claimTx σ cfg d now n p familyId (family.generation + 1)

/-! ## Revocation -/

/-- `revoke_session`. -/
def revokeSession (d : Db) (now : Nat) (sessionId : String) : Except SessionError (Db × Bool) := do
  let d' ← exec { d.toTables with
    sessions := ← unique (d.sessions.update? (fun a => a.sessionId = sessionId ∧ a.revokedAt = none)
      fun a => { a with revokedAt := some now }) }
  return (d', ∃ a ∈ d.sessions.rows, a.sessionId = sessionId ∧ a.revokedAt = none)

/-- `COALESCE(revoked_at, ?)` of the bearers and the credentials. -/
def revokeIssued (d : Db) (now : Nat) (bearer : SessionRow → Bool)
    (credential : CredentialRow → Bool) : Except SessionError Db := do
  let d ← exec { d.toTables with
    sessions := ← unique (d.sessions.update? bearer
      fun a => { a with revokedAt := some (a.revokedAt.getD now) }) }
  updateCredential d credential fun c => { c with revokedAt := some (c.revokedAt.getD now) }

/-- `revoke_session_family`. -/
def revokeSessionFamily (d : Db) (now : Nat) (p : Principal) : Except SessionError (Db × Bool) := do
  match p.publicFamily? with
  | none => return (d, false)
  | some familyId => do
    let d' ← exec { d.toTables with
      families := ← unique (d.families.update?
        (fun f => f.familyId = familyId ∧ f.device = p.device ∧ f.revokedAt = none)
        fun f => { f with revokedAt := some now }) }
    let d' ← revokeIssued d' now (fun a => a.familyId = familyId) fun c => c.familyId = familyId
    return (d', ∃ f ∈ d.families.rows,
      f.familyId = familyId ∧ f.device = p.device ∧ f.revokedAt = none)

/-- The writes of `revoke_device`. -/
def revokeDeviceTx (d : Db) (now : Nat) (device : DeviceKey) : Except SessionError Db := do
  let d ← exec { d.toTables with
    devices := ← unique (d.devices.update? (fun x => x.key = device ∧ x.revokedAt = none)
      fun x => { x with revokedAt := some now }) }
  let d ← exec { d.toTables with
    families := ← unique (d.families.update? (fun f => f.device = device)
      fun f => { f with revokedAt := some (f.revokedAt.getD now) }) }
  revokeIssued d now (fun a => a.device = device) fun c => c.device = device

/-- `revoke_device`. -/
def revokeDevice (d : Db) (now : Nat) (p : Principal) (currentCredential : String) :
    Except SessionError (Db × Bool) := do
  if p.mode ≠ .publicMode then return (d, false)
  else
    let _ ← authorize σ d now p currentCredential
    let d' ← revokeDeviceTx d now p.device
    return (d', ∃ x ∈ d.devices.rows, x.key = p.device ∧ x.revokedAt = none)

/-- A bearer that `cleanup_expired_sessions` deletes. -/
def SessionRow.spent (now : Nat) (a : SessionRow) : Bool := a.expiresAt ≤ now ∨ a.revokedAt.isSome

/-- `cleanup_expired_sessions`. -/
def cleanupExpiredSessions (d : Db) (now : Nat) : Except SessionError (Db × Nat × Nat) := do
  let d₁ ← exec { d.toTables with
    tickets := d.tickets.delete fun k => k.expiresAt ≤ now ∨ k.revokedAt.isSome ∨
      ∃ a ∈ d.sessions.rows, a.sessionId = k.sessionId ∧ a.spent now }
  let d₂ ← exec { d₁.toTables with sessions := d₁.sessions.delete (SessionRow.spent now) }
  return (d₂, d.tickets.rows.length - d₁.tickets.rows.length,
    d₁.sessions.rows.length - d₂.sessions.rows.length)

/-! ## Resource tickets -/

/-- `issue_resource_ticket`: the ticket, its id and its expiry. -/
def issueResourceTicket (d : Db) (now n : Nat) (p : Principal) (resourceType : ResourceType)
    (resourceId : String) (ttl : Int) : Except SessionError (Db × String × String × Nat) := do
  require (p.mode = .publicMode) .valueError
  require (strip resourceId ≠ "" ∧ 0 < ttl ∧ ttl ≤ hour) .valueError
  let token := σ.newSecret "edt" n
  let ticketId := σ.newId "ticket" n
  let expiresAt := now + ttl.toNat
  require (∃ a ∈ d.sessions.rows, a.sessionId = p.sessionId ∧ a.device = p.device ∧
    a.usable now ∧ ∃ f ∈ d.families.rows, f.familyId = a.familyId ∧ f.device = a.device ∧
      f.revokedAt = none) .resourceTicket
  let d ← insertTicket d ⟨ticketId, σ.tokenHash token, p.sessionId, p.device, resourceType,
    resourceId, expiresAt, none⟩
  return (d, token, ticketId, expiresAt)

/-! ## Other writers -/

def insertOrIgnoreTenant (d : Db) (row : TenantRow) : Except SessionError Db :=
  match d.tenants.insert? row with
  | none => .ok d
  | some tenants => exec { d.toTables with tenants := tenants }

def insertOrIgnoreUser (d : Db) (row : UserRow) : Except SessionError Db :=
  match d.users.insert? row with
  | none => .ok d
  | some users => exec { d.toTables with users := users }

def insertOrIgnoreDevice (d : Db) (row : DeviceRow) : Except SessionError Db :=
  match d.devices.insert? row with
  | none => .ok d
  | some devices => exec { d.toTables with devices := devices }

/-- `_ensure_principal_device_tx` of the sync hub. -/
def ensurePrincipalDeviceTx (d : Db) (device : DeviceKey) : Except SessionError Db := do
  let d ← insertOrIgnoreTenant d ⟨device.scope.tenantId, .active⟩
  let d ← insertOrIgnoreUser d ⟨device.scope, .active⟩
  insertOrIgnoreDevice d ⟨device, none, none⟩

/-- `create_pairing` of the sync hub: the pairing code. -/
def createPairing (d : Db) (now n : Nat) (device : DeviceKey) (ttl : Int) :
    Except SessionError (Db × String) := do
  require (0 < ttl) .valueError
  let code := σ.newSecret "pair" n
  let d ← ensurePrincipalDeviceTx d device
  let d ← exec { d.toTables with
    pairings := ← unique (d.pairings.insert? ⟨σ.newSecret "pairing" n, device, σ.tokenHash code,
      now + ttl.toNat, none, none⟩) }
  return (d, code)

/-- The writes of `claim_pairing`. -/
def claimPairingTx (d : Db) (now : Nat) (pairing : PairingRow) (device : DeviceKey)
    (syncTokenHash : String) : Except SessionError Db := do
  let d ← insertDevice d ⟨device, none, none⟩
  let d ← exec { d.toTables with
    syncDevices := ← unique (d.syncDevices.insert? ⟨device, syncTokenHash, none⟩) }
  exec { d.toTables with
    pairings := ← unique (d.pairings.update?
      (fun x => x.pairingId = pairing.pairingId ∧ x.claimedAt = none)
      fun x => { x with claimedAt := some now, claimedDeviceId := some device.deviceId }) }

/-- `claim_pairing` of the sync hub: the sync token. -/
def claimPairing (d : Db) (now n : Nat) (pairingCode deviceId : String) :
    Except SessionError (Db × String) := do
  let syncToken := σ.newSecret "sync" n
  match d.pairings.lookup fun x => x.pairingCodeHash = σ.tokenHash pairingCode with
  | none => .error .pairingNotFound
  | some pairing => do
    require (pairing.claimedAt = none ∧ now < pairing.expiresAt) .pairingNotFound
    let device : DeviceKey := ⟨pairing.sourceDevice.scope, deviceId⟩
    require (¬ ∃ x ∈ d.devices.rows, x.key = device) .deviceAlreadyExists
    let d ← claimPairingTx d now pairing device (σ.tokenHash syncToken)
    return (d, syncToken)

/-- `revoke_device` of the sync hub. -/
def revokeSyncDevice (d : Db) (now : Nat) (device : DeviceKey) :
    Except SessionError (Db × Unit) := do
  require (∃ y ∈ d.syncDevices.rows, y.device = device) .syncDeviceNotFound
  let d ← exec { d.toTables with
    syncDevices := ← unique (d.syncDevices.update? (fun y => y.device = device)
      fun y => { y with revokedAt := some (y.revokedAt.getD now) }) }
  return (d, ())

/-- A row of an owner's table is written. -/
def writeResource (d : Db) (row : ResourceRow) : Except SessionError (Db × Unit) := do
  let d ← exec { d.toTables with resources := d.resources ++ [row] }
  return (d, ())

/-- A row of an owner's table is deleted, with the rows that hang on it. -/
def deleteResource (d : Db) (table : OwnerTable) (scope : Scope) (rowId : String) :
    Except SessionError (Db × Unit) := do
  let d ← exec { d.toTables with
    resources := d.resources.filter fun r => ¬ (r.scope = scope ∧
      (r.table = table ∧ r.rowId = rowId ∨ r.table.parent? = some table ∧ r.parentId = rowId)) }
  return (d, ())

/-- An execution lease or a quota of the owner is accounted for. -/
def writeUsage (d : Db) (lease quota : List Scope) : Except SessionError (Db × Unit) := do
  let d ← exec { d.toTables with leases := d.leases ++ lease, quotas := d.quotas ++ quota }
  return (d, ())

end Store

/-! ## Migrated databases -/

/-- A bearer from before session families. -/
structure LegacySession where
  device : DeviceKey
  expiresAt : Nat
  revokedAt : Option Nat

/-- The family that `018_identity_continuity.sql` gives it. -/
def legacyFamily (sessionId : String) : String := "family:legacy:" ++ sessionId

/-- `018_identity_continuity.sql` of one bearer. -/
def migrateRow (σ : Secrets) (d : Db) (n : Nat) (l : LegacySession) :
    Except SessionError (Db × Unit) := do
  let sessionId := σ.newId "session" n
  let d ← ensurePrincipalDeviceTx d l.device
  let d ← insertFamily d ⟨legacyFamily sessionId, l.device, 0, l.revokedAt⟩
  let d ← insertSession d ⟨sessionId, σ.tokenHash (σ.newSecret "eds" n), l.device, l.expiresAt,
    l.revokedAt, legacyFamily sessionId, 0⟩
  return (d, ())

def legacyDevice : DeviceKey := ⟨⟨"legacy-local", "legacy-local"⟩, "legacy-local"⟩

/-- A database without a bearer. -/
def Db.fresh : Db where
  tenants := ⟨[⟨"legacy-local", .active⟩], List.pairwise_singleton _ _⟩
  users := ⟨[⟨legacyDevice.scope, .active⟩], List.pairwise_singleton _ _⟩
  devices := ⟨[⟨legacyDevice, none, none⟩], List.pairwise_singleton _ _⟩
  families := Table.empty
  credentials := Table.empty
  enrollments := Table.empty
  sessions := Table.empty
  tickets := Table.empty
  admissions := []
  syncDevices := Table.empty
  pairings := Table.empty
  resources := []
  leases := []
  quotas := []
  sound := by decide

/-! ## Steps -/

structure System where
  db : Db
  clock : Nat
  /-- How many transactions have drawn. -/
  drawn : Nat

/-- A transaction that raises is rolled back. -/
def System.commit {α : Type} (s : System) (r : Except SessionError (Db × α)) : System where
  db := match r with
    | .ok (d, _) => d
    | .error _ => s.db
  clock := s.clock
  drawn := s.drawn + 1

def System.fresh : System := ⟨Db.fresh, 0, 0⟩

/-- The database that the migrations leave of bearers from before session families. -/
def System.migrated (σ : Secrets) : List LegacySession → System
  | [] => System.fresh
  | l :: rest =>
    let s := System.migrated σ rest
    s.commit (migrateRow σ s.db s.drawn l)

inductive Label where
  | tick (elapsed : Nat)
  | enroll (r : EnrollRequest)
  | enrollAdditional (p : Principal) (r : EnrollAdditionalRequest)
  | renew (credential : String) (ttl : Option Int)
  | rotate (p : Principal) (currentCredential newCredential : String)
  | claimLegacy (p : Principal)
  | revokeSession (sessionId : String)
  | revokeFamily (p : Principal)
  | revokeDevice (p : Principal) (currentCredential : String)
  | cleanupExpired
  | cleanupOrphaned (admissionPolicy : Option EnrollmentAdmissionPolicy)
  | issueTicket (p : Principal) (resourceType : ResourceType) (resourceId : String) (ttl : Int)
  | createPairing (device : DeviceKey) (ttl : Int)
  | claimPairing (pairingCode deviceId : String)
  | revokeSyncDevice (device : DeviceKey)
  | writeResource (row : ResourceRow)
  | deleteResource (table : OwnerTable) (scope : Scope) (rowId : String)
  | writeUsage (lease quota : List Scope)

def step (σ : Secrets) (cfg : Settings) (s : System) : Label → System
  | .tick elapsed => { s with clock := s.clock + elapsed }
  | .enroll r => s.commit (enrollPublicDevice σ cfg s.db s.clock s.drawn r)
  | .enrollAdditional p r => s.commit (enrollAdditionalDevice σ cfg s.db s.clock s.drawn p r)
  | .renew credential ttl => s.commit (renewPublicSession σ cfg s.db s.clock s.drawn credential ttl)
  | .rotate p currentCredential newCredential =>
    s.commit (rotateDeviceCredential σ cfg s.db s.clock s.drawn p currentCredential newCredential)
  | .claimLegacy p => s.commit (claimLegacyIdentity σ cfg s.db s.clock s.drawn p)
  | .revokeSession sessionId => s.commit (revokeSession s.db s.clock sessionId)
  | .revokeFamily p => s.commit (revokeSessionFamily s.db s.clock p)
  | .revokeDevice p currentCredential =>
    s.commit (revokeDevice σ s.db s.clock p currentCredential)
  | .cleanupExpired => s.commit (cleanupExpiredSessions s.db s.clock)
  | .cleanupOrphaned admissionPolicy =>
    s.commit (cleanupOrphanedEnrollments cfg s.db s.clock admissionPolicy)
  | .issueTicket p resourceType resourceId ttl =>
    s.commit (issueResourceTicket σ s.db s.clock s.drawn p resourceType resourceId ttl)
  | .createPairing device ttl => s.commit (createPairing σ s.db s.clock s.drawn device ttl)
  | .claimPairing pairingCode deviceId =>
    s.commit (claimPairing σ s.db s.clock s.drawn pairingCode deviceId)
  | .revokeSyncDevice device => s.commit (revokeSyncDevice s.db s.clock device)
  | .writeResource row => s.commit (writeResource s.db row)
  | .deleteResource table scope rowId => s.commit (deleteResource s.db table scope rowId)
  | .writeUsage lease quota => s.commit (writeUsage s.db lease quota)

end Sessions
