import EchoDesk.Capabilities.Compiler

/-! # The capability catalog

`app/agent_capabilities/catalog.py`: a snapshot is bound to the workspace that a host has
observed, and a typed request is evaluated under a snapshot alone.
-/

namespace Capabilities

open EchoDesk

/-! ## Typed requests -/

namespace Catalog

/-- `PathRequest`. -/
structure PathRequest where
  path : String
  rootId : String
  hostVerified : Bool := false
  observedIdentity : Option String := none

/-- `CommandRequest`. -/
structure CommandRequest where
  argv : List String
  cwd : String
  envNames : List String := []
  shell : Bool := false
  executableIdentityVerified : Bool := false

structure Endpoint where
  scheme : String
  host : String
  port : Int

/-- `NetworkRequest`; of its redirect, the endpoint is read. -/
structure NetworkRequest extends Endpoint where
  resolvedAddresses : Option (List String) := none
  redirectTarget : Option Endpoint := none

/-- `SkillRequest`. -/
structure SkillRequest where
  identity : String
  version : String

end Catalog

structure InvocationBinding where
  taskId : String
  operationKey : String
  workspaceIdentity : WorkspaceIdentity
  policyRevision : Int

structure CapabilityRequest where
  capability : String
  binding : InvocationBinding
  path : Option Catalog.PathRequest := none
  command : Option Catalog.CommandRequest := none
  network : Option Catalog.NetworkRequest := none
  skill : Option Catalog.SkillRequest := none

/-! ## Decisions -/

inductive DenyCode where
  | allowed | grantMissing | grantExpired | grantRevoked | grantRevisionMismatch | grantStale
  | grantBindingMismatch | capabilityUnknown | toolCapabilityDenied | toolPathOutsideWorkspace
  | toolPathIdentityChanged | toolPathAmbiguous | toolCommandDenied | toolNetworkDenied
  | toolSkillDenied | hostVerificationRequired
deriving DecidableEq

def DenyCode.value : DenyCode → String
  | .allowed => "ALLOWED"
  | .grantMissing => "GRANT_MISSING"
  | .grantExpired => "GRANT_EXPIRED"
  | .grantRevoked => "GRANT_REVOKED"
  | .grantRevisionMismatch => "GRANT_REVISION_MISMATCH"
  | .grantStale => "GRANT_STALE"
  | .grantBindingMismatch => "GRANT_BINDING_MISMATCH"
  | .capabilityUnknown => "CAPABILITY_UNKNOWN"
  | .toolCapabilityDenied => "TOOL_CAPABILITY_DENIED"
  | .toolPathOutsideWorkspace => "TOOL_PATH_OUTSIDE_WORKSPACE"
  | .toolPathIdentityChanged => "TOOL_PATH_IDENTITY_CHANGED"
  | .toolPathAmbiguous => "TOOL_PATH_AMBIGUOUS"
  | .toolCommandDenied => "TOOL_COMMAND_DENIED"
  | .toolNetworkDenied => "TOOL_NETWORK_DENIED"
  | .toolSkillDenied => "TOOL_SKILL_DENIED"
  | .hostVerificationRequired => "HOST_VERIFICATION_REQUIRED"

inductive DecisionOutcome where
  | allow | deny
deriving DecidableEq

structure CapabilityDecision where
  outcome : DecisionOutcome
  code : DenyCode
  capability : String
  taskId : String
  operationKey : String
  workspaceIdentity : WorkspaceIdentity
  grantId : Option String
  grantRevision : Option Int
  policyRevision : Int
  hostVerificationRequired : Bool

def CapabilityDecision.allowed (d : CapabilityDecision) : Bool := d.outcome = .allow

/-- `_decision`. -/
def decision (request : CapabilityRequest) (code : DenyCode) (grant : Option GrantSnapshot)
    (hostVerificationRequired : Bool := false) : CapabilityDecision where
  outcome := if code = .allowed then .allow else .deny
  code := code
  capability := request.capability
  taskId := request.binding.taskId
  operationKey := request.binding.operationKey
  workspaceIdentity := request.binding.workspaceIdentity
  grantId := grant.map GrantSnapshot.grantId
  grantRevision := grant.map GrantSnapshot.revision
  policyRevision := (grant.map GrantSnapshot.policyRevision).getD request.binding.policyRevision
  hostVerificationRequired := hostVerificationRequired

/-! ## Paths -/

def slash (c : Char) : Char := if c = '\\' then '/' else c

/-- `_has_parent_segment`. -/
def hasParentSegment (path : String) : Bool :=
  ['.', '.'] ∈ (path.toList.map slash).splitOn '/'

/-- `^[A-Za-z]:/`. -/
def startsWithDrive : List Char → Bool
  | a :: b :: c :: _ => a.isAlpha ∧ b = ':' ∧ c = '/'
  | _ => false

/-- `_WINDOWS_PATH`. -/
def isWindowsPath (cs : List Char) : Bool := startsWithDrive cs ∨ ['/', '/'] <+: cs

/-- How many characters a path starts with that are not segments. -/
def prefixLength (cs : List Char) : Nat :=
  if ['/', '/'] <+: cs then 2
  else if startsWithDrive cs then 3
  else if ['/'] <+: cs then 1
  else 0

def pathParts (cs : List Char) : List (List Char) :=
  (cs.splitOn '/').filter fun part => part ≠ [] ∧ part ≠ ['.']

/-- `_normalise_path`. -/
def normalisePath (path : List Char) : List Char :=
  let cs := path.map slash
  cs.take (prefixLength cs) ++ ['/'].intercalate (pathParts (cs.drop (prefixLength cs)))

/-- `value.rstrip("/") or "/"`. -/
def chop (cs : List Char) : List Char :=
  let cs := (cs.reverse.dropWhile fun c => c = '/').reverse
  if cs = [] then ['/'] else cs

/-- A path as the catalog compares it. -/
def lexicalValue (path : String) : List Char := chop (normalisePath path.toList)

section Evaluate

variable (lib : Library)

/-- The comparison of `_is_lexically_within`. -/
def isValueWithin (root target : List Char) : Bool :=
  if isWindowsPath root ∨ isWindowsPath target then
    target.flatMap lib.foldChar = root.flatMap lib.foldChar ∨
      root.flatMap lib.foldChar ++ ['/'] <+: target.flatMap lib.foldChar
  else target = root ∨ root ++ ['/'] <+: target

/-- `_is_lexically_within`. -/
def isLexicallyWithin (root target : String) : Bool :=
  isValueWithin lib (lexicalValue root) (lexicalValue target)

/-! ## Binding a snapshot -/

/-- `VerifiedWorkspaceRoot`. -/
structure VerifiedWorkspaceRoot where
  rootId : String
  canonicalPath : String
  observedIdentity : String
  reparseIdentity : String
  reparseSafe : Bool := true

/-- `VerifiedWorkspaceBinding`. -/
structure VerifiedWorkspaceBinding where
  workspaceId : String
  workspaceIdentity : String
  roots : List VerifiedWorkspaceRoot

def unboundWorkspaceIdentities : List String := ["policy-facts", "host-verification-required"]

/-- The last of the values of a key, at the place of the first. -/
def keyed {α : Type} (key : α → String × String) : List α → List ((String × String) × α)
  | [] => []
  | a :: rest =>
    let later := keyed key rest
    (key a, ((later.find? fun entry => entry.1 = key a).map Prod.snd).getD a) ::
      later.filter fun entry => entry.1 ≠ key a

/-- One root of a snapshot, with what was observed of it. -/
def bindRoot (observed : List ((String × String) × VerifiedWorkspaceRoot))
    (entry : (String × String) × WorkspaceCapability) : Except String WorkspaceCapability :=
  match (observed.find? fun other => other.1 = entry.1).map Prod.snd with
  | none => .error "verified root set does not exactly match grant"
  | some verified =>
    if ¬ verified.reparseSafe then .error "workspace root reparse proof is unsafe"
    else if verified.observedIdentity ≠ verified.reparseIdentity then
      .error "workspace root identity changed across reparse verification"
    else if verified.observedIdentity = "" ∨
        verified.observedIdentity ∈ unboundWorkspaceIdentities then
      .error "workspace root identity is missing or a placeholder"
    else .ok { entry.2 with identity := verified.observedIdentity }

/-- The payload whose digest names a bound grant. -/
def bindingPayload (grant : GrantSnapshot) (evidence : VerifiedWorkspaceBinding) : Json :=
  .obj [("grant_id", .str grant.grantId), ("workspace_id", .str evidence.workspaceId),
    ("workspace_identity", .str evidence.workspaceIdentity),
    ("roots", .arr (evidence.roots.map fun root => .obj [("root_id", .str root.rootId),
      ("canonical_path", .str root.canonicalPath),
      ("observed_identity", .str root.observedIdentity),
      ("reparse_identity", .str root.reparseIdentity)]))]

/-- `bind_verified_workspace`. -/
def bindVerifiedWorkspace (grant : GrantSnapshot) (evidence : VerifiedWorkspaceBinding) :
    Except String GrantSnapshot := do
  if grant.workspaceIdentity.identity ∉ unboundWorkspaceIdentities then
    .error "grant is already host-bound"
  else if evidence.workspaceId ≠ grant.workspaceIdentity.workspaceId then
    .error "workspace_id does not match grant"
  else if evidence.workspaceIdentity = "" ∨
      evidence.workspaceIdentity ∈ unboundWorkspaceIdentities then
    .error "workspace identity is missing or still a placeholder"
  else
    let expected := keyed (fun root : WorkspaceCapability => (root.rootId, root.canonicalPath))
      grant.workspaceRoots
    let observed := keyed (fun root : VerifiedWorkspaceRoot => (root.rootId, root.canonicalPath))
      evidence.roots
    if observed.length ≠ evidence.roots.length ∨
        ¬ ((∀ entry ∈ expected, entry.1 ∈ observed.map Prod.fst) ∧
          ∀ entry ∈ observed, entry.1 ∈ expected.map Prod.fst) then
      .error "verified root set does not exactly match grant"
    else if ∃ root ∈ grant.workspaceRoots, root.identity ≠ "host-verification-required" then
      .error "grant root identity is not an unbound placeholder"
    else
      let roots ← expected.mapM (bindRoot observed)
      let suffix := ":verified:" ++
        lib.sha256 (lib.dumpsUnicode (Json.sortKeys (bindingPayload grant evidence)))
      let bound := { grant with
        grantId := slice (256 - suffix.length) grant.grantId ++ suffix
        workspaceIdentity := ⟨evidence.workspaceId, evidence.workspaceIdentity⟩
        workspaceRoots := roots }
      if bound.valid lib then .ok (bound.stripped lib) else .error lib.validationError

/-! ## Evaluating a request -/

def requiredRight : CapabilityName → PermissionRight
  | .pathRead => .read
  | .pathWrite => .write
  | _ => .delete

/-- `_evaluate_path`. -/
def evaluatePath (grant : GrantSnapshot) (request : CapabilityRequest)
    (capability : CapabilityName) : CapabilityDecision :=
  match request.path with
  | none => decision request .toolCapabilityDenied (some grant)
  | some target =>
    match grant.workspaceRoots.find? fun root => root.rootId = target.rootId with
    | none => decision request .toolPathOutsideWorkspace (some grant)
    | some root =>
      if requiredRight capability ∉ root.rights then
        decision request .toolPathOutsideWorkspace (some grant)
      else if hasParentSegment target.path ∨ '\x00' ∈ target.path.toList then
        decision request .toolPathAmbiguous (some grant)
      else if ¬ isLexicallyWithin lib root.canonicalPath target.path then
        decision request .toolPathOutsideWorkspace (some grant)
      else if ¬ target.hostVerified ∨ target.observedIdentity = none then
        decision request .hostVerificationRequired (some grant) true
      else if target.observedIdentity ≠ some root.identity then
        decision request .toolPathIdentityChanged (some grant)
      else decision request .allowed (some grant)

/-- `_evaluate_command`. -/
def evaluateCommand (grant : GrantSnapshot) (request : CapabilityRequest) : CapabilityDecision :=
  let denied := decision request .toolCommandDenied (some grant)
  match request.command with
  | none => denied
  | some target =>
    match target.argv with
    | [] => denied
    | executable :: _ =>
      if grant.command.mode = .deny ∨ target.shell then denied
      else if ∃ name ∈ target.envNames, name ∉ grant.command.allowedEnvNames then denied
      else if ∃ argument ∈ target.argv, ∃ pattern ∈ grant.command.deniedPatterns,
          lib.fnmatchcase argument pattern then denied
      else if grant.command.mode = .explicit ∧
          executable ∉ grant.command.allowedExecutables then denied
      else if grant.command.mode = .workspace ∧ ¬ ∃ root ∈ grant.workspaceRoots,
          isLexicallyWithin lib root.canonicalPath target.cwd then denied
      else if ¬ target.executableIdentityVerified then
        decision request .hostVerificationRequired (some grant) true
      else decision request .allowed (some grant)

/-- `_normalise_host`. -/
def normaliseHost (host : String) : String :=
  let host := lib.lower (String.ofList
    (((strip host).toList.reverse.dropWhile fun c => c = '.').reverse))
  (lib.idna host).getD host

/-- `_is_private_address`. -/
def isPrivateAddress (address : String) : Bool :=
  match lib.ipAddress address with
  | none => true
  | some address => address.isPrivate ∨ address.isLoopback ∨ address.isLinkLocal ∨
      address.isReserved ∨ address.isUnspecified ∨ address.isMulticast

/-- The endpoint is in the allowlist of the grant. -/
def NetworkCapability.lists (policy : NetworkCapability) (endpoint : Catalog.Endpoint) : Bool :=
  normaliseHost lib endpoint.host ∈ policy.hosts.map (normaliseHost lib) ∧
    lib.lower endpoint.scheme ∈ policy.schemes ∧ endpoint.port ∈ policy.ports

/-- `_evaluate_network`. -/
def evaluateNetwork (grant : GrantSnapshot) (request : CapabilityRequest) : CapabilityDecision :=
  let denied := decision request .toolNetworkDenied (some grant)
  match request.network with
  | none => denied
  | some target =>
    if grant.network.mode = .deny then denied
    else if ¬ grant.network.lists lib target.toEndpoint then denied
    else
      match target.resolvedAddresses with
      | none => decision request .hostVerificationRequired (some grant) true
      | some addresses =>
        if ¬ grant.network.allowPrivateAddresses ∧
            ∃ address ∈ addresses, isPrivateAddress lib address then denied
        else
          match target.redirectTarget with
          | some redirect =>
            if ¬ grant.network.lists lib redirect then denied
            else decision request .hostVerificationRequired (some grant) true
          | none => decision request .allowed (some grant)

/-- `_evaluate_skill`. -/
def evaluateSkill (grant : GrantSnapshot) (request : CapabilityRequest) : CapabilityDecision :=
  let denied := decision request .toolSkillDenied (some grant)
  match request.skill with
  | none => denied
  | some target =>
    if grant.skills.mode = .deny then denied
    else if target.identity ∉ grant.skills.identities ∨
        target.version ∉ grant.skills.versions then denied
    else decision request .allowed (some grant)

/-- `evaluate_capability`, at a moment. -/
def evaluateCapability (grant : Option GrantSnapshot) (request : CapabilityRequest) (now : Int)
    (activePolicyRevision : Option Int := none) : CapabilityDecision :=
  match CapabilityName.ofValue? request.capability with
  | none => decision request .capabilityUnknown none
  | some name =>
    match grant with
    | none => decision request .grantMissing none
    | some grant =>
      if grant.taskId ≠ request.binding.taskId ∨
          grant.operationKey ≠ request.binding.operationKey then
        decision request .grantBindingMismatch (some grant)
      else if grant.workspaceIdentity ≠ request.binding.workspaceIdentity then
        decision request .grantBindingMismatch (some grant)
      else if grant.policyRevision ≠ request.binding.policyRevision then
        decision request .grantRevisionMismatch (some grant)
      else if ∃ revision ∈ activePolicyRevision, grant.policyRevision ≠ revision then
        decision request .grantStale (some grant)
      else if grant.expiresAt ≤ now then decision request .grantExpired (some grant)
      else
        match name with
        | .pathRead | .pathWrite | .pathDelete => evaluatePath lib grant request name
        | .commandExecute => evaluateCommand lib grant request
        | .networkConnect => evaluateNetwork lib grant request
        | .skillUse => evaluateSkill grant request
        | _ => decision request .toolCapabilityDenied (some grant)

end Evaluate

/-! ## What evaluation allows -/

section Allowed

variable {lib : Library} {grant : GrantSnapshot} {request : CapabilityRequest} {now : Int}
  {revision : Option Int}

theorem decision_allowed {code : DenyCode} {grant : Option GrantSnapshot} {verify : Bool} :
    (decision request code grant verify).allowed = true ↔ code = .allowed := by
  unfold decision CapabilityDecision.allowed
  by_cases hcode : code = .allowed
  · simp [hcode]
  · simp [hcode]

theorem evaluatePath_allowed {name : CapabilityName}
    (h : (evaluatePath lib grant request name).allowed = true) :
    ∃ target root, request.path = some target ∧ root ∈ grant.workspaceRoots ∧
      requiredRight name ∈ root.rights ∧ hasParentSegment target.path = false ∧
      isLexicallyWithin lib root.canonicalPath target.path = true := by
  unfold evaluatePath at h
  split at h
  · cases decision_allowed.1 h
  rename_i target htarget
  split at h
  · cases decision_allowed.1 h
  rename_i root hroot
  split at h
  · cases decision_allowed.1 h
  rename_i hright
  split at h
  · cases decision_allowed.1 h
  rename_i hdots
  split at h
  · cases decision_allowed.1 h
  rename_i hwithin
  rw [not_not] at hright hwithin
  rw [not_or, Bool.not_eq_true] at hdots
  exact ⟨target, root, htarget, List.mem_of_find?_eq_some hroot, hright, hdots.1, hwithin⟩

theorem evaluateCommand_allowed (h : (evaluateCommand lib grant request).allowed = true) :
    ∃ target executable arguments, request.command = some target ∧
      target.argv = executable :: arguments ∧
      (grant.command.mode = .explicit → executable ∈ grant.command.allowedExecutables) ∧
      grant.command.mode ≠ .deny ∧
      ∀ name ∈ target.envNames, name ∈ grant.command.allowedEnvNames := by
  unfold evaluateCommand at h
  split at h
  · cases decision_allowed.1 h
  rename_i target htarget
  split at h
  · cases decision_allowed.1 h
  rename_i executable arguments hargv
  split at h
  · cases decision_allowed.1 h
  rename_i hmode
  split at h
  · cases decision_allowed.1 h
  rename_i hnames
  split at h
  · cases decision_allowed.1 h
  split at h
  · cases decision_allowed.1 h
  rename_i hexecutable
  rw [not_or] at hmode
  refine ⟨target, executable, arguments, htarget, hargv, ?_, hmode.1, ?_⟩
  · intro hexplicit
    by_contra hnot
    exact hexecutable ⟨hexplicit, hnot⟩
  · intro name hname
    by_contra hnot
    exact hnames ⟨name, hname, hnot⟩

theorem evaluateNetwork_allowed (h : (evaluateNetwork lib grant request).allowed = true) :
    ∃ target, request.network = some target ∧ grant.network.lists lib target.toEndpoint = true := by
  unfold evaluateNetwork at h
  split at h
  · cases decision_allowed.1 h
  rename_i target htarget
  split at h
  · cases decision_allowed.1 h
  split at h
  · cases decision_allowed.1 h
  rename_i hlists
  rw [not_not] at hlists
  exact ⟨target, htarget, hlists⟩

theorem evaluateSkill_allowed (h : (evaluateSkill grant request).allowed = true) :
    ∃ target, request.skill = some target ∧ target.identity ∈ grant.skills.identities ∧
      target.version ∈ grant.skills.versions := by
  unfold evaluateSkill at h
  split at h
  · cases decision_allowed.1 h
  rename_i target htarget
  split at h
  · cases decision_allowed.1 h
  split at h
  · cases decision_allowed.1 h
  rename_i hlists
  rw [not_or, not_not, not_not] at hlists
  exact ⟨target, htarget, hlists.1, hlists.2⟩

/-- The capability of a request, with the evaluator that allowed it. -/
inductive Evaluated (lib : Library) (grant : GrantSnapshot) (request : CapabilityRequest) :
    CapabilityName → Prop
  | path {name : CapabilityName} (hname : name ∈ [.pathRead, .pathWrite, .pathDelete])
      (h : (evaluatePath lib grant request name).allowed = true) : Evaluated lib grant request name
  | command (h : (evaluateCommand lib grant request).allowed = true) :
      Evaluated lib grant request .commandExecute
  | network (h : (evaluateNetwork lib grant request).allowed = true) :
      Evaluated lib grant request .networkConnect
  | skill (h : (evaluateSkill grant request).allowed = true) : Evaluated lib grant request .skillUse

theorem evaluateCapability_allowed
    (h : (evaluateCapability lib (some grant) request now revision).allowed = true) :
    now < grant.expiresAt ∧ ∃ name, CapabilityName.ofValue? request.capability = some name ∧
      Evaluated lib grant request name := by
  unfold evaluateCapability at h
  split at h
  · cases decision_allowed.1 h
  rename_i name hname
  dsimp only at h
  split at h
  · cases decision_allowed.1 h
  split at h
  · cases decision_allowed.1 h
  split at h
  · cases decision_allowed.1 h
  split at h
  · cases decision_allowed.1 h
  split at h
  · cases decision_allowed.1 h
  refine ⟨by omega, name, hname, ?_⟩
  cases name with
  | commandExecute => exact .command h
  | networkConnect => exact .network h
  | skillUse => exact .skill h
  | artifactPublish | secretHandleUse => cases decision_allowed.1 h
  | _ => exact .path (by decide) h

end Allowed

end Capabilities
