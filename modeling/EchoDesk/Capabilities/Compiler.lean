import EchoDesk.Capabilities.Policy
import Mathlib.Data.Prod.Lex
import Mathlib.Data.String.Basic

/-! # The grant compiler

`app/agent_capabilities/compiler.py`: permission facts are compiled into rules and into the
public snapshot of a grant, and a request is decided on the rules.
-/

namespace Capabilities

open EchoDesk

/-! ## Facts -/

/-- The scope of a fact: what the normalizer of its capability reads, absent when it is not
there. -/
structure RawScope where
  roots : Option (List (String × String)) := none
  argv : List String := []
  cwd : String := ""
  envNames : List String := []
  platform : String := ""
  target : RawTarget := ⟨"", "", none, []⟩
  allowedRedirects : List RawTarget := []
  identity : Option String := none
  version : Option String := none
  provenance : String := ""

/-- A request, in the same way. -/
structure RawRequest where
  path : String := ""
  platform : String := ""
  argv : List String := []
  cwd : String := ""
  envNames : List String := []
  target : RawTarget := ⟨"", "", none, []⟩
  redirects : List RawTarget := []
  identity : Option String := none
  version : Option String := none
  provenance : String := ""

structure CapabilityFact where
  capability : String
  scope : RawScope
  effect : String := "allow"

/-- `PermissionFacts`; a moment is in microseconds. -/
structure PermissionFacts where
  revision : Int
  capabilities : List CapabilityFact
  issuedAt : Option Int := none
  expiresAt : Option Int := none
  stale : Bool := false

inductive Effect where
  | allow | deny
deriving DecidableEq

def Effect.value : Effect → String
  | .allow => "allow"
  | .deny => "deny"

/-- `CompiledCapability`: a rule. -/
structure CompiledCapability where
  capability : CapabilityName
  effect : Effect
  scope : Scope
deriving DecidableEq

/-! ## The public snapshot -/

inductive PermissionRight where
  | read | write | create | delete
deriving DecidableEq

inductive CapabilityMode where
  | deny | workspace | explicit | allowlist
deriving DecidableEq

structure WorkspaceIdentity where
  workspaceId : String
  identity : String
deriving DecidableEq

/-- A workspace root of a snapshot. -/
structure WorkspaceCapability where
  rootId : String
  canonicalPath : String
  identity : String
  rights : List PermissionRight

structure CommandCapability where
  mode : CapabilityMode
  allowedExecutables : List String
  deniedPatterns : List String
  allowedEnvNames : List String

structure NetworkCapability where
  mode : CapabilityMode
  hosts : List String
  schemes : List String
  ports : List Int
  allowPrivateAddresses : Bool

structure SkillCapability where
  mode : CapabilityMode
  identities : List String
  versions : List String

/-- `AgentResourceBudget`: what the hosts read of it. -/
structure AgentResourceBudget where
  wallSeconds : Nat := 1800
  maxToolOutputBytes : Nat := 67108864

structure GrantSnapshot where
  grantId : String
  revision : Int
  policyRevision : Int
  taskId : String
  operationKey : String
  workspaceIdentity : WorkspaceIdentity
  issuedAt : Int
  expiresAt : Int
  workspaceRoots : List WorkspaceCapability
  command : CommandCapability
  network : NetworkCapability
  skills : SkillCapability
  budget : AgentResourceBudget := {}

/-! ## Normal scopes -/

section Compile

variable (lib : Library)

/-- The texts of a model are stripped. -/
def GrantSnapshot.stripped (g : GrantSnapshot) : GrantSnapshot :=
  { g with
    taskId := lib.trim g.taskId
    operationKey := lib.trim g.operationKey
    workspaceIdentity := ⟨lib.trim g.workspaceIdentity.workspaceId, g.workspaceIdentity.identity⟩
    workspaceRoots := g.workspaceRoots.map fun root =>
      { root with canonicalPath := lib.trim root.canonicalPath }
    command := { g.command with
      allowedExecutables := g.command.allowedExecutables.map lib.trim
      allowedEnvNames := g.command.allowedEnvNames.map lib.trim }
    network := { g.network with hosts := g.network.hosts.map lib.trim }
    skills := { g.skills with
      identities := g.skills.identities.map lib.trim
      versions := g.skills.versions.map lib.trim } }

/-- A text of a model that is not blank, of at most this length. -/
def isBounded (limit : Nat) (text : String) : Bool :=
  text ≠ "" ∧ text.length ≤ limit ∧ '\x00' ∉ text.toList

/-- What the validators of a snapshot check of a compiled one. -/
def GrantSnapshot.valid (g : GrantSnapshot) : Bool :=
  isBounded 256 (lib.trim g.taskId) ∧ isBounded 256 (lib.trim g.operationKey) ∧
    (∀ root ∈ g.workspaceRoots, isBounded 4096 (lib.trim root.canonicalPath)) ∧
    (∀ host ∈ g.network.hosts, host ≠ "" ∧ '\x00' ∉ host.toList) ∧ g.issuedAt < g.expiresAt

/-- `_normalize_scope`. -/
def normalizeScope (capability : CapabilityName) (scope : RawScope) :
    Except PolicyInputError Scope :=
  match capability with
  | .pathRead | .pathWrite => do return .path (← normalizePathScope scope.roots)
  | .commandExecute => do
    return .command (← normalizeCommandScope scope.argv scope.cwd scope.envNames scope.platform)
  | .networkConnect => do
    let target ← normalizeNetworkTarget lib scope.target
    let redirects ← scope.allowedRedirects.mapM (normalizeNetworkTarget lib)
    return .network ⟨target, redirects⟩
  | .skillUse => do
    return .skill (← normalizeSkillScope scope.identity scope.version scope.provenance)
  | _ => .error ⟨.unknownCapability, "no scope normalizer for " ++ capability.value⟩

/-- `_normalize_request`. -/
def normalizeRequest (capability : CapabilityName) (request : RawRequest) :
    Except PolicyInputError Request :=
  match capability with
  | .pathRead | .pathWrite => do
    return .path (← normalizePathRequest request.path request.platform)
  | .commandExecute => do
    return .command
      (← normalizeCommandScope request.argv request.cwd request.envNames request.platform)
  | .networkConnect => do
    let target ← normalizeNetworkTarget lib request.target
    let redirects ← request.redirects.mapM (normalizeNetworkTarget lib)
    return .network ⟨target, redirects⟩
  | .skillUse => do
    return .skill (← normalizeSkillScope request.identity request.version request.provenance)
  | _ => .error ⟨.unknownCapability, "no request normalizer for " ++ capability.value⟩

/-- `_evaluate_rule`. -/
def evaluateRule (capability : CapabilityName) : Scope → Request → Decision
  | .path roots, .path request =>
    if ∃ root ∈ roots, pathIsWithinRoot lib root request then allow capability (.path request)
    else failure .pathOutsideRoot "path is outside every granted root" (some capability)
  | .command scope, .command request =>
    if commandIsAuthorized scope request then allow capability (.command request)
    else failure .commandNotAuthorized "argv, cwd, or env names differ" (some capability)
  | .network scope, .network request => networkIsAuthorized scope request
  | .skill scope, .skill request => skillIsAuthorized scope request
  | _, _ => failure .unknownCapability "unsupported capability" (some capability)

/-- `_scope_matches`. -/
def scopeMatches (capability : CapabilityName) (scope : Scope) (request : Request) : Bool :=
  (evaluateRule lib capability scope request).allowed

/-! ## Conflicts -/

/-- `_scopes_overlap`. -/
def scopesOverlap : Scope → Scope → Except PolicyInputError Bool
  | .path left, .path right =>
    left.anyM fun a => right.anyM fun b => do
      if ← pathTextIsWithinRoot lib a b.root then return true
      else pathTextIsWithinRoot lib b a.root
  | .command left, .command right =>
    .ok (left.platform = right.platform ∧ left.argv = right.argv ∧ left.cwd = right.cwd ∧
      ((∃ name ∈ left.envNames, name ∈ right.envNames) ∨ left.envNames = [] ∨ right.envNames = []))
  | .network left, .network right => .ok (left.target = right.target)
  | .skill left, .skill right => .ok (left.identity = right.identity ∧ left.version = right.version)
  | _, _ => .ok true

/-- Two rules of one capability, one that allows and one that denies, overlap. -/
def conflicting (left right : CompiledCapability) : Except PolicyInputError Bool :=
  if left.capability ≠ right.capability ∨ left.effect = right.effect then .ok false
  else scopesOverlap lib left.scope right.scope

/-- The first of the rules that a rule conflicts with. -/
def findConflictWith (left : CompiledCapability) :
    List CompiledCapability → Except PolicyInputError (Option String)
  | [] => .ok none
  | right :: rest => do
    if ← conflicting lib left right then
      return some ("conflicting " ++ left.capability.value ++ " scopes have effects " ++
        lib.repr left.effect.value ++ " and " ++ lib.repr right.effect.value)
    else findConflictWith left rest

/-- `_find_conflict`. -/
def findConflict : List CompiledCapability → Except PolicyInputError (Option String)
  | [] => .ok none
  | left :: rest => do
    match ← findConflictWith lib left rest with
    | some conflict => return some conflict
    | none => findConflict rest

/-! ## Compiling facts -/

/-- `_network_needs_host_verification`. -/
def needsHostVerification : Scope → Bool
  | .network scope => scope.target.hostVerificationRequired ∨
      ∃ redirect ∈ scope.allowedRedirects, redirect.hostVerificationRequired
  | _ => false

/-- `_normalize_effect`. -/
def normalizeEffect (effect : String) : Except PolicyInputError Effect :=
  if effect = "allow" then .ok .allow
  else if effect = "deny" then .ok .deny
  else .error ⟨.conflictingScope, "effect must be allow or deny"⟩

/-- The failure that a `PolicyInputError` becomes. -/
def orFail {α : Type} : Except PolicyInputError α → Except Decision α
  | .ok a => .ok a
  | .error e => .error (failure e.reasonCode e.detail)

/-- One round of the loop of `compile_grant`: the rule of a fact, unless its capability is not
requested. -/
def compileFact (required : Option (List CapabilityName)) (fact : CapabilityFact) :
    Except Decision (Option CompiledCapability) := do
  let capability ← orFail (canonicalCapability lib fact.capability)
  if ∃ names ∈ required, capability ∉ names then return none
  else
    let scope ← orFail (normalizeScope lib capability fact.scope)
    let effect ← orFail (normalizeEffect fact.effect)
    if needsHostVerification scope then
      .error ⟨.hostVerificationRequired, .ambiguousInput, some capability,
        "network grant requires caller-supplied public resolution evidence", none⟩
    else return some ⟨capability, effect, scope⟩

/-- The loop of `compile_grant`. -/
def compileFacts (required : Option (List CapabilityName)) :
    List CapabilityFact → Except Decision (List CompiledCapability)
  | [] => .ok []
  | fact :: facts => do
    let rule ← compileFact lib required fact
    let rules ← compileFacts required facts
    return rule.toList ++ rules

def canonicalTarget (target : NetworkTarget) : String :=
  lib.dumps (.arr [.str target.scheme, .str target.host, .int target.port,
    .arr (target.verifiedIps.map .str)])

/-- `_canonical`. -/
def canonical : Scope → String
  | .path roots => lib.dumps (.obj [("roots", .arr (roots.map fun root =>
      .arr [.str root.platform.value, .str root.root]))])
  | .command scope => lib.dumps (.obj [("platform", .str scope.platform.value),
      ("argv", .arr (scope.argv.map .str)), ("cwd", .str scope.cwd),
      ("env_names", .arr (scope.envNames.map .str))])
  | .network scope => lib.dumps (.obj [("target", .str (canonicalTarget lib scope.target)),
      ("redirects", .arr (scope.allowedRedirects.map fun target =>
        .str (canonicalTarget lib target)))])
  | .skill scope => lib.dumps (.arr [.str scope.identity, .str scope.version,
      .str scope.provenance])

/-- `(capability, effect, _canonical(scope))`. -/
def sortKey (rule : CompiledCapability) : Lex (String × Lex (String × String)) :=
  toLex (rule.capability.value, toLex (rule.effect.value, canonical lib rule.scope))

/-- The rules in the order of a grant. -/
def sortRules (rules : List CompiledCapability) : List CompiledCapability :=
  rules.insertionSort fun a b => sortKey lib a ≤ sortKey lib b

/-! ## The projection -/

def sortedTexts (texts : List String) : List String :=
  texts.dedup.insertionSort fun a b => a ≤ b

/-- The scopes that the rules allow for a capability. -/
def allowedScopes (rules : List CompiledCapability) (capability : CapabilityName) : List Scope :=
  (rules.filter fun rule => rule.effect = .allow ∧ rule.capability = capability).map
    CompiledCapability.scope

def Scope.roots : Scope → List PathRoot
  | .path roots => roots
  | _ => []

def Scope.command? : Scope → Option CommandScope
  | .command scope => some scope
  | _ => none

def Scope.network? : Scope → Option NetworkScope
  | .network scope => some scope
  | _ => none

def Scope.skill? : Scope → Option SkillScope
  | .skill scope => some scope
  | _ => none

/-- The roots of the allowed paths of a right. -/
def allowedRoots (rules : List CompiledCapability) (capability : CapabilityName) : List PathRoot :=
  (allowedScopes rules capability).flatMap Scope.roots

def workspaceRoots (rules : List CompiledCapability) : List WorkspaceCapability :=
  let read := allowedRoots rules .pathRead
  let write := allowedRoots rules .pathWrite
  ((read ++ write).dedup.insertionSort fun a b => a.le b).map fun root => {
    rootId := "root_" ++ slice 16 (lib.sha256 (root.platform.value ++ ":" ++ root.root))
    canonicalPath := root.root
    identity := "host-verification-required"
    rights := (if root ∈ read then [.read] else []) ++ if root ∈ write then [.write] else [] }

/-- `_grant_id`. -/
def grantId (facts : PermissionFacts) (taskId : String) (rules : List CompiledCapability) :
    String :=
  let expiresAt : Json := match facts.expiresAt with
    | some time => .str (lib.isoformat time)
    | none => .null
  let capabilities := rules.map fun rule =>
    Json.arr [.str rule.capability.value, .str rule.effect.value, .str (canonical lib rule.scope)]
  "grant_" ++ slice 32 (lib.sha256 (lib.dumps (Json.sortKeys (.obj [("schema_version", .int 1),
    ("task_id", .str taskId), ("revision", .int facts.revision), ("expires_at", expiresAt),
    ("capabilities", .arr capabilities)]))))

/-- `datetime.max` in UTC. -/
def maxTime : Int := 253402300799999999

/-- What `_public_grant` hands to the snapshot model. -/
def grantInput (facts : PermissionFacts) (taskId : String) (rules : List CompiledCapability) :
    GrantSnapshot :=
  let commands := (allowedScopes rules .commandExecute).filterMap Scope.command?
  let networks := (allowedScopes rules .networkConnect).filterMap Scope.network?
  let skills := (allowedScopes rules .skillUse).filterMap Scope.skill?
  let executables := sortedTexts (commands.filterMap fun scope => scope.argv.head?)
  let hosts := sortedTexts (networks.map fun scope => scope.target.host)
  let identities := sortedTexts (skills.map fun scope => scope.identity)
  { grantId := grantId lib facts taskId rules
    revision := facts.revision
    policyRevision := facts.revision
    taskId := taskId
    operationKey := taskId ++ ":capability-policy"
    workspaceIdentity := ⟨taskId, "policy-facts"⟩
    issuedAt := facts.issuedAt.getD 0
    expiresAt := facts.expiresAt.getD maxTime
    workspaceRoots := workspaceRoots lib rules
    command := {
      mode := if executables = [] then .deny else .explicit
      allowedExecutables := executables
      deniedPatterns := []
      allowedEnvNames := sortedTexts (commands.flatMap fun scope => scope.envNames) }
    network := {
      mode := if hosts = [] then .deny else .allowlist
      hosts := hosts
      schemes := sortedTexts (networks.map fun scope => scope.target.scheme)
      ports := (networks.map fun scope => scope.target.port).dedup.insertionSort (· ≤ ·)
      allowPrivateAddresses := false }
    skills := {
      mode := if identities = [] then .deny else .allowlist
      identities := identities
      versions := sortedTexts (skills.map fun scope => scope.version) } }

/-- `_public_grant`. -/
def publicGrant (facts : PermissionFacts) (taskId : String) (rules : List CompiledCapability) :
    Except Decision GrantSnapshot :=
  let grant := grantInput lib facts taskId rules
  if grant.valid lib then .ok (grant.stripped lib)
  else .error (failure .invalidInput lib.validationError)

/-! ## `compile_grant` and `decide` -/

/-- A `CompileResult` that is allowed. -/
structure Compiled where
  grant : GrantSnapshot
  rules : List CompiledCapability

/-- The arguments of `compile_grant` besides the facts. -/
structure CompileOptions where
  taskId : String
  expectedRevision : Option Int := none
  now : Option Int := none
  requestedCapabilities : Option (List String) := none

/-- What `compile_grant` checks before it reads the facts. -/
def checkFacts (facts : PermissionFacts) (options : CompileOptions) : Except Decision Unit :=
  if options.taskId = "" ∨ ∃ c ∈ options.taskId.toList, c ∈ shellAmbiguous then
    .error (failure .invalidInput "task_id is not canonical")
  else if facts.revision ≤ 0 then
    .error (failure .staleRevision "grant revision must be positive")
  else if ∃ expected ∈ options.expectedRevision, facts.revision ≠ expected then
    .error (failure .staleRevision "grant revision does not match the expected revision")
  else if facts.stale then
    .error (failure .staleRevision "permission facts are marked stale")
  else
    match facts.expiresAt with
    | none => .ok ()
    | some expiresAt =>
      match options.now with
      | none => .error
          (failure .revisionFreshnessUnverified "explicit now is required for expiring facts")
      | some now =>
        if expiresAt ≤ now then
          .error (failure .expiredRevision "permission facts have expired")
        else .ok ()

/-- `_normalize_requested_capabilities`. -/
def requiredCapabilities (requested : Option (List String)) :
    Except PolicyInputError (Option (List CapabilityName)) :=
  match requested with
  | none => .ok none
  | some names => do return some (← names.mapM (canonicalCapability lib))

/-- `compile_grant`: what is allowed, or the decision that it is not. -/
def compileGrant (facts : PermissionFacts) (options : CompileOptions) : Except Decision Compiled := do
  checkFacts facts options
  let required ← orFail (requiredCapabilities lib options.requestedCapabilities)
  let compiled ← compileFacts lib required facts.capabilities
  match ← orFail (findConflict lib compiled) with
  | some conflict => .error (failure .conflictingScope conflict)
  | none =>
    let rules := sortRules lib compiled
    let grant ← publicGrant lib facts options.taskId rules
    return ⟨grant, rules⟩

/-- `_reason_for_capability`. -/
def reasonForCapability : CapabilityName → ReasonCode
  | .pathRead | .pathWrite => .pathOutsideRoot
  | .commandExecute => .commandNotAuthorized
  | .networkConnect => .networkNotAuthorized
  | .skillUse => .skillNotAuthorized
  | _ => .unknownCapability

/-- The allow rules of `_decide_with_rules`, in their order. -/
def decideAllow (capability : CapabilityName) (request : Request) :
    List CompiledCapability → Option Decision → Decision
  | [], failed => failed.getD (failure (reasonForCapability capability)
      "request is outside immutable grant scope" (some capability))
  | rule :: rules, failed =>
    if rule.effect ≠ .allow then decideAllow capability request rules failed
    else
      let decision := evaluateRule lib capability rule.scope request
      if decision.allowed ∨ decision.status = .hostVerificationRequired then decision
      else decideAllow capability request rules (some decision)

/-- `_decide_with_rules`. -/
def decideWithRules (rules : List CompiledCapability) (capability : CapabilityName)
    (request : RawRequest) : Decision :=
  match normalizeRequest lib capability request with
  | .error e => failure e.reasonCode e.detail (some capability)
  | .ok request =>
    let matching := rules.filter fun rule => rule.capability = capability
    if matching = [] then
      failure (reasonForCapability capability) "no matching capability in immutable grant"
        (some capability)
    else if ∃ rule ∈ matching, rule.effect = .deny ∧
        scopeMatches lib capability rule.scope request then
      failure (reasonForCapability capability) "explicit deny rule matched" (some capability)
    else decideAllow lib capability request matching none

/-- `_check_grant_freshness`. -/
def checkGrantFreshness (grant : GrantSnapshot) (expectedRevision now : Option Int) :
    Option Decision :=
  if ∃ expected ∈ expectedRevision, grant.revision ≠ expected then
    some (failure .staleRevision "grant revision does not match the expected revision")
  else
    match now with
    | none => some
        (failure .revisionFreshnessUnverified "explicit now is required for expiring grants")
    | some now =>
      if grant.expiresAt ≤ now then some (failure .expiredRevision "grant has expired") else none

/-- What a request is decided on. -/
inductive Source where
  | result (result : Except Decision Compiled)
  | grant (grant : GrantSnapshot)
  | facts (facts : PermissionFacts)

/-- `decide`. -/
def decide (source : Source) (capability : String) (request : RawRequest)
    (expectedRevision : Option Int := none) (now : Option Int := none)
    (taskId : String := "decision-only") : Decision :=
  match canonicalCapability lib capability with
  | .error e => failure e.reasonCode e.detail
  | .ok capability =>
    match source with
    | .result (.error decision) => decision
    | .result (.ok compiled) =>
      (checkGrantFreshness compiled.grant expectedRevision now).getD
        (decideWithRules lib compiled.rules capability request)
    | .grant grant =>
      (checkGrantFreshness grant expectedRevision now).getD
        (failure .invalidInput "direct public snapshots require typed catalog requests")
    | .facts facts =>
      match compileGrant lib facts ⟨taskId, expectedRevision, now, none⟩ with
      | .error decision => decision
      | .ok compiled => decideWithRules lib compiled.rules capability request

end Compile

end Capabilities
