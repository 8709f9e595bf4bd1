import EchoDesk.Capabilities.Catalog

/-! # The network host

`NetworkHost.request` of `app/agent_capabilities/command_network_hosts.py`: a request is sent to
an address that its host has just resolved to, and each redirect goes through the checks again.
-/

namespace Capabilities

open EchoDesk

/-! ## What the host works with -/

/-- `HostInvocation`. -/
structure HostInvocation where
  grant : GrantSnapshot
  request : CapabilityRequest
  toolUseId : String
  grantRevision : Int

/-- What `urlsplit` makes of a URL; reading the port may raise `ValueError`. -/
structure UrlParts where
  scheme : String
  hostname : Option String
  username : Option String
  password : Option String
  port : Except Unit (Option Int)
  path : String
  query : String
  fragment : String

/-- `urllib.parse`; a URL may raise `ValueError`. -/
structure Urls where
  urlsplit : String → Option UrlParts
  /-- `urlunsplit` of a path and a query alone. -/
  urlunsplit : String → String → String
  urljoin : String → String → Option String

/-- A scheme, a host, a port and a path. -/
structure Target where
  scheme : String
  host : String
  port : Int
  path : String
deriving DecidableEq

/-- A call of the transport. -/
structure Call where
  method : String
  target : Target
  address : String
  headers : List (String × String)
  body : Option (List UInt8)
  timeoutSeconds : Nat
  maxBytes : Nat
deriving DecidableEq

/-- `NetworkResponse`. -/
structure NetworkResponse where
  status : Int
  headers : List (String × String)
  body : List UInt8

/-- What the resolver does: it answers, fails as name resolution fails, or raises something else. -/
inductive Resolution where
  | addresses (values : List String) | failed | raised

/-- What the transport does, in the same way. -/
inductive Reply where
  | response (response : NetworkResponse) | failed | raised

/-- The host's surroundings, at each hop; the clock is read once before the first hop, then once
in every hop. -/
structure Surroundings where
  revoked : Option (Nat → Bool)
  resolve : Nat → String → Int → Resolution
  transport : Nat → Call → Reply
  clock : Nat → Int

/-- The other arguments of `request`. -/
structure RequestOptions where
  method : String := "GET"
  path : String := "/"
  headers : List (String × String) := []
  body : Option (List UInt8) := none
  activePolicyRevision : Option Int := none

/-- `OperationReceipt`: what a network operation fills in. -/
structure OperationReceipt where
  capability : String
  taskId : String
  operationKey : String
  toolUseId : String
  grantId : String
  grantRevision : Int
  policyRevision : Int
  outcome : DecisionOutcome
  code : String
  phase : String
  targetDigest : Option String
  outputBytes : Nat
  redirectsVerified : Nat

structure HostResult where
  decision : CapabilityDecision
  receipt : OperationReceipt
  stdout : List UInt8 := []
  responseHeaders : List (String × String) := []

/-- A call of `request` returns a result, or an exception leaves it. -/
inductive Outcome where
  | returned (result : HostResult)
  | raised

/-- What the host does in a hop. -/
inductive Event where
  | revocation (answer : Bool)
  | resolution (host : String) (port : Int) (addresses : List String)
  | transport (call : Call)
deriving DecidableEq

/-! ## Decisions and receipts -/

/-- `_denied_decision`. -/
def deniedDecision (invocation : HostInvocation) (code : DenyCode) : CapabilityDecision where
  outcome := .deny
  code := code
  capability := invocation.request.capability
  taskId := invocation.request.binding.taskId
  operationKey := invocation.request.binding.operationKey
  workspaceIdentity := invocation.request.binding.workspaceIdentity
  grantId := some invocation.grant.grantId
  grantRevision := some invocation.grant.revision
  policyRevision := invocation.grant.policyRevision
  hostVerificationRequired := false

/-- `_receipt`. -/
def receipt (invocation : HostInvocation) (decision : CapabilityDecision) (phase : String)
    (code : Option String := none) (targetDigest : Option String := none) (outputBytes : Nat := 0)
    (redirectsVerified : Nat := 0) : OperationReceipt where
  capability := invocation.request.capability
  taskId := invocation.request.binding.taskId
  operationKey := invocation.request.binding.operationKey
  toolUseId := invocation.toolUseId
  grantId := invocation.grant.grantId
  grantRevision := invocation.grant.revision
  policyRevision := invocation.grant.policyRevision
  outcome := if decision.allowed ∧ code = none then .allow else .deny
  code := code.getD decision.code.value
  phase := phase
  targetDigest := targetDigest
  outputBytes := outputBytes
  redirectsVerified := redirectsVerified

section Host

variable (lib : Library) (urls : Urls)

/-- `_preflight`. -/
def preflight (invocation : HostInvocation) (now : Int) (activePolicyRevision : Option Int) :
    CapabilityDecision :=
  let grant := invocation.grant
  let binding := invocation.request.binding
  if invocation.toolUseId = "" ∨ ∃ c ∈ invocation.toolUseId.toList, c ∈ shellAmbiguous then
    deniedDecision invocation .toolCapabilityDenied
  else if invocation.grantRevision ≠ grant.revision then
    deniedDecision invocation .grantRevisionMismatch
  else if grant.taskId ≠ binding.taskId ∨ grant.operationKey ≠ binding.operationKey ∨
      grant.workspaceIdentity ≠ binding.workspaceIdentity ∨
      grant.policyRevision ≠ binding.policyRevision then
    deniedDecision invocation .grantBindingMismatch
  else evaluateCapability lib (some grant) invocation.request now activePolicyRevision

/-- `_P0_WORDS` without `install`. -/
def p0Words : List String := ["hook", "hooks", "home", "global"]

/-- `_p0_reason` of tokens, without environment names. -/
def p0Reason (tokens : List String) : Option String :=
  let lowered := tokens.map lib.casefold
  if ∃ token ∈ lowered, token ∈ ["~", "$home", "%userprofile%"] ∨
      ∃ front ∈ ["~/", "$home/", "%userprofile%"], front.toList <+: token.toList then
    some "HOME_DISCOVERY"
  else if ∃ token ∈ lowered, token ∈ ["--global", "-g"] then some "GLOBAL_CONFIG_OR_INSTALL"
  else if ∃ token ∈ lowered, "hook".toList <:+: token.toList then some "CLAUDE_HOOKS"
  else if ∃ first ∈ lowered.head?, "npm".toList <:+ first.toList ∧
      lowered.tail.head? = some "install" then some "RUNTIME_NPM_INSTALL"
  else if ∃ token ∈ lowered, token ∈ p0Words then some "GLOBAL_OR_HOME_DISCOVERY"
  else none

/-- `_is_public_address`. -/
def isPublicAddress (allowPrivate : Bool) (value : String) : Bool :=
  match lib.ipAddress value with
  | none => false
  | some address =>
    if allowPrivate then ¬ (address.isLoopback ∨ address.isLinkLocal ∨ address.isUnspecified ∨
      address.isMulticast)
    else ¬ (address.isPrivate ∨ address.isLoopback ∨ address.isLinkLocal ∨ address.isReserved ∨
      address.isUnspecified ∨ address.isMulticast)

/-- `_target_from_url`: no target, or an exception. -/
def targetFromUrl (url : String) : Except Unit (Option Target) :=
  match urls.urlsplit url with
  | none => .error ()
  | some parts =>
    if ¬ (parts.scheme = "http" ∨ parts.scheme = "https") ∨ parts.hostname.getD "" = "" ∨
        parts.username.getD "" ≠ "" ∨ parts.password.getD "" ≠ "" ∨ parts.fragment ≠ "" then
      .ok none
    else
      match parts.port with
      | .error () => .ok none
      | .ok port =>
        let byDefault := if parts.scheme = "https" then 443 else 80
        let path := urls.urlunsplit (if parts.path = "" then "/" else parts.path) parts.query
        if ∃ c ∈ path.toList, c = '\r' ∨ c = '\n' then .ok none
        else .ok (some ⟨parts.scheme, parts.hostname.getD "",
          if port.getD 0 = 0 then byDefault else port.getD 0, path⟩)

/-- `NetworkRequest(...)` of a hop, unless it is not valid. -/
def hopRequest (target : Target) (resolved : List String) : Option Catalog.NetworkRequest :=
  if isBounded 16 (lib.trim target.scheme) ∧ isBounded 512 (lib.trim target.host) ∧
      1 ≤ target.port ∧ target.port ≤ 65535 ∧
      ∀ address ∈ resolved, address ≠ "" ∧ '\x00' ∉ address.toList then
    some { scheme := lib.trim target.scheme
           host := lib.trim target.host
           port := target.port
           resolvedAddresses := some (resolved.map lib.trim) }
  else none

/-- `response.header(name)`. -/
def NetworkResponse.header (response : NetworkResponse) (name : String) : Option String :=
  (response.headers.find? fun field => lib.casefold field.1 = lib.casefold name).map Prod.snd

def maxRedirects : Nat := 5

/-- What a hop comes to. -/
inductive HopResult where
  | done (outcome : Outcome)
  | redirect (target : Target)

/-- `f"{scheme}://{host}:{port}{path}"`. -/
def Target.url (target : Target) : String :=
  target.scheme ++ "://" ++ target.host ++ ":" ++ toString target.port ++ target.path

/-- What is left of a hop once the transport has replied. -/
def afterReply (invocation : HostInvocation) (digest : String) (target : Target)
    (redirectsVerified maxBytes : Nat) (decision : CapabilityDecision) : Reply → HopResult
  | .raised => .done .raised
  | .failed =>
    let failed := deniedDecision invocation .toolNetworkDenied
    .done (.returned ⟨failed, receipt invocation failed "failed" (some "NETWORK_REQUEST_FAILED")
      (some digest) 0 redirectsVerified, [], []⟩)
  | .response response =>
    let failed := deniedDecision invocation .toolNetworkDenied
    let denied := fun code => HopResult.done (.returned ⟨failed, receipt invocation failed
      "redirect_denied" (some code) (some digest) 0 redirectsVerified, [], []⟩)
    if response.status ∉ [301, 302, 303, 307, 308] then
      let payload := response.body.take maxBytes
      .done (.returned ⟨decision, receipt invocation decision "completed" none (some digest)
        payload.length redirectsVerified, payload, response.headers⟩)
    else
      match response.header lib "location" with
      | none => denied "NETWORK_TARGET_INVALID"
      | some location =>
        if maxRedirects ≤ redirectsVerified then
          denied (if location = "" then "NETWORK_TARGET_INVALID" else "REDIRECT_LIMIT_EXCEEDED")
        else
          match urls.urljoin target.url location with
          | none => .done .raised
          | some url =>
            match targetFromUrl urls url with
            | .error () => .done .raised
            | .ok none => denied "NETWORK_TARGET_INVALID"
            | .ok (some next) => .redirect next

/-- What is left of a hop once its host is resolved. -/
def afterResolution (around : Surroundings) (invocation : HostInvocation) (options : RequestOptions)
    (digest : String) (target : Target) (redirectsVerified : Nat) (resolved : List String) :
    List Event × HopResult :=
  let grant := invocation.grant
  match resolved with
  | [] =>
    let denied := deniedDecision invocation .toolNetworkDenied
    ([], .done (.returned ⟨denied, receipt invocation denied "host_verification_denied"
      (some "NETWORK_TARGET_INVALID") (some digest) 0 redirectsVerified, [], []⟩))
  | address :: _ =>
    if ¬ ∀ value ∈ resolved, isPublicAddress lib grant.network.allowPrivateAddresses value then
      let denied := deniedDecision invocation .toolNetworkDenied
      ([], .done (.returned ⟨denied, receipt invocation denied "host_verification_denied"
        (some "NETWORK_TARGET_INVALID") (some digest) 0 redirectsVerified, [], []⟩))
    else
      match hopRequest lib target resolved with
      | none => ([], .done .raised)
      | some network =>
        let current := { invocation with
          request := { invocation.request with network := some network } }
        let decision := preflight lib current (around.clock (redirectsVerified + 1))
          options.activePolicyRevision
        if ¬ decision.allowed then
          ([], .done (.returned ⟨decision, receipt current decision "denied" none (some digest) 0
            redirectsVerified, [], []⟩))
        else
          let call : Call := ⟨options.method, target, address, options.headers, options.body,
            min grant.budget.wallSeconds 7200, grant.budget.maxToolOutputBytes⟩
          ([.transport call], afterReply lib urls current digest target redirectsVerified
            grant.budget.maxToolOutputBytes decision (around.transport redirectsVerified call))

/-- The resolver's answer, each address once. -/
def Resolution.resolved : Resolution → List String
  | .addresses values => values.eraseDups
  | _ => []

/-- What is left of a hop once it is not revoked. -/
def afterRevocation (around : Surroundings) (invocation : HostInvocation) (options : RequestOptions)
    (digest : String) (target : Target) (redirectsVerified : Nat) : List Event × HopResult :=
  match around.resolve redirectsVerified target.host target.port with
  | .raised => ([.resolution target.host target.port []], .done .raised)
  | answer =>
    let rest := afterResolution lib urls around invocation options digest target redirectsVerified
      answer.resolved
    (.resolution target.host target.port answer.resolved :: rest.1, rest.2)

/-- One round of the loop. -/
def hop (around : Surroundings) (invocation : HostInvocation) (options : RequestOptions)
    (digest : String) (target : Target) (redirectsVerified : Nat) : List Event × HopResult :=
  match around.revoked with
  | none => afterRevocation lib urls around invocation options digest target redirectsVerified
  | some revoked =>
    if revoked redirectsVerified then
      let cancelled := deniedDecision invocation .grantRevoked
      ([.revocation true], .done (.returned ⟨cancelled, receipt invocation cancelled "cancelled"
        (some "GRANT_REVOKED") (some digest) 0 redirectsVerified, [], []⟩))
    else
      let rest := afterRevocation lib urls around invocation options digest target redirectsVerified
      (.revocation false :: rest.1, rest.2)

/-- The loop, for some rounds: what was done in each, and the outcome if there is one. -/
def hops (around : Surroundings) (invocation : HostInvocation) (options : RequestOptions)
    (digest : String) : Nat → Target → Nat → List (List Event) × Option Outcome
  | 0, _, _ => ([], none)
  | rounds + 1, target, redirectsVerified =>
    match hop lib urls around invocation options digest target redirectsVerified with
    | (events, .done outcome) => ([events], some outcome)
    | (events, .redirect next) =>
      let rest := hops around invocation options digest rounds next (redirectsVerified + 1)
      (events :: rest.1, rest.2)

/-- What `request` refuses before the first hop, or the URL to start from and its target. -/
def admitted (around : Surroundings) (invocation : HostInvocation) (options : RequestOptions) :
    Except Outcome (String × Target) :=
  let decision := preflight lib invocation (around.clock 0) options.activePolicyRevision
  let denied := deniedDecision invocation .toolNetworkDenied
  let refuse := fun decision phase code digest => Except.error (Outcome.returned
    ⟨decision, receipt invocation decision phase code digest, [], []⟩)
  match invocation.request.network with
  | none => refuse decision "denied" none none
  | some network =>
    if ¬ decision.allowed ∧ decision.code ≠ .hostVerificationRequired then
      refuse decision "denied" none none
    else if invocation.grant.network.mode = .deny then refuse decision "denied" none none
    else if options.method = "" ∨ ∃ c ∈ options.method.toList, c ∈ shellAmbiguous then
      refuse denied "preflight_denied" none none
    else if ¬ ['/'] <+: options.path.toList ∨ ∃ c ∈ options.path.toList, c ∈ shellAmbiguous then
      refuse denied "preflight_denied" none none
    else if p0Reason lib [network.host, options.path] ≠ none then
      refuse denied "preflight_denied" (some "UNSUPPORTED_P0_FAIL_CLOSED") none
    else
      let url := Target.url ⟨network.scheme, network.host, network.port, options.path⟩
      match targetFromUrl urls url with
      | .error () => .error .raised
      | .ok none => refuse denied "host_verification_denied" none (some (lib.sha256 (lib.repr url)))
      | .ok (some target) => .ok (url, target)

/-- `NetworkHost.request`, for some rounds of its loop. -/
def networkRequest (around : Surroundings) (invocation : HostInvocation) (options : RequestOptions)
    (rounds : Nat) : List (List Event) × Option Outcome :=
  match admitted lib urls around invocation options with
  | .error outcome => ([], some outcome)
  | .ok (url, target) =>
    hops lib urls around invocation options (lib.sha256 (lib.repr url)) rounds target 0

end Host

end Capabilities
