import EchoDesk.Core.Python
import EchoDesk.Foundations.LexicalPath
import Mathlib.Data.List.Sort

/-! # Policy primitives

`app/agent_capabilities/policy.py`: the normal forms of scopes and requests, and when a scope
authorizes a request. Nothing here looks at a host.
-/

namespace Capabilities

open EchoDesk LexicalPath List JsonText

/-- A quantifier over the characters of a text runs along the text, not through all of `Char`. -/
scoped instance (priority := 10000) decidableForallMemChars (p : Char → Prop) [DecidablePred p]
    (cs : List Char) : Decidable (∀ c ∈ cs, p c) := List.decidableBAll p cs

scoped instance (priority := 10000) decidableExistsMemChars (p : Char → Prop) [DecidablePred p]
    (cs : List Char) : Decidable (∃ c ∈ cs, p c) := List.decidableBEx p cs

/-! ## The library -/

/-- What `ipaddress` says of an address. -/
structure IpAddress where
  compressed : String
  isGlobal : Bool
  isPrivate : Bool
  isLoopback : Bool
  isLinkLocal : Bool
  isReserved : Bool
  isUnspecified : Bool
  isMulticast : Bool

/-- The library functions that are not defined here. -/
structure Library where
  lower : String → String
  /-- What `casefold` makes of a character. -/
  foldChar : Char → List Char
  /-- `text.encode("idna").decode("ascii")`. -/
  idna : String → Option String
  /-- `ipaddress.ip_address`. -/
  ipAddress : String → Option IpAddress
  /-- `sha256(text.encode()).hexdigest()`. -/
  sha256 : String → String
  /-- `json.dumps(value, separators=(",", ":"))`. -/
  dumps : Json → String
  /-- The same with `ensure_ascii=False`. -/
  dumpsUnicode : Json → String
  repr : String → String
  /-- `datetime.isoformat()`. -/
  isoformat : Int → String
  fnmatchcase : String → String → Bool
  /-- What pydantic leaves of a text whose surrounding whitespace it strips. -/
  trim : String → String
  /-- What pydantic says of a model that is not valid. -/
  validationError : String
  dumps_injective : Function.Injective dumps
  trim_unspaced : ∀ text : String, (∀ c ∈ text.toList, isSpace c = false) → trim text = text
  trim_trim : ∀ text : String, trim (trim text) = trim text
  strip_trim : ∀ text : String, strip (trim text) = strip text
  foldChar_ne_nil : ∀ c : Char, foldChar c ≠ []
  foldChar_sep : ∀ c : Char, c = '/' ∨ c = '\\' → foldChar c = [c]
  eq_of_mem_foldChar : ∀ c : Char, ∀ d ∈ foldChar c, d = '/' ∨ d = '\\' → d = c

/-- `text.casefold()`. -/
def Library.casefold (lib : Library) (text : String) : String :=
  String.ofList (text.toList.flatMap lib.foldChar)

/-! ## Decisions -/

inductive DecisionStatus where
  | allow | deny | hostVerificationRequired
deriving DecidableEq

inductive ReasonCode where
  | allowed | unknownCapability | invalidInput | ambiguousInput | conflictingScope | staleRevision
  | expiredRevision | revisionFreshnessUnverified | pathOutsideRoot | commandNotAuthorized
  | networkNotAuthorized | networkSchemeNotAllowed | networkSsrfBlocked | redirectNotAuthorized
  | skillNotAuthorized | skillProvenanceRequired
deriving DecidableEq

/-- `PolicyInputError`. -/
structure PolicyInputError where
  reasonCode : ReasonCode
  detail : String
deriving DecidableEq

/-- `CapabilityName`. -/
inductive CapabilityName where
  | pathRead | pathWrite | pathDelete | commandExecute | networkConnect | skillUse
  | artifactPublish | secretHandleUse
deriving DecidableEq

def CapabilityName.value : CapabilityName → String
  | .pathRead => "path.read"
  | .pathWrite => "path.write"
  | .pathDelete => "path.delete"
  | .commandExecute => "command.execute"
  | .networkConnect => "network.connect"
  | .skillUse => "skill.use"
  | .artifactPublish => "artifact.publish"
  | .secretHandleUse => "secret.handle.use"

def capabilityNames : List CapabilityName :=
  [.pathRead, .pathWrite, .pathDelete, .commandExecute, .networkConnect, .skillUse,
    .artifactPublish, .secretHandleUse]

/-- `CapabilityName(value)`. -/
def CapabilityName.ofValue? (value : String) : Option CapabilityName :=
  capabilityNames.find? fun name => name.value = value

/-! ## Scopes and requests -/

inductive Platform where
  | posix | windows
deriving DecidableEq

def Platform.value : Platform → String
  | .posix => "posix"
  | .windows => "windows"

/-- `PathRoot`; it is case sensitive on POSIX. -/
structure PathRoot where
  platform : Platform
  root : String
deriving DecidableEq

structure PathRequest where
  platform : Platform
  path : String
deriving DecidableEq

/-- `CommandScope`, and a request of it. -/
structure CommandScope where
  platform : Platform
  argv : List String
  cwd : String
  envNames : List String
deriving DecidableEq

structure NetworkTarget where
  scheme : String
  host : String
  port : Int
  verifiedIps : List String
  hostVerificationRequired : Bool
deriving DecidableEq

structure NetworkScope where
  target : NetworkTarget
  allowedRedirects : List NetworkTarget
deriving DecidableEq

structure NetworkRequest where
  target : NetworkTarget
  redirects : List NetworkTarget
deriving DecidableEq

/-- `SkillScope`, and a request of it. -/
structure SkillScope where
  identity : String
  version : String
  provenance : String
deriving DecidableEq

inductive Scope where
  | path (roots : List PathRoot)
  | command (scope : CommandScope)
  | network (scope : NetworkScope)
  | skill (scope : SkillScope)
deriving DecidableEq

inductive Request where
  | path (request : PathRequest)
  | command (request : CommandScope)
  | network (request : NetworkRequest)
  | skill (request : SkillScope)
deriving DecidableEq

structure Decision where
  status : DecisionStatus
  reasonCode : ReasonCode
  capability : Option CapabilityName := none
  detail : String := ""
  normalized : Option Request := none
deriving DecidableEq

def Decision.allowed (d : Decision) : Bool := d.status = .allow

/-- The decision of `_failure`. -/
def failure (reasonCode : ReasonCode) (detail : String) (capability : Option CapabilityName := none) :
    Decision := ⟨.deny, reasonCode, capability, detail, none⟩

def allow (capability : CapabilityName) (normalized : Request) : Decision :=
  ⟨.allow, .allowed, some capability, "", some normalized⟩

variable (lib : Library)

/-- `canonical_capability`. -/
def canonicalCapability (value : String) : Except PolicyInputError CapabilityName :=
  if strip value = "" then .error ⟨.unknownCapability, "capability is blank"⟩
  else
    match CapabilityName.ofValue? (lib.lower (strip value)) with
    | some name => .ok name
    | none => .error ⟨.unknownCapability, "unknown capability: " ++ lib.repr value⟩

/-! ## Paths -/

/-- `_platform`. -/
def parsePlatform (value : String) : Except PolicyInputError Platform :=
  if value = "posix" then .ok .posix
  else if value = "windows" then .ok .windows
  else .error ⟨.ambiguousInput, "platform must be explicitly posix or windows"⟩

/-- `_SHELL_AMBIGUOUS`. -/
def shellAmbiguous : List Char := ['\n', '\r', '\x00']

/-- The expansion and glob syntax that no path holds. -/
def expansion : List Char := ['~', '$', '%', '*', '?', '[', ']']

def backslash (c : Char) : Char := if c = '/' then '\\' else c

/-- What is left of a path from its first backslash on. -/
def fromBackslash (cs : List Char) : List Char := cs.dropWhile fun c => c ≠ '\\'

/-- `ntpath.splitdrive` of a path without a question mark. -/
def ntSplitdrive (cs : List Char) : List Char × List Char :=
  match cs.map backslash with
  | '\\' :: '\\' :: rest =>
    -- The drive of a UNC path ends where the share does.
    let tail := fromBackslash ((fromBackslash rest).drop 1)
    if tail = [] then (cs, [])
    else (cs.take (cs.length - tail.length), cs.drop (cs.length - tail.length))
  | _ :: ':' :: _ => (cs.take 2, cs.drop 2)
  | _ => ([], cs)

/-- `ntpath.normpath` of a path that is rooted. -/
def ntNormpath (cs : List Char) : List Char :=
  let split := ntSplitdrive (cs.map backslash)
  split.1 ++ '\\' :: normal '\\' split.2

/-- `posixpath.normpath` of a path that starts with one slash. -/
def posixNormpath (cs : List Char) : List Char := '/' :: normal '/' cs

/-- `normalize_path_root` on POSIX. -/
def posixRoot (cs : List Char) : Except PolicyInputError (List Char) :=
  if ¬ ['/'] <+: cs ∨ ['/', '/'] <+: cs ∨ '\\' ∈ cs then
    .error ⟨.ambiguousInput, "path is not an unambiguous POSIX absolute path"⟩
  else .ok (posixNormpath cs)

/-- `normalize_path_root` on Windows. -/
def windowsRoot (cs : List Char) : Except PolicyInputError (List Char) :=
  if ['\\', '\\', '?', '\\'] <+: cs ∨ ['\\', '\\', '.', '\\'] <+: cs then
    .error ⟨.ambiguousInput, "Windows device paths are host dependent"⟩
  else if (ntSplitdrive cs).1 = [] ∨ ¬ (['\\'] <+: (ntSplitdrive cs).2 ∨
      ['/'] <+: (ntSplitdrive cs).2) then
    .error ⟨.ambiguousInput, "path is not an absolute Windows root"⟩
  else if ['\\', '\\'] <+: ntNormpath cs ∧
      ((((ntNormpath cs).drop 2).splitOn '\\').filter fun part => part ≠ []).length < 2 then
    .error ⟨.ambiguousInput, "UNC root lacks a share"⟩
  else .ok (ntNormpath cs)

def Platform.normalRoot : Platform → List Char → Except PolicyInputError (List Char)
  | .posix => posixRoot
  | .windows => windowsRoot

/-- `normalize_path_root`. -/
def normalizePathRoot (root platform : String) : Except PolicyInputError PathRoot := do
  let platform ← parsePlatform platform
  if root = "" ∨ ∃ c ∈ root.toList, c ∈ shellAmbiguous then
    .error ⟨.invalidInput, "path must be a non-empty string without NUL/control breaks"⟩
  else if ∃ c ∈ root.toList, c ∈ expansion then
    .error ⟨.ambiguousInput, "path contains expansion or glob syntax"⟩
  else
    let cs ← platform.normalRoot root.toList
    return ⟨platform, String.ofList cs⟩

/-- `normalize_path_request`. -/
def normalizePathRequest (path platform : String) : Except PolicyInputError PathRequest := do
  let root ← normalizePathRoot path platform
  return ⟨root.platform, root.root⟩

/-- How roots are ordered. -/
def PathRoot.le (a b : PathRoot) : Bool :=
  a.platform.value < b.platform.value ∨ a.platform = b.platform ∧ a.root ≤ b.root

/-- `normalize_path_scope` of the roots of a scope. -/
def normalizePathScope (roots : Option (List (String × String))) :
    Except PolicyInputError (List PathRoot) := do
  match roots with
  | none => .error ⟨.invalidInput, "path root needs platform and root"⟩
  | some roots =>
    let roots ← roots.mapM fun root => normalizePathRoot root.2 root.1
    if roots = [] then .error ⟨.invalidInput, "path scope has no roots"⟩
    else return roots.dedup.insertionSort fun a b => a.le b

/-- A path as it is compared on a platform. -/
def compared (platform : Platform) (path : String) : List Char :=
  match platform with
  | .posix => path.toList
  | .windows => (lib.casefold path).toList

def Platform.sep : Platform → Char
  | .posix => '/'
  | .windows => '\\'

def isSep (c : Char) : Bool := c = '/' ∨ c = '\\'

/-- `path_is_within_root` of a request. -/
def pathIsWithinRoot (root : PathRoot) (request : PathRequest) : Bool :=
  request.platform = root.platform ∧
    Within root.platform.sep isSep (compared lib root.platform root.root)
      (compared lib root.platform request.path)

/-- `path_is_within_root` of a path on the platform of the root. -/
def pathTextIsWithinRoot (root : PathRoot) (path : String) : Except PolicyInputError Bool := do
  return pathIsWithinRoot lib root (← normalizePathRequest path root.platform.value)

/-! ## Commands -/

/-- `_WILDCARD`. -/
def wildcard : List Char := ['*', '?', '[', ']']

/-- `_ENV_NAME`. -/
def isEnvName (name : String) : Bool :=
  match name.toList with
  | [] => false
  | c :: cs => (c.isAlpha ∨ c = '_') ∧ ∀ c ∈ cs, c.isAlphanum ∨ c = '_'

/-- `normalize_command_scope`. -/
def normalizeCommandScope (argv : List String) (cwd : String) (envNames : List String)
    (platform : String) : Except PolicyInputError CommandScope := do
  let platform' ← parsePlatform platform
  match argv with
  | [] => .error ⟨.invalidInput, "argv must contain non-empty strings"⟩
  | executable :: arguments =>
    if ∃ arg ∈ executable :: arguments, arg = "" ∨ ∃ c ∈ arg.toList, c ∈ shellAmbiguous then
      .error ⟨.invalidInput, "argv must contain non-empty strings"⟩
    else if ∃ c ∈ executable.toList, c ∈ wildcard ∨ isSpace c then
      .error ⟨.ambiguousInput, "executable name is ambiguous"⟩
    else
      let cwd ← normalizePathRequest cwd platform
      let envNames := envNames.dedup.insertionSort fun a b => a ≤ b
      if ∃ name ∈ envNames, ¬ isEnvName name then
        .error ⟨.invalidInput, "env_names must be variable names, not assignments"⟩
      else return ⟨platform', executable :: arguments, cwd.path, envNames⟩

/-- `command_is_authorized`. -/
def commandIsAuthorized (authority request : CommandScope) : Bool :=
  authority.platform = request.platform ∧ authority.argv = request.argv ∧
    authority.cwd = request.cwd ∧ ∀ name ∈ request.envNames, name ∈ authority.envNames

/-! ## Network targets -/

/-- `_normalize_host`. -/
def normalizeHost (host : String) : Except PolicyInputError String :=
  if host = "" ∨ ∃ c ∈ host.toList, isSpace c ∨ c ∈ ['/', '?', '#', '@'] then
    .error ⟨.ambiguousInput, "host contains URL syntax outside scheme/host/port"⟩
  else
    let cs := host.toList
    let cs := if ['['] <+: cs ∧ [']'] <:+ cs then (cs.drop 1).dropLast else cs
    let host := String.ofList (if ['.'] <:+ cs then cs.dropLast else cs)
    match lib.ipAddress host with
    | some address => .ok address.compressed
    | none =>
      match lib.idna host with
      | some name => .ok (lib.lower name)
      | none => .error ⟨.ambiguousInput, "host cannot be IDNA-normalized"⟩

/-- `_normalize_verified_ips` of one value. -/
def normalizeVerifiedIp (value : String) : Except PolicyInputError String :=
  match lib.ipAddress value with
  | none => .error ⟨.ambiguousInput, "verified_ips contains a non-IP value"⟩
  | some address =>
    if address.isGlobal then .ok address.compressed
    else .error ⟨.networkSsrfBlocked, "verified hostname resolved to a non-public address"⟩

/-- `_normalize_verified_ips`. -/
def normalizeVerifiedIps (values : List String) : Except PolicyInputError (List String) := do
  let ips ← values.mapM (normalizeVerifiedIp lib)
  return ips.dedup.insertionSort fun a b => a ≤ b

/-- The names of hosts that are never public. -/
def isLocalName (host : String) : Bool :=
  host ∈ ["localhost", "localhost.localdomain"] ∨
    ∃ suffix ∈ [".local", ".internal", ".localhost"], suffix.toList <:+ host.toList

/-- A network target as a scope or a request holds it. -/
structure RawTarget where
  scheme : String
  host : String
  port : Option Int
  verifiedIps : List String

/-- `normalize_network_target`. -/
def normalizeNetworkTarget (raw : RawTarget) : Except PolicyInputError NetworkTarget := do
  let scheme := lib.lower (strip raw.scheme)
  if ¬ (scheme = "http" ∨ scheme = "https") then
    .error ⟨.networkSchemeNotAllowed, "only http and https are supported"⟩
  else
    let host ← normalizeHost lib raw.host
    let ips ← normalizeVerifiedIps lib raw.verifiedIps
    let requiresVerification ← match lib.ipAddress host with
      | some address =>
        if address.isGlobal then .ok false
        else .error ⟨.networkSsrfBlocked, "non-public literal address is blocked"⟩
      | none =>
        if isLocalName host then .error ⟨.networkSsrfBlocked, "local hostname is blocked"⟩
        else .ok (ips = [] : Bool)
    let port := raw.port.getD (if scheme = "https" then 443 else 80)
    if 1 ≤ port ∧ port ≤ 65535 then return ⟨scheme, host, port, ips, requiresVerification⟩
    else .error ⟨.invalidInput, "network port must be in 1..65535"⟩

/-- `network_is_authorized`. -/
def networkIsAuthorized (authority : NetworkScope) (request : NetworkRequest) : Decision :=
  if request.target.hostVerificationRequired then
    ⟨.hostVerificationRequired, .ambiguousInput, some .networkConnect,
      "hostname resolution evidence is required", some (.network request)⟩
  else if authority.target ≠ request.target then
    ⟨.deny, .networkNotAuthorized, some .networkConnect,
      "scheme, host, port, or verification differs", some (.network request)⟩
  else if request.redirects ≠ [] ∧ authority.allowedRedirects = [] then
    ⟨.deny, .redirectNotAuthorized, some .networkConnect,
      "redirect targets require explicit grant scope", some (.network request)⟩
  else if ∃ redirect ∈ request.redirects, ¬ redirect ∈ authority.allowedRedirects then
    ⟨.deny, .redirectNotAuthorized, some .networkConnect,
      "redirect target is outside the explicit grant scope", some (.network request)⟩
  else allow .networkConnect (.network request)

/-! ## Skills -/

/-- A numeral without leading zeros. -/
def isVersionNumber (cs : List Char) : Bool :=
  cs = ['0'] ∨ cs ≠ [] ∧ ¬ ['0'] <+: cs ∧ ∀ c ∈ cs, c.isDigit

/-- Identifiers with dots between them. -/
def areIdentifiers (cs : List Char) : Bool :=
  ∀ part ∈ cs.splitOn '.', part ≠ [] ∧ ∀ c ∈ part, c.isAlphanum ∨ c = '-'

/-- `_SEMVER`. -/
def isSemver (version : String) : Bool :=
  let cs := version.toList
  let main := cs.takeWhile fun c => c ≠ '+'
  let core := main.takeWhile fun c => c ≠ '-'
  (core.splitOn '.').length = 3 ∧ (∀ part ∈ core.splitOn '.', isVersionNumber part) ∧
    (core = main ∨ areIdentifiers (main.drop (core.length + 1))) ∧
    (main = cs ∨ areIdentifiers (cs.drop (main.length + 1)))

def skillIdentity? (identity : Option String) : Option String :=
  identity.filter fun identity =>
    identity ≠ "" ∧ ∀ c ∈ identity.toList, ¬ isSpace c ∧ c ≠ '\\' ∧ c ≠ '\x00'

/-- `normalize_skill_scope`. -/
def normalizeSkillScope (identity version : Option String) (provenance : String) :
    Except PolicyInputError SkillScope :=
  match skillIdentity? identity with
  | none => .error ⟨.ambiguousInput, "skill identity is not canonical"⟩
  | some identity =>
    match version.filter isSemver with
    | none => .error ⟨.ambiguousInput, "skill version must be an exact semantic version"⟩
    | some version =>
      if provenance = "" ∨ ∃ c ∈ provenance.toList, c ∈ shellAmbiguous then
        .error ⟨.skillProvenanceRequired, "skill provenance is required"⟩
      else .ok ⟨identity, version, provenance⟩

/-- `skill_is_authorized`. -/
def skillIsAuthorized (authority request : SkillScope) : Decision :=
  if authority ≠ request then
    ⟨.deny, .skillNotAuthorized, some .skillUse, "skill identity, version, or provenance differs",
      some (.skill request)⟩
  else allow .skillUse (.skill request)

/-! ## A library -/

/-- A character that is lower already stays as it is. -/
theorem toLower_eq_self {c : Char} (h : c.toLower.toNat < 97) : c.toLower = c := by
  unfold Char.toLower at h ⊢
  split at h
  · rename_i hupper
    -- A letter is at 65 at least, and at 97 once it is lower.
    have hlow : 65 ≤ c.val.toNat := hupper.1
    have hhigh : c.val.toNat ≤ 90 := hupper.2
    have hval : (c.val + 32).toNat < 97 := h
    rw [UInt32.toNat_add] at hval
    have h32 : (32 : UInt32).toNat = 32 := rfl
    omega
  · rename_i hupper
    rw [dif_neg hupper]

/-- The library on ASCII texts, with these addresses for all. -/
def Library.ascii (addresses : List (String × IpAddress)) : Library where
  lower text := String.ofList (text.toList.map Char.toLower)
  foldChar c := [c.toLower]
  idna text := some text
  ipAddress text := List.lookup text addresses
  sha256 text := text
  dumps value := String.ofList (JsonText.write value)
  dumpsUnicode value := String.ofList (JsonText.write value)
  repr text := "'" ++ text ++ "'"
  isoformat _ := "9999-12-31T23:59:59.999999+00:00"
  fnmatchcase text pattern := text = pattern
  trim := strip
  validationError := "validation error"
  dumps_injective a b h := by
    have htexts : JsonText.write a = JsonText.write b := String.ofList_injective h
    have hread := JsonText.read_write a (JsonText.write a).length [] (Nat.le_refl _)
    rw [htexts, JsonText.read_write b _ _ (Nat.le_refl _)] at hread
    exact (Prod.mk.inj (Option.some.inj hread)).1.symm
  trim_unspaced text h := by
    refine (stripped_iff text).2 (stripChars_of_ends ?_ ?_)
    · exact fun c hc => h c (List.mem_of_mem_head? hc)
    · exact fun c hc => h c (List.mem_of_getLast? hc)
  trim_trim text := by
    rw [← String.toList_inj, toList_strip, toList_strip, stripChars_stripChars]
  strip_trim text := by
    rw [← String.toList_inj, toList_strip, toList_strip, stripChars_stripChars]
  foldChar_ne_nil c := List.cons_ne_nil _ _
  foldChar_sep c h := by
    rcases h with rfl | rfl <;> decide
  eq_of_mem_foldChar c d hd h := by
    rw [List.mem_singleton] at hd
    subst hd
    refine toLower_eq_self ?_
    rcases h with h | h <;> rw [h] <;> decide

/-- A public address. -/
def IpAddress.ofGlobal (compressed : String) : IpAddress :=
  ⟨compressed, true, false, false, false, false, false, false⟩

end Capabilities
