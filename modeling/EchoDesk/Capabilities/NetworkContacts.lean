import EchoDesk.Capabilities.NetworkHost
import Mathlib.Data.List.Count

/-! # What the network host contacts

Every call of the transport is for a target in the allowlist, at an address its host has just
resolved to. Two things are not checked: that the request is one of the network capability, and
that an address is global rather than only not private.
-/

namespace Capabilities

open EchoDesk List

variable {lib : Library} {urls : Urls} {around : Surroundings} {invocation : HostInvocation}
  {options : RequestOptions} {digest : String} {target : Target} {i : Nat}
variable {network : Catalog.NetworkRequest} {resolved : List String} {now : Int} {url : String}
  {call : Call}

/-! ## The law -/

def isGlobal (lib : Library) (value : String) : Bool :=
  (lib.ipAddress value).any IpAddress.isGlobal

def Target.endpoint (target : Target) : Catalog.Endpoint := ⟨target.scheme, target.host, target.port⟩

/-- What a hop has done before it calls the transport. -/
structure Contact (lib : Library) (around : Surroundings) (grant : GrantSnapshot) (i : Nat)
    (events : List Event) (call : Call) : Prop where
  listed : grant.network.lists lib call.target.endpoint = true
  unrevoked : ∀ revoked ∈ around.revoked, revoked i = false
  pinned : ∃ values, around.resolve i call.target.host call.target.port = .addresses values ∧
    call.address ∈ values ∧
    (grant.network.allowPrivateAddresses = false → ∀ value ∈ values, isGlobal lib value = true) ∧
    events = (if around.revoked.isSome then [.revocation false] else []) ++
      [.resolution call.target.host call.target.port values.eraseDups, .transport call]

def Event.isTransport : Event → Bool
  | .transport _ => true
  | _ => false

/-- Only granted targets are contacted, at most six times, and the loop ends. -/
structure OnlyGranted (lib : Library) (urls : Urls) (around : Surroundings)
    (invocation : HostInvocation) (options : RequestOptions) : Prop where
  contacts : ∀ rounds i events,
    (networkRequest lib urls around invocation options rounds).1[i]? = some events →
      ∀ call, .transport call ∈ events → Contact lib around invocation.grant i events call
  calls : ∀ rounds, (networkRequest lib urls around invocation options rounds).1.flatten.countP
    Event.isTransport ≤ 6
  ends : ∀ rounds, 6 ≤ rounds →
    (networkRequest lib urls around invocation options rounds).2 ≠ none

/-- The request is for the network, or its own capability denies it. -/
def ForNetwork (lib : Library) (invocation : HostInvocation) (options : RequestOptions) : Prop :=
  invocation.request.capability = "network.connect" ∨
    ∀ now, (preflight lib invocation now options.activePolicyRevision).allowed = false

/-- An address that the resolver answers in the hop, and that is not refused, is global. -/
def AnswersGlobally (lib : Library) (around : Surroundings) (i : Nat) (events : List Event) : Prop :=
  ∀ host port resolved, .resolution host port resolved ∈ events →
    ∀ values, around.resolve i host port = .addresses values →
      ∀ value ∈ values, isPublicAddress lib false value = true → isGlobal lib value = true

/-- So it is in every hop that asks the resolver. -/
def ResolvesGlobally (lib : Library) (urls : Urls) (around : Surroundings)
    (invocation : HostInvocation) (options : RequestOptions) : Prop :=
  ∀ rounds i events, (networkRequest lib urls around invocation options rounds).1[i]? = some events →
    AnswersGlobally lib around i events

/-! ## One hop -/

variable {revision : Option Int} {rounds : Nat}

theorem preflight_allowed (invocation : HostInvocation)
    (h : (preflight lib invocation now revision).allowed = true) :
    (evaluateCapability lib (some invocation.grant) invocation.request now revision).allowed = true := by
  have hdenied : ∀ code, (deniedDecision invocation code).allowed = false := fun _ => rfl
  unfold preflight at h
  dsimp only at h
  split at h
  · rw [hdenied] at h
    cases h
  split at h
  · rw [hdenied] at h
    cases h
  split at h
  · rw [hdenied] at h
    cases h
  · exact h

/-- Only the network capability reads the network request. -/
theorem preflight_network (network : Option Catalog.NetworkRequest)
    (hother : invocation.request.capability ≠ "network.connect") :
    preflight lib { invocation with request := { invocation.request with network := network } } now
      revision = preflight lib invocation now revision := by
  unfold preflight
  dsimp only
  split
  · rfl
  split
  · rfl
  split
  · rfl
  unfold evaluateCapability
  cases hname : CapabilityName.ofValue? invocation.request.capability with
  | none => rfl
  | some name =>
    cases name with
    | networkConnect =>
      have hvalue := find?_some hname
      exact absurd (of_decide_eq_true hvalue).symm hother
    | _ => rfl

/-- A request of the network capability that is allowed is for a listed endpoint. -/
theorem lists_of_allowed {request : CapabilityRequest} {grant : GrantSnapshot}
    (h : (evaluateCapability lib (some grant) request now revision).allowed = true)
    (hcapability : request.capability = "network.connect")
    (hnetwork : request.network = some network) :
    grant.network.lists lib network.toEndpoint = true := by
  obtain ⟨-, name, hname, hevaluated⟩ := evaluateCapability_allowed h
  rw [hcapability] at hname
  cases hname
  cases hevaluated with
  | path hpath _ => exact absurd hpath (by decide)
  | network h =>
    obtain ⟨target, htarget, hlists⟩ := evaluateNetwork_allowed h
    cases hnetwork.symm.trans htarget
    exact hlists

/-- The scheme of a target is one of the two. -/
def Target.Web (target : Target) : Prop := target.scheme = "http" ∨ target.scheme = "https"

theorem web_of_targetFromUrl (h : targetFromUrl urls url = .ok (some target)) : target.Web := by
  unfold targetFromUrl at h
  split at h
  · cases h
  rename_i parts _
  split at h
  · cases h
  rename_i hform
  rw [not_or, not_not] at hform
  split at h
  · cases h
  by_cases hbreak : ∃ c ∈ (urls.urlunsplit (if parts.path = "" then "/" else parts.path)
      parts.query).toList, c = '\r' ∨ c = '\n'
  · rw [if_pos hbreak] at h
    cases h
  · rw [if_neg hbreak] at h
    cases h
    exact hform.1

/-- The stripped target of a hop is listed as the target is. -/
theorem lists_hopRequest {policy : NetworkCapability} (hweb : target.Web)
    (hrequest : hopRequest lib target resolved = some network)
    (h : policy.lists lib network.toEndpoint = true) : policy.lists lib target.endpoint = true := by
  have hscheme : lib.trim target.scheme = target.scheme := by
    apply lib.trim_unspaced
    rcases hweb with heq | heq <;>
    · rw [heq]
      decide +kernel
  have hhost : normaliseHost lib (lib.trim target.host) = normaliseHost lib target.host := by
    unfold normaliseHost
    rw [lib.strip_trim]
  unfold hopRequest at hrequest
  split at hrequest
  swap
  · cases hrequest
  cases hrequest
  obtain ⟨hlists, hschemes, hports⟩ := of_decide_eq_true h
  rw [hhost] at hlists
  rw [hscheme] at hschemes
  exact decide_eq_true ⟨hlists, hschemes, hports⟩

/-- What is known once the transport is called. -/
theorem afterResolution_transport (hfor : ForNetwork lib invocation options) (hweb : target.Web)
    (hcall : .transport call ∈
      (afterResolution lib urls around invocation options digest target i resolved).1) :
    (afterResolution lib urls around invocation options digest target i resolved).1 =
        [.transport call] ∧ call.target = target ∧ call.address ∈ resolved ∧
      (∀ value ∈ resolved,
        isPublicAddress lib invocation.grant.network.allowPrivateAddresses value = true) ∧
      invocation.grant.network.lists lib target.endpoint = true := by
  unfold afterResolution at hcall ⊢
  dsimp only at hcall ⊢
  split at hcall
  · cases hcall
  split at hcall
  · cases hcall
  rename_i hpublic
  rw [if_neg hpublic]
  rw [not_not] at hpublic
  split at hcall
  · cases hcall
  rename_i network hnetwork
  split at hcall
  · cases hcall
  rename_i hallowed
  rw [if_neg hallowed]
  rw [not_not] at hallowed
  rw [mem_singleton, Event.transport.injEq] at hcall
  subst hcall
  have hevaluated := preflight_allowed _ hallowed
  refine ⟨rfl, rfl, mem_cons_self, hpublic, ?_⟩
  rcases hfor with hcapability | hdenied
  · exact lists_hopRequest hweb hnetwork (lists_of_allowed hevaluated hcapability rfl)
  by_cases hcapability : invocation.request.capability = "network.connect"
  · exact lists_hopRequest hweb hnetwork (lists_of_allowed hevaluated hcapability rfl)
  · rw [preflight_network _ hcapability, hdenied] at hallowed
    cases hallowed

/-- A hop that calls the transport has made its checks. -/
theorem hop_contact (hfor : ForNetwork lib invocation options)
    (hglobal : invocation.grant.network.allowPrivateAddresses = false →
      AnswersGlobally lib around i (hop lib urls around invocation options digest target i).1)
    (hweb : target.Web)
    (hcall : .transport call ∈ (hop lib urls around invocation options digest target i).1) :
    Contact lib around invocation.grant i
      (hop lib urls around invocation options digest target i).1 call := by
  have hresolved : ∀ {call : Call},
      .transport call ∈ (afterRevocation lib urls around invocation options digest target i).1 →
        invocation.grant.network.lists lib call.target.endpoint = true ∧
        ∃ values, around.resolve i call.target.host call.target.port = .addresses values ∧
          call.address ∈ values ∧
          (invocation.grant.network.allowPrivateAddresses = false →
            ∀ value ∈ values, isPublicAddress lib false value = true) ∧
          (afterRevocation lib urls around invocation options digest target i).1 =
            [.resolution call.target.host call.target.port values.eraseDups, .transport call] := by
    intro call hcall
    unfold afterRevocation at hcall ⊢
    -- only an answer with addresses leads to a call
    cases hanswer : around.resolve i target.host target.port with
    | raised =>
      rw [hanswer] at hcall
      rcases mem_cons.1 hcall with heq | hnil
      · cases heq
      · cases hnil
    | failed =>
      rw [hanswer] at hcall
      rcases mem_cons.1 hcall with heq | hrest
      · cases heq
      · obtain ⟨-, -, hmem, -⟩ := afterResolution_transport hfor hweb hrest
        cases hmem
    | addresses values =>
      rw [hanswer] at hcall
      rcases mem_cons.1 hcall with heq | hrest
      · cases heq
      obtain ⟨hevents, htarget, hmem, hpublic, hlists⟩ := afterResolution_transport hfor hweb hrest
      dsimp only at hevents ⊢
      rw [hevents, htarget]
      have hvalues : ∀ value, value ∈ (Resolution.addresses values).resolved ↔ value ∈ values :=
        fun value => mem_eraseDups
      refine ⟨hlists, values, hanswer, (hvalues _).1 hmem, ?_, rfl⟩
      intro hprivate value hvalue
      rw [hprivate] at hpublic
      exact hpublic value ((hvalues value).2 hvalue)
  cases hrevoked : around.revoked with
  | none =>
    have hform : hop lib urls around invocation options digest target i =
        afterRevocation lib urls around invocation options digest target i := by
      unfold hop
      rw [hrevoked]
    rw [hform] at hcall hglobal ⊢
    obtain ⟨hlists, values, hanswer, hmem, hpublic, hevents⟩ := hresolved hcall
    refine ⟨hlists, ?_, values, hanswer, hmem, fun hprivate value hvalue => ?_, ?_⟩
    · intro revoked hsome
      rw [hrevoked] at hsome
      cases hsome
    · exact hglobal hprivate _ _ _ (hevents ▸ mem_cons_self) values hanswer value hvalue
        (hpublic hprivate value hvalue)
    · rw [hevents, hrevoked]
      rfl
  | some revoked =>
    cases hasked : revoked i with
    | true =>
      -- a revoked grant contacts nobody
      have hform : (hop lib urls around invocation options digest target i).1 =
          [.revocation true] := by
        unfold hop
        rw [hrevoked]
        dsimp only
        rw [if_pos hasked]
      rw [hform, mem_singleton] at hcall
      cases hcall
    | false =>
      have hform : (hop lib urls around invocation options digest target i).1 = .revocation false ::
          (afterRevocation lib urls around invocation options digest target i).1 := by
        unfold hop
        rw [hrevoked]
        dsimp only
        rw [if_neg (by rw [hasked]; decide)]
      rw [hform] at hcall hglobal ⊢
      rcases mem_cons.1 hcall with heq | hcall
      · cases heq
      obtain ⟨hlists, values, hanswer, hmem, hpublic, hevents⟩ := hresolved hcall
      refine ⟨hlists, ?_, values, hanswer, hmem, fun hprivate value hvalue => ?_, ?_⟩
      · intro other hother
        rw [hrevoked] at hother
        cases hother
        exact hasked
      · exact hglobal hprivate _ _ _ (mem_cons_of_mem _ (hevents ▸ mem_cons_self)) values
          hanswer value hvalue (hpublic hprivate value hvalue)
      · rw [hevents, hrevoked]
        rfl

/-- A hop calls the transport once at most. -/
theorem countP_hop_le : (hop lib urls around invocation options digest target i).1.countP
    Event.isTransport ≤ 1 := by
  have hlast : ∀ resolved, (afterResolution lib urls around invocation options digest target i
      resolved).1.countP Event.isTransport ≤ 1 := by
    intro resolved
    unfold afterResolution
    dsimp only
    split
    · exact Nat.zero_le 1
    split
    · exact Nat.zero_le 1
    split
    · exact Nat.zero_le 1
    split
    · exact Nat.zero_le 1
    · exact Nat.le_refl 1
  have hrest : (afterRevocation lib urls around invocation options digest target i).1.countP
      Event.isTransport ≤ 1 := by
    unfold afterRevocation
    split
    · exact Nat.zero_le 1
    · rw [countP_cons_of_neg (by exact Bool.false_ne_true)]
      exact hlast _
  unfold hop
  split
  · exact hrest
  split
  · exact Nat.zero_le 1
  · rw [countP_cons_of_neg (by exact Bool.false_ne_true)]
    exact hrest

/-- The loop goes on only while redirects are left. -/
theorem hop_redirect {next : Target}
    (h : (hop lib urls around invocation options digest target i).2 = .redirect next) :
    i < maxRedirects ∧ next.Web := by
  have hreply : ∀ {current : HostInvocation} {decision : CapabilityDecision} {reply : Reply}
      {maxBytes : Nat},
      afterReply lib urls current digest target i maxBytes decision reply = .redirect next →
        i < maxRedirects ∧ next.Web := by
    intro current decision reply maxBytes h
    unfold afterReply at h
    split at h
    · cases h
    · cases h
    split at h
    · cases h
    split at h
    · cases h
    split at h
    · cases h
    rename_i hleft
    split at h
    · cases h
    split at h
    · cases h
    · cases h
    rename_i htarget
    cases h
    exact ⟨Nat.lt_of_not_le hleft, web_of_targetFromUrl htarget⟩
  have hlast : ∀ resolved, (afterResolution lib urls around invocation options digest target i
      resolved).2 = .redirect next → i < maxRedirects ∧ next.Web := by
    intro resolved h
    unfold afterResolution at h
    dsimp only at h
    split at h
    · cases h
    split at h
    · cases h
    split at h
    · cases h
    split at h
    · cases h
    · exact hreply h
  have hrest : (afterRevocation lib urls around invocation options digest target i).2 =
      .redirect next → i < maxRedirects ∧ next.Web := by
    intro h
    unfold afterRevocation at h
    split at h
    · cases h
    · exact hlast _ h
  unfold hop at h
  split at h
  · exact hrest h
  split at h
  · cases h
  · exact hrest h

/-! ## The loop -/

theorem hops_succ (rounds : Nat) :
    hops lib urls around invocation options digest (rounds + 1) target i =
      match (hop lib urls around invocation options digest target i).2 with
      | .done outcome => ([(hop lib urls around invocation options digest target i).1], some outcome)
      | .redirect next =>
        ((hop lib urls around invocation options digest target i).1 ::
          (hops lib urls around invocation options digest rounds next (i + 1)).1,
        (hops lib urls around invocation options digest rounds next (i + 1)).2) := by
  rw [hops]
  cases hop lib urls around invocation options digest target i with
  | mk events result => cases result <;> rfl

/-- A round of the loop is a hop to a target. -/
theorem exists_hop {k : Nat} {events : List Event} (hweb : target.Web)
    (h : (hops lib urls around invocation options digest rounds target i).1[k]? = some events) :
    ∃ target : Target, target.Web ∧
      (hop lib urls around invocation options digest target (i + k)).1 = events := by
  induction rounds generalizing target i k with
  | zero => cases h
  | succ rounds ih =>
    rw [hops_succ] at h
    split at h
    · cases k with
      | zero => exact ⟨target, hweb, Option.some.inj h⟩
      | succ k => cases h
    rename_i next hnext
    cases k with
    | zero => exact ⟨target, hweb, Option.some.inj h⟩
    | succ k =>
      obtain ⟨target', hweb', hevents⟩ := ih (hop_redirect hnext).2 h
      refine ⟨target', hweb', ?_⟩
      rwa [Nat.add_right_comm i 1 k] at hevents

theorem length_hops_le (hle : i ≤ maxRedirects) :
    (hops lib urls around invocation options digest rounds target i).1.length ≤
      maxRedirects + 1 - i := by
  induction rounds generalizing target i with
  | zero => exact Nat.zero_le _
  | succ rounds ih =>
    rw [hops_succ]
    split
    · show 1 ≤ _
      omega
    rename_i next hnext
    have hlt := (hop_redirect hnext).1
    have hrest := @ih next (i + 1) (by omega)
    show (hops lib urls around invocation options digest rounds next (i + 1)).1.length + 1 ≤ _
    omega

/-- With as many rounds as there are hops left, the loop ends. -/
theorem hops_ends (hle : i ≤ maxRedirects) (hrounds : maxRedirects + 1 - i ≤ rounds) :
    (hops lib urls around invocation options digest rounds target i).2 ≠ none := by
  induction rounds generalizing target i with
  | zero => omega
  | succ rounds ih =>
    rw [hops_succ]
    split
    · exact Option.some_ne_none _
    rename_i next hnext
    have hlt := (hop_redirect hnext).1
    exact ih (by omega) (by omega)

theorem countP_flatten_le {hopEvents : List (List Event)}
    (h : ∀ events ∈ hopEvents, events.countP Event.isTransport ≤ 1) :
    hopEvents.flatten.countP Event.isTransport ≤ hopEvents.length := by
  induction hopEvents with
  | nil => exact Nat.le_refl 0
  | cons events rest ih =>
    have hfirst := h events mem_cons_self
    have hrest := ih fun other hother => h other (mem_cons_of_mem _ hother)
    rw [flatten_cons, countP_append, length_cons]
    omega

theorem web_of_admitted (h : admitted lib urls around invocation options = .ok (url, target)) :
    target.Web := by
  unfold admitted at h
  dsimp only at h
  split at h
  · cases h
  split at h
  · cases h
  split at h
  · cases h
  split at h
  · cases h
  split at h
  · cases h
  split at h
  · cases h
  split at h
  · cases h
  · cases h
  rename_i htarget
  cases h
  exact web_of_targetFromUrl htarget

/-- For a network request, the host contacts granted targets alone where what is not refused of
the answers it gets from the resolver is global. -/
theorem networkRequest_onlyGranted (lib : Library) (urls : Urls) (around : Surroundings)
    (invocation : HostInvocation) (options : RequestOptions)
    (hfor : ForNetwork lib invocation options)
    (hglobal : invocation.grant.network.allowPrivateAddresses = false →
      ResolvesGlobally lib urls around invocation options) : OnlyGranted lib urls around invocation options := by
  constructor
  · intro rounds i events hevents call hcall
    have hanswers := fun hprivate => hglobal hprivate rounds i events hevents
    unfold networkRequest at hevents
    split at hevents
    · cases hevents
    rename_i url target hadmit
    obtain ⟨target', hweb', hhop⟩ := exists_hop (web_of_admitted hadmit) hevents
    rw [Nat.zero_add] at hhop
    rw [← hhop] at hcall hanswers ⊢
    exact hop_contact hfor hanswers hweb' hcall
  · intro rounds
    unfold networkRequest
    split
    · exact Nat.zero_le 6
    rename_i url target hadmit
    refine Nat.le_trans (countP_flatten_le ?_) (length_hops_le (Nat.zero_le _))
    intro events hevents
    obtain ⟨k, hk⟩ := List.mem_iff_getElem?.1 hevents
    obtain ⟨target', -, hhop⟩ := exists_hop (web_of_admitted hadmit) hk
    rw [← hhop]
    exact countP_hop_le
  · intro rounds hrounds
    unfold networkRequest
    split
    · exact Option.some_ne_none _
    · exact hops_ends (Nat.zero_le _) hrounds

/-! ## What is not checked -/

/-- A library that knows a public address and one of the shared space, which is neither global
nor private. -/
def sharedLibrary : Library := .ascii [("93.184.216.34", .ofGlobal "93.184.216.34"),
  ("100.64.0.1", { IpAddress.ofGlobal "100.64.0.1" with isGlobal := false })]

def exampleUrls : Urls where
  urlsplit url := List.lookup url [
    ("http://a.example:80/", ⟨"http", some "a.example", none, none, .ok (some 80), "/", "", ""⟩),
    ("http://b.example:80/", ⟨"http", some "b.example", none, none, .ok (some 80), "/", "", ""⟩)]
  urlunsplit path _ := path
  urljoin _ location := some location

def exampleGrant : GrantSnapshot where
  grantId := "grant"
  revision := 1
  policyRevision := 1
  taskId := "task"
  operationKey := "task:capability-policy"
  workspaceIdentity := ⟨"task", "dev:1"⟩
  issuedAt := 0
  expiresAt := maxTime
  workspaceRoots := []
  command := ⟨.deny, [], [], []⟩
  network := ⟨.allowlist, ["a.example"], ["http"], [80], false⟩
  skills := ⟨.allowlist, ["notes"], ["1.0.0"]⟩

/-- A request of a capability, to a host, by the owner of the skill. -/
def exampleInvocation (capability host : String) : HostInvocation where
  grant := exampleGrant
  request := {
    capability := capability
    binding := ⟨"task", "task:capability-policy", ⟨"task", "dev:1"⟩, 1⟩
    network := some { scheme := "http", host := host, port := 80 }
    skill := some ⟨"notes", "1.0.0"⟩ }
  toolUseId := "tool"
  grantRevision := 1

/-- Every host has one address, and each reply is the last. -/
def oneAddress (address : String) : Surroundings where
  revoked := none
  resolve _ _ _ := .addresses [address]
  transport _ _ := .response ⟨200, [], []⟩
  clock _ := 0

theorem onlyGranted_example : OnlyGranted sharedLibrary exampleUrls (oneAddress "93.184.216.34")
    (exampleInvocation "network.connect" "a.example") {} := by
  refine networkRequest_onlyGranted sharedLibrary exampleUrls (oneAddress "93.184.216.34")
    (exampleInvocation "network.connect" "a.example") {} (.inl rfl) ?_
  intro _ rounds i events _ host port resolved _ values hvalues value hvalue _
  cases hvalues
  rw [List.mem_singleton.1 hvalue]
  decide +kernel

/-- An address of the shared space is contacted, and a host that is not listed, by a request that
is allowed as one for a skill. -/
theorem ungranted_contacted : ¬ OnlyGranted sharedLibrary exampleUrls (oneAddress "100.64.0.1")
        (exampleInvocation "network.connect" "a.example") {} ∧
      ¬ OnlyGranted sharedLibrary exampleUrls (oneAddress "93.184.216.34")
        (exampleInvocation "skill.use" "b.example") {} := by
  constructor
  · intro hlaw
    have hcontact := hlaw.contacts 6 0 [.resolution "a.example" 80 ["100.64.0.1"],
      .transport ⟨"GET", ⟨"http", "a.example", 80, "/"⟩, "100.64.0.1", [], none, 1800, 67108864⟩]
      (by decide +kernel) _ (List.mem_cons_of_mem _ List.mem_cons_self)
    obtain ⟨values, hvalues, hmem, hglobal, -⟩ := hcontact.pinned
    have hshared := hglobal rfl _ hmem
    exact absurd hshared (by decide +kernel)
  · intro hlaw
    have hcontact := hlaw.contacts 6 0 [.resolution "b.example" 80 ["93.184.216.34"],
      .transport ⟨"GET", ⟨"http", "b.example", 80, "/"⟩, "93.184.216.34", [], none, 1800, 67108864⟩]
      (by decide +kernel) _ (List.mem_cons_of_mem _ List.mem_cons_self)
    exact absurd hcontact.listed (by decide +kernel)

end Capabilities
