import EchoDesk.Capabilities.Compiler
import EchoDesk.Capabilities.Roots
import Mathlib.Data.List.Pairwise
import Mathlib.Data.List.Dedup

/-! # Allow and deny rules

What a compiled set of rules says of a request. A deny rule wins over the allow rules of its
capability, but it is compared with the target of a request alone; and two command rules with
disjoint environments are taken for disjoint, although both cover the request without any.
-/

namespace Capabilities

open EchoDesk Transaction List Option Json DecisionStatus

variable {lib : Library} {capability : CapabilityName} {facts : PermissionFacts}
  {options : CompileOptions} {compiled : Compiled}
variable {rules : List CompiledCapability} {request : Request}
  {required : Option (List CapabilityName)}
variable {scope : Scope} {left rule : CompiledCapability} {f : CapabilityFact} {a b : NetworkTarget}

/-! ## What a scope covers -/

/-- The request lies in the scope. -/
inductive Covers (lib : Library) : Scope → Request → Prop
  | path {roots : List PathRoot} {request : PathRequest} (root : PathRoot) (hroot : root ∈ roots)
      (hwithin : pathIsWithinRoot lib root request = true) : Covers lib (.path roots) (.path request)
  | command {scope request : CommandScope} (h : commandIsAuthorized scope request = true) :
      Covers lib (.command scope) (.command request)
  | network {scope : NetworkScope} {request : NetworkRequest} (htarget : request.target = scope.target)
      (hverified : request.target.hostVerificationRequired = false)
      (hredirects : ∀ redirect ∈ request.redirects, redirect ∈ scope.allowedRedirects) :
      Covers lib (.network scope) (.network request)
  | skill (scope : SkillScope) : Covers lib (.skill scope) (.skill scope)

theorem networkIsAuthorized_allowed {scope : NetworkScope} {request : NetworkRequest} :
    (networkIsAuthorized scope request).allowed = true ↔
      request.target = scope.target ∧ request.target.hostVerificationRequired = false ∧
        ∀ redirect ∈ request.redirects, redirect ∈ scope.allowedRedirects := by
  unfold networkIsAuthorized
  constructor
  · intro h
    split at h
    · cases h
    rename_i hverified
    split at h
    · cases h
    rename_i htarget
    split at h
    · cases h
    split at h
    · cases h
    rename_i hmissed
    refine ⟨(not_not.1 htarget).symm, Bool.eq_false_iff.2 hverified, ?_⟩
    simpa using hmissed
  · rintro ⟨htarget, hverified, hall⟩
    have hsome : ¬ (request.redirects ≠ [] ∧ scope.allowedRedirects = []) := by
      rintro ⟨hne, hnil⟩
      obtain ⟨redirect, hmem⟩ := exists_mem_of_ne_nil _ hne
      have hin := hall redirect hmem
      rw [hnil] at hin
      cases hin
    rw [hverified, if_neg Bool.false_ne_true, if_neg (not_not_intro htarget.symm), if_neg hsome,
      if_neg (by simpa using hall)]
    rfl

/-- A rule matches the requests that its scope covers. -/
theorem scopeMatches_iff :
    scopeMatches lib capability scope request = true ↔ Covers lib scope request := by
  unfold scopeMatches evaluateRule
  constructor
  · intro h
    split at h
    · split at h
      · rename_i hsome
        obtain ⟨root, hroot, hwithin⟩ := hsome
        exact .path root hroot hwithin
      · cases h
    · split at h
      · exact .command ‹_›
      · cases h
    · obtain ⟨htarget, hverified, hredirects⟩ := networkIsAuthorized_allowed.1 h
      exact .network htarget hverified hredirects
    · unfold skillIsAuthorized at h
      split at h
      · cases h
      rename_i heq
      rw [not_not] at heq
      rw [heq]
      exact .skill _
    · cases h
  · intro h
    cases h with
    | path root hroot hwithin =>
      dsimp only
      rw [if_pos ⟨root, hroot, hwithin⟩]
      rfl
    | command h =>
      dsimp only
      rw [if_pos h]
      rfl
    | network htarget hverified hredirects =>
      exact networkIsAuthorized_allowed.2 ⟨htarget, hverified, hredirects⟩
    | skill scope =>
      dsimp only [skillIsAuthorized]
      rw [if_neg (not_not_intro rfl)]
      rfl

/-! ## Conflicts -/

/-- A test that ends with another result when it succeeds. -/
theorem stop_false {ε β : Type} {x y : Except ε β} {b : β} (hne : x ≠ .ok b) :
    ∀ c, c ≠ false → (if c = true then x else y) ≠ .ok b := by
  intro c hc
  rwa [if_pos (Bool.eq_true_of_not_eq_false hc)]

theorem anyM_eq_false {ε α : Type} {f : α → Except ε Bool} {l : List α} :
    l.anyM f = .ok false ↔ ∀ a ∈ l, f a = .ok false := by
  induction l with
  | nil => exact ⟨fun _ a ha => (by cases ha), fun _ => rfl⟩
  | cons a l ih =>
    rw [forall_mem_cons, ← ih, List.anyM]
    refine bind_eq_ok_of_stop fun b hb => ?_
    cases b with
    | true => exact nofun
    | false => exact absurd rfl hb

/-- Roots of two path scopes that do not overlap are apart. -/
theorem scopesOverlap_path {left right : List PathRoot} :
    scopesOverlap lib (.path left) (.path right) = .ok false ↔
      ∀ a ∈ left, ∀ b ∈ right, pathTextIsWithinRoot lib a b.root = .ok false ∧
        pathTextIsWithinRoot lib b a.root = .ok false := by
  unfold scopesOverlap
  rw [anyM_eq_false]
  refine forall₂_congr fun a _ => ?_
  rw [anyM_eq_false]
  refine forall₂_congr fun b _ => ?_
  exact bind_eq_ok_of_stop (stop_false nofun)

theorem scopesOverlap_symm {left right : Scope} (h : scopesOverlap lib left right = .ok false) :
    scopesOverlap lib right left = .ok false := by
  cases left with
  | path left =>
    cases right with
    | path right =>
      rw [scopesOverlap_path] at h ⊢
      exact fun b hb a ha => (h a ha b hb).symm
    | _ => cases h
  | command left =>
    cases right with
    | command right =>
      have hfalse := of_decide_eq_false (Except.ok.inj h)
      refine congrArg Except.ok (decide_eq_false ?_)
      rintro ⟨hplatform, hargv, hcwd, hnames⟩
      refine hfalse ⟨hplatform.symm, hargv.symm, hcwd.symm, ?_⟩
      rcases hnames with ⟨name, hright, hleft⟩ | hnil | hnil
      · exact .inl ⟨name, hleft, hright⟩
      · exact .inr (.inr hnil)
      · exact .inr (.inl hnil)
    | _ => cases h
  | network left =>
    cases right with
    | network right =>
      have hfalse := of_decide_eq_false (Except.ok.inj h)
      exact congrArg Except.ok (decide_eq_false fun heq => hfalse heq.symm)
    | _ => cases h
  | skill left =>
    cases right with
    | skill right =>
      have hfalse := of_decide_eq_false (Except.ok.inj h)
      exact congrArg Except.ok (decide_eq_false fun heq => hfalse ⟨heq.1.symm, heq.2.symm⟩)
    | _ => cases h

/-- The rules do not conflict. -/
def Harmless (lib : Library) (left right : CompiledCapability) : Prop :=
  conflicting lib left right = .ok false

theorem harmless_symm {right : CompiledCapability} (h : Harmless lib left right) :
    Harmless lib right left := by
  unfold Harmless conflicting at h ⊢
  by_cases hsame : left.capability ≠ right.capability ∨ left.effect = right.effect
  · rw [if_pos (hsame.imp Ne.symm Eq.symm)]
  rw [if_neg hsame] at h
  rw [if_neg fun h => hsame (h.imp Ne.symm Eq.symm)]
  exact scopesOverlap_symm h

theorem findConflictWith_eq_none :
    findConflictWith lib left rules = .ok none ↔ ∀ right ∈ rules, Harmless lib left right := by
  induction rules with
  | nil => exact ⟨fun _ a ha => (by cases ha), fun _ => rfl⟩
  | cons right rules ih =>
    rw [forall_mem_cons, ← ih, findConflictWith, Harmless]
    exact bind_eq_ok_of_stop (stop_false nofun)

theorem findConflict_eq_none :
    findConflict lib rules = .ok none ↔ rules.Pairwise (Harmless lib) := by
  induction rules with
  | nil => exact ⟨fun _ => List.Pairwise.nil, fun _ => rfl⟩
  | cons left rules ih =>
    rw [pairwise_cons, ← ih, ← findConflictWith_eq_none, findConflict]
    refine bind_eq_ok_of_stop fun conflict hne => ?_
    cases conflict with
    | some conflict => exact nofun
    | none => exact absurd rfl hne

/-! ## What is compiled -/

theorem orFail_eq_ok {α : Type} {x : Except PolicyInputError α} {a : α} :
    orFail x = .ok a ↔ x = .ok a := by
  cases x with
  | ok b =>
    constructor
    · intro h
      exact congrArg Except.ok (Except.ok.inj h)
    · intro h
      exact congrArg Except.ok (Except.ok.inj h)
  | error e =>
    constructor
    · intro h
      cases h
    · intro h
      cases h

theorem compileFact_eq_some {fact : CapabilityFact}
    (h : compileFact lib required fact = .ok (some rule)) :
    canonicalCapability lib fact.capability = .ok rule.capability ∧
      normalizeScope lib rule.capability fact.scope = .ok rule.scope ∧
      needsHostVerification rule.scope = false := by
  obtain ⟨capability, hcapability, h⟩ := bind_eq_ok.1 h
  rw [orFail_eq_ok] at hcapability
  split at h
  · cases h
  simp only [bind_eq_ok] at h
  obtain ⟨scope, hscope, effect, -, h⟩ := h
  rw [orFail_eq_ok] at hscope
  split at h
  · cases h
  rename_i hverified
  cases h
  exact ⟨hcapability, hscope, Bool.eq_false_iff.2 hverified⟩

theorem mem_compileFacts {required : Option (List CapabilityName)} {facts : List CapabilityFact}
    {rules : List CompiledCapability} (h : compileFacts lib required facts = .ok rules)
    {rule : CompiledCapability} :
    rule ∈ rules ↔ ∃ fact ∈ facts, compileFact lib required fact = .ok (some rule) := by
  induction facts generalizing rules with
  | nil =>
    cases h
    constructor
    · intro h
      cases h
    · rintro ⟨fact, hfact, -⟩
      cases hfact
  | cons fact facts ih =>
    obtain ⟨first, hfirst, h⟩ := bind_eq_ok.1 h
    obtain ⟨rest, hrest, h⟩ := bind_eq_ok.1 h
    cases h
    rw [mem_append, ih hrest, mem_toList]
    constructor
    · rintro (hrule | ⟨fact', hfact', hrule⟩)
      · exact ⟨fact, mem_cons_self, hfirst.trans (congrArg Except.ok hrule)⟩
      · exact ⟨fact', mem_cons_of_mem _ hfact', hrule⟩
    · rintro ⟨fact', hfact', hrule⟩
      rcases mem_cons.1 hfact' with rfl | hfact'
      · exact .inl (Except.ok.inj (hfirst.symm.trans hrule))
      · exact .inr ⟨fact', hfact', hrule⟩

/-- Facts in another order give the same rules in another order. -/
theorem compileFacts_perm {facts facts' : List CapabilityFact} (hperm : facts.Perm facts')
    (h : compileFacts lib required facts = .ok rules) :
    ∃ rules', compileFacts lib required facts' = .ok rules' ∧ rules.Perm rules' := by
  induction hperm generalizing rules with
  | nil => exact ⟨rules, h, .refl rules⟩
  | cons fact _ ih =>
    obtain ⟨first, hfirst, h⟩ := bind_eq_ok.1 h
    obtain ⟨rest, hrest, h⟩ := bind_eq_ok.1 h
    cases h
    obtain ⟨rest', hrest', hperm⟩ := ih hrest
    refine ⟨first.toList ++ rest', ?_, hperm.append_left _⟩
    simp [compileFacts, hfirst, hrest', bind, Except.bind, pure, Except.pure]
  | swap fact fact' facts =>
    obtain ⟨first, hfirst, h⟩ := bind_eq_ok.1 h
    obtain ⟨tail, htail, h⟩ := bind_eq_ok.1 h
    obtain ⟨second, hsecond, htail⟩ := bind_eq_ok.1 htail
    obtain ⟨rest, hrest, htail⟩ := bind_eq_ok.1 htail
    cases htail
    cases h
    refine ⟨second.toList ++ (first.toList ++ rest), ?_, perm_append_comm_assoc _ _ _⟩
    simp [compileFacts, hfirst, hsecond, hrest, bind, Except.bind, pure, Except.pure]
  | trans _ _ ih₁ ih₂ =>
    obtain ⟨rules₁, h₁, hperm₁⟩ := ih₁ h
    obtain ⟨rules₂, h₂, hperm₂⟩ := ih₂ h₁
    exact ⟨rules₂, h₂, hperm₁.trans hperm₂⟩

/-- What an accepted compilation consists of. -/
structure Accepts (lib : Library) (facts : PermissionFacts) (options : CompileOptions)
    (required : Option (List CapabilityName)) (rules : List CompiledCapability)
    (compiled : Compiled) : Prop where
  checked : checkFacts facts options = .ok ()
  requested : requiredCapabilities lib options.requestedCapabilities = .ok required
  compiles : compileFacts lib required facts.capabilities = .ok rules
  harmless : rules.Pairwise (Harmless lib)
  sorted : compiled.rules = sortRules lib rules
  grant : publicGrant lib facts options.taskId compiled.rules = .ok compiled.grant

theorem compileGrant_eq_ok : compileGrant lib facts options = .ok compiled ↔
      ∃ required rules, Accepts lib facts options required rules compiled := by
  constructor
  · intro h
    obtain ⟨_, hchecked, h⟩ := bind_eq_ok.1 h
    obtain ⟨required, hrequired, h⟩ := bind_eq_ok.1 h
    obtain ⟨rules, hrules, h⟩ := bind_eq_ok.1 h
    obtain ⟨conflict, hconflict, h⟩ := bind_eq_ok.1 h
    rw [orFail_eq_ok] at hrequired hconflict
    cases conflict with
    | some conflict => cases h
    | none =>
      obtain ⟨grant, hgrant, h⟩ := bind_eq_ok.1 h
      cases h
      exact ⟨required, rules, hchecked, hrequired, hrules, findConflict_eq_none.1 hconflict, rfl,
        hgrant⟩
  · rintro ⟨required, rules, h⟩
    obtain ⟨grant, sorted⟩ := compiled
    obtain rfl : sorted = sortRules lib rules := h.sorted
    have hconflict := findConflict_eq_none.2 h.harmless
    have hgrant := h.grant
    simp [compileGrant, h.checked, h.requested, h.compiles, hconflict, hgrant, orFail, bind,
      Except.bind, pure, Except.pure]

/-! ## The order of the facts -/

theorem canonicalTarget_injective (h : canonicalTarget lib a = canonicalTarget lib b) :
    a.scheme = b.scheme ∧ a.host = b.host ∧ a.port = b.port ∧ a.verifiedIps = b.verifiedIps := by
  have hjson := lib.dumps_injective h
  simp only [arr.injEq, cons.injEq, str.injEq, int.injEq, and_true] at hjson
  refine ⟨hjson.1, hjson.2.1, hjson.2.2.1, ?_⟩
  exact map_injective_iff.2 (fun _ _ h => str.inj h) hjson.2.2.2

/-- Compiled network targets that are written alike are the same. -/
theorem eq_of_canonicalTarget (h : canonicalTarget lib a = canonicalTarget lib b)
    (ha : a.hostVerificationRequired = false) (hb : b.hostVerificationRequired = false) :
    a = b := by
  obtain ⟨hscheme, hhost, hport, hips⟩ := canonicalTarget_injective h
  obtain ⟨_, _, _, _, _⟩ := a
  obtain ⟨_, _, _, _, _⟩ := b
  simp_all

theorem eq_of_map_canonicalTarget {as bs : List NetworkTarget}
    (h : (as.map fun target => str (canonicalTarget lib target)) =
      bs.map fun target => str (canonicalTarget lib target))
    (ha : ∀ a ∈ as, a.hostVerificationRequired = false)
    (hb : ∀ b ∈ bs, b.hostVerificationRequired = false) : as = bs := by
  induction as generalizing bs with
  | nil =>
    cases bs with
    | nil => rfl
    | cons b bs => cases h
  | cons a as ih =>
    cases bs with
    | nil => cases h
    | cons b bs =>
      rw [map_cons, map_cons, cons.injEq] at h
      have hfirst := eq_of_canonicalTarget (str.inj h.1) (ha a mem_cons_self) (hb b mem_cons_self)
      have hrest := ih h.2 (fun x hx => ha x (mem_cons_of_mem _ hx))
        (fun x hx => hb x (mem_cons_of_mem _ hx))
      rw [hfirst, hrest]

theorem platform_value_injective {a b : Platform} (h : a.value = b.value) : a = b := by
  revert h
  cases a <;> cases b <;> decide

/-- The kind of a scope that a capability is compiled to. -/
def Scope.Of (capability : CapabilityName) : Scope → Prop
  | .path _ => capability = .pathRead ∨ capability = .pathWrite
  | .command _ => capability = .commandExecute
  | .network _ => capability = .networkConnect
  | .skill _ => capability = .skillUse

theorem scope_of_normalizeScope {raw : RawScope}
    (h : normalizeScope lib capability raw = .ok scope) :
    scope.Of capability ∧ ∀ roots, scope = .path roots → normalizePathScope raw.roots = .ok roots := by
  unfold normalizeScope at h
  split at h
  · obtain ⟨roots, hroots, h⟩ := bind_eq_ok.1 h
    cases h
    exact ⟨.inl rfl, by rintro _ ⟨⟩; exact hroots⟩
  · obtain ⟨roots, hroots, h⟩ := bind_eq_ok.1 h
    cases h
    exact ⟨.inr rfl, by rintro _ ⟨⟩; exact hroots⟩
  · obtain ⟨command, -, h⟩ := bind_eq_ok.1 h
    cases h
    exact ⟨rfl, nofun⟩
  · simp only [bind_eq_ok] at h
    obtain ⟨target, -, redirects, -, h⟩ := h
    cases h
    exact ⟨rfl, nofun⟩
  · obtain ⟨skill, -, h⟩ := bind_eq_ok.1 h
    cases h
    exact ⟨rfl, nofun⟩
  · cases h

/-- Scopes of one capability that are written alike are the same. -/
theorem eq_of_canonical {a b : Scope} (ha : a.Of capability) (hb : b.Of capability)
    (hverified : needsHostVerification a = false) (hverified' : needsHostVerification b = false)
    (h : canonical lib a = canonical lib b) : a = b := by
  have hjson := lib.dumps_injective
  cases a with
  | path left =>
    cases b with
    | path right =>
      have heq := hjson h
      simp only [obj.injEq, cons.injEq, Prod.mk.injEq, arr.injEq, true_and, and_true] at heq
      refine congrArg Scope.path (map_injective_iff.2 ?_ heq)
      intro x y hxy
      simp only [arr.injEq, cons.injEq, str.injEq, and_true] at hxy
      obtain ⟨_, _⟩ := x
      obtain ⟨_, _⟩ := y
      rw [PathRoot.mk.injEq]
      exact ⟨platform_value_injective hxy.1, hxy.2⟩
    | _ => rcases ha with rfl | rfl <;> cases hb
  | command left =>
    cases b with
    | command right =>
      have heq := hjson h
      simp only [obj.injEq, cons.injEq, Prod.mk.injEq, arr.injEq, str.injEq,
        true_and, and_true] at heq
      obtain ⟨_, _, _, _⟩ := left
      obtain ⟨_, _, _, _⟩ := right
      have hargv := map_injective_iff.2 (fun _ _ h => str.inj h) heq.2.1
      have hnames := map_injective_iff.2 (fun _ _ h => str.inj h) heq.2.2.2
      rw [Scope.command.injEq, CommandScope.mk.injEq]
      exact ⟨platform_value_injective heq.1, hargv, heq.2.2.1, hnames⟩
    | path => rcases hb with rfl | rfl <;> cases ha
    | _ =>
      cases ha
      cases hb
  | network left =>
    cases b with
    | network right =>
      have heq := hjson h
      simp only [obj.injEq, cons.injEq, Prod.mk.injEq, arr.injEq, str.injEq,
        true_and, and_true] at heq
      simp only [needsHostVerification, decide_eq_false_iff_not, not_or, not_exists, not_and,
        Bool.not_eq_true] at hverified hverified'
      have htarget := eq_of_canonicalTarget heq.1 hverified.1 hverified'.1
      have hredirects := eq_of_map_canonicalTarget heq.2 hverified.2 hverified'.2
      obtain ⟨_, _⟩ := left
      obtain ⟨_, _⟩ := right
      rw [Scope.network.injEq, NetworkScope.mk.injEq]
      exact ⟨htarget, hredirects⟩
    | path => rcases hb with rfl | rfl <;> cases ha
    | _ =>
      cases ha
      cases hb
  | skill left =>
    cases b with
    | skill right =>
      have heq := hjson h
      simp only [arr.injEq, cons.injEq, str.injEq, and_true] at heq
      obtain ⟨_, _, _⟩ := left
      obtain ⟨_, _, _⟩ := right
      rw [Scope.skill.injEq, SkillScope.mk.injEq]
      exact heq
    | path => rcases hb with rfl | rfl <;> cases ha
    | _ =>
      cases ha
      cases hb

theorem capability_value_injective {a b : CapabilityName} (h : a.value = b.value) : a = b := by
  revert h
  cases a <;> cases b <;> decide

theorem effect_value_injective {a b : Effect} (h : a.value = b.value) : a = b := by
  revert h
  cases a <;> cases b <;> decide

/-- Compiled rules with one place in the order are the same. -/
theorem eq_of_sortKey {g : CapabilityFact} {a b : CompiledCapability}
    (ha : compileFact lib required f = .ok (some a))
    (hb : compileFact lib required g = .ok (some b)) (h : sortKey lib a = sortKey lib b) :
    a = b := by
  have hkey := toLex_inj.1 h
  obtain ⟨hcapability, hrest⟩ := Prod.mk.inj hkey
  obtain ⟨heffect, hscope⟩ := Prod.mk.inj (toLex_inj.1 hrest)
  have hcapability := capability_value_injective hcapability
  obtain ⟨-, hnormal, hverified⟩ := compileFact_eq_some ha
  obtain ⟨-, hnormal', hverified'⟩ := compileFact_eq_some hb
  rw [← hcapability] at hnormal'
  have hscope := eq_of_canonical (scope_of_normalizeScope hnormal).1
    (scope_of_normalizeScope hnormal').1 hverified hverified' hscope
  obtain ⟨_, _, _⟩ := a
  obtain ⟨_, _, _⟩ := b
  rw [CompiledCapability.mk.injEq]
  exact ⟨hcapability, effect_value_injective heffect, hscope⟩

/-- Facts in another order give the same result. -/
theorem compileGrant_perm {facts' : PermissionFacts}
    (hfacts : facts' = { facts with capabilities := facts'.capabilities })
    (hperm : facts.capabilities.Perm facts'.capabilities)
    (h : compileGrant lib facts options = .ok compiled) :
    compileGrant lib facts' options = .ok compiled := by
  obtain ⟨required, rules, h⟩ := compileGrant_eq_ok.1 h
  obtain ⟨rules', hrules', hrulesperm⟩ := compileFacts_perm hperm h.compiles
  have hsorted : sortRules lib rules = sortRules lib rules' := by
    have hkeysorted : ∀ l : List CompiledCapability, (sortRules lib l).Pairwise fun a b =>
        sortKey lib a ≤ sortKey lib b := fun _ => pairwise_insertionSort _ _
    refine List.Perm.eq_of_pairwise ?_ (hkeysorted rules) (hkeysorted rules') ?_
    · intro a b ha hb hab hba
      have hmem := fun x => (@mem_compileFacts _ _ _ _ h.compiles x).1
      have ha' := hmem a ((mem_insertionSort _).1 ha)
      have hb' := hmem b (hrulesperm.mem_iff.2 ((mem_insertionSort _).1 hb))
      obtain ⟨f, -, hf⟩ := ha'
      obtain ⟨g, -, hg⟩ := hb'
      exact eq_of_sortKey hf hg (le_antisymm hab hba)
    · exact ((perm_insertionSort _ _).trans hrulesperm).trans (perm_insertionSort _ _).symm
  refine compileGrant_eq_ok.2 ⟨required, rules', ?_⟩
  constructor
  · rw [hfacts]
    exact h.checked
  · exact h.requested
  · exact hrules'
  · exact hrulesperm.pairwise h.harmless harmless_symm
  · exact h.sorted.trans hsorted
  · rw [hfacts]
    exact h.grant

/-! ## Decisions -/

def Request.redirects : Request → List NetworkTarget
  | .network request => request.redirects
  | _ => []

/-- The request lies in an allow rule of the capability, and no deny rule of it covers the
request or a redirect target of it. -/
structure Judged (lib : Library) (rules : List CompiledCapability) (capability : CapabilityName)
    (request : Request) : Prop where
  allowed : ∃ rule ∈ rules, rule.effect = .allow ∧ rule.capability = capability ∧
    Covers lib rule.scope request
  denied : ∀ rule ∈ rules, rule.effect = .deny → rule.capability = capability →
    ¬ Covers lib rule.scope request
  redirects : ∀ rule ∈ rules, rule.effect = .deny → rule.capability = capability →
    ∀ target ∈ request.redirects, ¬ Covers lib rule.scope (.network ⟨target, []⟩)

theorem decideAllow_allowed {failed : Option Decision} (hfailed : ∀ d ∈ failed, d.allowed = false)
    (h : (decideAllow lib capability request rules failed).allowed = true) :
    ∃ rule ∈ rules, rule.effect = .allow ∧ scopeMatches lib capability rule.scope request = true := by
  induction rules generalizing failed with
  | nil =>
    cases failed with
    | none => cases h
    | some d =>
      have hd : d.allowed = true := h
      rw [hfailed d rfl] at hd
      cases hd
  | cons rule rules ih =>
    unfold decideAllow at h
    split at h
    · obtain ⟨rule', hrule', hmatch⟩ := ih hfailed h
      exact ⟨rule', mem_cons_of_mem _ hrule', hmatch⟩
    rename_i heffect
    rw [not_not] at heffect
    dsimp only at h
    split at h
    · exact ⟨rule, mem_cons_self, heffect, h⟩
    rename_i hnot
    rw [not_or, Bool.not_eq_true] at hnot
    have hfailed' : ∀ d ∈ some (evaluateRule lib capability rule.scope request),
        d.allowed = false := by
      intro d hd
      cases hd
      exact hnot.1
    obtain ⟨rule', hrule', hmatch⟩ := ih hfailed' h
    exact ⟨rule', mem_cons_of_mem _ hrule', hmatch⟩

/-- A request that one of the allow rules matches is allowed, unless one of them asks for host
verification. -/
theorem decideAllow_of_matches (failed : Option Decision) (hverified : ∀ rule ∈ rules,
      (evaluateRule lib capability rule.scope request).status ≠ .hostVerificationRequired)
    (h : ∃ rule ∈ rules, rule.effect = .allow ∧
      scopeMatches lib capability rule.scope request = true) :
    (decideAllow lib capability request rules failed).allowed = true := by
  induction rules generalizing failed with
  | nil =>
    obtain ⟨rule, hrule, -⟩ := h
    cases hrule
  | cons rule rules ih =>
    have hrest := fun failed hsome =>
      ih failed (fun rule' hrule' => hverified rule' (mem_cons_of_mem _ hrule')) hsome
    obtain ⟨rule', hrule', heffect', hmatch'⟩ := h
    unfold decideAllow
    by_cases heffect : rule.effect = .allow
    · rw [if_neg (not_not_intro heffect)]
      dsimp only
      split
      · rename_i hstop
        rcases hstop with hallowed | hstatus
        · exact hallowed
        · exact absurd hstatus (hverified rule mem_cons_self)
      rename_i hstop
      rw [not_or] at hstop
      apply hrest
      rcases mem_cons.1 hrule' with rfl | hrule'
      · exact absurd hmatch' hstop.1
      · exact ⟨rule', hrule', heffect', hmatch'⟩
    · rw [if_pos heffect]
      apply hrest
      rcases mem_cons.1 hrule' with rfl | hrule'
      · exact absurd heffect' heffect
      · exact ⟨rule', hrule', heffect', hmatch'⟩

theorem decideWithRules_allowed {raw : RawRequest}
    (h : (decideWithRules lib rules capability raw).allowed = true) :
    ∃ request, normalizeRequest lib capability raw = .ok request ∧
      (∃ rule ∈ rules, rule.effect = .allow ∧ rule.capability = capability ∧
        Covers lib rule.scope request) ∧
      ∀ rule ∈ rules, rule.effect = .deny → rule.capability = capability →
        ¬ Covers lib rule.scope request := by
  unfold decideWithRules at h
  split at h
  · cases h
  rename_i request hrequest
  dsimp only at h
  split at h
  · cases h
  split at h
  · cases h
  rename_i hdeny
  refine ⟨request, hrequest, ?_, ?_⟩
  · obtain ⟨rule, hrule, heffect, hmatch⟩ := decideAllow_allowed (by simp) h
    obtain ⟨hrule, hcapability⟩ := mem_filter.1 hrule
    exact ⟨rule, hrule, heffect, of_decide_eq_true hcapability, scopeMatches_iff.1 hmatch⟩
  · intro rule hrule heffect hcapability hcovers
    refine hdeny ⟨rule, mem_filter.2 ⟨hrule, decide_eq_true hcapability⟩, heffect, ?_⟩
    exact scopeMatches_iff.2 hcovers

/-! ## The law and its condition -/

/-- Deny rules win, no request lies in an allow and in a deny rule, and the order of the facts
does not matter. -/
structure DenyWins (lib : Library) (facts : PermissionFacts) (options : CompileOptions) : Prop where
  decided : ∀ compiled, compileGrant lib facts options = .ok compiled →
    ∀ capability raw expected now taskId,
      (decide lib (.result (.ok compiled)) capability raw expected now taskId).allowed = true →
        ∃ name request, canonicalCapability lib capability = .ok name ∧
          normalizeRequest lib name raw = .ok request ∧ Judged lib compiled.rules name request
  decidedFacts : options.requestedCapabilities = none →
    ∀ compiled, compileGrant lib facts options = .ok compiled → ∀ capability raw,
      (decide lib (.facts facts) capability raw options.expectedRevision options.now
        options.taskId).allowed = true →
        ∃ name request, canonicalCapability lib capability = .ok name ∧
          normalizeRequest lib name raw = .ok request ∧ Judged lib compiled.rules name request
  disjoint : ∀ compiled, compileGrant lib facts options = .ok compiled →
    ∀ name raw request, normalizeRequest lib name raw = .ok request →
      ∀ a ∈ compiled.rules, ∀ d ∈ compiled.rules, a.effect = .allow → d.effect = .deny →
        a.capability = name → d.capability = name →
          ¬ (Covers lib a.scope request ∧ Covers lib d.scope request)
  permuted : ∀ facts' : PermissionFacts,
    facts' = { facts with capabilities := facts'.capabilities } →
      facts.capabilities.Perm facts'.capabilities →
        (compileGrant lib facts' options).toOption = (compileGrant lib facts options).toOption

/-- What the comparison of an allow and a deny scope misses. -/
def Scope.Apart : Scope → Scope → Prop
  | .command a, .command d => ¬ (a.platform = d.platform ∧ a.argv = d.argv ∧ a.cwd = d.cwd)
  | .network a, .network d => d.target ∉ a.allowedRedirects
  | _, _ => True

/-- Of the facts of a compilation, no two command facts of opposite effect have one argument
list and directory, and no allowed redirect is the target of a denied one. -/
def FactsApart (lib : Library) (facts : PermissionFacts) (options : CompileOptions) : Prop :=
  (∃ compiled, compileGrant lib facts options = .ok compiled) →
    ∀ required, requiredCapabilities lib options.requestedCapabilities = .ok required →
      ∀ f ∈ facts.capabilities, ∀ g ∈ facts.capabilities, ∀ name a d,
        compileFact lib required f = .ok (some ⟨name, .allow, a⟩) →
          compileFact lib required g = .ok (some ⟨name, .deny, d⟩) → a.Apart d

section Iff

variable {required : Option (List CapabilityName)} {rules : List CompiledCapability}
variable {expected now : Option Int} {name : CapabilityName}

/-- A rule of a compilation is the rule of a fact. -/
theorem Accepts.fact (h : Accepts lib facts options required rules compiled) :
    rule ∈ compiled.rules ↔
      ∃ fact ∈ facts.capabilities, compileFact lib required fact = .ok (some rule) := by
  rw [h.sorted, sortRules, mem_insertionSort]
  exact mem_compileFacts h.compiles

variable {a d : CompiledCapability} {raw : RawRequest}

/-- The roots of a compiled path scope are normal. -/
theorem normal_of_normalizeScope {raw : RawScope} {roots : List PathRoot}
    (h : normalizeScope lib capability raw = .ok (.path roots)) : ∀ root ∈ roots, root.Normal := by
  have hpath := (scope_of_normalizeScope h).2 roots rfl
  intro root hroot
  unfold normalizePathScope at hpath
  split at hpath
  · cases hpath
  obtain ⟨normals, hnormals, hpath⟩ := bind_eq_ok.1 hpath
  split at hpath
  · cases hpath
  cases hpath
  rw [mem_insertionSort, mem_dedup] at hroot
  obtain ⟨text, -, hnormal⟩ := mem_of_mapM_ok hnormals hroot
  exact ⟨_, _, hnormal⟩

section Pair

variable (h : Accepts lib facts options required rules compiled) (ha : a ∈ compiled.rules)
  (hd : d ∈ compiled.rules) (haeffect : a.effect = .allow) (hdeffect : d.effect = .deny)
  (hcapability : a.capability = d.capability)

include h ha hd haeffect hdeffect hcapability

/-- An allow and a deny rule of one capability do not overlap. -/
theorem Accepts.apart : scopesOverlap lib a.scope d.scope = .ok false := by
  rw [h.sorted, sortRules, mem_insertionSort] at ha hd
  have hne : a ≠ d := by
    rintro rfl
    rw [haeffect] at hdeffect
    cases hdeffect
  have hsymm : Std.Symm (Harmless lib) := ⟨fun _ _ => harmless_symm⟩
  have hharmless : Harmless lib a d := h.harmless.forall ha hd hne
  unfold Harmless conflicting at hharmless
  rwa [if_neg (by rw [haeffect, hdeffect, hcapability]; simp)] at hharmless

/-- A request in an allow and in a deny rule is a command, of two rules that are not apart. -/
theorem Accepts.disjoint (happart : a.capability = .commandExecute → a.scope.Apart d.scope)
    (hcovers : Covers lib a.scope request) : ¬ Covers lib d.scope request := by
  intro hcovers'
  have hoverlap := h.apart ha hd haeffect hdeffect hcapability
  obtain ⟨f, -, hf⟩ := h.fact.1 ha
  obtain ⟨g, -, hg⟩ := h.fact.1 hd
  obtain ⟨-, hnormal, -⟩ := compileFact_eq_some hf
  obtain ⟨-, hnormal', -⟩ := compileFact_eq_some hg
  obtain ⟨_, _, ascope⟩ := a
  obtain ⟨_, _, dscope⟩ := d
  cases hcovers with
  | path root hroot hwithin =>
    cases hcovers' with
    | path root' hroot' hwithin' =>
      obtain ⟨hab, hba⟩ := scopesOverlap_path.1 hoverlap root hroot root' hroot'
      exact not_within_both (normal_of_normalizeScope hnormal root hroot)
        (normal_of_normalizeScope hnormal' root' hroot') hwithin hwithin' hab hba
  | command hauthorized =>
    cases hcovers' with
    | command hauthorized' =>
      obtain ⟨hplatform, hargv, hcwd, -⟩ := of_decide_eq_true hauthorized
      obtain ⟨hplatform', hargv', hcwd', -⟩ := of_decide_eq_true hauthorized'
      exact happart (scope_of_normalizeScope hnormal).1 ⟨hplatform.trans hplatform'.symm,
        hargv.trans hargv'.symm, hcwd.trans hcwd'.symm⟩
  | network htarget _ _ =>
    cases hcovers' with
    | network htarget' _ _ =>
      exact of_decide_eq_false (Except.ok.inj hoverlap) (htarget.symm.trans htarget')
  | skill scope =>
    cases hcovers'
    exact of_decide_eq_false (Except.ok.inj hoverlap) ⟨rfl, rfl⟩

theorem Accepts.scopesApart (hcompiles : compileGrant lib facts options = .ok compiled)
    (hfacts : FactsApart lib facts options) : a.scope.Apart d.scope := by
  obtain ⟨f, hf, hrule⟩ := h.fact.1 ha
  obtain ⟨g, hg, hrule'⟩ := h.fact.1 hd
  obtain ⟨name, effect, scope⟩ := a
  obtain ⟨name', effect', scope'⟩ := d
  subst haeffect hdeffect hcapability
  exact hfacts ⟨compiled, hcompiles⟩ required h.requested f hf g hg name scope scope' hrule hrule'

end Pair

theorem Accepts.judged (h : Accepts lib facts options required rules compiled)
    (hcompiles : compileGrant lib facts options = .ok compiled)
    (hfacts : FactsApart lib facts options)
    (hallowed : (decideWithRules lib compiled.rules capability raw).allowed = true) :
    ∃ request, normalizeRequest lib capability raw = .ok request ∧
      Judged lib compiled.rules capability request := by
  obtain ⟨request, hrequest, ⟨a, ha, haeffect, hacapability, hcovers⟩, hdenied⟩ :=
    decideWithRules_allowed hallowed
  refine ⟨request, hrequest, ⟨a, ha, haeffect, hacapability, hcovers⟩, hdenied, ?_⟩
  intro d hd hdeffect hdcapability target htarget hcovers'
  have happart := h.scopesApart ha hd haeffect hdeffect (hacapability.trans hdcapability.symm)
    hcompiles hfacts
  obtain ⟨_, _, ascope⟩ := a
  obtain ⟨_, _, dscope⟩ := d
  cases hcovers with
  | network _ _ hredirects =>
    cases hcovers' with
    | network htarget' _ _ =>
      apply happart
      rw [← htarget']
      exact hredirects target htarget
  | _ => cases htarget

theorem checkGrantFreshness_denies {grant : GrantSnapshot} {d : Decision}
    (h : checkGrantFreshness grant expected now = some d) : d.allowed = false := by
  unfold checkGrantFreshness at h
  split at h
  · cases h
    rfl
  split at h
  · cases h
    rfl
  split at h
  · cases h
    rfl
  · cases h

/-- What is decided over compiled rules is allowed by them. -/
theorem decide_result_allowed {text : String} {taskId : String}
    (h : (decide lib (.result (.ok compiled)) text raw expected now taskId).allowed = true) :
    ∃ name, canonicalCapability lib text = .ok name ∧
      (decideWithRules lib compiled.rules name raw).allowed = true := by
  unfold decide at h
  split at h
  · cases h
  rename_i name hname
  dsimp only at h
  cases hfresh : checkGrantFreshness compiled.grant expected now with
  | some d =>
    rw [hfresh, getD_some, checkGrantFreshness_denies hfresh] at h
    cases h
  | none =>
    rw [hfresh, getD_none] at h
    exact ⟨name, hname, h⟩

theorem denyWins_of_apart (hfacts : FactsApart lib facts options) : DenyWins lib facts options := by
  constructor
  · intro compiled hcompiles capability raw expected now taskId hallowed
    obtain ⟨required, rules, haccepts⟩ := compileGrant_eq_ok.1 hcompiles
    obtain ⟨name, hname, hallowed⟩ := decide_result_allowed hallowed
    obtain ⟨request, hrequest, hjudged⟩ := haccepts.judged hcompiles hfacts hallowed
    exact ⟨name, request, hname, hrequest, hjudged⟩
  · intro hnone compiled hcompiles capability raw hallowed
    obtain ⟨required, rules, haccepts⟩ := compileGrant_eq_ok.1 hcompiles
    have hoptions : (⟨options.taskId, options.expectedRevision, options.now, none⟩ : CompileOptions) =
        options := by
      rw [← hnone]
    unfold decide at hallowed
    split at hallowed
    · cases hallowed
    rename_i name hname
    dsimp only at hallowed
    rw [hoptions, hcompiles] at hallowed
    obtain ⟨request, hrequest, hjudged⟩ := haccepts.judged hcompiles hfacts hallowed
    exact ⟨name, request, hname, hrequest, hjudged⟩
  · intro compiled hcompiles name raw request _ a ha d hd haeffect hdeffect hacapability
      hdcapability ⟨hcovers, hcovers'⟩
    obtain ⟨required, rules, haccepts⟩ := compileGrant_eq_ok.1 hcompiles
    have hcapability := hacapability.trans hdcapability.symm
    have happart := haccepts.scopesApart ha hd haeffect hdeffect hcapability hcompiles hfacts
    exact haccepts.disjoint ha hd haeffect hdeffect hcapability (fun _ => happart) hcovers hcovers'
  · intro facts' hsame hperm
    have hback : facts = { facts' with capabilities := facts.capabilities } := by
      rw [hsame]
    cases hresult : compileGrant lib facts options with
    | ok compiled => rw [compileGrant_perm hsame hperm hresult]
    | error e =>
      cases hresult' : compileGrant lib facts' options with
      | error e' => rfl
      | ok compiled =>
        rw [compileGrant_perm hback hperm.symm hresult'] at hresult
        cases hresult

/-! The condition is needed: a request that both rules cover, and one whose redirect is denied. -/

theorem normalizeCommandScope_bare {argv envNames : List String} {cwd platform : String}
    {scope : CommandScope} (h : normalizeCommandScope argv cwd envNames platform = .ok scope) :
    normalizeCommandScope argv cwd [] platform = .ok { scope with envNames := [] } := by
  obtain ⟨platform', hplatform, h⟩ := bind_eq_ok.1 h
  refine bind_eq_ok.2 ⟨platform', hplatform, ?_⟩
  cases argv with
  | nil => cases h
  | cons executable arguments =>
    dsimp only at h ⊢
    split at h
    · cases h
    rename_i hargs
    rw [if_neg hargs]
    split at h
    · cases h
    rename_i hname
    rw [if_neg hname]
    obtain ⟨request, hrequest, h⟩ := bind_eq_ok.1 h
    refine bind_eq_ok.2 ⟨request, hrequest, ?_⟩
    split at h
    · cases h
    · cases h
      rfl

/-- The request needs no evidence of a host. -/
def Request.Verified : Request → Prop
  | .network request => request.target.hostVerificationRequired = false
  | _ => True

/-- No rule asks for the verification of a host that is verified. -/
theorem status_of_verified (hverified : request.Verified) :
    (evaluateRule lib capability scope request).status ≠ .hostVerificationRequired := by
  unfold evaluateRule
  split
  · split <;> exact noConfusion
  · split <;> exact noConfusion
  · rename_i scope request
    have hfalse : request.target.hostVerificationRequired = false := hverified
    unfold networkIsAuthorized
    rw [if_neg (by rw [hfalse]; decide)]
    -- every other answer is an outright allow or deny
    split
    · exact noConfusion
    split
    · exact noConfusion
    split <;> exact noConfusion
  · unfold skillIsAuthorized
    split <;> exact noConfusion
  · exact noConfusion

/-- The rules allow what an allow rule covers and no deny rule does. -/
theorem decideWithRules_of_covers (hrequest : normalizeRequest lib capability raw = .ok request)
    (hverified : request.Verified)
    (hallow : ∃ rule ∈ rules, rule.effect = .allow ∧ rule.capability = capability ∧
      Covers lib rule.scope request)
    (hdeny : ∀ rule ∈ rules, rule.effect = .deny → rule.capability = capability →
      ¬ Covers lib rule.scope request) :
    (decideWithRules lib rules capability raw).allowed = true := by
  obtain ⟨rule, hrule, heffect, hcapability, hcovers⟩ := hallow
  have hmatching : rule ∈ rules.filter fun rule => rule.capability = capability :=
    mem_filter.2 ⟨hrule, decide_eq_true hcapability⟩
  unfold decideWithRules
  rw [hrequest]
  dsimp only
  rw [if_neg (ne_nil_of_mem hmatching), if_neg]
  · apply decideAllow_of_matches
    · intro rule' _
      exact status_of_verified hverified
    · exact ⟨rule, hmatching, heffect, scopeMatches_iff.2 hcovers⟩
  · rintro ⟨rule', hrule', heffect', hmatch⟩
    obtain ⟨hrule', hcapability'⟩ := mem_filter.1 hrule'
    exact hdeny rule' hrule' heffect' (of_decide_eq_true hcapability') (scopeMatches_iff.1 hmatch)

/-- A grant that has not expired is fresh. -/
theorem checkGrantFreshness_before (grant : GrantSnapshot) :
    checkGrantFreshness grant none (some (grant.expiresAt - 1)) = none := by
  unfold checkGrantFreshness
  rw [if_neg (by rintro ⟨_, h, -⟩; cases h)]
  dsimp only
  rw [if_neg (by omega)]

theorem command_apart (hwins : DenyWins lib facts options)
    (hcompiles : compileGrant lib facts options = .ok compiled) {raw : RawScope}
    {a d : CommandScope} (hscope : normalizeScope lib name raw = .ok (.command a))
    (ha : ⟨name, .allow, .command a⟩ ∈ compiled.rules)
    (hd : ⟨name, .deny, .command d⟩ ∈ compiled.rules) : (Scope.command a).Apart (.command d) := by
  rintro ⟨hplatform, hargv, hcwd⟩
  obtain rfl : name = .commandExecute := (scope_of_normalizeScope hscope).1
  obtain ⟨command, hcommand, hscope⟩ := bind_eq_ok.1 hscope
  cases hscope
  let bare : RawRequest :=
    { argv := raw.argv, cwd := raw.cwd, envNames := [], platform := raw.platform }
  have hbare : normalizeRequest lib .commandExecute bare = .ok (.command { a with envNames := [] }) :=
    bind_eq_ok.2 ⟨_, normalizeCommandScope_bare hcommand, rfl⟩
  have hcovers : ∀ scope : CommandScope, scope.platform = a.platform → scope.argv = a.argv →
      scope.cwd = a.cwd → Covers lib (.command scope) (.command { a with envNames := [] }) := by
    intro scope hplatform hargv hcwd
    refine .command (decide_eq_true ⟨hplatform, hargv, hcwd, ?_⟩)
    intro name hname
    cases hname
  exact hwins.disjoint compiled hcompiles .commandExecute bare _ hbare _ ha _ hd rfl rfl rfl rfl
    ⟨hcovers a rfl rfl rfl, hcovers d hplatform.symm hargv.symm hcwd.symm⟩

theorem network_apart (hwins : DenyWins lib facts options)
    (hcompiles : compileGrant lib facts options = .ok compiled)
    (haccepts : Accepts lib facts options required rules compiled) {a d : NetworkScope}
    (hf : compileFact lib required f = .ok (some ⟨name, .allow, .network a⟩))
    (ha : ⟨name, .allow, .network a⟩ ∈ compiled.rules)
    (hd : ⟨name, .deny, .network d⟩ ∈ compiled.rules)
    (hdverified : d.target.hostVerificationRequired = false) :
    (Scope.network a).Apart (.network d) := by
  intro hredirect
  obtain ⟨hname, hscope, hverified⟩ := compileFact_eq_some hf
  have haverified : a.target.hostVerificationRequired = false := by
    simp only [needsHostVerification, decide_eq_false_iff_not, not_or, Bool.not_eq_true] at hverified
    exact hverified.1
  obtain rfl : name = .networkConnect := (scope_of_normalizeScope hscope).1
  obtain ⟨target, htarget, hscope⟩ := bind_eq_ok.1 hscope
  obtain ⟨redirects, hredirects, hscope⟩ := bind_eq_ok.1 hscope
  cases hscope
  obtain ⟨redirect, -, hnormal⟩ := mem_of_mapM_ok hredirects hredirect
  -- The request follows the redirect whose target is denied.
  let raw : RawRequest := { target := f.scope.target, redirects := [redirect] }
  have hrequest : normalizeRequest lib .networkConnect raw =
      .ok (.network ⟨target, [d.target]⟩) := by
    refine bind_eq_ok.2 ⟨target, htarget, bind_eq_ok.2 ⟨[d.target], ?_, rfl⟩⟩
    rw [mapM_cons, hnormal]
    rfl
  have hallowed : (decideWithRules lib compiled.rules .networkConnect raw).allowed = true := by
    refine decideWithRules_of_covers hrequest haverified ⟨_, ha, rfl, rfl, ?_⟩ ?_
    · refine .network rfl haverified ?_
      intro other hother
      rw [mem_singleton.1 hother]
      exact hredirect
    · intro rule hrule heffect hcapability hcovers
      have hoverlap := haccepts.apart ha hrule rfl heffect hcapability.symm
      obtain ⟨_, _, scope⟩ := rule
      cases hcovers with
      | network htarget' _ _ => exact of_decide_eq_false (Except.ok.inj hoverlap) htarget'
  have hdecided : (decide lib (.result (.ok compiled)) f.capability raw none
      (some (compiled.grant.expiresAt - 1))).allowed = true := by
    unfold decide
    rw [hname]
    dsimp only
    rw [checkGrantFreshness_before, getD_none]
    exact hallowed
  obtain ⟨name, request, hname', hrequest', hjudged⟩ :=
    hwins.decided compiled hcompiles _ _ _ _ _ hdecided
  cases hname.symm.trans hname'
  cases hrequest.symm.trans hrequest'
  refine hjudged.redirects _ hd rfl rfl d.target mem_cons_self ?_
  refine .network rfl hdverified ?_
  intro other hother
  cases hother

theorem apart_of_denyWins (hwins : DenyWins lib facts options) : FactsApart lib facts options := by
  rintro ⟨compiled, hcompiles⟩ required hrequired f hf g hg name a d hfa hgd
  obtain ⟨required', rules, haccepts⟩ := compileGrant_eq_ok.1 hcompiles
  cases haccepts.requested.symm.trans hrequired
  have ha := haccepts.fact.2 ⟨f, hf, hfa⟩
  have hd := haccepts.fact.2 ⟨g, hg, hgd⟩
  obtain ⟨-, hscope, -⟩ := compileFact_eq_some hfa
  obtain ⟨-, -, hverified⟩ := compileFact_eq_some hgd
  cases a with
  | command a =>
    cases d with
    | command d => exact command_apart hwins hcompiles hscope ha hd
    | _ => trivial
  | network a =>
    cases d with
    | network d =>
      simp only [needsHostVerification, decide_eq_false_iff_not, not_or, Bool.not_eq_true] at hverified
      exact network_apart hwins hcompiles haccepts hfa ha hd hverified.1
    | _ => trivial
  | _ => cases d <;> trivial

end Iff

/-- Deny rules win exactly if the facts are apart. -/
theorem deny_wins_iff (lib : Library) (facts : PermissionFacts) (options : CompileOptions) :
    DenyWins lib facts options ↔ FactsApart lib facts options :=
  ⟨apart_of_denyWins, denyWins_of_apart⟩

/-- A host with the evidence of its public address. -/
def publicHost (host : String) : RawTarget := ⟨"https", host, none, ["93.184.216.34"]⟩

/-- A host may be reached and may redirect to another one, which is denied; a command is allowed
with one environment variable and denied with another. -/
def push (envNames : List String) : RawScope :=
  { argv := ["git", "push"], cwd := "/repo", envNames := envNames, platform := "posix" }

def missedDenials : PermissionFacts where
  revision := 1
  capabilities := [ ⟨"network.connect",
      { target := publicHost "a.example", allowedRedirects := [publicHost "b.example"] }, "allow"⟩,
    ⟨"network.connect", { target := publicHost "b.example" }, "deny"⟩,
    ⟨"command.execute", push ["HOME"], "allow"⟩,
    ⟨"command.execute", push ["TOKEN"], "deny"⟩]

def publicLibrary : Library := .ascii [("93.184.216.34", .ofGlobal "93.184.216.34")]

/-- A host as the facts compile it. -/
def compiledHost (host : String) : NetworkTarget := ⟨"https", host, 443, ["93.184.216.34"], false⟩

/-- A redirect to the denied host is allowed. -/
theorem deny_missed : ¬ DenyWins publicLibrary missedDenials ⟨"task", none, none, none⟩ := by
  intro hwins
  have hcompiles :
      (compileGrant publicLibrary missedDenials ⟨"task", none, none, none⟩).toOption.isSome := by
    decide +kernel
  have haccepted : ∃ compiled,
      compileGrant publicLibrary missedDenials ⟨"task", none, none, none⟩ = .ok compiled := by
    cases h : compileGrant publicLibrary missedDenials ⟨"task", none, none, none⟩ with
    | ok compiled => exact ⟨compiled, rfl⟩
    | error e =>
      rw [h] at hcompiles
      cases hcompiles
  have hapart := apart_of_denyWins hwins haccepted none rfl
    _ (List.mem_cons_self) _ (List.mem_cons_of_mem _ List.mem_cons_self) .networkConnect
    (.network ⟨compiledHost "a.example", [compiledHost "b.example"]⟩)
    (.network ⟨compiledHost "b.example", []⟩) (by decide +kernel) (by decide +kernel)
  exact hapart List.mem_cons_self

end Capabilities
