import EchoDesk.Capabilities.CatalogPaths
import EchoDesk.Capabilities.DenyRules

/-! # Frozen grants

The public snapshot keeps the parts of the allow rules apart: roots, executables, environment
names, schemes, hosts, ports, skills and versions. What it allows is made of parts of allow
rules, and where the parts belong to one rule, the rules allow it too; parts of several rules
are combined freely.
-/

namespace Capabilities

open EchoDesk LexicalPath Transaction List GrantSnapshot

variable {lib : Library} {facts : PermissionFacts} {options : CompileOptions} {compiled : Compiled}
  {grant : GrantSnapshot} {request : CapabilityRequest} {now : Int} {revision : Option Int}
variable {rules : List CompiledCapability} {name : CapabilityName} {scope : Scope}
  {root : WorkspaceCapability}
variable {cs : List Char} {c : Char}

/-! ## Texts without spaces -/

theorem isSpace_of_printable (h : 33 ≤ c.toNat ∧ c.toNat ≤ 126) : isSpace c = false := by
  unfold isSpace
  simp only [decide_eq_false_iff_not]
  omega

theorem isSpace_of_alphanum (h : c.isAlphanum = true) : isSpace c = false := by
  apply isSpace_of_printable
  delta Char.isAlphanum Char.isAlpha Char.isUpper Char.isLower Char.isDigit at h
  simp only [Bool.or_eq_true, Bool.and_eq_true, decide_eq_true_eq, ge_iff_le, UInt32.le_iff_toNat_le] at h
  have hval : c.val.toNat = c.toNat := rfl
  have h0 : '0'.val.toNat = 48 := rfl
  have h9 : '9'.val.toNat = 57 := rfl
  have ha : 'a'.val.toNat = 97 := rfl
  have hz : 'z'.val.toNat = 122 := rfl
  have hA : 'A'.val.toNat = 65 := rfl
  have hZ : 'Z'.val.toNat = 90 := rfl
  omega

theorem unspaced_of_isEnvName {name : String} (h : isEnvName name = true) :
    ∀ c ∈ name.toList, isSpace c = false := by
  intro c hc
  unfold isEnvName at h
  split at h
  · cases h
  rename_i d cs hname
  rw [hname] at hc
  obtain ⟨hfirst, hrest⟩ := of_decide_eq_true h
  rcases mem_cons.1 hc with rfl | hc
  · rcases hfirst with hfirst | rfl
    · exact isSpace_of_alphanum (Bool.or_eq_true_iff.2 (.inl hfirst))
    · decide
  · rcases hrest c hc with hc | rfl
    · exact isSpace_of_alphanum hc
    · decide

theorem mem_takeWhile_or {d : Char} (h : c ∈ cs) : c ∈ cs.takeWhile (fun x => x ≠ d) ∨ c = d ∨
      c ∈ cs.drop ((cs.takeWhile fun x => x ≠ d).length + 1) := by
  induction cs with
  | nil => cases h
  | cons x cs ih =>
    by_cases hx : x = d
    · rw [takeWhile_cons_of_neg (by simp [hx])]
      rcases mem_cons.1 h with rfl | h
      · exact .inr (.inl hx)
      · exact .inr (.inr h)
    rw [takeWhile_cons_of_pos (by simp [hx]), length_cons, drop_succ_cons]
    rcases mem_cons.1 h with rfl | h
    · exact .inl mem_cons_self
    rcases ih h with h | h
    · exact .inl (mem_cons_of_mem _ h)
    · exact .inr h

theorem unspaced_of_areIdentifiers (h : areIdentifiers cs = true) :
    ∀ c ∈ cs, isSpace c = false := by
  intro c hc
  rcases mem_splitOn '.' hc with rfl | ⟨part, hpart, hc⟩
  · decide
  rcases (of_decide_eq_true h part hpart).2 c hc with hc | rfl
  · exact isSpace_of_alphanum hc
  · decide

theorem unspaced_of_isVersionNumber (h : isVersionNumber cs = true) :
    ∀ c ∈ cs, isSpace c = false := by
  intro c hc
  rcases of_decide_eq_true h with rfl | ⟨-, -, hdigits⟩
  · rw [mem_singleton.1 hc]
    decide
  · exact isSpace_of_alphanum (Bool.or_eq_true_iff.2 (.inr (hdigits c hc)))

theorem unspaced_of_isSemver {version : String} (h : isSemver version = true) :
    ∀ c ∈ version.toList, isSpace c = false := by
  obtain ⟨-, hnumbers, hpre, hbuild⟩ := of_decide_eq_true h
  have hcore : ∀ c ∈ (version.toList.takeWhile fun c => c ≠ '+').takeWhile (fun c => c ≠ '-'),
      isSpace c = false := by
    intro c hc
    rcases mem_splitOn '.' hc with rfl | ⟨part, hpart, hc⟩
    · decide
    · exact unspaced_of_isVersionNumber (hnumbers part hpart) c hc
  have hmain : ∀ c ∈ version.toList.takeWhile (fun c => c ≠ '+'), isSpace c = false := by
    intro c hc
    rcases hpre with heq | hpre
    · rw [← heq] at hc
      exact hcore c hc
    rcases mem_takeWhile_or (d := '-') hc with hc | rfl | hc
    · exact hcore c hc
    · decide
    · exact unspaced_of_areIdentifiers hpre c hc
  intro c hc
  rcases hbuild with heq | hbuild
  · rw [← heq] at hc
    exact hmain c hc
  rcases mem_takeWhile_or (d := '+') hc with hc | rfl | hc
  · exact hmain c hc
  · decide
  · exact unspaced_of_areIdentifiers hbuild c hc

/-! ## Snapshots of a grant -/

/-- The snapshot that is published, or one that is bound to what a host has observed. -/
inductive Snapshot (lib : Library) (compiled : Compiled) : GrantSnapshot → Prop
  | published : Snapshot lib compiled compiled.grant
  | bound {evidence : VerifiedWorkspaceBinding} {grant : GrantSnapshot}
      (h : bindVerifiedWorkspace lib compiled.grant evidence = .ok grant) :
      Snapshot lib compiled grant

/-- What a bound snapshot has of the published one. -/
structure Frozen (compiled : Compiled) (grant : GrantSnapshot) : Prop where
  command : grant.command = compiled.grant.command
  network : grant.network = compiled.grant.network
  skills : grant.skills = compiled.grant.skills
  expiresAt : grant.expiresAt = compiled.grant.expiresAt
  roots : ∀ root ∈ grant.workspaceRoots, ∃ original ∈ compiled.grant.workspaceRoots,
    root.canonicalPath = original.canonicalPath ∧ root.rights = original.rights

theorem mem_keyed {α : Type} {key : α → String × String} {l : List α}
    {entry : (String × String) × α} (h : entry ∈ keyed key l) : entry.2 ∈ l := by
  induction l generalizing entry with
  | nil => cases h
  | cons a rest ih =>
    rcases mem_cons.1 h with rfl | h
    · cases hfind : (keyed key rest).find? fun entry => entry.1 = key a with
      | none =>
        exact mem_cons_self
      | some later =>
        simp only [Option.map_some, Option.getD_some]
        exact mem_cons_of_mem _ (ih (mem_of_find?_eq_some hfind))
    · exact mem_cons_of_mem _ (ih (mem_of_mem_filter h))

theorem stripped_stripped (g : GrantSnapshot) : (g.stripped lib).stripped lib = g.stripped lib := by
  have htrim : lib.trim ∘ lib.trim = lib.trim := funext lib.trim_trim
  simp [stripped, lib.trim_trim, htrim, Function.comp_def]

/-- A snapshot with the policies of a stripped one has them after it is stripped. -/
theorem stripped_policies {g : GrantSnapshot} (bound : GrantSnapshot) (hstripped : g.stripped lib = g)
    (hcommand : bound.command = g.command) (hnetwork : bound.network = g.network)
    (hskills : bound.skills = g.skills) :
    (bound.stripped lib).command = g.command ∧ (bound.stripped lib).network = g.network ∧
      (bound.stripped lib).skills = g.skills := by
  refine ⟨?_, ?_, ?_⟩
  · refine Eq.trans ?_ (congrArg command hstripped)
    simp only [stripped, hcommand]
  · refine Eq.trans ?_ (congrArg network hstripped)
    simp only [stripped, hnetwork]
  · refine Eq.trans ?_ (congrArg skills hstripped)
    simp only [stripped, hskills]

theorem bindRoot_eq_ok {observed : List ((String × String) × VerifiedWorkspaceRoot)}
    {entry : (String × String) × WorkspaceCapability} (h : bindRoot observed entry = .ok root) :
    root.canonicalPath = entry.2.canonicalPath ∧ root.rights = entry.2.rights := by
  unfold bindRoot at h
  split at h
  · cases h
  split at h
  · cases h
  split at h
  · cases h
  split at h
  · cases h
  · cases h
    exact ⟨rfl, rfl⟩

/-- A grant that is stripped stays what it is when it is bound. -/
theorem bindVerifiedWorkspace_frozen {evidence : VerifiedWorkspaceBinding}
    (hstripped : compiled.grant.stripped lib = compiled.grant)
    (h : bindVerifiedWorkspace lib compiled.grant evidence = .ok grant) : Frozen compiled grant := by
  unfold bindVerifiedWorkspace at h
  split at h
  · cases h
  split at h
  · cases h
  split at h
  · cases h
  dsimp only at h
  split at h
  · cases h
  split at h
  · cases h
  obtain ⟨roots, hroots, h⟩ := bind_eq_ok.1 h
  split at h
  swap
  · cases h
  rw [← Except.ok.inj h]
  obtain ⟨hcommand, hnetwork, hskills⟩ := stripped_policies { compiled.grant with
    grantId := _, workspaceIdentity := _, workspaceRoots := roots } hstripped rfl rfl rfl
  refine ⟨hcommand, hnetwork, hskills, rfl, ?_⟩
  intro root hroot
  obtain ⟨bound, hbound, rfl⟩ := mem_map.1 hroot
  obtain ⟨entry, hentry, hbind⟩ := mem_of_mapM_ok hroots hbound
  have horiginal := mem_keyed hentry
  obtain ⟨hpath, hrights⟩ := bindRoot_eq_ok hbind
  refine ⟨entry.2, horiginal, ?_, hrights⟩
  -- The path of the published root is stripped already.
  rw [← hstripped] at horiginal
  obtain ⟨root, -, hroot⟩ := mem_map.1 horiginal
  rw [hpath, ← hroot]
  exact lib.trim_trim _

theorem publicGrant_eq_ok {taskId : String} (h : publicGrant lib facts taskId rules = .ok grant) :
    grant = (grantInput lib facts taskId rules).stripped lib := by
  unfold publicGrant at h
  dsimp only at h
  split at h
  · exact (Except.ok.inj h).symm
  · cases h

theorem Snapshot.frozen {required : Option (List CapabilityName)}
    (haccepts : Accepts lib facts options required rules compiled)
    (h : Snapshot lib compiled grant) : Frozen compiled grant := by
  cases h with
  | published => exact ⟨rfl, rfl, rfl, rfl, fun root hroot => ⟨root, hroot, rfl, rfl⟩⟩
  | bound h =>
    refine bindVerifiedWorkspace_frozen ?_ h
    rw [publicGrant_eq_ok haccepts.grant]
    exact stripped_stripped _

/-! ## What the snapshot is made of -/

theorem mem_sortedTexts {text : String} {texts : List String} :
    text ∈ sortedTexts texts ↔ text ∈ texts := by
  unfold sortedTexts
  rw [mem_insertionSort, mem_dedup]

theorem mem_allowedScopes : scope ∈ allowedScopes rules name ↔
      ∃ rule ∈ rules, rule.effect = .allow ∧ rule.capability = name ∧ rule.scope = scope := by
  unfold allowedScopes
  rw [mem_map]
  constructor
  · rintro ⟨rule, hrule, hscope⟩
    obtain ⟨hrule, hform⟩ := mem_filter.1 hrule
    obtain ⟨heffect, hname⟩ := of_decide_eq_true hform
    exact ⟨rule, hrule, heffect, hname, hscope⟩
  · rintro ⟨rule, hrule, heffect, hname, hscope⟩
    exact ⟨rule, mem_filter.2 ⟨hrule, decide_eq_true ⟨heffect, hname⟩⟩, hscope⟩

theorem command?_eq_some {c : CommandScope} (h : scope.command? = some c) : scope = .command c := by
  cases scope with
  | command => exact congrArg Scope.command (Option.some.inj h)
  | _ => cases h

theorem network?_eq_some {n : NetworkScope} (h : scope.network? = some n) : scope = .network n := by
  cases scope with
  | network => exact congrArg Scope.network (Option.some.inj h)
  | _ => cases h

theorem skill?_eq_some {k : SkillScope} (h : scope.skill? = some k) : scope = .skill k := by
  cases scope with
  | skill => exact congrArg Scope.skill (Option.some.inj h)
  | _ => cases h

/-- A root of a snapshot is a root of an allow rule for each of its rights. -/
theorem mem_workspaceRoots (h : root ∈ workspaceRoots lib rules) :
    ∃ original : PathRoot, root.canonicalPath = original.root ∧
      (∀ name, requiredRight name ∈ root.rights → (name = .pathRead ∨ name = .pathWrite) ∧
        original ∈ allowedRoots rules name) := by
  obtain ⟨original, -, rfl⟩ := mem_map.1 h
  refine ⟨original, rfl, ?_⟩
  intro name hright
  rcases mem_append.1 hright with hright | hright
  · split at hright
    · have hread : requiredRight name = .read := mem_singleton.1 hright
      cases name with
      | pathRead => exact ⟨.inl rfl, ‹_›⟩
      | _ => cases hread
    · cases hright
  split at hright
  · have hwrite : requiredRight name = .write := mem_singleton.1 hright
    cases name with
    | pathWrite => exact ⟨.inr rfl, ‹_›⟩
    | _ => cases hwrite
  · cases hright

section Parts

variable {required : Option (List CapabilityName)} {rules : List CompiledCapability}
variable {identity version : Option String} {argv envNames : List String}
  {cwd platform provenance : String}

/-- A scope that is allowed is the normal form of the scope of a fact. -/
theorem Accepts.normalizes (h : Accepts lib facts options required rules compiled)
    (hscope : scope ∈ allowedScopes compiled.rules name) :
    ∃ raw, normalizeScope lib name raw = .ok scope ∧ needsHostVerification scope = false := by
  obtain ⟨rule, hrule, -, rfl, rfl⟩ := mem_allowedScopes.1 hscope
  obtain ⟨fact, -, hfact⟩ := h.fact.1 hrule
  obtain ⟨-, hnormal, hverified⟩ := compileFact_eq_some hfact
  exact ⟨fact.scope, hnormal, hverified⟩

theorem normalizeCommandScope_argv {scope : CommandScope}
    (h : normalizeCommandScope argv cwd envNames platform = .ok scope) : scope.argv = argv := by
  obtain ⟨platform', -, h⟩ := bind_eq_ok.1 h
  cases argv with
  | nil => cases h
  | cons first arguments =>
    dsimp only at h
    split at h
    · cases h
    split at h
    · cases h
    obtain ⟨request, -, h⟩ := bind_eq_ok.1 h
    split at h
    · cases h
    · cases h
      rfl

theorem unspaced_of_normalizeCommandScope {scope : CommandScope}
    (h : normalizeCommandScope argv cwd envNames platform = .ok scope) :
    (∀ executable ∈ scope.argv.head?, ∀ c ∈ executable.toList, isSpace c = false) ∧
      ∀ name ∈ scope.envNames, ∀ c ∈ name.toList, isSpace c = false := by
  obtain ⟨platform', -, h⟩ := bind_eq_ok.1 h
  cases argv with
  | nil => cases h
  | cons first arguments =>
    dsimp only at h
    split at h
    · cases h
    split at h
    · cases h
    rename_i hfirst
    obtain ⟨request, -, h⟩ := bind_eq_ok.1 h
    split at h
    · cases h
    rename_i hnames
    cases h
    constructor
    · intro executable hexecutable c hc
      cases hexecutable
      by_contra hspace
      exact hfirst ⟨c, hc, .inr (by simpa using hspace)⟩
    · intro name hname c hc
      apply unspaced_of_isEnvName _ c hc
      by_contra hnot
      exact hnames ⟨name, hname, hnot⟩

theorem unspaced_of_normalizeSkillScope {scope : SkillScope}
    (h : normalizeSkillScope identity version provenance = .ok scope) :
    (∀ c ∈ scope.identity.toList, isSpace c = false) ∧
      ∀ c ∈ scope.version.toList, isSpace c = false := by
  unfold normalizeSkillScope at h
  split at h
  · cases h
  rename_i identity' hidentity
  split at h
  · cases h
  rename_i version' hversion
  split at h
  · cases h
  cases h
  constructor
  · intro c hc
    obtain ⟨-, hform⟩ := Option.filter_eq_some_iff.1 hidentity
    obtain ⟨-, hchars⟩ := of_decide_eq_true hform
    exact Bool.eq_false_iff.2 (hchars c hc).1
  · obtain ⟨-, hform⟩ := Option.filter_eq_some_iff.1 hversion
    exact unspaced_of_isSemver hform

/-- A normal skill is its own normal form. -/
theorem normalizeSkillScope_again {scope : SkillScope}
    (h : normalizeSkillScope identity version provenance = .ok scope) :
    normalizeSkillScope (some scope.identity) (some scope.version) scope.provenance = .ok scope := by
  unfold normalizeSkillScope at h
  split at h
  · cases h
  rename_i identity' hidentity
  split at h
  · cases h
  rename_i version' hversion
  split at h
  · cases h
  rename_i hprovenance
  cases h
  obtain ⟨-, hform⟩ := Option.filter_eq_some_iff.1 hidentity
  obtain ⟨-, hsemver⟩ := Option.filter_eq_some_iff.1 hversion
  have hidentity : skillIdentity? (some identity') = some identity' :=
    Option.filter_eq_some_iff.2 ⟨rfl, hform⟩
  have hversion : (some version').filter isSemver = some version' :=
    Option.filter_eq_some_iff.2 ⟨rfl, hsemver⟩
  unfold normalizeSkillScope
  rw [hidentity]
  rw [hversion]
  dsimp only
  rw [if_neg hprovenance]

/-- The parts of the commands of a snapshot. -/
theorem Accepts.command_parts (h : Accepts lib facts options required rules compiled) :
    (∀ executable ∈ compiled.grant.command.allowedExecutables, ∃ scope,
      .command scope ∈ allowedScopes compiled.rules .commandExecute ∧
        scope.argv.head? = some executable) ∧
    ∀ name ∈ compiled.grant.command.allowedEnvNames, ∃ scope,
      .command scope ∈ allowedScopes compiled.rules .commandExecute ∧ name ∈ scope.envNames := by
  have hunspaced : ∀ scope : CommandScope,
      .command scope ∈ allowedScopes compiled.rules .commandExecute →
        (∀ executable ∈ scope.argv.head?, lib.trim executable = executable) ∧
          ∀ name ∈ scope.envNames, lib.trim name = name := by
    intro scope hscope
    obtain ⟨raw, hraw, -⟩ := h.normalizes hscope
    obtain ⟨command, hcommand, hreturn⟩ := bind_eq_ok.1 hraw
    cases hreturn
    obtain ⟨hexecutable, hnames⟩ := unspaced_of_normalizeCommandScope hcommand
    exact ⟨fun executable hmem => lib.trim_unspaced _ (hexecutable executable hmem),
      fun name hmem => lib.trim_unspaced _ (hnames name hmem)⟩
  rw [publicGrant_eq_ok h.grant]
  constructor
  · intro executable hexecutable
    obtain ⟨text, htext, rfl⟩ := mem_map.1 hexecutable
    obtain ⟨scope, hscope, hhead⟩ := mem_filterMap.1 (mem_sortedTexts.1 htext)
    obtain ⟨other, hother, hcommand⟩ := mem_filterMap.1 hscope
    rw [command?_eq_some hcommand] at hother
    refine ⟨scope, hother, ?_⟩
    rw [(hunspaced scope hother).1 text hhead]
    exact hhead
  intro name hname
  obtain ⟨text, htext, rfl⟩ := mem_map.1 hname
  obtain ⟨scope, hscope, hmem⟩ := mem_flatMap.1 (mem_sortedTexts.1 htext)
  obtain ⟨other, hother, hcommand⟩ := mem_filterMap.1 hscope
  rw [command?_eq_some hcommand] at hother
  refine ⟨scope, hother, ?_⟩
  rw [(hunspaced scope hother).2 text hmem]
  exact hmem

theorem normaliseHost_trim (host : String) :
    normaliseHost lib (lib.trim host) = normaliseHost lib host := by
  unfold normaliseHost
  rw [lib.strip_trim]

variable (h : Accepts lib facts options required rules compiled)

include h

/-- The parts of the network targets of a snapshot. -/
theorem Accepts.network_parts {endpoint : Catalog.Endpoint}
    (hlists : compiled.grant.network.lists lib endpoint = true) :
    (∃ scope, .network scope ∈ allowedScopes compiled.rules .networkConnect ∧
      normaliseHost lib endpoint.host = normaliseHost lib scope.target.host) ∧
    (∃ scope, .network scope ∈ allowedScopes compiled.rules .networkConnect ∧
      lib.lower endpoint.scheme = scope.target.scheme) ∧
    ∃ scope, .network scope ∈ allowedScopes compiled.rules .networkConnect ∧
      endpoint.port = scope.target.port := by
  rw [publicGrant_eq_ok h.grant] at hlists
  obtain ⟨hhost, hscheme, hport⟩ := of_decide_eq_true hlists
  have hallowed : ∀ scope ∈ (allowedScopes compiled.rules .networkConnect).filterMap Scope.network?,
      .network scope ∈ allowedScopes compiled.rules .networkConnect := by
    intro scope hscope
    obtain ⟨other, hother, hnetwork⟩ := mem_filterMap.1 hscope
    rwa [network?_eq_some hnetwork] at hother
  refine ⟨?_, ?_, ?_⟩
  · obtain ⟨trimmed, htrimmed, heq⟩ := mem_map.1 hhost
    obtain ⟨text, htext, rfl⟩ := mem_map.1 htrimmed
    obtain ⟨scope, hscope, rfl⟩ := mem_map.1 (mem_sortedTexts.1 htext)
    rw [normaliseHost_trim] at heq
    exact ⟨scope, hallowed scope hscope, heq.symm⟩
  · obtain ⟨scope, hscope, heq⟩ := mem_map.1 (mem_sortedTexts.1 hscheme)
    exact ⟨scope, hallowed scope hscope, heq.symm⟩
  · rw [stripped, grantInput, mem_insertionSort, mem_dedup] at hport
    obtain ⟨scope, hscope, heq⟩ := mem_map.1 hport
    exact ⟨scope, hallowed scope hscope, heq.symm⟩

/-- The parts of the skills of a snapshot. -/
theorem Accepts.skill_parts : (∀ identity ∈ compiled.grant.skills.identities, ∃ scope,
      .skill scope ∈ allowedScopes compiled.rules .skillUse ∧ scope.identity = identity) ∧
    ∀ version ∈ compiled.grant.skills.versions, ∃ scope,
      .skill scope ∈ allowedScopes compiled.rules .skillUse ∧ scope.version = version := by
  have hallowed : ∀ scope ∈ (allowedScopes compiled.rules .skillUse).filterMap Scope.skill?,
      .skill scope ∈ allowedScopes compiled.rules .skillUse ∧
        lib.trim scope.identity = scope.identity ∧ lib.trim scope.version = scope.version := by
    intro scope hscope
    obtain ⟨other, hother, hskill⟩ := mem_filterMap.1 hscope
    rw [skill?_eq_some hskill] at hother
    obtain ⟨raw, hraw, -⟩ := h.normalizes hother
    obtain ⟨skill, hnormal, hreturn⟩ := bind_eq_ok.1 hraw
    cases hreturn
    obtain ⟨hidentity, hversion⟩ := unspaced_of_normalizeSkillScope hnormal
    exact ⟨hother, lib.trim_unspaced _ hidentity, lib.trim_unspaced _ hversion⟩
  rw [publicGrant_eq_ok h.grant]
  constructor
  · intro identity hmem
    obtain ⟨text, htext, rfl⟩ := mem_map.1 hmem
    obtain ⟨scope, hscope, rfl⟩ := mem_map.1 (mem_sortedTexts.1 htext)
    obtain ⟨hscope, hidentity, -⟩ := hallowed scope hscope
    exact ⟨scope, hscope, hidentity.symm⟩
  · intro version hmem
    obtain ⟨text, htext, rfl⟩ := mem_map.1 hmem
    obtain ⟨scope, hscope, rfl⟩ := mem_map.1 (mem_sortedTexts.1 htext)
    obtain ⟨hscope, -, hversion⟩ := hallowed scope hscope
    exact ⟨scope, hscope, hversion.symm⟩

/-- The roots of a snapshot. -/
theorem Accepts.root_parts (hroot : root ∈ compiled.grant.workspaceRoots)
    (hright : requiredRight name ∈ root.rights) :
    (name = .pathRead ∨ name = .pathWrite) ∧ ∃ roots original,
      .path roots ∈ allowedScopes compiled.rules name ∧ original ∈ roots ∧
        root.canonicalPath = lib.trim original.root := by
  rw [publicGrant_eq_ok h.grant] at hroot
  obtain ⟨input, hinput, rfl⟩ := mem_map.1 hroot
  obtain ⟨original, hpath, hrights⟩ := mem_workspaceRoots hinput
  obtain ⟨hname, horiginal⟩ := hrights name hright
  obtain ⟨scope, hscope, hmem⟩ := mem_flatMap.1 horiginal
  refine ⟨hname, ?_⟩
  cases scope with
  | path roots => exact ⟨roots, original, hscope, hmem, congrArg lib.trim hpath⟩
  | _ => cases hmem

end Parts

/-! ## What stands behind it -/

/-- `decide` allows the request over the compiled rules, whatever spells the capability. -/
def Decides (lib : Library) (compiled : Compiled) (now : Int) (name : CapabilityName)
    (raw : RawRequest) : Prop :=
  ∀ capability, canonicalCapability lib capability = .ok name →
    (decide lib (.result (.ok compiled)) capability raw none (some now)).allowed = true

/-- Every part of the access belongs to an allow rule. The rules decide for a path that both
sides read alike, and for a target or a skill whose parts belong to one rule. -/
inductive Backed (lib : Library) (compiled : Compiled) (now : Int) (request : CapabilityRequest) :
    CapabilityName → Prop
  | path {name : CapabilityName} (hname : name = .pathRead ∨ name = .pathWrite)
      (target : Catalog.PathRequest) (htarget : request.path = some target)
      (roots : List PathRoot) (hroots : .path roots ∈ allowedScopes compiled.rules name)
      (root : PathRoot) (hroot : root ∈ roots)
      (hwithin : isLexicallyWithin lib (lib.trim root.root) target.path = true)
      (hdecides : lib.trim root.root = root.root → ∀ read,
        normalizePathRequest target.path root.platform.value = .ok read →
          (root.platform = .windows → Legible root.root ∧ Legible read.path) →
            Decides lib compiled now name
              { path := target.path, platform := root.platform.value }) :
      Backed lib compiled now request name
  | command (target : Catalog.CommandRequest) (htarget : request.command = some target)
      (executable : String) (arguments : List String)
      (hargv : target.argv = executable :: arguments)
      (hexecutable : ∃ scope, .command scope ∈ allowedScopes compiled.rules .commandExecute ∧
        scope.argv.head? = some executable)
      (hnames : ∀ name ∈ target.envNames, ∃ scope,
        .command scope ∈ allowedScopes compiled.rules .commandExecute ∧ name ∈ scope.envNames) :
      Backed lib compiled now request .commandExecute
  | network (target : Catalog.NetworkRequest) (htarget : request.network = some target)
      (hhost : ∃ scope, .network scope ∈ allowedScopes compiled.rules .networkConnect ∧
        normaliseHost lib target.host = normaliseHost lib scope.target.host)
      (hscheme : ∃ scope, .network scope ∈ allowedScopes compiled.rules .networkConnect ∧
        lib.lower target.scheme = scope.target.scheme)
      (hport : ∃ scope, .network scope ∈ allowedScopes compiled.rules .networkConnect ∧
        target.port = scope.target.port)
      (hdecides : ∀ scope, .network scope ∈ allowedScopes compiled.rules .networkConnect →
        normaliseHost lib target.host = normaliseHost lib scope.target.host →
          lib.lower target.scheme = scope.target.scheme → target.port = scope.target.port →
            ∃ raw, normalizeNetworkTarget lib raw = .ok scope.target ∧
              Decides lib compiled now .networkConnect { target := raw }) :
      Backed lib compiled now request .networkConnect
  | skill (target : Catalog.SkillRequest) (htarget : request.skill = some target)
      (hidentity : ∃ scope, .skill scope ∈ allowedScopes compiled.rules .skillUse ∧
        scope.identity = target.identity)
      (hversion : ∃ scope, .skill scope ∈ allowedScopes compiled.rules .skillUse ∧
        scope.version = target.version)
      (hdecides : ∀ scope, .skill scope ∈ allowedScopes compiled.rules .skillUse →
        scope.identity = target.identity → scope.version = target.version →
          Decides lib compiled now .skillUse { identity := some target.identity
                                               version := some target.version
                                               provenance := scope.provenance }) :
      Backed lib compiled now request .skillUse

section Backing

variable {required : Option (List CapabilityName)} {rules : List CompiledCapability}
  (h : Accepts lib facts options required rules compiled)

include h

/-- What an allow rule covers is decided for, unless it is a command. -/
theorem Accepts.decides (hnow : now < compiled.grant.expiresAt)
    (hscope : scope ∈ allowedScopes compiled.rules name) (hname : name ≠ .commandExecute)
    {raw : RawRequest} (request : Request) (hrequest : normalizeRequest lib name raw = .ok request)
    (hverified : request.Verified) (hcovers : Covers lib scope request) :
    Decides lib compiled now name raw := by
  intro capability hcapability
  obtain ⟨rule, hrule, heffect, hrulename, rfl⟩ := mem_allowedScopes.1 hscope
  have hfresh : checkGrantFreshness compiled.grant none (some now) = none := by
    unfold checkGrantFreshness
    rw [if_neg (by rintro ⟨_, hnone, -⟩; cases hnone)]
    dsimp only
    rw [if_neg (by omega)]
  unfold decide
  rw [hcapability]
  dsimp only
  rw [hfresh, Option.getD_none]
  refine decideWithRules_of_covers hrequest hverified ⟨rule, hrule, heffect, hrulename, hcovers⟩ ?_
  intro d hd hdeffect hdname
  refine h.disjoint hrule hd heffect hdeffect (hrulename.trans hdname.symm) ?_ hcovers
  intro hcommand
  exact absurd (hrulename.symm.trans hcommand) hname

section

variable (hfrozen : Frozen compiled grant)

include hfrozen

theorem Accepts.backed_path (hnow : now < compiled.grant.expiresAt)
    (hallowed : (evaluatePath lib grant request name).allowed = true) :
    Backed lib compiled now request name := by
  obtain ⟨target, bound, htarget, hbound, hright, hdots, hwithin⟩ := evaluatePath_allowed hallowed
  obtain ⟨original, horiginal, hpath, hrights⟩ := hfrozen.roots bound hbound
  rw [hrights] at hright
  obtain ⟨hname, roots, root, hroots, hroot, hcanonical⟩ := h.root_parts horiginal hright
  rw [hpath, hcanonical] at hwithin
  refine .path hname target htarget roots hroots root hroot hwithin ?_
  intro htrim read hread hlegible
  rw [htrim] at hwithin
  obtain ⟨raw, hraw, -⟩ := h.normalizes hroots
  have hnormal := normal_of_normalizeScope hraw root hroot
  have hin : pathIsWithinRoot lib root read = true :=
    pathIsWithinRoot_of_lexically hnormal hread hdots hlegible hwithin
  refine h.decides hnow hroots ?_ (.path read) ?_ trivial (.path root hroot hin)
  · rcases hname with rfl | rfl <;> decide
  rcases hname with rfl | rfl
  · exact bind_eq_ok.2 ⟨read, hread, rfl⟩
  · exact bind_eq_ok.2 ⟨read, hread, rfl⟩

theorem Accepts.backed_command (hallowed : (evaluateCommand lib grant request).allowed = true) :
    Backed lib compiled now request .commandExecute := by
  obtain ⟨target, executable, arguments, htarget, hargv, hexplicit, hmode, hnames⟩ :=
    evaluateCommand_allowed hallowed
  rw [hfrozen.command] at hexplicit hmode hnames
  obtain ⟨hexecutables, henvs⟩ := h.command_parts
  have hmodes : compiled.grant.command.mode = .explicit ∨ compiled.grant.command.mode = .deny := by
    rw [publicGrant_eq_ok h.grant]
    show (if _ then _ else _) = _ ∨ (if _ then _ else _) = _
    split
    · exact .inr rfl
    · exact .inl rfl
  have hexecutable := hexplicit (hmodes.resolve_right hmode)
  exact .command target htarget executable arguments hargv (hexecutables executable hexecutable)
    fun name hname => henvs name (hnames name hname)

theorem Accepts.backed_network (hnow : now < compiled.grant.expiresAt)
    (hallowed : (evaluateNetwork lib grant request).allowed = true) :
    Backed lib compiled now request .networkConnect := by
  obtain ⟨target, htarget, hlists⟩ := evaluateNetwork_allowed hallowed
  rw [hfrozen.network] at hlists
  obtain ⟨hhost, hscheme, hport⟩ := h.network_parts hlists
  refine .network target htarget hhost hscheme hport ?_
  intro scope hscope _ _ _
  obtain ⟨raw, hraw, hverified⟩ := h.normalizes hscope
  obtain ⟨normal, hnormal, hraw⟩ := bind_eq_ok.1 hraw
  obtain ⟨redirects, -, hraw⟩ := bind_eq_ok.1 hraw
  cases hraw
  simp only [needsHostVerification, decide_eq_false_iff_not, not_or, Bool.not_eq_true] at hverified
  refine ⟨raw.target, hnormal, ?_⟩
  refine h.decides hnow hscope (by decide) (.network ⟨normal, []⟩) ?_ hverified.1
    (.network rfl hverified.1 ?_)
  · exact bind_eq_ok.2 ⟨normal, hnormal, rfl⟩
  · intro redirect hredirect
    cases hredirect

theorem Accepts.backed_skill (hnow : now < compiled.grant.expiresAt)
    (hallowed : (evaluateSkill grant request).allowed = true) :
    Backed lib compiled now request .skillUse := by
  obtain ⟨target, htarget, hidentity, hversion⟩ := evaluateSkill_allowed hallowed
  rw [hfrozen.skills] at hidentity hversion
  obtain ⟨hidentities, hversions⟩ := h.skill_parts
  refine .skill target htarget (hidentities _ hidentity) (hversions _ hversion) ?_
  intro scope hscope hidentity hversion
  obtain ⟨raw, hraw, -⟩ := h.normalizes hscope
  obtain ⟨skill, hskill, hraw⟩ := bind_eq_ok.1 hraw
  cases hraw
  refine h.decides hnow hscope (by decide) (.skill scope) ?_ trivial (.skill scope)
  refine bind_eq_ok.2 ⟨scope, ?_, rfl⟩
  rw [← hidentity, ← hversion]
  exact normalizeSkillScope_again hskill

end

end Backing

/-- What a snapshot of a compiled grant allows has the allow rules behind it. -/
theorem evaluate_backed (lib : Library) (facts : PermissionFacts) (options : CompileOptions)
    (compiled : Compiled) (grant : GrantSnapshot) (request : CapabilityRequest) (now : Int)
    (revision : Option Int) (hcompiles : compileGrant lib facts options = .ok compiled)
    (hsnapshot : Snapshot lib compiled grant)
    (hallowed : (evaluateCapability lib (some grant) request now revision).allowed = true) :
    ∃ name, CapabilityName.ofValue? request.capability = some name ∧
      Backed lib compiled now request name := by
  obtain ⟨required, rules, haccepts⟩ := compileGrant_eq_ok.1 hcompiles
  have hfrozen := hsnapshot.frozen haccepts
  obtain ⟨hnow, name, hname, hevaluated⟩ := evaluateCapability_allowed hallowed
  rw [hfrozen.expiresAt] at hnow
  refine ⟨name, hname, ?_⟩
  cases hevaluated with
  | path _ h => exact haccepts.backed_path hfrozen hnow h
  | command h => exact haccepts.backed_command hfrozen h
  | network h => exact haccepts.backed_network hfrozen hnow h
  | skill h => exact haccepts.backed_skill hfrozen hnow h

/-! ## Commands that the rules deny -/

/-- The raw request asks for the access of the typed one. -/
def SameAccess (request : CapabilityRequest) (raw : RawRequest) : CapabilityName → Prop
  | .pathRead | .pathWrite | .pathDelete => ∃ target ∈ request.path, raw.path = target.path
  | .commandExecute => ∃ target ∈ request.command, raw.argv = target.argv ∧
      raw.cwd = target.cwd ∧ raw.envNames = target.envNames
  | .networkConnect => ∃ target ∈ request.network, raw.target.scheme = target.scheme ∧
      raw.target.host = target.host ∧ raw.target.port = some target.port
  | .skillUse => ∃ target ∈ request.skill, raw.identity = some target.identity ∧
      raw.version = some target.version
  | _ => False

/-- What a bound snapshot allows, the rules decide for. -/
def NeverWidens (lib : Library) (facts : PermissionFacts) (options : CompileOptions) : Prop :=
  ∀ compiled, compileGrant lib facts options = .ok compiled →
    ∀ evidence grant, bindVerifiedWorkspace lib compiled.grant evidence = .ok grant →
      ∀ request now revision name, CapabilityName.ofValue? request.capability = some name →
        (evaluateCapability lib (some grant) request now revision).allowed = true →
          ∃ raw, SameAccess request raw name ∧ Decides lib compiled now name raw

/-- One command may be run, `git status`. -/
def gitStatus : PermissionFacts where
  revision := 1
  capabilities := [⟨"command.execute",
    { argv := ["git", "status"], cwd := "/repo", platform := "posix" }, "allow"⟩]

def gitEvidence : VerifiedWorkspaceBinding := ⟨"task", "dev:1", []⟩

def gitPush : CapabilityRequest where
  capability := "command.execute"
  binding := ⟨"task", "task:capability-policy", ⟨"task", "dev:1"⟩, 1⟩
  command := some { argv := ["git", "push"], cwd := "/repo", executableIdentityVerified := true }

/-- The compiled facts and their bound snapshot. -/
def gitRun : Option (Compiled × GrantSnapshot) :=
  (compileGrant publicLibrary gitStatus ⟨"task", none, none, none⟩).toOption.bind fun compiled =>
    (bindVerifiedWorkspace publicLibrary compiled.grant gitEvidence).toOption.map fun grant =>
      (compiled, grant)

theorem toOption_eq_some {ε α : Type} {x : Except ε α} {a : α} (h : x.toOption = some a) :
    x = .ok a := by
  cases x with
  | ok b => exact congrArg Except.ok (Option.some.inj h)
  | error e => cases h

theorem gitRun_eq {compiled : Compiled} {grant : GrantSnapshot} (h : gitRun = some (compiled, grant)) :
    compileGrant publicLibrary gitStatus ⟨"task", none, none, none⟩ = .ok compiled ∧
      bindVerifiedWorkspace publicLibrary compiled.grant gitEvidence = .ok grant := by
  obtain ⟨compiled', hcompiled, hrest⟩ := Option.bind_eq_some_iff.1 h
  obtain ⟨grant', hgrant, hpair⟩ := Option.map_eq_some_iff.1 hrest
  cases hpair
  exact ⟨toOption_eq_some hcompiled, toOption_eq_some hgrant⟩

theorem evaluate_backed_push : ∃ compiled grant, gitRun = some (compiled, grant) ∧
    ∃ name, CapabilityName.ofValue? gitPush.capability = some name ∧
      Backed publicLibrary compiled 0 gitPush name := by
  have hrun : gitRun.isSome := by decide +kernel
  obtain ⟨⟨compiled, grant⟩, hrun⟩ := Option.isSome_iff_exists.1 hrun
  obtain ⟨hcompiles, hbound⟩ := gitRun_eq hrun
  have hallowed : gitRun.map (fun run =>
      (evaluateCapability publicLibrary (some run.2) gitPush 0 none).allowed) = some true := by
    decide +kernel
  rw [hrun] at hallowed
  exact ⟨compiled, grant, hrun, evaluate_backed publicLibrary gitStatus ⟨"task", none, none, none⟩
    compiled grant gitPush 0 none hcompiles (.bound hbound) (Option.some.inj hallowed)⟩

/-- The snapshot allows `git push`, which no rule does. -/
theorem push_widened : ¬ NeverWidens publicLibrary gitStatus ⟨"task", none, none, none⟩ := by
  intro hnever
  have hrun : gitRun.isSome := by decide +kernel
  obtain ⟨⟨compiled, grant⟩, hrun⟩ := Option.isSome_iff_exists.1 hrun
  obtain ⟨hcompiles, hbound⟩ := gitRun_eq hrun
  have hallowed : gitRun.map (fun run =>
      (evaluateCapability publicLibrary (some run.2) gitPush 0 none).allowed) = some true := by
    decide +kernel
  have hrules : gitRun.map (fun run => run.1.rules) =
      some [⟨.commandExecute, .allow, .command ⟨.posix, ["git", "status"], "/repo", []⟩⟩] := by
    decide +kernel
  rw [hrun] at hallowed hrules
  obtain ⟨raw, ⟨target, htarget, hargv, -, -⟩, hdecides⟩ := hnever compiled hcompiles gitEvidence
    grant hbound gitPush 0 none .commandExecute rfl (Option.some.inj hallowed)
  cases htarget
  obtain ⟨name, hname, hdecided⟩ :=
    decide_result_allowed (hdecides "command.execute" (by decide +kernel))
  cases hname.symm.trans (by decide +kernel : canonicalCapability publicLibrary "command.execute" =
    .ok .commandExecute)
  obtain ⟨read, hread, ⟨rule, hrule, -, -, hcovers⟩, -⟩ := decideWithRules_allowed hdecided
  rw [Option.map_some, Option.some.injEq] at hrules
  rw [hrules, List.mem_singleton] at hrule
  subst hrule
  -- The command that the rule covers has the arguments of the request.
  obtain ⟨command, hcommand, hreturn⟩ := bind_eq_ok.1 hread
  cases hreturn
  cases hcovers with
  | command hauthorized =>
    obtain ⟨-, hsame, -⟩ := of_decide_eq_true hauthorized
    have hkeeps := normalizeCommandScope_argv hcommand
    rw [hargv] at hkeeps
    exact absurd (hsame.trans hkeeps) (by decide)

end Capabilities
