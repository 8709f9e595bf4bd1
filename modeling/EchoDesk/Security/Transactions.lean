import EchoDesk.Foundations.Transaction
import EchoDesk.Security.Lifetimes

/-! # The transactions as statements

Every transaction of the store, when it commits, is a path of statements that let the rows
grow older, issue bearers of a new generation and delete credentials with their families.
-/

namespace Sessions

open EchoDesk Transaction Option Table Quiet

variable {σ : Secrets} {cfg : Settings} {n now : Nat} {d d' : Db} {t : Tables}
variable {f : CredentialRow → CredentialRow} {sel : CredentialRow → Bool}
variable {enrollments : Table EnrollmentRow EnrollmentRow.conflict}
  {policy : EnrollmentAdmissionPolicy} {generation removed : Nat}
  {currentCredential enrollmentHash newCredential peerHash : String} {r : String × Nat}
  {b : SessionRow} {t' : Tables}

/-! ## Single statements -/

section Statements

theorem quiet_updateSessions {sel : SessionRow → Bool} {f : SessionRow → SessionRow}
    {sessions : Table SessionRow SessionRow.conflict}
    (h : t.sessions.update? sel f = some sessions) (hf : ∀ a : SessionRow, a.Ages (f a)) :
    Quiet σ n t { t with sessions := sessions } :=
  { refl σ n t with
    session := (update?_related h SessionRow.Ages.refl hf).1 }

variable {credentials : Table CredentialRow CredentialRow.conflict}
variable {devices : Table DeviceRow DeviceRow.conflict} {row : CredentialRow}

theorem quiet_updateCredentials (h : t.credentials.update? sel f = some credentials)
    (hf : ∀ c : CredentialRow, c.Ages (f c))
    (hrotation : Rotations t → Rotations { t with credentials := credentials }) :
    Quiet σ n t { t with credentials := credentials } := by
  have hages := update?_related h CredentialRow.Ages.refl hf
  exact { refl σ n t with
    credential := fun c' hc' => .inl (hages.1 c' hc')
    kept := fun c hc => .inl (hages.2 c hc)
    rotation := hrotation }

/-- An update that links credentials to stored ones of their family. -/
theorem rotations_update (h : t.credentials.update? sel f = some credentials)
    (hf : ∀ c ∈ t.credentials, (f c).credentialId = c.credentialId ∧
      (f c).familyId = c.familyId ∧ (sel c = true → ∀ id, (f c).rotatedToCredentialId = some id →
        ∃ x ∈ t.credentials, x.credentialId = id ∧ x.familyId = c.familyId))
    (hrotations : Rotations t) : Rotations { t with credentials := credentials } := by
  have hkept : ∀ x ∈ t.credentials, ∃ x' ∈ credentials, x'.credentialId = x.credentialId ∧
      x'.familyId = x.familyId := by
    intro x hx
    refine ⟨_, (mem_update? h).2 ⟨x, hx, rfl⟩, ?_⟩
    split
    · exact ⟨(hf x hx).1, (hf x hx).2.1⟩
    · exact ⟨rfl, rfl⟩
  have hlinks : ∀ c' ∈ credentials, ∀ id, c'.rotatedToCredentialId = some id →
      ∃ x ∈ t.credentials, x.credentialId = id ∧ x.familyId = c'.familyId := by
    intro c' hc' id hid
    rcases update?_cases h hc' with ⟨c, hc, hsel, rfl⟩ | ⟨hc, -⟩
    · rw [(hf c hc).2.1]
      exact (hf c hc).2.2 hsel id hid
    · exact hrotations c' hc id hid
  intro c' hc' id hid
  obtain ⟨x, hx, hxid, hxfamily⟩ := hlinks c' hc' id hid
  obtain ⟨x', hx', hid', hfamily'⟩ := hkept x hx
  exact ⟨x', hx', hid'.trans hxid, hfamily'.trans hxfamily⟩

theorem quiet_updateFamilies {sel : FamilyRow → Bool} {f : FamilyRow → FamilyRow}
    {families : Table FamilyRow FamilyRow.conflict}
    (h : t.families.update? sel f = some families)
    (hf : ∀ x : FamilyRow, x.Ages (f x) ∧ (f x).generation = x.generation) :
    Quiet σ n t { t with families := families } := by
  exact { refl σ n t with
    family := (update?_related h (fun x => ⟨.refl x, rfl⟩) hf).1
    kept := fun c hc => .inl ⟨c, hc, .refl c⟩ }

theorem quiet_updateDevices {sel : DeviceRow → Bool} {f : DeviceRow → DeviceRow}
    (h : t.devices.update? sel f = some devices) (hf : ∀ x : DeviceRow, x.Ages (f x)) :
    Quiet σ n t { t with devices := devices } :=
  { refl σ n t with
    device := fun x' hx' => .inl ((update?_related h DeviceRow.Ages.refl hf).1 x' hx') }

theorem quiet_updateEnrollments {sel : EnrollmentRow → Bool} {f : EnrollmentRow → EnrollmentRow}
    (h : t.enrollments.update? sel f = some enrollments)
    (hf : ∀ e : EnrollmentRow, (f e).enrollmentIdHash = e.enrollmentIdHash ∧
      (f e).familyId = e.familyId ∧ (f e).device = e.device) :
    Quiet σ n t { t with enrollments := enrollments } :=
  { refl σ n t with
    enrollment := (update?_related h (fun _ => ⟨rfl, rfl, rfl⟩) hf).1 }

theorem quiet_insertDevice {row : DeviceRow} (h : t.devices.insert? row = some devices) :
    Quiet σ n t { t with devices := devices } :=
  { refl σ n t with
    device := by
      intro x' hx'
      rcases (mem_insert? h).1 hx' with hx | rfl
      · exact .inl ⟨x', hx, .refl x'⟩
      · exact .inr fun x hx => fresh_of_insert? h hx }

section

variable (h : t.credentials.insert? row = some credentials)

include h

/-- The inserted credential has a hash of its own. -/
theorem credential_of_insert : (∀ c' ∈ credentials, (∃ c ∈ t.credentials, c.Ages c') ∨
      ∀ c ∈ t.credentials, c.credentialHash ≠ c'.credentialHash) ∧
    ∀ c ∈ t.credentials, ∃ c' ∈ credentials, c.Ages c' := by
  constructor
  · intro c' hc'
    rcases (mem_insert? h).1 hc' with hc | rfl
    · exact .inl ⟨c', hc, .refl c'⟩
    · exact .inr fun c hc hash => fresh_of_insert? h hc (.inr (.inl hash))
  · intro c hc
    exact ⟨c, (mem_insert? h).2 (.inl hc), .refl c⟩

theorem rotations_insert (hnone : row.rotatedToCredentialId = none) (hrotations : Rotations t) :
    Rotations { t with credentials := credentials } := by
  intro c hc id hid
  rcases (mem_insert? h).1 hc with hc | rfl
  · obtain ⟨x, hx, hxid⟩ := hrotations c hc id hid
    exact ⟨x, (mem_insert? h).2 (.inl hx), hxid⟩
  · rw [hnone] at hid
    cases hid

theorem quiet_insertCredential (hnone : row.rotatedToCredentialId = none) :
    Quiet σ n t { t with credentials := credentials } :=
  { refl σ n t with
    credential := (credential_of_insert h).1
    kept := fun c hc => .inl ((credential_of_insert h).2 c hc)
    rotation := rotations_insert h hnone }

end

end Statements

/-! ## Issuing -/

variable {family : FamilyRow} {sessions : Table SessionRow SessionRow.conflict}
variable {families : Table FamilyRow FamilyRow.conflict}
variable {credentials : Table CredentialRow CredentialRow.conflict} {ttl : Nat} {device : DeviceKey}
variable {credential familyId : String} {e : EnrollmentRow} {issued : IssuedDeviceIdentity}
variable {p : Principal} {changed : Bool} {u : Unit}

/-- A family is renewed: its bearers are revoked, its generation grows, and a bearer of the
new generation is issued. -/
theorem moves_renew {sel : FamilyRow → Bool} {sessions' : Table SessionRow SessionRow.conflict}
    (hfamily : family ∈ t.families) (hlt : family.generation < generation)
    (hsel : sel family = true) (honly : ∀ f, sel f = true → f.familyId = family.familyId)
    (hcredential : ∃ c ∈ t.credentials, c.familyId = family.familyId)
    (hrevoke : t.sessions.update? (fun a => a.familyId = family.familyId ∧ a.revokedAt = none)
      (fun a => { a with revokedAt := some now }) = some sessions)
    (hset : t.families.update? sel (fun f => { f with generation := generation }) = some families)
    (hid : b.sessionId = σ.newId "session" n)
    (hhash : b.tokenHash = σ.tokenHash (σ.newSecret "eds" n))
    (hbfamily : b.familyId = family.familyId) (hbgeneration : b.generation = generation)
    (hins : sessions.insert? b = some sessions') :
    Moves σ n t { t with sessions := sessions', families := families } := by
  have hsole : ∀ f ∈ t.families, f.familyId = family.familyId → f = family :=
    fun f hf hid => eq_of_conflict hf hfamily hid
  have hsessions : ∀ a' ∈ sessions, ∃ a ∈ t.sessions, a.Ages a' ∧
      (a.familyId = family.familyId → a'.revokedAt ≠ none) := by
    intro a' ha'
    obtain ⟨a, ha, rfl⟩ := (mem_update? hrevoke).1 ha'
    refine ⟨a, ha, ?_⟩
    split
    · exact ⟨⟨rfl, rfl, rfl, rfl, rfl, rfl, fun _ => rfl⟩, fun _ h => by cases h⟩
    rename_i hkeep
    refine ⟨.refl a, ?_⟩
    intro hfam hnone
    exact hkeep (decide_eq_true ⟨hfam, hnone⟩)
  have hfamilies : ∀ f' ∈ families, ∃ f ∈ t.families, f.Ages f' ∧
      (f = family → f'.generation = generation) ∧ (f ≠ family → f' = f) := by
    intro f' hf'
    obtain ⟨f, hf, rfl⟩ := (mem_update? hset).1 hf'
    refine ⟨f, hf, ?_⟩
    -- only the renewed family is selected
    by_cases hs : sel f = true
    · have heq := hsole f hf (honly f hs)
      rw [if_pos hs]
      exact ⟨⟨rfl, rfl, (by rw [heq]; exact hlt.le), id⟩, fun _ => rfl, fun hne => absurd heq hne⟩
    · rw [if_neg hs]
      exact ⟨.refl f, fun heq => absurd (heq ▸ hsel) hs, fun _ => rfl⟩
  constructor
  · exact { (refl σ n t).evolves with
      session := by
        intro a' ha'
        rcases (mem_insert? hins).1 ha' with ha' | rfl
        · obtain ⟨a, ha, hages, -⟩ := hsessions a' ha'
          exact .inl ⟨a, ha, hages⟩
        refine .inr ⟨hid, hhash, ?_⟩
        intro f hf hfid
        rw [hsole f hf (hfid.trans hbfamily), hbgeneration]
        exact hlt
      family := by
        intro f' hf'
        obtain ⟨f, hf, hages, -⟩ := hfamilies f' hf'
        exact .inl ⟨f, hf, hages⟩
      kept := fun c hc => .inl ⟨c, hc, .refl c⟩ }
  · intro hcurrent
    constructor
    · intro a' ha' f' hf' hid'
      obtain ⟨f, hf, hfages, hrenewed, hother⟩ := hfamilies f' hf'
      -- an old bearer, or the one that is issued
      rcases (mem_insert? hins).1 ha' with ha' | rfl
      · obtain ⟨a, ha, hages, hrevoked⟩ := hsessions a' ha'
        have hfa : f.familyId = a.familyId := by rw [← hfages.familyId, hid', hages.familyId]
        have hbearer := hcurrent.bearer a ha f hf hfa
        rw [hages.generation]
        by_cases heq : f = family
        · -- The bearers of the renewed family are revoked.
          refine ⟨?_, fun hactive => absurd hactive (hrevoked (by rw [← hfa, heq]))⟩
          rw [hrenewed heq]
          have := heq ▸ hbearer.1
          omega
        · rw [hother heq]
          exact ⟨hbearer.1, fun hactive => hbearer.2 (hages.active hactive)⟩
      · have heq : f = family :=
          hsole f hf (by rw [← hfages.familyId, hid', hbfamily])
        rw [hrenewed heq, hbgeneration]
        exact ⟨le_rfl, fun _ => rfl⟩
    · intro f' hf' hpos
      obtain ⟨f, hf, hfages, -, hother⟩ := hfamilies f' hf'
      rw [hfages.familyId]
      by_cases heq : f = family
      · rw [heq]
        exact hcredential
      · rw [hother heq] at hpos
        exact hcurrent.claimed f hf hpos
  · intro hlinked
    refine hlinked.of_old (refl σ n t).enrollment ?_ hlinked.rotation
    intro f' hf'
    obtain ⟨f, hf, hages, -⟩ := hfamilies f' hf'
    exact ⟨f, hf, hages⟩

/-- A family is founded, with its first bearer. -/
theorem moves_found (enrollments : Table EnrollmentRow EnrollmentRow.conflict)
    (hsound : t.ForeignKeys)
    (hnew : NewFamily σ n family.familyId) (hzero : family.generation = 0)
    (hfound : t.families.insert? family = some families)
    (hcredential : (∀ c' ∈ credentials, (∃ c ∈ t.credentials, c.Ages c') ∨
        ∀ c ∈ t.credentials, c.credentialHash ≠ c'.credentialHash) ∧
      ∀ c ∈ t.credentials, ∃ c' ∈ credentials, c.Ages c') (hid : b.sessionId = σ.newId "session" n)
    (hhash : b.tokenHash = σ.tokenHash (σ.newSecret "eds" n))
    (hbfamily : b.familyId = family.familyId) (hbgeneration : b.generation = 0)
    (hins : t.sessions.insert? b = some sessions) (hlinked : Linked t → Linked { t with
      sessions := sessions, families := families, credentials := credentials
      enrollments := enrollments }) :
    Moves σ n t { t with
      sessions := sessions, families := families, credentials := credentials
      enrollments := enrollments } := by
  have hfresh : ∀ f ∈ t.families, f.familyId ≠ family.familyId :=
    fun f hf => fresh_of_insert? hfound hf
  constructor
  · exact { (refl σ n t).evolves with
      session := by
        intro a' ha'
        rcases (mem_insert? hins).1 ha' with ha' | rfl
        · exact .inl ⟨a', ha', .refl a'⟩
        · exact .inr ⟨hid, hhash, fun f hf hfid => absurd (hfid.trans hbfamily) (hfresh f hf)⟩
      family := by
        intro f' hf'
        rcases (mem_insert? hfound).1 hf' with hf' | rfl
        · exact .inl ⟨f', hf', .refl f'⟩
        · exact .inr ⟨hnew, hfresh⟩
      credential := hcredential.1
      kept := fun c hc => .inl (hcredential.2 c hc) }
  · intro hcurrent
    constructor
    · intro a' ha' f' hf' hid'
      rcases (mem_insert? hins).1 ha' with ha' | rfl
      · rcases (mem_insert? hfound).1 hf' with hf' | rfl
        · exact hcurrent.bearer a' ha' f' hf' hid'
        -- No bearer was of the new family.
        obtain ⟨f, hf, hfa, -⟩ := hsound.session a' ha'
        exact absurd (hfa.trans hid'.symm) (hfresh f hf)
      · rcases (mem_insert? hfound).1 hf' with hf' | rfl
        · exact absurd (hid'.trans hbfamily) (hfresh f' hf')
        · rw [hbgeneration, hzero]
          exact ⟨le_rfl, fun _ => rfl⟩
    · intro f' hf' hpos
      rcases (mem_insert? hfound).1 hf' with hf' | rfl
      · obtain ⟨c, hc, hfamily⟩ := hcurrent.claimed f' hf' hpos
        obtain ⟨c', hc', hages⟩ := hcredential.2 c hc
        exact ⟨c', hc', hages.familyId.trans hfamily⟩
      · rw [hzero] at hpos
        exact absurd hpos (Nat.lt_irrefl 0)
  · exact hlinked

/-! ## Paths -/

/-- A write that succeeds broke no unique index. -/
theorem write_eq_ok {α : Type} {o : Option α} {f : α → Tables} :
    (unique o >>= fun a => exec (f a)) = .ok d ↔ ∃ a, o = some a ∧ d.toTables = f a := by
  simp only [bind_eq_ok, unique_eq_ok, exec_eq_ok]

theorem Path.trans {d₁ d₂ d₃ : Db} (h₁ : Path σ n d₁ d₂) (h₂ : Path σ n d₂ d₃) : Path σ n d₁ d₃ :=
  Relation.ReflTransGen.trans h₁ h₂

/-- A statement is a path. -/
theorem path_exec (h : exec t = .ok d') (hquiet : Quiet σ n d.toTables t) : Path σ n d d' := by
  rw [← exec_eq_ok.1 h] at hquiet
  exact .single hquiet.moves

/-- A statement on other tables. -/
theorem quiet_elsewhere (h : (t'.sessions, t'.families, t'.devices, t'.credentials, t'.tickets,
    t'.enrollments) = (t.sessions, t.families, t.devices, t.credentials, t.tickets,
    t.enrollments)) : Quiet σ n t t' := by
  simp only [Prod.mk.injEq] at h
  obtain ⟨hsessions, hfamilies, hdevices, hcredentials, htickets, henrollments⟩ := h
  constructor
  · rw [hsessions]
    exact (refl σ n t).session
  · rw [hfamilies]
    exact (refl σ n t).family
  · rw [hdevices]
    exact (refl σ n t).device
  · rw [hcredentials]
    exact (refl σ n t).credential
  · rw [hcredentials, hfamilies]
    exact (refl σ n t).kept
  · rw [htickets]
    exact (refl σ n t).ticket
  · rw [henrollments]
    exact (refl σ n t).enrollment
  intro hrotations
  unfold Rotations
  rw [hcredentials]
  exact hrotations

theorem path_insertTenant {row : TenantRow} (h : insertTenant d row = .ok d') : Path σ n d d' := by
  obtain ⟨tenants, -, h⟩ := bind_eq_ok.1 h
  exact path_exec h (quiet_elsewhere rfl)

theorem path_insertUser {row : UserRow} (h : insertUser d row = .ok d') : Path σ n d d' := by
  obtain ⟨users, -, h⟩ := bind_eq_ok.1 h
  exact path_exec h (quiet_elsewhere rfl)

theorem path_insertDevice {row : DeviceRow} (h : insertDevice d row = .ok d') : Path σ n d d' := by
  obtain ⟨devices, hins, h⟩ := bind_eq_ok.1 h
  exact path_exec h (quiet_insertDevice (unique_eq_ok.1 hins))

theorem path_updateCredential (h : updateCredential d sel f = .ok d')
    (hf : ∀ c : CredentialRow, c.Ages (f c))
    (hsame : ∀ c : CredentialRow, (f c).credentialId = c.credentialId ∧
      (f c).rotatedToCredentialId = c.rotatedToCredentialId) : Path σ n d d' := by
  obtain ⟨credentials, hupd, h⟩ := bind_eq_ok.1 h
  rw [unique_eq_ok] at hupd
  refine path_exec h (quiet_updateCredentials hupd hf fun hrotations => ?_)
  refine rotations_update hupd (fun c hc => ⟨(hsame c).1, (hf c).familyId, ?_⟩) hrotations
  intro _ id hid
  rw [(hsame c).2] at hid
  exact hrotations c hc id hid

/-! ## Renewal -/

/-- The writes that renew a family whose row was read. -/
theorem path_renewFamily {d₁ d₂ : Db} {sel : FamilyRow → Bool} {issued : IssuedSession}
    (hfamily : family ∈ d.families) (hlt : family.generation < generation)
    (hsel : sel family = true) (honly : ∀ f, sel f = true → f.familyId = family.familyId)
    (hcredential : ∃ c ∈ d.credentials, c.familyId = family.familyId)
    (hrevoke : revokeBearers d now family.familyId = .ok d₁)
    (hset : setGeneration d₁ sel generation = .ok d₂)
    (hins : insertSessionTx σ d₂ now n device family.familyId generation ttl = .ok (d', issued)) :
    Path σ n d d' := by
  obtain ⟨sessions, hsessions, h₁⟩ := write_eq_ok.1 hrevoke
  obtain ⟨families, hfamilies, h₂⟩ := write_eq_ok.1 hset
  obtain ⟨d₃, hbearer, hreturn⟩ := bind_eq_ok.1 hins
  cases hreturn
  obtain ⟨sessions', hsessions', h₃⟩ := write_eq_ok.1 hbearer
  rw [h₁] at hfamilies h₂
  rw [h₂] at hsessions' h₃
  have hmoves := moves_renew (σ := σ) (n := n) hfamily hlt hsel honly hcredential hsessions
    hfamilies rfl rfl rfl rfl hsessions'
  refine .single ?_
  rw [h₃]
  exact hmoves

theorem path_renewCredentialRowTx {row : CredentialRow × Identity} {issued : IssuedSession}
    (hrow : credentialRowTx σ d now credential = .ok row)
    (h : renewCredentialRowTx σ d now n row ttl = .ok (d', issued)) : Path σ n d d' := by
  obtain ⟨hmem, -, -, hof, hrevoked⟩ := credentialRowTx_eq_ok hrow
  obtain ⟨d₁, h₁, h⟩ := bind_eq_ok.1 h
  obtain ⟨d₂, h₂, h₃⟩ := bind_eq_ok.1 h
  simp only [Identity.revoked, decide_eq_false_iff_not, not_or, not_isSome_iff_eq_none] at hrevoked
  have hid := hof.family.2.1
  rw [← hid] at h₁ h₂ h₃
  refine path_renewFamily hof.family.1 (Nat.lt_succ_self _) ?_ ?_ ⟨row.1, hmem, hid.symm⟩ h₁ h₂ h₃
  · exact decide_eq_true ⟨rfl, hrevoked.1⟩
  · intro f hf
    exact (of_decide_eq_true hf).1

/-! ## Orphaned enrollments -/

/-- What a round of the cleanup deletes. -/
structure Removed (e : EnrollmentRow) (t t' : Tables) : Prop where
  sessions : t'.sessions = t.sessions.delete fun a => a.familyId = e.familyId
  tickets : ∀ k ∈ t'.tickets, k ∈ t.tickets
  credentials : ∃ credentials, t.credentials.update? (fun c => c.familyId = e.familyId)
      (fun c => { c with rotatedToCredentialId := none }) = some credentials ∧
    t'.credentials = credentials.delete fun c => c.familyId = e.familyId
  enrollments : t'.enrollments =
    t.enrollments.delete fun x => x.enrollmentIdHash = e.enrollmentIdHash
  families : t'.families = t.families.delete fun f => f.familyId = e.familyId
  devices : t'.devices = t.devices.delete fun x => x.key = e.device
  syncDevices : t'.syncDevices = t.syncDevices
  pairings : t'.pairings = t.pairings
  resources : t'.resources = t.resources
  users : ∀ u, u ∈ t'.users ↔ u ∈ t.users ∧
    (u.scope = e.device.scope → ∃ x ∈ t'.devices, x.key.scope = e.device.scope)
  tenants : ∀ x, x ∈ t'.tenants → x ∈ t.tenants
  tenant : ∀ x ∈ t.tenants, x ∈ t'.tenants ∨ ∀ u ∈ t'.users, u.scope.tenantId ≠ x.tenantId

theorem rotations_delete (familyId : String) (hrotations : Rotations t) : Rotations { t with
      credentials := t.credentials.delete fun c => c.familyId = familyId } := by
  intro c hc id hid
  obtain ⟨hc, hother⟩ := mem_delete.1 hc
  obtain ⟨x, hx, hxid, hxfamily⟩ := hrotations c hc id hid
  refine ⟨x, mem_delete.2 ⟨hx, decide_eq_false ?_⟩, hxid, hxfamily⟩
  rw [hxfamily]
  exact of_decide_eq_false hother

/-- What the deletion of a user leaves. -/
theorem deleteUser_tables {scope : Scope} (h : deleteUser d scope = .ok d') : ∃ leases quotas,
      d'.toTables = { d.toTables with
        leases := leases
        quotas := quotas
        users := d.users.delete fun u => u.scope = scope
        tenants := d.tenants.delete fun x => x.tenantId = scope.tenantId ∧
          ¬ ∃ u ∈ (d.users.delete fun u => u.scope = scope).rows,
            u.scope.tenantId = x.tenantId } := by
  obtain ⟨d₁, h₁, h⟩ := bind_eq_ok.1 h
  obtain ⟨d₂, h₂, h₃⟩ := bind_eq_ok.1 h
  have h₁ := exec_eq_ok.1 h₁
  have h₂ := exec_eq_ok.1 h₂
  have h₃ := exec_eq_ok.1 h₃
  rw [h₁] at h₂
  rw [h₂] at h₃
  exact ⟨_, _, h₃⟩

theorem removeEnrollment_removed (h : removeEnrollment d e = .ok d') :
    Removed e d.toTables d'.toTables := by
  simp only [removeEnrollment, bind_eq_ok] at h
  obtain ⟨d₁, h₁, d₂, h₂, d₃, h₃, d₄, h₄, d₅, h₅, d₆, h₆, h⟩ := h
  obtain ⟨credentials, hcredentials, h₂⟩ := write_eq_ok.1 h₂
  have h₁ := exec_eq_ok.1 h₁
  have h₃ := exec_eq_ok.1 h₃
  have h₄ := exec_eq_ok.1 h₄
  have h₅ := exec_eq_ok.1 h₅
  have h₆ := exec_eq_ok.1 h₆
  rw [h₁] at hcredentials h₂
  rw [h₂] at h₃
  rw [h₃] at h₄
  rw [h₄] at h₅
  rw [h₅] at h₆
  split at h
  · -- Another device of the user is left.
    rename_i hdevice
    cases h
    rw [h₆] at hdevice ⊢
    refine ⟨rfl, fun k hk => (mem_delete.1 hk).1, ⟨credentials, hcredentials, rfl⟩,
      rfl, rfl, rfl, rfl, rfl, rfl, ?_, fun _ hx => hx, fun _ hx => .inl hx⟩
    intro u
    exact ⟨fun hu => ⟨hu, fun _ => hdevice⟩, fun hu => hu.1⟩
  rename_i hdevice
  obtain ⟨leases, quotas, h⟩ := deleteUser_tables h
  rw [h₆] at h hdevice
  rw [h]
  refine ⟨rfl, fun k hk => (mem_delete.1 hk).1, ⟨credentials, hcredentials, rfl⟩,
    rfl, rfl, rfl, rfl, rfl, rfl, ?_, fun x hx => (mem_delete.1 hx).1, ?_⟩
  · intro u
    constructor
    · intro hu
      have hu := mem_delete.1 hu
      exact ⟨hu.1, fun hscope => absurd hscope (of_decide_eq_false hu.2)⟩
    · rintro ⟨hu, hleft⟩
      refine mem_delete.2 ⟨hu, decide_eq_false ?_⟩
      intro hscope
      exact hdevice (hleft hscope)
  · intro x hx
    by_cases hdeleted : x.tenantId = e.device.scope.tenantId ∧
        ¬ ∃ u ∈ (d.users.delete fun u => u.scope = e.device.scope).rows,
          u.scope.tenantId = x.tenantId
    · exact .inr fun u hu htenant => hdeleted.2 ⟨u, hu, htenant⟩
    · exact .inl (mem_delete.2 ⟨hx, decide_eq_false hdeleted⟩)

theorem Removed.quiet {t : Tables} (h : Removed e t t') : Quiet σ n t t' := by
  obtain ⟨credentials, hupdate, hcredentials⟩ := h.credentials
  constructor
  · intro a ha
    rw [h.sessions] at ha
    exact ⟨a, (mem_delete.1 ha).1, .refl a⟩
  · intro f hf
    rw [h.families] at hf
    exact ⟨f, (mem_delete.1 hf).1, .refl f, rfl⟩
  · intro x hx
    rw [h.devices] at hx
    exact .inl ⟨x, (mem_delete.1 hx).1, .refl x⟩
  · intro c' hc'
    rw [hcredentials] at hc'
    obtain ⟨c, hc, rfl⟩ := (mem_update? hupdate).1 (mem_delete.1 hc').1
    refine .inl ⟨c, hc, ?_⟩
    split
    · exact ⟨rfl, rfl, rfl, rfl, id⟩
    · exact .refl c
  · intro c hc
    by_cases hfamily : c.familyId = e.familyId
    · right
      intro f hf
      rw [h.families] at hf
      rw [hfamily]
      exact of_decide_eq_false (mem_delete.1 hf).2
    · left
      refine ⟨c, ?_, .refl c⟩
      rw [hcredentials]
      refine mem_delete.2 ⟨(mem_update? hupdate).2 ⟨c, hc, ?_⟩, decide_eq_false hfamily⟩
      rw [if_neg (by simpa using hfamily)]
  · intro k hk
    exact .inl (h.tickets k hk)
  · intro x hx
    rw [h.enrollments] at hx
    exact ⟨x, (mem_delete.1 hx).1, rfl, rfl, rfl⟩
  · intro hrotations
    unfold Rotations
    rw [hcredentials]
    refine rotations_delete e.familyId (rotations_update hupdate ?_ hrotations)
    exact fun c _ => ⟨rfl, rfl, fun _ id hid => by cases hid⟩

theorem path_removeEnrollments {batchSize : Nat} {es : List EnrollmentRow} {removed' : Nat}
    (h : removeEnrollments batchSize es removed d = .ok (d', removed')) : Path σ n d d' := by
  induction es generalizing removed d with
  | nil =>
    cases h
    exact .refl
  | cons e es ih =>
    unfold removeEnrollments at h
    split at h
    · cases h
      exact .refl
    split at h
    · exact ih h
    obtain ⟨d₁, h₁, h⟩ := bind_eq_ok.1 h
    have hquiet : Quiet σ n d.toTables d₁.toTables := (removeEnrollment_removed h₁).quiet
    exact .head hquiet.moves (ih h)

theorem path_forgetAdmissions (h : forgetAdmissions d policy now = .ok d') : Path σ n d d' :=
  path_exec h (quiet_elsewhere rfl)

theorem path_cleanupOrphaned {admissionPolicy : Option EnrollmentAdmissionPolicy}
    (h : cleanupOrphanedEnrollments cfg d now admissionPolicy = .ok (d', removed)) :
    Path σ n d d' := by
  obtain ⟨⟨d₁, removed₁⟩, h₁, h⟩ := bind_eq_ok.1 h
  obtain ⟨d₂, h₂, h⟩ := bind_eq_ok.1 h
  cases h
  exact (path_removeEnrollments h₁).trans (path_forgetAdmissions h₂)

/-! ## Enrollment -/

theorem path_admitNewEnrollmentTx
    (h : admitNewEnrollmentTx d now enrollmentHash peerHash policy = .ok d') : Path σ n d d' := by
  simp only [admitNewEnrollmentTx, bind_eq_ok] at h
  obtain ⟨⟨d₁, removed⟩, h₁, d₂, h₂, -, -, -, -, -, -, -, -, -, -, h⟩ := h
  exact ((path_removeEnrollments h₁).trans (path_forgetAdmissions h₂)).trans
    (path_exec h (quiet_elsewhere rfl))

/-- A device that was just inserted has no family. -/
theorem free_of_insertDevice {row : DeviceRow} (h : insertDevice d row = .ok d') :
    ∀ f ∈ d'.families, f.device ≠ row.key := by
  obtain ⟨devices, hins, h⟩ := write_eq_ok.1 h
  rw [h]
  intro f hf hdevice
  obtain ⟨x, hx, hkey⟩ := d.sound.family f hf
  exact fresh_of_insert? hins hx (hkey.trans hdevice)

/-- A device without a family is enrolled. -/
theorem linked_enroll (hlinked : Linked t) (hsound : t.ForeignKeys)
    (hfree : ∀ f ∈ t.families, f.device ≠ family.device)
    (hfound : t.families.insert? family = some families)
    (hins : t.enrollments.insert? e = some enrollments)
    (hrotation : Rotations { t with credentials := credentials })
    (hfamily : e.familyId = family.familyId) (hdevice : e.device = family.device) :
    Linked { t with
      sessions := sessions, families := families, credentials := credentials
      enrollments := enrollments } := by
  have hfresh : ∀ x ∈ t.enrollments, x.familyId ≠ family.familyId ∧ x.device ≠ family.device := by
    intro x hx
    obtain ⟨f, hf, hid, hfdevice⟩ := hsound.enrollment x hx
    constructor
    · intro hsame
      exact fresh_of_insert? hfound hf (hid.trans hsame)
    · intro hsame
      exact hfree f hf (hfdevice.trans hsame)
  constructor
  · intro x hx f hf hsame
    rcases (mem_insert? hins).1 hx with hx | rfl
    · rcases (mem_insert? hfound).1 hf with hf | rfl
      · exact hlinked.device x hx f hf hsame
      · exact absurd hsame.symm (hfresh x hx).2
    · rcases (mem_insert? hfound).1 hf with hf | rfl
      · exact absurd (hsame.trans hdevice) (hfree f hf)
      · exact hfamily.symm
  · intro x hx y hy hsame
    rcases (mem_insert? hins).1 hx with hx | rfl
    · rcases (mem_insert? hins).1 hy with hy | rfl
      · exact hlinked.family x hx y hy hsame
      · exact absurd (hsame.trans hfamily) (hfresh x hx).1
    · rcases (mem_insert? hins).1 hy with hy | rfl
      · exact absurd (hsame.symm.trans hfamily) (hfresh y hy).1
      · rfl
  · exact hrotation

theorem path_insertEnrolledTx
    (h : insertEnrolledTx σ cfg d now n device credential enrollmentHash peerHash ttl =
      .ok (d', issued)) : Path σ n d d' := by
  simp only [insertEnrolledTx, bind_eq_ok] at h
  obtain ⟨d₁, h₁, d₂, h₂, ⟨d₃, credentialId, expiresAt⟩, h₃, d₄, h₄, ⟨d₅, session⟩, h₅, h⟩ := h
  cases h
  refine (path_insertDevice h₁).trans (.single ?_)
  obtain ⟨families, hfamilies, h₂⟩ := write_eq_ok.1 h₂
  obtain ⟨d₃, hcredential, hreturn⟩ := bind_eq_ok.1 h₃
  cases hreturn
  obtain ⟨credentials, hcredentials, h₃⟩ := write_eq_ok.1 hcredential
  obtain ⟨enrollments, henrollments, h₄⟩ := write_eq_ok.1 h₄
  obtain ⟨d₅, hbearer, hreturn⟩ := bind_eq_ok.1 h₅
  cases hreturn
  obtain ⟨sessions, hsessions, h₅⟩ := write_eq_ok.1 hbearer
  have hfree := free_of_insertDevice h₁
  rw [h₂] at hcredentials h₃
  rw [h₃] at henrollments h₄
  rw [h₄] at hsessions h₅
  have hlinked : Linked d₁.toTables → Linked { d₁.toTables with
      sessions := sessions, families := families, credentials := credentials
      enrollments := enrollments } := by
    intro hlinked
    exact linked_enroll hlinked d₁.sound hfree hfamilies henrollments
      (rotations_insert hcredentials rfl hlinked.rotation) rfl rfl
  have hmoves := moves_found (σ := σ) (n := n) enrollments d₁.sound (.inl rfl) rfl
    hfamilies (credential_of_insert hcredentials) rfl rfl rfl rfl hsessions hlinked
  rw [h₅]
  exact hmoves

theorem path_enrollPublicDevice {r : EnrollRequest}
    (h : enrollPublicDevice σ cfg d now n r = .ok (d', issued)) : Path σ n d d' := by
  obtain ⟨ttl, -, h⟩ := bind_eq_ok.1 h
  obtain ⟨-, -, h⟩ := bind_eq_ok.1 h
  dsimp only at h
  split at h
  · obtain ⟨-, -, h⟩ := bind_eq_ok.1 h
    obtain ⟨row, hrow, h⟩ := bind_eq_ok.1 h
    obtain ⟨-, -, h⟩ := bind_eq_ok.1 h
    obtain ⟨⟨d₁, session⟩, h₁, h⟩ := bind_eq_ok.1 h
    obtain ⟨enrollments, hupd, h⟩ := bind_eq_ok.1 h
    obtain ⟨d₂, h₂, h⟩ := bind_eq_ok.1 h
    cases h
    exact (path_renewCredentialRowTx hrow h₁).trans (path_exec h₂
      (quiet_updateEnrollments (unique_eq_ok.1 hupd) fun e => ⟨rfl, rfl, rfl⟩))
  · simp only [bind_eq_ok] at h
    obtain ⟨d₁, h₁, d₂, h₂, d₃, h₃, h⟩ := h
    exact (((path_admitNewEnrollmentTx h₁).trans (path_insertTenant h₂)).trans
      (path_insertUser h₃)).trans (path_insertEnrolledTx h)

theorem path_enrollAdditionalDevice {r : EnrollAdditionalRequest}
    (h : enrollAdditionalDevice σ cfg d now n p r = .ok (d', issued)) : Path σ n d d' := by
  simp only [enrollAdditionalDevice, bind_eq_ok] at h
  obtain ⟨-, -, ttl, -, -, -, -, -, h⟩ := h
  split at h
  · obtain ⟨-, -, h⟩ := bind_eq_ok.1 h
    obtain ⟨-, -, h⟩ := bind_eq_ok.1 h
    obtain ⟨row, hrow, h⟩ := bind_eq_ok.1 h
    obtain ⟨⟨d₁, session⟩, h₁, h⟩ := bind_eq_ok.1 h
    cases h
    exact path_renewCredentialRowTx hrow h₁
  · obtain ⟨d₁, h₁, h⟩ := bind_eq_ok.1 h
    exact (path_admitNewEnrollmentTx h₁).trans (path_insertEnrolledTx h)

theorem path_renewPublicSession {ttl : Option Int} {issued : IssuedSession}
    (h : renewPublicSession σ cfg d now n credential ttl = .ok (d', issued)) : Path σ n d d' := by
  obtain ⟨ttl, -, h⟩ := bind_eq_ok.1 h
  obtain ⟨row, hrow, h⟩ := bind_eq_ok.1 h
  exact path_renewCredentialRowTx hrow h

/-! ## Rotation and claim -/

theorem path_rotateTx {old : CredentialRow} (hold : old ∈ d.credentials)
    (hfamily : old.familyId = familyId)
    (h : rotateTx σ cfg d now n p familyId old newCredential = .ok (d', r)) : Path σ n d d' := by
  simp only [rotateTx, bind_eq_ok] at h
  obtain ⟨d₁, h₁, d₂, h₂, d₃, h₃, enrollments, henrollments, d₄, h₄, h⟩ := h
  cases h
  have hrevoked : Path σ n d d₁ :=
    path_updateCredential h₁ (fun c => ⟨rfl, rfl, rfl, rfl, fun _ => rfl⟩) fun c => ⟨rfl, rfl⟩
  obtain ⟨cs₁, hupd, h₁⟩ := bind_eq_ok.1 h₁
  obtain ⟨cs₂, hins, h₂⟩ := bind_eq_ok.1 h₂
  obtain ⟨cs₃, hlink, h₃⟩ := bind_eq_ok.1 h₃
  rw [unique_eq_ok] at hupd hins hlink
  have hinserted : Path σ n d₁ d₂ := path_exec h₂ (quiet_insertCredential hins rfl)
  have e₁ := exec_eq_ok.1 h₁
  have e₂ := exec_eq_ok.1 h₂
  have hleft : ∃ x ∈ d₁.credentials, x.credentialId = old.credentialId ∧ x.familyId = familyId := by
    rw [e₁]
    refine ⟨_, (mem_update? hupd).2 ⟨old, hold, rfl⟩, ?_⟩
    split
    · exact ⟨rfl, hfamily⟩
    · exact ⟨rfl, hfamily⟩
  obtain ⟨x, hx, hxid, hxfamily⟩ := hleft
  have hx : x ∈ d₂.credentials := by
    rw [e₂]
    exact (mem_insert? hins).2 (.inl hx)
  have hnew : (⟨σ.newId "credential" n, σ.tokenHash newCredential, familyId, p.device,
      now + cfg.credentialTtl, none, none⟩ : CredentialRow) ∈ d₂.credentials := by
    rw [e₂]
    exact (mem_insert? hins).2 (.inr rfl)
  rw [← hxid] at hlink
  have hlinked : Path σ n d₂ d₃ := by
    refine path_exec h₃ (quiet_updateCredentials hlink (fun c => ⟨rfl, rfl, rfl, rfl, id⟩)
      (rotations_update hlink fun c hc => ⟨rfl, rfl, ?_⟩))
    rintro hsel _ ⟨⟩
    have heq : c = x := eq_of_conflict hc hx (.inl (of_decide_eq_true hsel))
    exact ⟨_, hnew, rfl, by rw [heq, hxfamily]⟩
  exact ((hrevoked.trans hinserted).trans hlinked).trans (path_exec h₄
    (quiet_updateEnrollments (unique_eq_ok.1 henrollments) fun e => ⟨rfl, rfl, rfl⟩))

theorem authorize_eq_ok {row : CredentialRow × Identity}
    (h : authorize σ d now p credential = .ok row) :
    credentialRowTx σ d now credential = .ok row ∧ p.familyId = some row.1.familyId ∧
      row.1.device = p.device := by
  obtain ⟨row', hrow, h⟩ := bind_eq_ok.1 h
  obtain ⟨u, hguard, h⟩ := bind_eq_ok.1 h
  cases h
  exact ⟨hrow, require_eq_ok.1 hguard⟩

theorem publicFamily?_eq_some (h : p.publicFamily? = some familyId) :
    p.familyId = some familyId := by
  unfold Principal.publicFamily? at h
  split at h
  · exact (filter_eq_some_iff.1 h).1
  · cases h

theorem path_rotateDeviceCredential
    (h : rotateDeviceCredential σ cfg d now n p currentCredential newCredential = .ok (d', r)) :
    Path σ n d d' := by
  unfold rotateDeviceCredential at h
  split at h
  · cases h
  rename_i familyId hpublic
  simp only [bind_eq_ok] at h
  obtain ⟨-, -, old, hold, h⟩ := h
  obtain ⟨hrow, hfamily, -⟩ := authorize_eq_ok hold
  have hsame := hfamily.symm.trans (publicFamily?_eq_some hpublic)
  exact path_rotateTx (credentialRowTx_eq_ok hrow).1 (some.inj hsame) h

theorem path_claimTx (hcurrent : Current d.toTables)
    (hunclaimed : ¬ ∃ c ∈ d.credentials.rows, c.familyId = familyId) (hpos : 0 < generation)
    (h : claimTx σ cfg d now n p familyId generation = .ok (d', issued)) : Path σ n d d' := by
  simp only [claimTx, bind_eq_ok] at h
  obtain ⟨⟨d₁, credentialId, expiresAt⟩, h₁, devices, hdevices, d₂, h₂, d₃, h₃, d₄, h₄, ⟨d₅,
    session⟩, h₅, h⟩ := h
  cases h
  obtain ⟨d₁, hcredential, hreturn⟩ := bind_eq_ok.1 h₁
  cases hreturn
  obtain ⟨credentials, hins, hcredential⟩ := bind_eq_ok.1 hcredential
  rw [unique_eq_ok] at hins hdevices
  have hinserted : Path σ n d d₁ := path_exec hcredential (quiet_insertCredential hins rfl)
  have hclaimed : Path σ n d₁ d₂ :=
    path_exec h₂ (quiet_updateDevices hdevices fun x => ⟨rfl, id⟩)
  refine (hinserted.trans hclaimed).trans ?_
  -- The family of the new credential, which had none, was never renewed.
  have e₁ := exec_eq_ok.1 hcredential
  have e₂ := exec_eq_ok.1 h₂
  have hmem : (⟨σ.newId "credential" n, σ.tokenHash (σ.newSecret "edc" n), familyId, p.device,
      now + cfg.credentialTtl, none, none⟩ : CredentialRow) ∈ d₁.credentials := by
    rw [e₁]
    exact (mem_insert? hins).2 (.inr rfl)
  obtain ⟨family, hfamily, hid, -⟩ := d₁.sound.credential _ hmem
  have hfamily' : family ∈ d.families := by
    rw [e₁] at hfamily
    exact hfamily
  have hzero : family.generation = 0 := by
    by_contra hne
    obtain ⟨c, hc, hcf⟩ := hcurrent.claimed family hfamily' (Nat.pos_of_ne_zero hne)
    exact hunclaimed ⟨c, hc, hcf.trans hid⟩
  have hid : family.familyId = familyId := hid
  have hfamily₂ : family ∈ d₂.families := by
    rw [e₂]
    exact hfamily
  have hcredential₂ : ∃ c ∈ d₂.credentials, c.familyId = family.familyId := by
    rw [e₂]
    exact ⟨_, hmem, hid.symm⟩
  rw [← hid] at h₃ h₄ h₅
  refine path_renewFamily hfamily₂ (by rw [hzero]; exact hpos) (decide_eq_true rfl) ?_
    hcredential₂ h₃ h₄ h₅
  intro f hf
  exact of_decide_eq_true hf

theorem path_claimLegacyIdentity (hcurrent : Current d.toTables)
    (h : claimLegacyIdentity σ cfg d now n p = .ok (d', issued)) : Path σ n d d' := by
  unfold claimLegacyIdentity at h
  split at h
  · cases h
  split at h
  · cases h
  obtain ⟨u, hguard, h⟩ := bind_eq_ok.1 h
  exact path_claimTx hcurrent (require_eq_ok.1 hguard).2 (Nat.succ_pos _) h

/-! ## Revocation -/

theorem path_revokeSession {sessionId : String}
    (h : revokeSession d now sessionId = .ok (d', changed)) : Path σ n d d' := by
  obtain ⟨sessions, hupd, h⟩ := bind_eq_ok.1 h
  obtain ⟨d₁, h₁, h⟩ := bind_eq_ok.1 h
  cases h
  exact path_exec h₁ (quiet_updateSessions (unique_eq_ok.1 hupd)
    fun a => ⟨rfl, rfl, rfl, rfl, rfl, rfl, fun _ => rfl⟩)

theorem path_revokeIssued {bearer : SessionRow → Bool} {credential : CredentialRow → Bool}
    (h : revokeIssued d now bearer credential = .ok d') : Path σ n d d' := by
  obtain ⟨sessions, hupd, h⟩ := bind_eq_ok.1 h
  obtain ⟨d₁, h₁, h⟩ := bind_eq_ok.1 h
  have hbearers : Path σ n d d₁ := path_exec h₁ (quiet_updateSessions (unique_eq_ok.1 hupd)
    fun a => ⟨rfl, rfl, rfl, rfl, rfl, rfl, fun _ => rfl⟩)
  exact hbearers.trans (path_updateCredential h (fun c => ⟨rfl, rfl, rfl, rfl, fun _ => rfl⟩)
    fun c => ⟨rfl, rfl⟩)

theorem path_revokeSessionFamily (h : revokeSessionFamily d now p = .ok (d', changed)) :
    Path σ n d d' := by
  unfold revokeSessionFamily at h
  split at h
  · cases h
    exact .refl
  simp only [bind_eq_ok] at h
  obtain ⟨families, hupd, d₁, h₁, d₂, h₂, h⟩ := h
  cases h
  have hfamily : Path σ n d d₁ := path_exec h₁ (quiet_updateFamilies (unique_eq_ok.1 hupd)
    fun f => ⟨⟨rfl, rfl, le_rfl, fun _ => rfl⟩, rfl⟩)
  exact hfamily.trans (path_revokeIssued h₂)

theorem path_revokeDevice (h : revokeDevice σ d now p currentCredential = .ok (d', changed)) :
    Path σ n d d' := by
  unfold revokeDevice at h
  split at h
  · cases h
    exact .refl
  obtain ⟨row, -, h⟩ := bind_eq_ok.1 h
  obtain ⟨d₃, hwrites, h⟩ := bind_eq_ok.1 h
  cases h
  obtain ⟨devices, hdevices, h⟩ := bind_eq_ok.1 hwrites
  obtain ⟨d₁, h₁, h⟩ := bind_eq_ok.1 h
  obtain ⟨families, hfamilies, h⟩ := bind_eq_ok.1 h
  obtain ⟨d₂, h₂, h⟩ := bind_eq_ok.1 h
  have hdevice : Path σ n d d₁ := path_exec h₁ (quiet_updateDevices (unique_eq_ok.1 hdevices)
    fun x => ⟨rfl, fun _ => rfl⟩)
  have hfamily : Path σ n d₁ d₂ := path_exec h₂ (quiet_updateFamilies (unique_eq_ok.1 hfamilies)
    fun f => ⟨⟨rfl, rfl, le_rfl, fun _ => rfl⟩, rfl⟩)
  exact (hdevice.trans hfamily).trans (path_revokeIssued h)

theorem path_cleanupExpiredSessions {r : Nat × Nat}
    (h : cleanupExpiredSessions d now = .ok (d', r)) : Path σ n d d' := by
  obtain ⟨d₁, h₁, h⟩ := bind_eq_ok.1 h
  obtain ⟨d₂, h₂, h⟩ := bind_eq_ok.1 h
  cases h
  have htickets : Path σ n d d₁ := path_exec h₁ { refl σ n d.toTables with
      ticket := fun _ hk => .inl (mem_delete.1 hk).1 }
  have hsessions : Path σ n d₁ d' := path_exec h₂ { refl σ n d₁.toTables with
      session := fun a ha => ⟨a, (mem_delete.1 ha).1, .refl a⟩ }
  exact htickets.trans hsessions

/-! ## Tickets and the other writers -/

theorem path_issueResourceTicket {resourceType : ResourceType} {resourceId : String} {ttl : Int}
    {r : String × String × Nat}
    (h : issueResourceTicket σ d now n p resourceType resourceId ttl = .ok (d', r)) :
    Path σ n d d' := by
  simp only [issueResourceTicket, bind_eq_ok] at h
  obtain ⟨-, -, -, -, -, -, d₁, h₁, h⟩ := h
  cases h
  obtain ⟨tickets, hins, h₁⟩ := bind_eq_ok.1 h₁
  refine path_exec h₁ { refl σ n d.toTables with ticket := ?_ }
  intro k hk
  rcases (mem_insert? (unique_eq_ok.1 hins)).1 hk with hk | rfl
  · exact .inl hk
  · exact .inr rfl

/-- The device is there afterwards, and the enrollments are as before. -/
theorem path_ensurePrincipalDeviceTx (h : ensurePrincipalDeviceTx d device = .ok d') :
    Path σ n d d' ∧ d'.enrollments = d.enrollments := by
  obtain ⟨d₁, h₁, h⟩ := bind_eq_ok.1 h
  obtain ⟨d₂, h₂, h₃⟩ := bind_eq_ok.1 h
  have htenant : Path σ n d d₁ ∧ d₁.enrollments = d.enrollments := by
    unfold insertOrIgnoreTenant at h₁
    split at h₁
    · cases h₁
      exact ⟨.refl, rfl⟩
    · exact ⟨path_exec h₁ (quiet_elsewhere rfl), by rw [exec_eq_ok.1 h₁]⟩
  have huser : Path σ n d₁ d₂ ∧ d₂.enrollments = d₁.enrollments := by
    unfold insertOrIgnoreUser at h₂
    split at h₂
    · cases h₂
      exact ⟨.refl, rfl⟩
    · exact ⟨path_exec h₂ (quiet_elsewhere rfl), by rw [exec_eq_ok.1 h₂]⟩
  have hdevice : Path σ n d₂ d' ∧ d'.enrollments = d₂.enrollments := by
    unfold insertOrIgnoreDevice at h₃
    split at h₃
    · cases h₃
      exact ⟨.refl, rfl⟩
    · rename_i hins
      exact ⟨path_exec h₃ (quiet_insertDevice hins), by rw [exec_eq_ok.1 h₃]⟩
  exact ⟨(htenant.1.trans huser.1).trans hdevice.1, by rw [hdevice.2, huser.2, htenant.2]⟩

theorem path_createPairing {ttl : Int} {code : String}
    (h : createPairing σ d now n device ttl = .ok (d', code)) : Path σ n d d' := by
  simp only [createPairing, bind_eq_ok] at h
  obtain ⟨-, -, d₁, h₁, pairings, -, d₂, h₂, h⟩ := h
  cases h
  exact (path_ensurePrincipalDeviceTx h₁).1.trans (path_exec h₂ (quiet_elsewhere rfl))

theorem path_claimPairing {pairingCode deviceId syncToken : String}
    (h : claimPairing σ d now n pairingCode deviceId = .ok (d', syncToken)) : Path σ n d d' := by
  unfold claimPairing at h
  split at h
  · cases h
  simp only [bind_eq_ok] at h
  obtain ⟨-, -, -, -, d₃, hwrites, h⟩ := h
  cases h
  obtain ⟨d₁, h₁, h⟩ := bind_eq_ok.1 hwrites
  obtain ⟨syncDevices, -, h⟩ := bind_eq_ok.1 h
  obtain ⟨d₂, h₂, h⟩ := bind_eq_ok.1 h
  obtain ⟨pairings, -, h₃⟩ := bind_eq_ok.1 h
  have hsync : Path σ n d₁ d₂ := path_exec h₂ (quiet_elsewhere rfl)
  exact ((path_insertDevice h₁).trans hsync).trans (path_exec h₃ (quiet_elsewhere rfl))

theorem path_revokeSyncDevice (h : revokeSyncDevice d now device = .ok (d', u)) :
    Path σ n d d' := by
  simp only [revokeSyncDevice, bind_eq_ok] at h
  obtain ⟨-, -, syncDevices, -, d₁, h₁, h⟩ := h
  cases h
  exact path_exec h₁ (quiet_elsewhere rfl)

/-- A transaction of one statement on tables that nothing is issued from. -/
theorem path_single (h : (exec t >>= fun d => pure (d, ())) = .ok (d', u))
    (hquiet : Quiet σ n d.toTables t) : Path σ n d d' := by
  obtain ⟨d₁, h₁, h⟩ := bind_eq_ok.1 h
  cases h
  exact path_exec h₁ hquiet

/-- The migration of one bearer. -/
theorem path_migrateRow {l : LegacySession} (hnone : ∀ e, ¬ e ∈ d.enrollments)
    (h : migrateRow σ d n l = .ok (d', u)) :
    Path σ n d d' ∧ ∀ e, ¬ e ∈ d'.enrollments := by
  simp only [migrateRow, bind_eq_ok] at h
  obtain ⟨d₁, h₁, d₂, h₂, d₃, h₃, h⟩ := h
  cases h
  obtain ⟨hensured, hsame⟩ : Path σ n d d₁ ∧ _ := path_ensurePrincipalDeviceTx h₁
  have hnone₁ : ∀ e, ¬ e ∈ d₁.enrollments := by
    rw [hsame]
    exact hnone
  obtain ⟨families, hfamilies, h₂⟩ := write_eq_ok.1 h₂
  obtain ⟨sessions, hsessions, h₃⟩ := write_eq_ok.1 h₃
  rw [h₂] at hsessions h₃
  have hmoves := moves_found (σ := σ) (n := n) d₁.enrollments d₁.sound (.inr rfl) rfl
    hfamilies ⟨(refl σ n d₁.toTables).credential, fun c hc => ⟨c, hc, .refl c⟩⟩
    rfl rfl rfl rfl hsessions fun hlinked =>
      ⟨fun e he => absurd he (hnone₁ e), fun e he => absurd he (hnone₁ e), hlinked.rotation⟩
  constructor
  · refine hensured.trans (.single ?_)
    rw [h₃]
    exact hmoves
  · rw [h₃]
    exact hnone₁

/-! ## Steps -/

/-- What is committed holds of the next state. -/
theorem commit_cases {α : Type} {P : Db → Prop} {s : System} {r : Except SessionError (Db × α)}
    (hrefl : P s.db) (h : ∀ d a, r = .ok (d, a) → P d) : P (s.commit r).db := by
  unfold System.commit
  split
  · rename_i d a
    exact h d a rfl
  · exact hrefl

/-- Every step is a path of statements. -/
theorem path_step (σ : Secrets) (cfg : Settings) (s : System) (l : Label) (hcurrent : Current s.db.toTables) :
    Path σ s.drawn s.db (step σ cfg s l).db := by
  cases l with
  | tick => exact .refl
  | enroll => exact commit_cases .refl fun _ _ => path_enrollPublicDevice
  | enrollAdditional => exact commit_cases .refl fun _ _ => path_enrollAdditionalDevice
  | renew => exact commit_cases .refl fun _ _ => path_renewPublicSession
  | rotate => exact commit_cases .refl fun _ _ => path_rotateDeviceCredential
  | claimLegacy => exact commit_cases .refl fun _ _ => path_claimLegacyIdentity hcurrent
  | revokeSession => exact commit_cases .refl fun _ _ => path_revokeSession
  | revokeFamily => exact commit_cases .refl fun _ _ => path_revokeSessionFamily
  | revokeDevice => exact commit_cases .refl fun _ _ => path_revokeDevice
  | cleanupExpired => exact commit_cases .refl fun _ _ => path_cleanupExpiredSessions
  | cleanupOrphaned => exact commit_cases .refl fun _ _ => path_cleanupOrphaned
  | issueTicket => exact commit_cases .refl fun _ _ => path_issueResourceTicket
  | createPairing => exact commit_cases .refl fun _ _ => path_createPairing
  | claimPairing => exact commit_cases .refl fun _ _ => path_claimPairing
  | revokeSyncDevice => exact commit_cases .refl fun _ _ => path_revokeSyncDevice
  | _ =>
    exact commit_cases .refl fun _ _ h => path_single h (quiet_elsewhere rfl)

end Sessions
