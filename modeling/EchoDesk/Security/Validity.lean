import EchoDesk.Security.Sessions

/-! # What is valid

A credential, a bearer and a ticket are live while they are not revoked and have not expired,
and their family, device, user and tenant are not revoked. What validates is live.
-/

namespace Sessions

open EchoDesk Option Table

variable {σ : Secrets} {d : Db} {now : Nat} {familyId : String} {device : DeviceKey}
variable {p : Principal} {token : String}

/-! ## Live and ended -/

/-- What `identity?` finds. -/
structure Identity.Of (d : Db) (familyId : String) (key : DeviceKey) (i : Identity) : Prop where
  family : i.family ∈ d.families ∧ i.family.familyId = familyId ∧ i.family.device = key
  device : i.device ∈ d.devices ∧ i.device.key = key
  user : i.user ∈ d.users ∧ i.user.scope = key.scope
  tenant : i.tenant ∈ d.tenants ∧ i.tenant.tenantId = key.scope.tenantId

theorem identity?_eq_some {i : Identity} (h : d.identity? familyId device = some i) :
    i.Of d familyId device := by
  unfold Db.identity? at h
  simp only [bind_eq_bind, bind_eq_some_iff, pure_def] at h
  obtain ⟨family, hfamily, row, hrow, user, huser, tenant, htenant, h⟩ := h
  cases h
  have hfamily := mem_of_lookup hfamily
  have hrow := mem_of_lookup hrow
  have huser := mem_of_lookup huser
  have htenant := mem_of_lookup htenant
  exact ⟨⟨hfamily.1, of_decide_eq_true hfamily.2⟩, ⟨hrow.1, of_decide_eq_true hrow.2⟩,
    ⟨huser.1, of_decide_eq_true huser.2⟩, ⟨htenant.1, of_decide_eq_true htenant.2⟩⟩

/-- What is issued to the family on the device, with this revocation and expiry, is live. -/
structure Db.Live (d : Db) (now : Nat) (revokedAt : Option Nat) (expiresAt : Nat)
    (familyId : String) (device : DeviceKey) : Prop where
  active : revokedAt = none
  unexpired : now < expiresAt
  identity : ∃ i, Identity.Of d familyId device i ∧ i.revoked = false

/-- It is revoked or has expired, or its family or its device is revoked. -/
def Db.Ended (d : Db) (now : Nat) (revokedAt : Option Nat) (expiresAt : Nat) (familyId : String)
    (device : DeviceKey) : Prop :=
  revokedAt.isSome ∨ expiresAt ≤ now ∨
    (∃ f ∈ d.families, f.familyId = familyId ∧ f.revokedAt.isSome) ∨
    ∃ x ∈ d.devices, x.key = device ∧ x.revokedAt.isSome

theorem Db.Live.not_ended {revokedAt : Option Nat} {expiresAt : Nat}
    (h : d.Live now revokedAt expiresAt familyId device) :
    ¬ d.Ended now revokedAt expiresAt familyId device := by
  obtain ⟨i, hi, hrevoked⟩ := h.identity
  simp only [Identity.revoked, decide_eq_false_iff_not, not_or] at hrevoked
  rintro (hsome | hexpired | ⟨f, hf, hid, hsome⟩ | ⟨x, hx, hkey, hsome⟩)
  · rw [h.active] at hsome
    cases hsome
  · exact absurd h.unexpired (Nat.not_lt.2 hexpired)
  · have heq : f = i.family := eq_of_conflict hf hi.family.1 (hid.trans hi.family.2.1.symm)
    exact hrevoked.1 (heq ▸ hsome)
  · have heq : x = i.device := eq_of_conflict hx hi.device.1 (hkey.trans hi.device.2.symm)
    exact hrevoked.2.1 (heq ▸ hsome)

/-! ## The validations -/

theorem credentialRowTx_eq_ok {credential : String} {row : CredentialRow × Identity}
    (h : credentialRowTx σ d now credential = .ok row) :
    row.1 ∈ d.credentials ∧ row.1.credentialHash = σ.tokenHash credential ∧
      d.Live now row.1.revokedAt row.1.expiresAt row.1.familyId row.1.device ∧
      row.2.Of d row.1.familyId row.1.device ∧ row.2.revoked = false := by
  unfold credentialRowTx at h
  split at h
  · cases h
  split at h
  · cases h
  rename_i c hc
  split at h
  · cases h
  rename_i i hi
  split at h
  · cases h
  rename_i hactive
  split at h
  · cases h
  rename_i hunexpired
  cases h
  rw [not_or, not_isSome_iff_eq_none, Bool.not_eq_true] at hactive
  have hc := mem_of_lookup hc
  exact ⟨hc.1, of_decide_eq_true hc.2,
    ⟨hactive.1, Nat.not_le.1 hunexpired, i, identity?_eq_some hi, hactive.2⟩,
    identity?_eq_some hi, hactive.2⟩

theorem validatePublicToken_eq_ok (h : validatePublicToken σ d now token = .ok p) :
    ∃ a ∈ d.sessions, a.tokenHash = σ.tokenHash token ∧
      d.Live now a.revokedAt a.expiresAt a.familyId a.device ∧
      p = ⟨a.device, a.sessionId, .publicMode, some a.familyId⟩ := by
  unfold validatePublicToken at h
  split at h
  · cases h
  split at h
  · cases h
  rename_i a ha
  split at h
  · cases h
  rename_i i hi
  split at h
  · cases h
  rename_i hactive
  split at h
  · cases h
  rename_i hunexpired
  cases h
  rw [not_or, not_isSome_iff_eq_none, Bool.not_eq_true] at hactive
  have ha := mem_of_lookup ha
  exact ⟨a, ha.1, of_decide_eq_true ha.2,
    ⟨hactive.1, Nat.not_le.1 hunexpired, i, identity?_eq_some hi, hactive.2⟩, rfl⟩

theorem assertActivePrincipal_eq_ok {family : String} (hfamily : p.publicFamily? = some family)
    (h : assertActivePrincipal d now p = .ok ()) :
    ∃ a ∈ d.sessions, a.sessionId = p.sessionId ∧ a.device = p.device ∧ a.familyId = family ∧
      d.Live now a.revokedAt a.expiresAt a.familyId a.device := by
  unfold Principal.publicFamily? at hfamily
  split at hfamily
  · rename_i hmode
    unfold assertActivePrincipal at h
    rw [hfamily] at h
    dsimp only at h
    rw [if_neg (not_not_intro hmode)] at h
    split at h
    · cases h
    rename_i a ha
    split at h
    · cases h
    rename_i i hi
    split at h
    · cases h
    rename_i hactive
    split at h
    · cases h
    rename_i hunexpired
    rw [not_or, not_or, not_isSome_iff_eq_none, Bool.not_eq_true] at hactive
    have ha := mem_of_lookup ha
    obtain ⟨hid, hdevice, hfam⟩ := of_decide_eq_true ha.2
    exact ⟨a, ha.1, hid, hdevice, hfam, hactive.1, Nat.not_le.1 hunexpired, i,
      identity?_eq_some hi, hactive.2.1⟩
  · cases hfamily

theorem validateResourceTicket_eq_ok {resourceId : String} {resourceType : ResourceType}
    (h : validateResourceTicket σ d now token resourceType resourceId = .ok p) :
    ∃ k ∈ d.tickets, k.tokenHash = σ.tokenHash token ∧ k.resourceType = resourceType ∧
      k.resourceId = resourceId ∧ k.revokedAt = none ∧ now < k.expiresAt ∧
      ∃ a ∈ d.sessions, a.sessionId = k.sessionId ∧
        d.Live now a.revokedAt a.expiresAt a.familyId a.device ∧
        p = ⟨a.device, a.sessionId, .publicMode, some a.familyId⟩ := by
  unfold validateResourceTicket at h
  split at h
  · cases h
  split at h
  · cases h
  rename_i k hk
  split at h
  · cases h
  rename_i a ha
  split at h
  · cases h
  rename_i i hi
  split at h
  · cases h
  rename_i hactive
  split at h
  · cases h
  rename_i hunexpired
  cases h
  rw [not_or, not_or, not_isSome_iff_eq_none, not_isSome_iff_eq_none, Bool.not_eq_true] at hactive
  rw [not_or, Nat.not_le, Nat.not_le] at hunexpired
  have hk := mem_of_lookup hk
  have ha := mem_of_lookup ha
  obtain ⟨hhash, htype, hresource⟩ := of_decide_eq_true hk.2
  obtain ⟨hid, hdevice⟩ := of_decide_eq_true ha.2
  refine ⟨k, hk.1, hhash, htype, hresource, hactive.1, hunexpired.1, a, ha.1, hid, ?_, ?_⟩
  · exact ⟨hactive.2.1, hunexpired.2, i, identity?_eq_some hi, hactive.2.2⟩
  · rw [hdevice, hid]

end Sessions
