import EchoDesk.Security.Orphans

/-! # Cleanups and the enrollments that run them

A cleanup takes away nothing that is used, and neither it nor the enrollment that runs it
violates a foreign key, exactly when none of the enrollments that it removes has a sync
device, a pairing or a row in a table that it does not look at.
-/

namespace Sessions

open EchoDesk Transaction Transition List Table

variable {σ : Secrets} {cfg : Settings} {n now : Nat} {d d' : Db} {e : EnrollmentRow}
  {policy : EnrollmentAdmissionPolicy}
variable {credential : String} {device : DeviceKey} {generation removed : Nat}

/-! ## Enrollments that a cleanup removes -/

theorem mem_targets (h : e ∈ d.targets policy now) :
    e ∈ d.enrollments ∧ d.active now e = false ∧ d.userHasResources e.device.scope = false := by
  obtain ⟨horphan, hresources⟩ := mem_filter.1 (mem_of_mem_take h)
  have hsorted := mem_of_mem_take horphan
  have hfilter := (mem_insertionSort _).1 hsorted
  obtain ⟨hmem, hactive⟩ := mem_filter.1 hfilter
  refine ⟨hmem, ?_, ?_⟩
  · simpa using hactive
  · simpa using hresources

theorem distinct_targets (d : Db) (policy : EnrollmentAdmissionPolicy) (now : Nat) :
    (d.targets policy now).Pairwise fun e e' => e.enrollmentIdHash ≠ e'.enrollmentIdHash := by
  have hrows : (d.enrollments.rows.filter fun e => !d.active now e).Pairwise
      fun e e' => e.enrollmentIdHash ≠ e'.enrollmentIdHash := d.enrollments.sound.filter _
  have hsorted := (perm_insertionSort (fun a b : EnrollmentRow => a.createdAt ≤ b.createdAt)
    (d.enrollments.rows.filter fun e => !d.active now e)).symm.pairwise hrows Ne.symm
  have horphans := hsorted.sublist (take_sublist (policy.cleanupBatchSize * 10) _)
  have hfiltered := horphans.filter fun e => !d.userHasResources e.device.scope
  exact hfiltered.sublist (take_sublist policy.cleanupBatchSize _)

/-- The device of an enrollment that is removed has nothing usable. -/
theorem unusable_of_target (hlinked : Linked d.toTables) (h : e ∈ d.targets policy now) :
    (∀ c ∈ d.credentials, c.device = e.device → c.usable now = false) ∧
      ∀ a ∈ d.sessions, a.device = e.device → a.usable now = false := by
  obtain ⟨he, hactive, -⟩ := mem_targets h
  simp only [Db.active, decide_eq_false_iff_not, not_or, not_exists, not_and] at hactive
  obtain ⟨hcredential, hsession⟩ := hactive
  constructor
  · intro c hc hdevice
    obtain ⟨f, hf, hid, hfdevice⟩ := d.sound.credential c hc
    have hfamily := hlinked.device e he f hf (hfdevice.trans hdevice)
    exact Bool.eq_false_iff.2 (hcredential c hc (hid.symm.trans hfamily) hdevice)
  · intro a ha hdevice
    obtain ⟨f, hf, hid, hfdevice⟩ := d.sound.session a ha
    have hfamily := hlinked.device e he f hf (hfdevice.trans hdevice)
    exact Bool.eq_false_iff.2 (hsession a ha (hid.symm.trans hfamily) hdevice)

/-! ## What a cleanup removes -/

/-- The device has nothing usable, nothing that refers to it, and its user has no row. -/
structure Db.Unused (d : Db) (now : Nat) (device : DeviceKey) : Prop where
  credential : ∀ c ∈ d.credentials, c.device = device → c.usable now = false
  session : ∀ a ∈ d.sessions, a.device = device → a.usable now = false
  syncDevice : ∀ y ∈ d.syncDevices, y.device ≠ device
  pairing : ∀ p ∈ d.pairings, p.sourceDevice ≠ device
  resource : ∀ r ∈ d.resources, r.scope ≠ device.scope

/-- The rows of the table are seen by a cleanup, or the rows that they hang on. -/
def OwnerTable.covered (table : OwnerTable) : Bool :=
  table ∈ userResourceTables ∨ ∃ parent ∈ table.parent?, parent ∈ userResourceTables

/-- No enrollment that a cleanup removes has a sync device, a pairing or a row in a table that
the cleanup does not look at. -/
def Db.NothingMissed (d : Db) (policy : EnrollmentAdmissionPolicy) (now : Nat) : Prop :=
  ∀ e ∈ d.targets policy now, (∀ y ∈ d.syncDevices, y.device ≠ e.device) ∧
    (∀ p ∈ d.pairings, p.sourceDevice ≠ e.device) ∧
    ∀ r ∈ d.resources, r.scope = e.device.scope → r.table.covered

/-- A user without a row in the tables that are looked at has none on them either. -/
theorem not_covered_of_userHasResources {scope : Scope} (h : d.userHasResources scope = false)
    {r : ResourceRow} (hr : r ∈ d.resources) (hscope : r.scope = scope) :
    r.table.covered = false := by
  simp only [Db.userHasResources, decide_eq_false_iff_not, not_exists, not_and] at h
  simp only [OwnerTable.covered, decide_eq_false_iff_not, not_or, not_exists, not_and]
  constructor
  · intro htable
    exact h r.table htable r hr rfl hscope
  · intro parent hparent htable
    obtain ⟨q, hq, hqtable, hqscope, -⟩ := d.sound.parent r hr parent hparent
    exact h parent htable q hq hqtable (hqscope.trans hscope)

theorem Db.NothingMissed.clear (h : d.NothingMissed policy now) (he : e ∈ d.targets policy now) :
    d.Clear e.device := by
  obtain ⟨hsync, hpairing, hresource⟩ := h e he
  refine ⟨hsync, hpairing, ?_⟩
  intro r hr hscope
  have hcovered := hresource r hr hscope
  rw [not_covered_of_userHasResources (mem_targets he).2.2 hr hscope] at hcovered
  cases hcovered

theorem Db.NothingMissed.unused (h : d.NothingMissed policy now) (hlinked : Linked d.toTables)
    (he : e ∈ d.targets policy now) : d.Unused now e.device := by
  have hclear := h.clear he
  have hunusable := unusable_of_target hlinked he
  exact ⟨hunusable.1, hunusable.2, hclear.syncDevice, hclear.pairing, hclear.resource⟩

theorem removedAll_of_cleanup (h : cleanupOrphanedEnrollmentsTx d policy now = .ok (d', removed)) :
    RemovedAll (d.targets policy now) d.toTables d'.toTables := by
  rw [cleanup_eq] at h
  obtain ⟨d₁, h₁, h⟩ := bind_eq_ok.1 h
  cases h
  exact removeAll_removed h₁

/-- A device that is gone is that of an enrollment that was removed. -/
theorem RemovedAll.target {es : List EnrollmentRow} {t t' : Tables} (h : RemovedAll es t t')
    {x : DeviceRow} (hx : x ∈ t.devices) (hgone : ¬ x ∈ t'.devices) :
    ∃ e ∈ es, e.device = x.key := by
  rw [h.devices, not_and] at hgone
  have hsome := hgone hx
  simp only [not_forall, not_not] at hsome
  obtain ⟨e, he, hkey⟩ := hsome
  exact ⟨e, he, hkey.symm⟩

theorem safe_cleanup (h : d.NothingMissed policy now) (hlinked : Linked d.toTables) :
    Safe (cleanupOrphanedEnrollmentsTx d policy now) := by
  rw [cleanup_eq]
  have hsafe := safe_removeAll hlinked (fun e he => (mem_targets he).1)
    (distinct_targets d policy now) (fun e he => h.clear he)
  exact hsafe.bind fun d' _ => safe_ok _

/-- The device of a principal with a valid credential survives the cleanup, and so its user. -/
theorem user_of_authorized (hlinked : Linked d.toTables) {c : CredentialRow}
    (hc : c ∈ d.credentials) (husable : c.usable now = true)
    (h : cleanupOrphanedEnrollmentsTx d policy now = .ok (d', removed)) :
    ∃ u ∈ d'.users, u.scope = c.device.scope := by
  obtain ⟨f, hf, -, hfdevice⟩ := d.sound.credential c hc
  obtain ⟨x, hx, hkey⟩ := d.sound.family f hf
  have hleft : x ∈ d'.devices := by
    by_contra hgone
    obtain ⟨e, he, hdevice⟩ := (removedAll_of_cleanup h).target hx hgone
    have hdevice : c.device = e.device := by rw [hdevice, hkey, hfdevice]
    rw [(unusable_of_target hlinked he).1 c hc hdevice] at husable
    cases husable
  obtain ⟨u, hu, hscope⟩ := d'.sound.device x hleft
  refine ⟨u, hu, ?_⟩
  rw [hscope, hkey, hfdevice]

/-! ## Enrollments that raise for no foreign key -/

theorem safe_error {α : Type} {error : SessionError} (h : error ≠ .foreignKeyConstraint) :
    Safe (.error error : Except SessionError α) := by
  intro herror
  cases herror
  exact h rfl

theorem safe_effectiveTtl (ttl : Option Int) : Safe (effectiveTtl cfg ttl) := by
  unfold effectiveTtl
  dsimp only
  split
  · exact safe_error (by decide)
  · exact safe_ok _

theorem safe_credentialRowTx (credential : String) : Safe (credentialRowTx σ d now credential) := by
  unfold credentialRowTx
  split
  · exact safe_error (by decide)
  split
  · exact safe_error (by decide)
  split
  · exact safe_error (by decide)
  split
  · exact safe_error (by decide)
  split
  · exact safe_error (by decide)
  · exact safe_ok _

theorem safe_insertTenant (row : TenantRow) : Safe (insertTenant d row) := by
  refine safe_write fun tenants hins => ?_
  refine safe_exec { d.sound with user := ?_ }
  intro u hu
  obtain ⟨x, hx, htenant⟩ := d.sound.user u hu
  exact ⟨x, (mem_insert? hins).2 (.inl hx), htenant⟩

theorem safe_insertUser {row : UserRow} (h : ∃ x ∈ d.tenants, x.tenantId = row.scope.tenantId) :
    Safe (insertUser d row) := by
  refine safe_write fun users hins => ?_
  have hmem := fun u => mem_insert? hins (a := u)
  refine safe_exec { d.sound with user := ?_, device := ?_, quota := ?_ }
  · intro u hu
    rcases (hmem u).1 hu with hu | rfl
    · exact d.sound.user u hu
    · exact h
  · intro x hx
    obtain ⟨u, hu, hscope⟩ := d.sound.device x hx
    exact ⟨u, (hmem u).2 (.inl hu), hscope⟩
  · intro q hq
    obtain ⟨u, hu, hscope⟩ := d.sound.quota q hq
    exact ⟨u, (hmem u).2 (.inl hu), hscope⟩

theorem safe_insertDevice {row : DeviceRow} (h : ∃ u ∈ d.users, u.scope = row.key.scope) :
    Safe (insertDevice d row) := by
  refine safe_write fun devices hins => ?_
  have hmem := fun x => mem_insert? hins (a := x)
  have hleft : ∀ key : DeviceKey, (∃ x ∈ d.devices, x.key = key) → ∃ x ∈ devices, x.key = key :=
    fun key hx => hx.imp fun x hx => ⟨(hmem x).2 (.inl hx.1), hx.2⟩
  refine safe_exec { d.sound with
    device := ?_, family := ?_, syncDevice := ?_, pairing := ?_, grant := ?_ }
  · intro x hx
    rcases (hmem x).1 hx with hx | rfl
    · exact d.sound.device x hx
    · exact h
  · exact fun f hf => hleft _ (d.sound.family f hf)
  · exact fun y hy => hleft _ (d.sound.syncDevice y hy)
  · exact fun p hp => hleft _ (d.sound.pairing p hp)
  · exact fun r hr htable => hleft _ (d.sound.grant r hr htable)

theorem safe_insertFamily {row : FamilyRow} (h : ∃ x ∈ d.devices, x.key = row.device) :
    Safe (insertFamily d row) := by
  refine safe_write fun families hins => ?_
  have hmem := fun f => mem_insert? hins (a := f)
  refine safe_exec { d.sound with family := ?_, credential := ?_, enrollment := ?_, session := ?_ }
  · intro f hf
    rcases (hmem f).1 hf with hf | rfl
    · exact d.sound.family f hf
    · exact h
  · intro c hc
    exact (d.sound.credential c hc).imp fun f hf => ⟨(hmem f).2 (.inl hf.1), hf.2⟩
  · intro x hx
    exact (d.sound.enrollment x hx).imp fun f hf => ⟨(hmem f).2 (.inl hf.1), hf.2⟩
  · intro a ha
    exact (d.sound.session a ha).imp fun f hf => ⟨(hmem f).2 (.inl hf.1), hf.2⟩

theorem safe_insertCredential {row : CredentialRow} (hnone : row.rotatedToCredentialId = none)
    (h : ∃ f ∈ d.families, f.familyId = row.familyId ∧ f.device = row.device) :
    Safe (insertCredential d row) := by
  refine safe_write fun credentials hins => ?_
  have hmem := fun c => mem_insert? hins (a := c)
  refine safe_exec { d.sound with credential := ?_, rotation := ?_ }
  · intro c hc
    rcases (hmem c).1 hc with hc | rfl
    · exact d.sound.credential c hc
    · exact h
  · intro c hc id hid
    rcases (hmem c).1 hc with hc | rfl
    · exact (d.sound.rotation c hc id hid).imp fun x hx => ⟨(hmem x).2 (.inl hx.1), hx.2⟩
    · rw [hnone] at hid
      cases hid

theorem safe_insertEnrollment {row : EnrollmentRow}
    (h : ∃ f ∈ d.families, f.familyId = row.familyId ∧ f.device = row.device) :
    Safe (insertEnrollment d row) := by
  refine safe_write fun enrollments hins => ?_
  refine safe_exec { d.sound with enrollment := ?_ }
  intro x hx
  rcases (mem_insert? hins).1 hx with hx | rfl
  · exact d.sound.enrollment x hx
  · exact h

theorem safe_insertSession {row : SessionRow}
    (h : ∃ f ∈ d.families, f.familyId = row.familyId ∧ f.device = row.device) :
    Safe (insertSession d row) := by
  refine safe_write fun sessions hins => ?_
  have hmem := fun a => mem_insert? hins (a := a)
  refine safe_exec { d.sound with session := ?_, ticket := ?_ }
  · intro a ha
    rcases (hmem a).1 ha with ha | rfl
    · exact d.sound.session a ha
    · exact h
  · intro k hk
    exact (d.sound.ticket k hk).imp fun a ha => ⟨(hmem a).2 (.inl ha.1), ha.2⟩

theorem safe_revokeBearers (familyId : String) : Safe (revokeBearers d now familyId) := by
  refine safe_write fun sessions hupd => ?_
  have hmem := fun a => mem_update? hupd (a := a)
  have hkept : ∀ a : SessionRow, ∀ sel : Bool,
      (if sel = true then { a with revokedAt := some now } else a).familyId = a.familyId ∧
        (if sel = true then { a with revokedAt := some now } else a).device = a.device ∧
        (if sel = true then { a with revokedAt := some now } else a).sessionId = a.sessionId := by
    intro a sel
    cases sel <;> exact ⟨rfl, rfl, rfl⟩
  refine safe_exec { d.sound with session := ?_, ticket := ?_ }
  · intro a' ha'
    obtain ⟨a, ha, rfl⟩ := (hmem a').1 ha'
    obtain ⟨hfamily, hdevice, -⟩ := hkept a (a.familyId = familyId ∧ a.revokedAt = none)
    rw [hfamily, hdevice]
    exact d.sound.session a ha
  · intro k hk
    obtain ⟨a, ha, hid, hdevice⟩ := d.sound.ticket k hk
    obtain ⟨-, hadevice, haid⟩ := hkept a (a.familyId = familyId ∧ a.revokedAt = none)
    exact ⟨_, (hmem _).2 ⟨a, ha, rfl⟩, haid.trans hid, hadevice.trans hdevice⟩

theorem setGeneration_families {sel : FamilyRow → Bool}
    (h : setGeneration d sel generation = .ok d') (f : FamilyRow) (hf : f ∈ d.families) :
    ∃ f' ∈ d'.families, f'.familyId = f.familyId ∧ f'.device = f.device := by
  obtain ⟨families, hupd, h⟩ := write_eq_ok.1 h
  rw [h]
  refine ⟨_, (mem_update? hupd).2 ⟨f, hf, rfl⟩, ?_⟩
  split <;> exact ⟨rfl, rfl⟩

theorem safe_setGeneration (sel : FamilyRow → Bool) (generation : Nat) :
    Safe (setGeneration d sel generation) := by
  refine safe_write fun families hupd => ?_
  have hmem := fun f => mem_update? hupd (a := f)
  have hleft : ∀ familyId device, (∃ f ∈ d.families, f.familyId = familyId ∧ f.device = device) →
      ∃ f ∈ families, f.familyId = familyId ∧ f.device = device := by
    rintro familyId device ⟨f, hf, rfl, rfl⟩
    refine ⟨_, (hmem _).2 ⟨f, hf, rfl⟩, ?_⟩
    split <;> exact ⟨rfl, rfl⟩
  refine safe_exec { d.sound with family := ?_, credential := ?_, enrollment := ?_, session := ?_ }
  · intro f' hf'
    obtain ⟨f, hf, rfl⟩ := (hmem f').1 hf'
    have hdevice : (if sel f = true then { f with generation := generation } else f).device =
        f.device := by
      split <;> rfl
    rw [hdevice]
    exact d.sound.family f hf
  · exact fun c hc => hleft _ _ (d.sound.credential c hc)
  · exact fun x hx => hleft _ _ (d.sound.enrollment x hx)
  · exact fun a ha => hleft _ _ (d.sound.session a ha)

theorem safe_insertSessionTx {familyId : String} {ttl : Nat}
    (h : ∃ f ∈ d.families, f.familyId = familyId ∧ f.device = device) :
    Safe (insertSessionTx σ d now n device familyId generation ttl) :=
  (safe_insertSession h).bind fun _ _ => safe_ok _

theorem safe_renewCredentialRowTx {row : CredentialRow × Identity}
    (hrow : credentialRowTx σ d now credential = .ok row) (ttl : Nat) :
    Safe (renewCredentialRowTx σ d now n row ttl) := by
  obtain ⟨hmem, -⟩ := credentialRowTx_eq_ok hrow
  refine (safe_revokeBearers _).bind fun d₁ h₁ => ?_
  refine (safe_setGeneration _ _).bind fun d₂ h₂ => ?_
  apply safe_insertSessionTx
  obtain ⟨f, hf, hid, hdevice⟩ := d.sound.credential row.1 hmem
  obtain ⟨sessions, -, h₁⟩ := write_eq_ok.1 h₁
  have hf : f ∈ d₁.families := by
    rw [h₁]
    exact hf
  obtain ⟨f', hf', hid', hdevice'⟩ := setGeneration_families h₂ f hf
  exact ⟨f', hf', hid'.trans hid, hdevice'.trans hdevice⟩

theorem safe_resumeEnrollmentTx (existing : EnrollmentRow) (credential peerHash : String)
    (ttl : Nat) : Safe (resumeEnrollmentTx σ d now n existing credential peerHash ttl) := by
  refine (safe_require (by decide)).bind fun _ _ => ?_
  refine (safe_credentialRowTx credential).bind fun row hrow => ?_
  refine (safe_require (by decide)).bind fun _ _ => ?_
  refine (safe_renewCredentialRowTx hrow ttl).bind fun r _ => ?_
  have hupdate : ∀ enrollments : Table EnrollmentRow EnrollmentRow.conflict,
      r.1.enrollments.update? (fun x => x.enrollmentIdHash = existing.enrollmentIdHash)
        (fun x => { x with peerKeyHash := peerHash }) = some enrollments →
      Safe (exec { r.1.toTables with enrollments := enrollments }) := by
    intro enrollments hupd
    refine safe_exec { r.1.sound with enrollment := ?_ }
    intro x' hx'
    obtain ⟨x, hx, rfl⟩ := (mem_update? hupd).1 hx'
    split <;> exact r.1.sound.enrollment x hx
  refine (safe_unique _).bind fun enrollments hupd => ?_
  exact (hupdate enrollments (unique_eq_ok.1 hupd)).bind fun _ _ => safe_ok _

variable {peerHash enrollmentHash : String}

/-- A device of a user is enrolled. -/
theorem safe_insertEnrolledTx {ttl : Nat} (h : ∃ u ∈ d.users, u.scope = device.scope) :
    Safe (insertEnrolledTx σ cfg d now n device credential enrollmentHash peerHash ttl) := by
  refine (safe_insertDevice h).bind fun d₁ h₁ => ?_
  obtain ⟨devices, hdevices, h₁⟩ := write_eq_ok.1 h₁
  have hdevice : ∃ x ∈ d₁.devices, x.key = device := by
    rw [h₁]
    exact ⟨_, (mem_insert? hdevices).2 (.inr rfl), rfl⟩
  refine (safe_insertFamily hdevice).bind fun d₂ h₂ => ?_
  obtain ⟨families, hfamilies, h₂⟩ := write_eq_ok.1 h₂
  have hfamily : ∃ f ∈ d₂.families, f.familyId = σ.newId "family" n ∧ f.device = device := by
    rw [h₂]
    exact ⟨_, (mem_insert? hfamilies).2 (.inr rfl), rfl, rfl⟩
  refine Safe.bind ?_ fun r₃ h₃ => ?_
  · exact (safe_insertCredential rfl hfamily).bind fun _ _ => safe_ok _
  obtain ⟨d₃, hcredential, hreturn⟩ := bind_eq_ok.1 h₃
  cases hreturn
  obtain ⟨credentials, -, hcredential⟩ := write_eq_ok.1 hcredential
  have hfamily₃ : ∃ f ∈ d₃.families, f.familyId = σ.newId "family" n ∧ f.device = device := by
    rw [hcredential]
    exact hfamily
  refine (safe_insertEnrollment hfamily₃).bind fun d₄ h₄ => ?_
  obtain ⟨enrollments, -, h₄⟩ := write_eq_ok.1 h₄
  have hfamily₄ : ∃ f ∈ d₄.families, f.familyId = σ.newId "family" n ∧ f.device = device := by
    rw [h₄]
    exact hfamily₃
  exact (safe_insertSessionTx hfamily₄).bind fun _ _ => safe_ok _

theorem safe_checkAdmissionWindowTx (duration limit : Nat) (reason : String)
    (peerHash : Option String) :
    Safe (checkAdmissionWindowTx d now duration limit reason peerHash) :=
  safe_require fun h => by cases h

theorem safe_admitNewEnrollmentTx (h : Safe (cleanupOrphanedEnrollmentsTx d policy now)) :
    Safe (admitNewEnrollmentTx d now enrollmentHash peerHash policy) := by
  refine h.bind fun r _ => ?_
  have hforget : Safe (forgetAdmissions r.1 policy now) := safe_exec { r.1.sound with }
  refine hforget.bind fun d₂ _ => ?_
  refine (safe_checkAdmissionWindowTx _ _ _ _).bind fun _ _ => ?_
  refine (safe_checkAdmissionWindowTx _ _ _ _).bind fun _ _ => ?_
  refine (safe_checkAdmissionWindowTx _ _ _ _).bind fun _ _ => ?_
  refine (safe_checkAdmissionWindowTx _ _ _ _).bind fun _ _ => ?_
  refine (safe_require fun h => by cases h).bind fun _ _ => ?_
  exact safe_exec { d₂.sound with }

/-- The users that the cleanup of an admission leaves are those that the admission leaves. -/
theorem admitNewEnrollmentTx_users
    (h : admitNewEnrollmentTx d now enrollmentHash peerHash policy = .ok d') :
    ∃ d₁ removed, cleanupOrphanedEnrollmentsTx d policy now = .ok (d₁, removed) ∧
      d'.users = d₁.users := by
  simp only [admitNewEnrollmentTx, bind_eq_ok] at h
  obtain ⟨⟨d₁, removed⟩, h₁, d₂, h₂, -, -, -, -, -, -, -, -, -, -, h⟩ := h
  refine ⟨d₁, removed, h₁, ?_⟩
  rw [exec_eq_ok.1 h]
  rw [exec_eq_ok.1 h₂]

theorem safe_enrollPublicDevice (r : EnrollRequest)
    (h : Safe (cleanupOrphanedEnrollmentsTx d (r.admissionPolicy.getD cfg.admissionPolicy) now)) :
    Safe (enrollPublicDevice σ cfg d now n r) := by
  refine (safe_effectiveTtl r.ttl).bind fun ttl _ => ?_
  refine (safe_require (by decide)).bind fun _ _ => ?_
  dsimp only
  split
  · exact safe_resumeEnrollmentTx _ _ _ _
  refine (safe_admitNewEnrollmentTx h).bind fun d₁ _ => ?_
  refine (safe_insertTenant _).bind fun d₂ h₂ => ?_
  obtain ⟨tenants, htenants, h₂⟩ := write_eq_ok.1 h₂
  refine Safe.bind (safe_insertUser ?_) fun d₃ h₃ => ?_
  · rw [h₂]
    exact ⟨_, (mem_insert? htenants).2 (.inr rfl), rfl⟩
  obtain ⟨users, husers, h₃⟩ := write_eq_ok.1 h₃
  apply safe_insertEnrolledTx
  rw [h₃]
  exact ⟨_, (mem_insert? husers).2 (.inr rfl), rfl⟩

theorem safe_enrollAdditionalDevice (p : Principal) (r : EnrollAdditionalRequest)
    (hlinked : Linked d.toTables)
    (h : Safe (cleanupOrphanedEnrollmentsTx d (r.admissionPolicy.getD cfg.admissionPolicy) now)) :
    Safe (enrollAdditionalDevice σ cfg d now n p r) := by
  refine (safe_require (by decide)).bind fun _ _ => ?_
  refine (safe_effectiveTtl r.ttl).bind fun ttl _ => ?_
  refine (safe_require (by decide)).bind fun _ _ => ?_
  have hauthorize : Safe (authorize σ d now p r.currentCredential) := by
    refine (safe_credentialRowTx _).bind fun row _ => ?_
    exact (safe_require (by decide)).bind fun _ _ => safe_ok _
  refine hauthorize.bind fun row hrow => ?_
  split
  · refine (safe_require (by decide)).bind fun _ _ => ?_
    refine (safe_require (by decide)).bind fun _ _ => ?_
    refine (safe_credentialRowTx _).bind fun other hother => ?_
    exact (safe_renewCredentialRowTx hother ttl).bind fun _ _ => safe_ok _
  refine (safe_admitNewEnrollmentTx h).bind fun d₁ h₁ => ?_
  obtain ⟨d₂, removed, h₂, husers⟩ := admitNewEnrollmentTx_users h₁
  obtain ⟨hvalid, -, hdevice⟩ := authorize_eq_ok hrow
  obtain ⟨hmem, -, hlive, -⟩ := credentialRowTx_eq_ok hvalid
  apply safe_insertEnrolledTx
  have husable : row.1.usable now = true := decide_eq_true ⟨hlive.active, hlive.unexpired⟩
  obtain ⟨u, hu, hscope⟩ := user_of_authorized hlinked hmem husable h₂
  rw [husers]
  exact ⟨u, hu, by rw [hscope, hdevice]⟩

/-! ## The law -/

/-- What a cleanup may take away, and that neither it nor an enrollment that runs it fails on a
foreign key. -/
structure CleanupLaw (σ : Secrets) (cfg : Settings) (s : System)
    (policy : EnrollmentAdmissionPolicy) : Prop where
  device : ∀ d' removed, cleanupOrphanedEnrollmentsTx s.db policy s.clock = .ok (d', removed) →
    ∀ x ∈ s.db.devices, ¬ x ∈ d'.devices → s.db.Unused s.clock x.key
  user : ∀ d' removed, cleanupOrphanedEnrollmentsTx s.db policy s.clock = .ok (d', removed) →
    ∀ u ∈ s.db.users, ¬ u ∈ d'.users → (∀ r ∈ s.db.resources, r.scope ≠ u.scope) ∧
      ∀ x ∈ s.db.devices, x.key.scope = u.scope → s.db.Unused s.clock x.key
  tenant : ∀ d' removed, cleanupOrphanedEnrollmentsTx s.db policy s.clock = .ok (d', removed) →
    ∀ y ∈ s.db.tenants, ¬ y ∈ d'.tenants →
      (∀ u ∈ s.db.users, u.scope.tenantId = y.tenantId → ¬ u ∈ d'.users) ∧
        ∀ x ∈ s.db.devices, x.key.scope.tenantId = y.tenantId → s.db.Unused s.clock x.key
  cleanup : Safe (cleanupOrphanedEnrollmentsTx s.db policy s.clock)
  enroll : ∀ r : EnrollRequest, r.admissionPolicy.getD cfg.admissionPolicy = policy →
    Safe (enrollPublicDevice σ cfg s.db s.clock s.drawn r)
  enrollAdditional : ∀ (p : Principal) (r : EnrollAdditionalRequest),
    r.admissionPolicy.getD cfg.admissionPolicy = policy →
      Safe (enrollAdditionalDevice σ cfg s.db s.clock s.drawn p r)

/-- A cleanup that raises for no foreign key does not raise. -/
theorem exists_cleanup (h : Safe (cleanupOrphanedEnrollmentsTx d policy now)) :
    ∃ d' removed, cleanupOrphanedEnrollmentsTx d policy now = .ok (d', removed) := by
  rw [cleanup_eq] at h ⊢
  cases hall : removeAll (d.targets policy now) d with
  | ok d' => exact ⟨d', _, rfl⟩
  | error error =>
    rw [hall, onlyKeys_removeAll _ _ _ hall] at h
    exact absurd rfl h

theorem nothingMissed_of_law {s : System} (h : CleanupLaw σ cfg s policy) :
    s.db.NothingMissed policy s.clock := by
  obtain ⟨d', removed, hcleanup⟩ := exists_cleanup h.cleanup
  intro e he
  obtain ⟨f, hf, -, hfdevice⟩ := s.db.sound.enrollment e (mem_targets he).1
  obtain ⟨x, hx, hkey⟩ := s.db.sound.family f hf
  have hgone : ¬ x ∈ d'.devices := by
    rw [(removedAll_of_cleanup hcleanup).devices]
    intro hleft
    exact hleft.2 e he (hkey.trans hfdevice)
  have hunused := h.device d' removed hcleanup x hx hgone
  rw [hkey, hfdevice] at hunused
  refine ⟨hunused.syncDevice, hunused.pairing, ?_⟩
  intro r hr hscope
  exact absurd hscope (hunused.resource r hr)

theorem law_of_nothingMissed {s : System} (hlinked : Linked s.db.toTables)
    (h : s.db.NothingMissed policy s.clock) : CleanupLaw σ cfg s policy := by
  have hdevice : ∀ d' removed,
      cleanupOrphanedEnrollmentsTx s.db policy s.clock = .ok (d', removed) →
      ∀ x ∈ s.db.devices, ¬ x ∈ d'.devices → s.db.Unused s.clock x.key := by
    intro d' removed hcleanup x hx hgone
    obtain ⟨e, he, hkey⟩ := (removedAll_of_cleanup hcleanup).target hx hgone
    rw [← hkey]
    exact h.unused hlinked he
  have hsafe := safe_cleanup h hlinked
  constructor
  · exact hdevice
  · intro d' removed hcleanup u hu hgone
    rcases (removedAll_of_cleanup hcleanup).users u hu with hleft | ⟨⟨e, he, hscope⟩, hnone⟩
    · exact absurd hleft hgone
    constructor
    · intro r hr
      rw [← hscope]
      exact (h.clear he).resource r hr
    · intro x hx hxscope
      apply hdevice d' removed hcleanup x hx
      intro hleft
      exact hnone x hleft hxscope
  · intro d' removed hcleanup y hy hgone
    rcases (removedAll_of_cleanup hcleanup).tenants y hy with hleft | hnone
    · exact absurd hleft hgone
    constructor
    · intro u hu htenant hleft
      exact hnone u hleft htenant
    intro x hx htenant
    apply hdevice d' removed hcleanup x hx
    intro hleft
    -- A device that is left keeps its user.
    obtain ⟨u, hu, hscope⟩ := d'.sound.device x hleft
    exact hnone u hu (by rw [hscope, htenant])
  · exact hsafe
  · intro r hpolicy
    apply safe_enrollPublicDevice
    rw [hpolicy]
    exact hsafe
  · intro p r hpolicy
    apply safe_enrollAdditionalDevice p r hlinked
    rw [hpolicy]
    exact hsafe

/-- In every reachable state the law holds of a cleanup exactly when it misses nothing. -/
theorem cleanup_law (σ : Secrets) (cfg : Settings) (legacy : List LegacySession)
    (trace : List Label) (policy : EnrollmentAdmissionPolicy) :
    CleanupLaw σ cfg (run (step σ cfg) (System.migrated σ legacy) trace) policy ↔
      (run (step σ cfg) (System.migrated σ legacy) trace).db.NothingMissed policy
        (run (step σ cfg) (System.migrated σ legacy) trace).clock :=
  ⟨nothingMissed_of_law, law_of_nothingMissed (sound_run legacy trace).linked⟩

/-- An installation enrolls and offers a pairing, and its credential expires. -/
def offered : List Label :=
  [.enroll (request "enrollment-of-the-first-installation" firstSecret),
    .createPairing firstPrincipal.device 1, .tick (180 * day)]

theorem pairing_blocks : ¬ ∀ (σ : Secrets) (cfg : Settings) (legacy : List LegacySession)
    (trace : List Label) (policy : EnrollmentAdmissionPolicy),
    CleanupLaw σ cfg (run (step σ cfg) (System.migrated σ legacy) trace) policy := by
  intro h
  have hsafe := (h .ones {} [] offered {}).enroll
    (request "enrollment-of-the-other-installation" "the-secret-of-the-other-installation") rfl
  have hfails : (match enrollPublicDevice .ones {}
      (run (step .ones {}) (System.migrated .ones []) offered).db
      (run (step .ones {}) (System.migrated .ones []) offered).clock
      (run (step .ones {}) (System.migrated .ones []) offered).drawn
      (request "enrollment-of-the-other-installation" "the-secret-of-the-other-installation") with
    | .error error => decide (error = .foreignKeyConstraint)
    | .ok _ => false) = true := by decide +kernel
  revert hsafe hfails
  cases enrollPublicDevice .ones {} (run (step .ones {}) (System.migrated .ones []) offered).db
      (run (step .ones {}) (System.migrated .ones []) offered).clock
      (run (step .ones {}) (System.migrated .ones []) offered).drawn
      (request "enrollment-of-the-other-installation" "the-secret-of-the-other-installation") with
  | ok _ =>
    intro _ hfails
    cases hfails
  | error error =>
    intro hsafe hfails
    exact hsafe (congrArg Except.error (of_decide_eq_true hfails))

end Sessions
