import EchoDesk.Security.Bearers

/-! # Orphaned enrollments

A cleanup removes the identities of the enrollments that have no usable credential and no
usable bearer, unless the user has a row in one of the tables that the cleanup looks at. It
looks at neither sync devices nor pairings, whose foreign keys hold the device, nor at the
tables that came later.
-/

namespace Sessions

open EchoDesk Transaction Transition List Table

variable {now : Nat} {d d' : Db} {t : Tables} {e : EnrollmentRow}
variable {α : Type} {es : List EnrollmentRow}

/-! ## Foreign keys that hold -/

/-- No foreign key is violated. -/
def Safe {α : Type} (x : Except SessionError α) : Prop := x ≠ .error .foreignKeyConstraint

theorem safe_ok (a : α) : Safe (.ok a) := fun h => by cases h

theorem Safe.bind {β : Type} {x : Except SessionError α} {f : α → Except SessionError β}
    (hx : Safe x) (hf : ∀ a, x = .ok a → Safe (f a)) : Safe (x >>= f) := by
  cases x with
  | ok a => exact hf a rfl
  | error error =>
    intro h
    cases h
    exact hx rfl

theorem safe_exec (h : t.ForeignKeys) : Safe (exec t) := by
  unfold exec
  rw [dif_pos h]
  exact safe_ok _

theorem safe_unique (o : Option α) : Safe (unique o) := by
  cases o with
  | some a => exact safe_ok a
  | none => exact fun h => by cases h

theorem safe_write {o : Option α} {f : α → Tables} (h : ∀ a, o = some a → Safe (exec (f a))) :
    Safe (unique o >>= fun a => exec (f a)) :=
  (safe_unique o).bind fun a ha => h a (unique_eq_ok.1 ha)

theorem safe_require {p : Prop} [Decidable p] {error : SessionError}
    (h : error ≠ .foreignKeyConstraint) : Safe (require p error) := by
  unfold require
  split
  · exact safe_ok _
  intro herror
  cases herror
  exact h rfl

/-- It raises for a foreign key only. -/
def OnlyKeys {α : Type} (x : Except SessionError α) : Prop :=
  ∀ error, x = .error error → error = .foreignKeyConstraint

theorem OnlyKeys.bind {β : Type} {x : Except SessionError α} {f : α → Except SessionError β}
    (hx : OnlyKeys x) (hf : ∀ a, OnlyKeys (f a)) : OnlyKeys (x >>= f) := by
  cases x with
  | ok a => exact hf a
  | error error =>
    intro raised h
    cases h
    exact hx _ rfl

theorem onlyKeys_exec (t : Tables) : OnlyKeys (exec t) := by
  intro error h
  unfold exec at h
  split at h
  · cases h
  · cases h
    rfl

/-! ## One round -/

section Round

theorem safe_deleteBearers (familyId : String) : Safe (deleteBearers d familyId) := by
  refine safe_exec { d.sound with session := ?_, ticket := ?_ }
  · intro a ha
    exact d.sound.session a (mem_delete.1 ha).1
  intro k hk
  obtain ⟨hk, hother⟩ := mem_delete.1 hk
  obtain ⟨a, ha, hid, hdevice⟩ := d.sound.ticket k hk
  refine ⟨a, mem_delete.2 ⟨ha, decide_eq_false ?_⟩, hid, hdevice⟩
  intro hfamily
  exact of_decide_eq_false hother ⟨a, ha, hfamily, hid, hdevice⟩

theorem safe_clearRotations (familyId : String) : Safe (clearRotations d familyId) := by
  refine safe_write fun credentials hupd => ?_
  refine safe_exec { d.sound with credential := ?_, rotation := ?_ }
  · intro c' hc'
    rcases update?_cases hupd hc' with ⟨c, hc, -, rfl⟩ | ⟨hc, -⟩
    · exact d.sound.credential c hc
    · exact d.sound.credential c' hc
  intro c' hc' id hid
  obtain ⟨c, hc, rfl⟩ := (mem_update? hupd).1 hc'
  split at hid
  · cases hid
  obtain ⟨x, hx, hxid⟩ := d.sound.rotation c hc id hid
  refine ⟨_, (mem_update? hupd).2 ⟨x, hx, rfl⟩, ?_⟩
  split
  · exact hxid
  · exact hxid

variable {familyId : String}

theorem safe_deleteCredentials (hrotations : Rotations d.toTables) :
    Safe (deleteCredentials d familyId) := by
  refine safe_exec { d.sound with credential := ?_, rotation := ?_ }
  · intro c hc
    exact d.sound.credential c (mem_delete.1 hc).1
  intro c hc id hid
  obtain ⟨hc, hother⟩ := mem_delete.1 hc
  obtain ⟨x, hx, hxid, hxfamily⟩ := hrotations c hc id hid
  refine ⟨x, mem_delete.2 ⟨hx, decide_eq_false ?_⟩, hxid⟩
  rw [hxfamily]
  exact of_decide_eq_false hother

theorem safe_deleteEnrollment (hash : String) : Safe (deleteEnrollment d hash) := by
  refine safe_exec { d.sound with enrollment := ?_ }
  intro x hx
  exact d.sound.enrollment x (mem_delete.1 hx).1

theorem safe_deleteFamily (hcredential : ∀ c ∈ d.credentials, c.familyId ≠ familyId)
    (henrollment : ∀ x ∈ d.enrollments, x.familyId ≠ familyId)
    (hsession : ∀ a ∈ d.sessions, a.familyId ≠ familyId) : Safe (deleteFamily d familyId) := by
  have hleft : ∀ f : FamilyRow, f ∈ d.families → f.familyId ≠ familyId →
      f ∈ (d.families.delete fun f => f.familyId = familyId) :=
    fun f hf hne => mem_delete.2 ⟨hf, decide_eq_false hne⟩
  refine safe_exec { d.sound with family := ?_, credential := ?_, enrollment := ?_, session := ?_ }
  · intro f hf
    exact d.sound.family f (mem_delete.1 hf).1
  · intro c hc
    obtain ⟨f, hf, hid, hdevice⟩ := d.sound.credential c hc
    exact ⟨f, hleft f hf (hid ▸ hcredential c hc), hid, hdevice⟩
  · intro x hx
    obtain ⟨f, hf, hid, hdevice⟩ := d.sound.enrollment x hx
    exact ⟨f, hleft f hf (hid ▸ henrollment x hx), hid, hdevice⟩
  · intro a ha
    obtain ⟨f, hf, hid, hdevice⟩ := d.sound.session a ha
    exact ⟨f, hleft f hf (hid ▸ hsession a ha), hid, hdevice⟩

theorem safe_deleteDevice {device : DeviceKey} (hfamily : ∀ f ∈ d.families, f.device ≠ device)
    (hsync : ∀ y ∈ d.syncDevices, y.device ≠ device)
    (hpairing : ∀ p ∈ d.pairings, p.sourceDevice ≠ device)
    (hgrant : ∀ r ∈ d.resources, r.table = .agentRunnerGrants → r.scope ≠ device.scope) :
    Safe (deleteDevice d device) := by
  have hleft : ∀ x : DeviceRow, x ∈ d.devices → x.key ≠ device →
      x ∈ (d.devices.delete fun x => x.key = device) :=
    fun x hx hne => mem_delete.2 ⟨hx, decide_eq_false hne⟩
  refine safe_exec { d.sound with
    device := ?_, family := ?_, syncDevice := ?_, pairing := ?_, grant := ?_ }
  · intro x hx
    exact d.sound.device x (mem_delete.1 hx).1
  · intro f hf
    obtain ⟨x, hx, hkey⟩ := d.sound.family f hf
    exact ⟨x, hleft x hx (hkey ▸ hfamily f hf), hkey⟩
  · intro y hy
    obtain ⟨x, hx, hkey⟩ := d.sound.syncDevice y hy
    exact ⟨x, hleft x hx (hkey ▸ hsync y hy), hkey⟩
  · intro p hp
    obtain ⟨x, hx, hkey⟩ := d.sound.pairing p hp
    exact ⟨x, hleft x hx (hkey ▸ hpairing p hp), hkey⟩
  intro r hr htable
  obtain ⟨x, hx, hkey⟩ := d.sound.grant r hr htable
  refine ⟨x, hleft x hx ?_, hkey⟩
  rw [hkey]
  rintro rfl
  exact hgrant r hr htable rfl

theorem safe_deleteUser {scope : Scope} (hdevice : ∀ x ∈ d.devices, x.key.scope ≠ scope) :
    Safe (deleteUser d scope) := by
  refine Safe.bind (safe_exec { d.sound with quota := ?_ }) fun d₁ h₁ => ?_
  · intro q hq
    exact d.sound.quota q (mem_filter.1 hq).1
  have h₁ := exec_eq_ok.1 h₁
  refine Safe.bind (safe_exec { d₁.sound with user := ?_, device := ?_, quota := ?_ })
    fun d₂ h₂ => safe_exec { d₂.sound with user := ?_ }
  · intro u hu
    exact d₁.sound.user u (mem_delete.1 hu).1
  · intro x hx
    obtain ⟨u, hu, hscope⟩ := d₁.sound.device x hx
    refine ⟨u, mem_delete.2 ⟨hu, decide_eq_false ?_⟩, hscope⟩
    rw [hscope]
    rw [h₁] at hx
    exact hdevice x hx
  · intro q hq
    obtain ⟨u, hu, hscope⟩ := d₁.sound.quota q hq
    refine ⟨u, mem_delete.2 ⟨hu, decide_eq_false ?_⟩, hscope⟩
    rw [hscope]
    rw [h₁] at hq
    exact of_decide_eq_true (mem_filter.1 hq).2
  -- A tenant with a user is left.
  intro u hu
  obtain ⟨x, hx, htenant⟩ := d₂.sound.user u hu
  refine ⟨x, mem_delete.2 ⟨hx, decide_eq_false ?_⟩, htenant⟩
  rintro ⟨-, hnone⟩
  exact hnone ⟨u, hu, htenant.symm⟩

/-- The enrollment's device is held by no foreign key besides those of its family. -/
structure Db.Clear (d : Db) (device : DeviceKey) : Prop where
  syncDevice : ∀ y ∈ d.syncDevices, y.device ≠ device
  pairing : ∀ p ∈ d.pairings, p.sourceDevice ≠ device
  resource : ∀ r ∈ d.resources, r.scope ≠ device.scope

theorem safe_removeEnrollment (hlinked : Linked d.toTables) (he : e ∈ d.enrollments)
    (hclear : d.Clear e.device) : Safe (removeEnrollment d e) := by
  refine (safe_deleteBearers e.familyId).bind fun d₁ h₁ => ?_
  refine (safe_clearRotations e.familyId).bind fun d₂ h₂ => ?_
  obtain ⟨credentials, hupd, h₂⟩ := write_eq_ok.1 h₂
  have h₁ := exec_eq_ok.1 h₁
  rw [h₁] at hupd h₂
  have hrotations : Rotations d₂.toTables := by
    rw [h₂]
    exact rotations_update hupd (fun c _ => ⟨rfl, rfl, fun _ id hid => by cases hid⟩) hlinked.rotation
  refine (safe_deleteCredentials hrotations).bind fun d₃ h₃ => ?_
  refine (safe_deleteEnrollment e.enrollmentIdHash).bind fun d₄ h₄ => ?_
  have h₃ := exec_eq_ok.1 h₃
  have h₄ := exec_eq_ok.1 h₄
  rw [h₂] at h₃
  rw [h₃] at h₄
  have hfamily : Safe (deleteFamily d₄ e.familyId) := by
    apply safe_deleteFamily
    · intro c hc
      rw [h₄] at hc
      exact of_decide_eq_false (mem_delete.1 hc).2
    · intro x hx hsame
      rw [h₄] at hx
      obtain ⟨hx, hother⟩ := mem_delete.1 hx
      have heq := hlinked.family x hx e he hsame
      exact of_decide_eq_false hother (congrArg EnrollmentRow.enrollmentIdHash heq)
    · intro a ha
      rw [h₄] at ha
      exact of_decide_eq_false (mem_delete.1 ha).2
  refine hfamily.bind fun d₅ h₅ => ?_
  have h₅ := exec_eq_ok.1 h₅
  rw [h₄] at h₅
  have hdevice : Safe (deleteDevice d₅ e.device) := by
    apply safe_deleteDevice
    · intro f hf hsame
      rw [h₅] at hf
      obtain ⟨hf, hother⟩ := mem_delete.1 hf
      exact of_decide_eq_false hother (hlinked.device e he f hf hsame)
    · rw [h₅]
      exact hclear.syncDevice
    · rw [h₅]
      exact hclear.pairing
    · rw [h₅]
      intro r hr _
      exact hclear.resource r hr
  refine hdevice.bind fun d₆ h₆ => ?_
  split
  · exact safe_ok _
  rename_i hnone
  apply safe_deleteUser
  intro x hx hscope
  exact hnone ⟨x, hx, hscope⟩

theorem onlyKeys_removeEnrollment : OnlyKeys (removeEnrollment d e) := by
  have hclear : ∀ d : Db, OnlyKeys (clearRotations d e.familyId) := by
    intro d
    obtain ⟨credentials, hupd⟩ := d.credentials.exists_update? (fun c => c.familyId = e.familyId)
      (fun c => { c with rotatedToCredentialId := none }) (by
        intro a b hconflict
        split at hconflict <;> split at hconflict <;> exact hconflict)
    have hunique : OnlyKeys (unique (d.credentials.update? (fun c => c.familyId = e.familyId)
        fun c => { c with rotatedToCredentialId := none })) := by
      rw [hupd]
      intro error h
      cases h
    exact hunique.bind fun credentials => onlyKeys_exec _
  refine (onlyKeys_exec _).bind fun d₁ => ?_
  refine (hclear d₁).bind fun d₂ => ?_
  refine (onlyKeys_exec _).bind fun d₃ => ?_
  refine (onlyKeys_exec _).bind fun d₄ => ?_
  refine (onlyKeys_exec _).bind fun d₅ => ?_
  refine (onlyKeys_exec _).bind fun d₆ => ?_
  split
  · intro error h
    cases h
  · refine (onlyKeys_exec _).bind fun d₇ => ?_
    exact (onlyKeys_exec _).bind fun d₈ => onlyKeys_exec _

end Round

/-! ## A cleanup -/

/-- Enrollments removed one after the other. -/
def removeAll : List EnrollmentRow → Db → Except SessionError Db
  | [], d => .ok d
  | e :: es, d => do
    let d ← removeEnrollment d e
    removeAll es d

/-- The enrollments that a cleanup removes. -/
def Db.targets (d : Db) (policy : EnrollmentAdmissionPolicy) (now : Nat) : List EnrollmentRow :=
  ((d.orphans policy now).filter fun e => !d.userHasResources e.device.scope).take
    policy.cleanupBatchSize

theorem removeEnrollments_eq (batchSize : Nat) (es : List EnrollmentRow) (removed : Nat) (d : Db) :
    removeEnrollments batchSize es removed d = (do
        let targets := (es.filter fun e => !d.userHasResources e.device.scope).take
          (batchSize - removed)
        let d' ← removeAll targets d
        return (d', removed + targets.length)) := by
  induction es generalizing removed d with
  | nil => simp [removeEnrollments, removeAll]
  | cons e es ih =>
    unfold removeEnrollments
    by_cases hfull : batchSize ≤ removed
    · rw [if_pos hfull]
      simp [Nat.sub_eq_zero_of_le hfull, removeAll]
    rw [if_neg hfull]
    by_cases hresources : d.userHasResources e.device.scope = true
    · rw [if_pos hresources, ih, filter_cons_of_neg (by simp [hresources])]
    rw [if_neg hresources, filter_cons_of_pos (by simp [hresources])]
    obtain ⟨rest, hrest⟩ : ∃ rest, batchSize - removed = rest + 1 :=
      ⟨batchSize - removed - 1, by omega⟩
    have hnext : batchSize - (removed + 1) = rest := by omega
    rw [hrest]
    cases hround : removeEnrollment d e with
    | error error => simp [removeAll, hround, take_succ_cons, bind, Except.bind]
    | ok d₁ =>
      have hsame : d₁.userHasResources = d.userHasResources := by
        unfold Db.userHasResources
        rw [(removeEnrollment_removed hround).resources]
      have htail := ih (removed + 1) d₁
      rw [hnext, hsame] at htail
      show removeEnrollments batchSize es (removed + 1) d₁ = _
      rw [htail]
      simp [removeAll, hround, take_succ_cons, bind, Except.bind, Nat.add_assoc, Nat.add_comm 1]

theorem cleanup_eq (d : Db) (policy : EnrollmentAdmissionPolicy) (now : Nat) :
    cleanupOrphanedEnrollmentsTx d policy now = (do
        let d' ← removeAll (d.targets policy now) d
        return (d', (d.targets policy now).length)) := by
  unfold cleanupOrphanedEnrollmentsTx
  rw [removeEnrollments_eq]
  simp [Db.targets]

theorem onlyKeys_removeAll (es : List EnrollmentRow) (d : Db) : OnlyKeys (removeAll es d) := by
  induction es generalizing d with
  | nil =>
    intro error h
    cases h
  | cons e es ih => exact onlyKeys_removeEnrollment.bind ih

theorem safe_removeAll (hlinked : Linked d.toTables) (hmem : ∀ e ∈ es, e ∈ d.enrollments)
    (hdistinct : es.Pairwise fun e e' => e.enrollmentIdHash ≠ e'.enrollmentIdHash)
    (hclear : ∀ e ∈ es, d.Clear e.device) : Safe (removeAll es d) := by
  induction es generalizing d with
  | nil => exact safe_ok d
  | cons e es ih =>
    obtain ⟨hhead, htail⟩ := pairwise_cons.1 hdistinct
    refine (safe_removeEnrollment hlinked (hmem e mem_cons_self)
      (hclear e mem_cons_self)).bind fun d₁ h₁ => ?_
    have hremoved := removeEnrollment_removed h₁
    have hquiet : Quiet .ones 0 d.toTables d₁.toTables := hremoved.quiet
    apply ih (hquiet.linked hlinked) ?_ htail
    · intro e' he'
      have hold := hclear e' (mem_cons_of_mem _ he')
      constructor
      · rw [hremoved.syncDevices]
        exact hold.syncDevice
      · rw [hremoved.pairings]
        exact hold.pairing
      · rw [hremoved.resources]
        exact hold.resource
    · intro e' he'
      rw [hremoved.enrollments]
      exact mem_delete.2 ⟨hmem e' (mem_cons_of_mem _ he'), decide_eq_false (hhead e' he').symm⟩

/-- What is left of the identities. -/
structure RemovedAll (es : List EnrollmentRow) (t t' : Tables) : Prop where
  devices : ∀ x, x ∈ t'.devices ↔ x ∈ t.devices ∧ ∀ e ∈ es, x.key ≠ e.device
  users : ∀ u ∈ t.users, u ∈ t'.users ∨
    (∃ e ∈ es, e.device.scope = u.scope) ∧ ∀ x ∈ t'.devices, x.key.scope ≠ u.scope
  user : ∀ u ∈ t'.users, u ∈ t.users
  tenants : ∀ y ∈ t.tenants, y ∈ t'.tenants ∨ ∀ u ∈ t'.users, u.scope.tenantId ≠ y.tenantId

theorem removeAll_removed (h : removeAll es d = .ok d') : RemovedAll es d.toTables d'.toTables := by
  induction es generalizing d with
  | nil =>
    cases h
    exact ⟨fun x => ⟨fun hx => ⟨hx, by simp⟩, fun hx => hx.1⟩, fun u hu => .inl hu,
      fun u hu => hu, fun y hy => .inl hy⟩
  | cons e es ih =>
    obtain ⟨d₁, h₁, h⟩ := bind_eq_ok.1 h
    have hround := removeEnrollment_removed h₁
    have hrest := ih h
    have hdevice : ∀ x, x ∈ d₁.devices ↔ x ∈ d.devices ∧ x.key ≠ e.device := by
      intro x
      rw [hround.devices, mem_delete, decide_eq_false_iff_not]
    constructor
    · intro x
      rw [hrest.devices, hdevice]
      simp [and_assoc]
    · intro u hu
      by_cases hleft : u ∈ d₁.users
      · rcases hrest.users u hleft with hu' | ⟨⟨x, hx, hscope⟩, hnone⟩
        · exact .inl hu'
        · exact .inr ⟨⟨x, mem_cons_of_mem _ hx, hscope⟩, hnone⟩
      · rw [hround.users, not_and, Classical.not_imp] at hleft
        obtain ⟨hscope, hnone⟩ := hleft hu
        refine .inr ⟨⟨e, mem_cons_self, hscope.symm⟩, ?_⟩
        intro x hx hsame
        exact hnone ⟨x, ((hrest.devices x).1 hx).1, hsame.trans hscope⟩
    · intro u hu
      exact ((hround.users u).1 (hrest.user u hu)).1
    · intro y hy
      rcases hround.tenant y hy with hy | hnone
      · exact hrest.tenants y hy
      · exact .inr fun u hu => hnone u (hrest.user u hu)

end Sessions
