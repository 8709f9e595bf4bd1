import EchoDesk.Security.Validity

/-! # Lifetimes

What the statements of a transaction do to the rows: a row that stays only grows older, and
a row that is new collides with none and carries what the transaction has drawn. What has
ended stays ended along any such statements.
-/

namespace Sessions

open EchoDesk

variable {σ : Secrets} {n : Nat} {d d' : Db} {t t' : Tables}

/-! ## Drawn ids -/

theorem newId_injective {kind : String} {m n : Nat} (h : σ.newId kind m = σ.newId kind n) :
    m = n := by
  apply σ.tokenHex_injective
  have hlist := congrArg String.toList h
  simp only [Secrets.newId, String.toList_append] at hlist
  exact String.toList_injective (List.append_cancel_left hlist)

/-- The family id that a transaction draws, or that the migration gives a bearer. -/
def NewFamily (σ : Secrets) (n : Nat) (familyId : String) : Prop :=
  familyId = σ.newId "family" n ∨ familyId = legacyFamily (σ.newId "session" n)

theorem newId_ne_legacyFamily (m : Nat) (sessionId : String) :
    σ.newId "family" m ≠ legacyFamily sessionId := by
  intro h
  have hlist := congrArg String.toList h
  simp [Secrets.newId, legacyFamily] at hlist

theorem NewFamily.unique {familyId : String} {m n : Nat} (hm : NewFamily σ m familyId)
    (hn : NewFamily σ n familyId) : m = n := by
  rcases hm with rfl | rfl
  · rcases hn with hn | hn
    · exact newId_injective hn
    · exact absurd hn (newId_ne_legacyFamily m _)
  · rcases hn with hn | hn
    · exact absurd hn.symm (newId_ne_legacyFamily n _)
    have hlist := congrArg String.toList hn
    simp only [legacyFamily, String.toList_append] at hlist
    exact newId_injective (String.toList_injective (List.append_cancel_left hlist))

/-! ## Rows that grow older -/

structure SessionRow.Ages (a a' : SessionRow) : Prop where
  sessionId : a'.sessionId = a.sessionId
  tokenHash : a'.tokenHash = a.tokenHash
  device : a'.device = a.device
  expiresAt : a'.expiresAt = a.expiresAt
  familyId : a'.familyId = a.familyId
  generation : a'.generation = a.generation
  revokedAt : a.revokedAt.isSome → a'.revokedAt.isSome

structure CredentialRow.Ages (c c' : CredentialRow) : Prop where
  credentialHash : c'.credentialHash = c.credentialHash
  familyId : c'.familyId = c.familyId
  device : c'.device = c.device
  expiresAt : c'.expiresAt = c.expiresAt
  revokedAt : c.revokedAt.isSome → c'.revokedAt.isSome

structure FamilyRow.Ages (f f' : FamilyRow) : Prop where
  familyId : f'.familyId = f.familyId
  device : f'.device = f.device
  generation : f.generation ≤ f'.generation
  revokedAt : f.revokedAt.isSome → f'.revokedAt.isSome

structure DeviceRow.Ages (x x' : DeviceRow) : Prop where
  key : x'.key = x.key
  revokedAt : x.revokedAt.isSome → x'.revokedAt.isSome

theorem SessionRow.Ages.refl (a : SessionRow) : a.Ages a := ⟨rfl, rfl, rfl, rfl, rfl, rfl, id⟩
theorem CredentialRow.Ages.refl (c : CredentialRow) : c.Ages c := ⟨rfl, rfl, rfl, rfl, id⟩
theorem FamilyRow.Ages.refl (f : FamilyRow) : f.Ages f := ⟨rfl, rfl, le_rfl, id⟩
theorem DeviceRow.Ages.refl (x : DeviceRow) : x.Ages x := ⟨rfl, id⟩

theorem SessionRow.Ages.active {a a' : SessionRow} (h : a.Ages a') (hactive : a'.revokedAt = none) :
    a.revokedAt = none := by
  rcases hrevoked : a.revokedAt with _ | time
  · rfl
  have hsome := h.revokedAt (by rw [hrevoked]; rfl)
  rw [hactive] at hsome
  cases hsome

/-! ## Statements -/

/-- The bearer is issued by the transaction, for a generation that its family has not had. -/
def Issued (σ : Secrets) (n : Nat) (t : Tables) (b : SessionRow) : Prop :=
  b.sessionId = σ.newId "session" n ∧ b.tokenHash = σ.tokenHash (σ.newSecret "eds" n) ∧
    ∀ f ∈ t.families, f.familyId = b.familyId → f.generation < b.generation

/-- What statements of the `n`-th transaction do to the rows. -/
structure Evolves (σ : Secrets) (n : Nat) (t t' : Tables) : Prop where
  session : ∀ a' ∈ t'.sessions, (∃ a ∈ t.sessions, a.Ages a') ∨ Issued σ n t a'
  family : ∀ f' ∈ t'.families, (∃ f ∈ t.families, f.Ages f') ∨
    NewFamily σ n f'.familyId ∧ ∀ f ∈ t.families, f.familyId ≠ f'.familyId
  device : ∀ x' ∈ t'.devices, (∃ x ∈ t.devices, x.Ages x') ∨ ∀ x ∈ t.devices, x.key ≠ x'.key
  credential : ∀ c' ∈ t'.credentials, (∃ c ∈ t.credentials, c.Ages c') ∨
    ∀ c ∈ t.credentials, c.credentialHash ≠ c'.credentialHash
  /-- A credential is deleted with its family. -/
  kept : ∀ c ∈ t.credentials, (∃ c' ∈ t'.credentials, c.Ages c') ∨
    ∀ f' ∈ t'.families, f'.familyId ≠ c.familyId
  ticket : ∀ k' ∈ t'.tickets, k' ∈ t.tickets ∨ k'.tokenHash = σ.tokenHash (σ.newSecret "edt" n)

/-- A credential was rotated to one of its family. -/
def Rotations (t : Tables) : Prop :=
  ∀ c ∈ t.credentials, ∀ id ∈ c.rotatedToCredentialId,
    ∃ x ∈ t.credentials, x.credentialId = id ∧ x.familyId = c.familyId

/-- Statements that issue no bearer, renew no family and enroll no device. -/
structure Quiet (σ : Secrets) (n : Nat) (t t' : Tables) : Prop where
  session : ∀ a' ∈ t'.sessions, ∃ a ∈ t.sessions, a.Ages a'
  family : ∀ f' ∈ t'.families, ∃ f ∈ t.families, f.Ages f' ∧ f'.generation = f.generation
  device : ∀ x' ∈ t'.devices, (∃ x ∈ t.devices, x.Ages x') ∨ ∀ x ∈ t.devices, x.key ≠ x'.key
  credential : ∀ c' ∈ t'.credentials, (∃ c ∈ t.credentials, c.Ages c') ∨
    ∀ c ∈ t.credentials, c.credentialHash ≠ c'.credentialHash
  kept : ∀ c ∈ t.credentials, (∃ c' ∈ t'.credentials, c.Ages c') ∨
    ∀ f' ∈ t'.families, f'.familyId ≠ c.familyId
  ticket : ∀ k' ∈ t'.tickets, k' ∈ t.tickets ∨ k'.tokenHash = σ.tokenHash (σ.newSecret "edt" n)
  enrollment : ∀ e' ∈ t'.enrollments, ∃ e ∈ t.enrollments,
    e'.enrollmentIdHash = e.enrollmentIdHash ∧ e'.familyId = e.familyId ∧ e'.device = e.device
  rotation : Rotations t → Rotations t'

theorem Quiet.refl (σ : Secrets) (n : Nat) (t : Tables) : Quiet σ n t t where
  session a ha := ⟨a, ha, .refl a⟩
  family f hf := ⟨f, hf, .refl f, rfl⟩
  device x hx := .inl ⟨x, hx, .refl x⟩
  credential c hc := .inl ⟨c, hc, .refl c⟩
  kept c hc := .inl ⟨c, hc, .refl c⟩
  ticket _ hk := .inl hk
  enrollment e he := ⟨e, he, rfl, rfl, rfl⟩
  rotation h := h

theorem Quiet.evolves (h : Quiet σ n t t') : Evolves σ n t t' where
  __ := h
  session a ha := .inl (h.session a ha)
  family f hf := (h.family f hf).elim fun g hg => .inl ⟨g, hg.1, hg.2.1⟩

/-- The bearers are of the generation of their family, those that are revoked at most; and a
family that was renewed has a credential. -/
structure Current (t : Tables) : Prop where
  bearer : ∀ a ∈ t.sessions, ∀ f ∈ t.families, f.familyId = a.familyId →
    a.generation ≤ f.generation ∧ (a.revokedAt = none → a.generation = f.generation)
  claimed : ∀ f ∈ t.families, 0 < f.generation → ∃ c ∈ t.credentials, c.familyId = f.familyId

/-- The family of a credential that is left has its credentials left. -/
theorem credential_of_kept (hkept : ∀ c ∈ t.credentials, (∃ c' ∈ t'.credentials, c.Ages c') ∨
      ∀ f' ∈ t'.families, f'.familyId ≠ c.familyId) {f' : FamilyRow} (hf' : f' ∈ t'.families)
    (h : ∃ c ∈ t.credentials, c.familyId = f'.familyId) :
    ∃ c' ∈ t'.credentials, c'.familyId = f'.familyId := by
  obtain ⟨c, hc, hfamily⟩ := h
  rcases hkept c hc with ⟨c', hc', hages⟩ | hgone
  · exact ⟨c', hc', hages.familyId.trans hfamily⟩
  · exact absurd hfamily.symm (hgone f' hf')

theorem Quiet.current (h : Quiet σ n t t') (hcurrent : Current t) : Current t' where
  bearer a' ha' f' hf' hid := by
    obtain ⟨a, ha, hages⟩ := h.session a' ha'
    obtain ⟨f, hf, hfages, hgeneration⟩ := h.family f' hf'
    have hfamily : f.familyId = a.familyId := by rw [← hfages.familyId, hid, hages.familyId]
    have hbearer := hcurrent.bearer a ha f hf hfamily
    rw [hages.generation, hgeneration]
    exact ⟨hbearer.1, fun hactive => hbearer.2 (hages.active hactive)⟩
  claimed f' hf' hpos := by
    obtain ⟨f, hf, hages, hgeneration⟩ := h.family f' hf'
    obtain ⟨c, hc, hfamily⟩ := hcurrent.claimed f hf (hgeneration ▸ hpos)
    exact credential_of_kept h.kept hf' ⟨c, hc, hfamily.trans hages.familyId.symm⟩

/-- The device of an enrollment has no other family, and its family no other enrollment. -/
structure Linked (t : Tables) : Prop where
  device : ∀ e ∈ t.enrollments, ∀ f ∈ t.families, f.device = e.device → f.familyId = e.familyId
  family : ∀ e ∈ t.enrollments, ∀ e' ∈ t.enrollments, e.familyId = e'.familyId → e = e'
  rotation : Rotations t

/-- The links of the enrollments are kept when no enrollment and no family is new. -/
theorem Linked.of_old (hlinked : Linked t)
    (henrollment : ∀ e' ∈ t'.enrollments, ∃ e ∈ t.enrollments,
      e'.enrollmentIdHash = e.enrollmentIdHash ∧ e'.familyId = e.familyId ∧ e'.device = e.device)
    (hfamily : ∀ f' ∈ t'.families, ∃ f ∈ t.families, f.Ages f') (hrotation : Rotations t') :
    Linked t' where
  device e' he' f' hf' hdevice := by
    obtain ⟨e, he, -, hefamily, hedevice⟩ := henrollment e' he'
    obtain ⟨f, hf, hages⟩ := hfamily f' hf'
    rw [hages.familyId, hefamily]
    exact hlinked.device e he f hf (by rw [← hages.device, hdevice, hedevice])
  family e' he' x' hx' hsame := by
    obtain ⟨e, he, hehash, hefamily, -⟩ := henrollment e' he'
    obtain ⟨x, hx, hxhash, hxfamily, -⟩ := henrollment x' hx'
    have heq : e = x := hlinked.family e he x hx (by rw [← hefamily, hsame, hxfamily])
    have hhash : e'.enrollmentIdHash = x'.enrollmentIdHash := by rw [hehash, hxhash, heq]
    exact Table.eq_of_conflict he' hx' hhash
  rotation := hrotation

theorem Quiet.linked (h : Quiet σ n t t') (hlinked : Linked t) : Linked t' :=
  hlinked.of_old h.enrollment (fun f' hf' => (h.family f' hf').imp fun _ hf => ⟨hf.1, hf.2.1⟩)
    (h.rotation hlinked.rotation)

/-- Some statements of a transaction. -/
structure Moves (σ : Secrets) (n : Nat) (t t' : Tables) : Prop where
  evolves : Evolves σ n t t'
  current : Current t → Current t'
  linked : Linked t → Linked t'

theorem Quiet.moves (h : Quiet σ n t t') : Moves σ n t t' := ⟨h.evolves, h.current, h.linked⟩

/-- The statements of a transaction, one after the other. -/
def Path (σ : Secrets) (n : Nat) : Db → Db → Prop :=
  Relation.ReflTransGen fun d d' => Moves σ n d.toTables d'.toTables

theorem Path.invariant {P : Db → Prop} (h : Path σ n d d')
    (hmoves : ∀ {d d'}, Evolves σ n d.toTables d'.toTables → P d → P d') (hd : P d) : P d' := by
  induction h with
  | refl => exact hd
  | tail _ hmove ih => exact hmoves hmove.evolves ih

theorem Path.current (h : Path σ n d d') (hd : Current d.toTables) : Current d'.toTables := by
  induction h with
  | refl => exact hd
  | tail _ hmove ih => exact hmove.current ih

theorem Path.linked (h : Path σ n d d') (hd : Linked d.toTables) : Linked d'.toTables := by
  induction h with
  | refl => exact hd
  | tail _ hmove ih => exact hmove.linked ih

end Sessions
