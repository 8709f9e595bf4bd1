import EchoDesk.Security.Transactions

/-! # Bearers, credentials and tickets over whole runs

A family has one bearer that is not revoked, of the generation that the family is at, and
its generations grow. What is over, because it was superseded, revoked, or has expired, or
because its family or its device was revoked, never validates again.

A secret is chosen by the client. Once a cleanup has removed an identity, a new one may be
enrolled with the same secret, so what never validates again is a secret in its family.
-/

namespace Sessions

open EchoDesk Transaction Transition Option Table

variable {σ : Secrets} {cfg : Settings} {n k now : Nat} {d d' : Db} {familyId : String}
  {device : DeviceKey}
variable {revokedAt : Option Nat} {r : String × Nat} {expiresAt : Nat} {a : SessionRow}
  {x : TicketRow}

/-! ## What was drawn -/

/-- The ids and the hashes were drawn by one of the first `n` transactions. -/
structure Drawn (σ : Secrets) (n : Nat) (t : Tables) : Prop where
  session : ∀ a ∈ t.sessions, ∃ k < n, a.sessionId = σ.newId "session" k ∧
    a.tokenHash = σ.tokenHash (σ.newSecret "eds" k)
  family : ∀ f ∈ t.families, ∃ k < n, NewFamily σ k f.familyId
  ticket : ∀ x ∈ t.tickets, ∃ k < n, x.tokenHash = σ.tokenHash (σ.newSecret "edt" k)

theorem Drawn.succ {t : Tables} (h : Drawn σ n t) : Drawn σ (n + 1) t where
  session a ha := (h.session a ha).imp fun _ hk => ⟨Nat.lt_succ_of_lt hk.1, hk.2⟩
  family f hf := (h.family f hf).imp fun _ hk => ⟨Nat.lt_succ_of_lt hk.1, hk.2⟩
  ticket x hx := (h.ticket x hx).imp fun _ hk => ⟨Nat.lt_succ_of_lt hk.1, hk.2⟩

theorem Evolves.drawn {t t' : Tables} (h : Evolves σ n t t') (hdrawn : Drawn σ (n + 1) t) :
    Drawn σ (n + 1) t' where
  session a' ha' := by
    rcases h.session a' ha' with ⟨a, ha, hages⟩ | hissued
    · rw [hages.sessionId, hages.tokenHash]
      exact hdrawn.session a ha
    · exact ⟨n, Nat.lt_succ_self n, hissued.1, hissued.2.1⟩
  family f' hf' := by
    rcases h.family f' hf' with ⟨f, hf, hages⟩ | ⟨hnew, -⟩
    · rw [hages.familyId]
      exact hdrawn.family f hf
    · exact ⟨n, Nat.lt_succ_self n, hnew⟩
  ticket x' hx' := by
    rcases h.ticket x' hx' with hx | hnew
    · exact hdrawn.ticket x' hx
    · exact ⟨n, Nat.lt_succ_self n, hnew⟩

/-- What holds of the store in every reachable state. -/
structure Sound (σ : Secrets) (s : System) : Prop where
  drawn : Drawn σ s.drawn s.db.toTables
  current : Current s.db.toTables
  linked : Linked s.db.toTables

theorem sound_step (s : System) (l : Label) (h : Sound σ s) : Sound σ (step σ cfg s l) := by
  have hpath := path_step σ cfg s l h.current
  have hcurrent := hpath.current h.current
  have hlinked := hpath.linked h.linked
  have hdrawn : Drawn σ (s.drawn + 1) (step σ cfg s l).db.toTables := by
    have hmoves : ∀ {d d' : Db}, Evolves σ s.drawn d.toTables d'.toTables →
        Drawn σ (s.drawn + 1) d.toTables → Drawn σ (s.drawn + 1) d'.toTables :=
      fun hevolves hd => hevolves.drawn hd
    exact hpath.invariant hmoves h.drawn.succ
  cases l with
  | tick => exact ⟨h.drawn, h.current, h.linked⟩
  | _ => exact ⟨hdrawn, hcurrent, hlinked⟩

theorem sound_fresh : Sound σ System.fresh where
  drawn := by
    constructor
    · intro a ha
      exact absurd ha (not_mem_empty a)
    · intro f hf
      exact absurd hf (not_mem_empty f)
    · intro x hx
      exact absurd hx (not_mem_empty x)
  current := by
    constructor
    · intro a ha
      exact absurd ha (not_mem_empty a)
    · intro f hf
      exact absurd hf (not_mem_empty f)
  linked := by
    constructor
    · intro e he
      exact absurd he (not_mem_empty e)
    · intro e he
      exact absurd he (not_mem_empty e)
    · intro c hc
      exact absurd hc (not_mem_empty c)

theorem sound_migrated (legacy : List LegacySession) :
    Sound σ (System.migrated σ legacy) ∧ ∀ e, ¬ e ∈ (System.migrated σ legacy).db.enrollments := by
  induction legacy with
  | nil => exact ⟨sound_fresh, not_mem_empty⟩
  | cons l rest ih =>
    obtain ⟨hsound, hnone⟩ := ih
    have hpath : Path σ (System.migrated σ rest).drawn (System.migrated σ rest).db
        (System.migrated σ (l :: rest)).db ∧
        ∀ e, ¬ e ∈ (System.migrated σ (l :: rest)).db.enrollments := by
      have hmigrate : ∀ d u,
          migrateRow σ (System.migrated σ rest).db (System.migrated σ rest).drawn l = .ok (d, u) →
            Path σ (System.migrated σ rest).drawn (System.migrated σ rest).db d ∧
              ∀ e, ¬ e ∈ d.enrollments := fun _ _ => path_migrateRow hnone
      exact commit_cases ⟨.refl, hnone⟩ hmigrate
    have hmoves : ∀ {d d' : Db}, Evolves σ (System.migrated σ rest).drawn d.toTables d'.toTables →
        Drawn σ ((System.migrated σ rest).drawn + 1) d.toTables →
        Drawn σ ((System.migrated σ rest).drawn + 1) d'.toTables :=
      fun hevolves hd => hevolves.drawn hd
    exact ⟨⟨hpath.1.invariant hmoves hsound.drawn.succ, hpath.1.current hsound.current,
      hpath.1.linked hsound.linked⟩, hpath.2⟩

/-- The states the store reaches. -/
theorem sound_run (legacy : List LegacySession) (trace : List Label) :
    Sound σ (run (step σ cfg) (System.migrated σ legacy) trace) :=
  run_invariant sound_step (sound_migrated legacy).1 trace

variable {s : System} {p : Principal} {changed : Bool}

/-- What every statement of a later transaction keeps, and the time that passes, a run keeps. -/
theorem run_keeps (cfg : Settings) {P : Nat → Db → Prop} (hs : Sound σ s)
    (hmoves : ∀ {now n d d'}, s.drawn ≤ n → Evolves σ n d.toTables d'.toTables →
      P now d → P now d') (htick : ∀ {now elapsed d}, P now d → P (now + elapsed) d)
    (trace : List Label) (h : P s.clock s.db) :
    P (run (step σ cfg) s trace).clock (run (step σ cfg) s trace).db := by
  have hstep : ∀ x l, (Sound σ x ∧ s.drawn ≤ x.drawn ∧ P x.clock x.db) →
      Sound σ (step σ cfg x l) ∧ s.drawn ≤ (step σ cfg x l).drawn ∧
        P (step σ cfg x l).clock (step σ cfg x l).db := by
    intro x l ⟨hx, hle, hp⟩
    have hpath := path_step σ cfg x l hx.current
    have hdb : P x.clock (step σ cfg x l).db := hpath.invariant (hmoves hle) hp
    refine ⟨sound_step x l hx, ?_⟩
    cases l with
    | tick elapsed => exact ⟨hle, htick hp⟩
    | _ => exact ⟨Nat.le_succ_of_le hle, hdb⟩
  exact (run_invariant hstep ⟨hs, le_rfl, h⟩ trace).2.2

/-! ## What stays ended -/

theorem Db.Ended.later {elapsed : Nat} (h : d.Ended now revokedAt expiresAt familyId device) :
    d.Ended (now + elapsed) revokedAt expiresAt familyId device := by
  rcases h with hrevoked | hexpired | hrest
  · exact .inl hrevoked
  · exact .inr (.inl (Nat.le_add_right_of_le hexpired))
  · exact .inr (.inr hrest)

section

variable (h : Evolves σ n d.toTables d'.toTables)

include h

theorem Evolves.ended {revokedAt' : Option Nat}
    (hkey : ∃ f ∈ d'.families, f.familyId = familyId ∧ f.device = device)
    (hrevoked : revokedAt.isSome → revokedAt'.isSome)
    (hend : d.Ended now revokedAt expiresAt familyId device) :
    d'.Ended now revokedAt' expiresAt familyId device := by
  obtain ⟨f', hf', hid, hdevice⟩ := hkey
  rcases hend with hsome | hexpired | ⟨f, hf, hfid, hsome⟩ | ⟨x, hx, hxkey, hsome⟩
  · exact .inl (hrevoked hsome)
  · exact .inr (.inl hexpired)
  · rcases h.family f' hf' with ⟨g, hg, hages⟩ | ⟨-, hfresh⟩
    · have heq : g = f :=
        eq_of_conflict hg hf (hages.familyId.symm.trans (hid.trans hfid.symm))
      exact .inr (.inr (.inl ⟨f', hf', hid, hages.revokedAt (heq ▸ hsome)⟩))
    · exact absurd (hfid.trans hid.symm) (hfresh f hf)
  obtain ⟨x', hx', hx'key⟩ := d'.sound.family f' hf'
  rcases h.device x' hx' with ⟨y, hy, hages⟩ | hfresh
  · have heq : y = x := eq_of_conflict hy hx
      (hages.key.symm.trans (hx'key.trans (hdevice.trans hxkey.symm)))
    exact .inr (.inr (.inr ⟨x', hx', hx'key.trans hdevice, hages.revokedAt (heq ▸ hsome)⟩))
  · exact absurd (hxkey.trans (hdevice.symm.trans hx'key.symm)) (hfresh x hx)

/-- A bearer with this id or this hash has ended. -/
def Db.Dead (now : Nat) (sessionId tokenHash : String) (d : Db) : Prop :=
  ∀ a ∈ d.sessions, a.sessionId = sessionId ∨ a.tokenHash = tokenHash →
    d.Ended now a.revokedAt a.expiresAt a.familyId a.device

theorem Evolves.dead (hk : k < n)
    (hdead : d.Dead now (σ.newId "session" k) (σ.tokenHash (σ.newSecret "eds" k))) :
    d'.Dead now (σ.newId "session" k) (σ.tokenHash (σ.newSecret "eds" k)) := by
  intro a' ha' hmatch
  rcases h.session a' ha' with ⟨a, ha, hages⟩ | ⟨hid, hhash, -⟩
  · rw [hages.sessionId, hages.tokenHash] at hmatch
    rw [hages.expiresAt]
    have hended := hdead a ha hmatch
    rw [← hages.familyId, ← hages.device] at hended
    exact h.ended (d'.sound.session a' ha') hages.revokedAt hended
  · -- The transaction draws another id and another hash.
    rw [hid, hhash] at hmatch
    rcases hmatch with hmatch | hmatch
    · exact absurd (newId_injective hmatch) hk.ne'
    · exact absurd (σ.tokenHash_injective "eds" n k hmatch) hk.ne'

/-- The credential of the hash in the family has ended, or the family is gone. -/
def Db.Gone (now : Nat) (familyId credentialHash : String) (d : Db) : Prop :=
  (∃ c ∈ d.credentials, c.credentialHash = credentialHash ∧ c.familyId = familyId ∧
    d.Ended now c.revokedAt c.expiresAt c.familyId c.device) ∨
  ∀ f ∈ d.families, f.familyId ≠ familyId

theorem Evolves.gone {credentialHash : String} (hk : k < n) (hfamily : NewFamily σ k familyId)
    (hgone : d.Gone now familyId credentialHash) : d'.Gone now familyId credentialHash := by
  rcases hgone with ⟨c, hc, hhash, hcfamily, hended⟩ | hnone
  · rcases h.kept c hc with ⟨c', hc', hages⟩ | hnone
    · left
      refine ⟨c', hc', hages.credentialHash.trans hhash, hages.familyId.trans hcfamily, ?_⟩
      rw [hages.expiresAt]
      rw [← hages.familyId, ← hages.device] at hended
      exact h.ended (d'.sound.credential c' hc') hages.revokedAt hended
    · rw [hcfamily] at hnone
      exact .inr hnone
  · right
    intro f' hf' hid
    rcases h.family f' hf' with ⟨f, hf, hages⟩ | ⟨hnew, -⟩
    · exact hnone f hf (hages.familyId.symm.trans hid)
    · rw [hid] at hnew
      exact absurd (hfamily.unique hnew) hk.ne

/-- The family has reached a generation, and its bearers but some are of a later one. -/
def Db.Past (familyId : String) (generation : Nat) (old : String → Prop) (d : Db) : Prop :=
  (∀ f ∈ d.families, f.familyId = familyId → generation ≤ f.generation) ∧
  ∀ b ∈ d.sessions, b.familyId = familyId → old b.sessionId ∨ generation < b.generation

theorem Evolves.past {generation : Nat} {old : String → Prop} (hk : k < n)
    (hfamily : NewFamily σ k familyId) (hpast : d.Past familyId generation old) :
    d'.Past familyId generation old := by
  have hold : ∀ f' ∈ d'.families, f'.familyId = familyId →
      ∃ f ∈ d.families, f.familyId = familyId ∧ f.generation ≤ f'.generation := by
    intro f' hf' hid
    rcases h.family f' hf' with ⟨f, hf, hages⟩ | ⟨hnew, -⟩
    · exact ⟨f, hf, hages.familyId.symm.trans hid, hages.generation⟩
    · rw [hid] at hnew
      exact absurd (hfamily.unique hnew) hk.ne
  constructor
  · intro f' hf' hid
    obtain ⟨f, hf, hfid, hle⟩ := hold f' hf' hid
    exact (hpast.1 f hf hfid).trans hle
  intro b' hb' hid
  rcases h.session b' hb' with ⟨b, hb, hages⟩ | ⟨-, -, hlater⟩
  · rw [hages.sessionId, hages.generation]
    exact hpast.2 b hb (hages.familyId.symm.trans hid)
  · obtain ⟨f', hf', hf'id, -⟩ := d'.sound.session b' hb'
    obtain ⟨f, hf, hfid, -⟩ := hold f' hf' (hf'id.trans hid)
    exact .inr ((hpast.1 f hf hfid).trans_lt (hlater f hf (hfid.trans hid.symm)))

/-- No other ticket has the hash of this one. -/
def Db.Sole (x : TicketRow) (d : Db) : Prop := ∀ x' ∈ d.tickets, x'.tokenHash = x.tokenHash → x' = x

theorem Evolves.sole (hk : k < n) (hhash : x.tokenHash = σ.tokenHash (σ.newSecret "edt" k))
    (hsole : d.Sole x) : d'.Sole x := by
  intro x' hx' hmatch
  rcases h.ticket x' hx' with hx | hnew
  · exact hsole x' hx hmatch
  · rw [hnew, hhash] at hmatch
    exact absurd (σ.tokenHash_injective "edt" n k hmatch) hk.ne'

end

/-! ## What validates -/

/-- The bearer was superseded or revoked, or has expired, or its family or device is revoked. -/
def SessionRow.Over (s : System) (a : SessionRow) : Prop :=
  (∃ b ∈ s.db.sessions, b.familyId = a.familyId ∧ a.generation < b.generation) ∨
    s.db.Ended s.clock a.revokedAt a.expiresAt a.familyId a.device

theorem SessionRow.Over.ended (hs : Sound σ s) (ha : a ∈ s.db.sessions) (h : a.Over s) :
    s.db.Ended s.clock a.revokedAt a.expiresAt a.familyId a.device := by
  rcases h with ⟨b, hb, hfamily, hlt⟩ | hended
  · left
    obtain ⟨f, hf, hid, -⟩ := s.db.sound.session a ha
    have hbf := hs.current.bearer b hb f hf (hid.trans hfamily.symm)
    have haf := hs.current.bearer a ha f hf hid
    rw [isSome_iff_ne_none]
    intro hactive
    have := haf.2 hactive
    omega
  · exact hended

/-- The bearers that match one that is over have ended for good. -/
theorem dead_run (hs : Sound σ s) (ha : a ∈ s.db.sessions) (h : a.Over s) (trace : List Label) :
    (run (step σ cfg) s trace).db.Dead (run (step σ cfg) s trace).clock a.sessionId
      a.tokenHash := by
  obtain ⟨k, hk, hid, hhash⟩ := hs.drawn.session a ha
  have hdead : s.db.Dead s.clock a.sessionId a.tokenHash := by
    intro b hb hmatch
    have heq : b = a := eq_of_conflict hb ha (hmatch.imp_right Or.inl)
    rw [heq]
    exact h.ended hs ha
  refine run_keeps cfg (P := fun now d => d.Dead now a.sessionId a.tokenHash) hs ?_ ?_ trace hdead
  · intro now n d d' hle hevolves hd
    rw [hid, hhash] at hd ⊢
    exact hevolves.dead (hk.trans_le hle) hd
  · intro now elapsed d hd b hb hmatch
    exact (hd b hb hmatch).later

/-- The drawn family of a row. -/
theorem newFamily_of_mem (hs : Sound σ s) {f : FamilyRow} (hf : f ∈ s.db.families)
    (hid : f.familyId = familyId) : ∃ k < s.drawn, NewFamily σ k familyId := by
  rw [← hid]
  exact hs.drawn.family f hf

theorem gone_run {c : CredentialRow} (hs : Sound σ s) (hc : c ∈ s.db.credentials)
    (h : s.db.Ended s.clock c.revokedAt c.expiresAt c.familyId c.device) (trace : List Label) :
    (run (step σ cfg) s trace).db.Gone (run (step σ cfg) s trace).clock c.familyId
      c.credentialHash := by
  obtain ⟨f, hf, hid, -⟩ := s.db.sound.credential c hc
  obtain ⟨k, hk, hfamily⟩ := newFamily_of_mem hs hf hid
  refine run_keeps cfg (P := fun now d => d.Gone now c.familyId c.credentialHash) hs ?_ ?_ trace
    (.inl ⟨c, hc, rfl, rfl, h⟩)
  · intro now n d d' hle hevolves hd
    exact hevolves.gone (hk.trans_le hle) hfamily hd
  · rintro now elapsed d (⟨x, hx, hhash, hxf, hended⟩ | hnone)
    · exact .inl ⟨x, hx, hhash, hxf, hended.later⟩
    · exact .inr hnone

theorem sole_run (hs : Sound σ s) (hx : x ∈ s.db.tickets) (trace : List Label) :
    (run (step σ cfg) s trace).db.Sole x := by
  obtain ⟨k, hk, hhash⟩ := hs.drawn.ticket x hx
  refine run_keeps cfg (P := fun _ d => d.Sole x) hs ?_ ?_ trace ?_
  · intro now n d d' hle hevolves hd
    exact hevolves.sole (hk.trans_le hle) hhash hd
  · intro now elapsed d hd
    exact hd
  · intro y hy hmatch
    exact eq_of_conflict hy hx (.inr hmatch)

/-- A family has at most one bearer that is not revoked, of the generation it is at. -/
structure OneBearer (d : Db) : Prop where
  sole : ∀ a ∈ d.sessions, ∀ b ∈ d.sessions, a.familyId = b.familyId → a.revokedAt = none →
    b.revokedAt = none → a = b
  current : ∀ a ∈ d.sessions, a.revokedAt = none →
    ∃ f ∈ d.families, f.familyId = a.familyId ∧ f.generation = a.generation

/-- A bearer that is issued later is of a later generation of its family. -/
def Increasing (d d' : Db) : Prop :=
  ∀ a ∈ d.sessions, ∀ b ∈ d'.sessions, b.familyId = a.familyId →
    (∀ x ∈ d.sessions, x.sessionId ≠ b.sessionId) → a.generation < b.generation

/-- What is over in the one state does not validate in the other, and a ticket validates for its
own resource and while its bearer is live. -/
structure Final (σ : Secrets) (s s' : System) : Prop where
  bearer : ∀ token, ∀ a ∈ s.db.sessions, a.tokenHash = σ.tokenHash token → a.Over s →
    ∀ p, validatePublicToken σ s'.db s'.clock token ≠ .ok p
  principal : ∀ p familyId, p.publicFamily? = some familyId → ∀ a ∈ s.db.sessions,
    a.sessionId = p.sessionId → a.Over s → assertActivePrincipal s'.db s'.clock p ≠ .ok ()
  credential : ∀ secret, ∀ c ∈ s.db.credentials, c.credentialHash = σ.tokenHash secret →
    s.db.Ended s.clock c.revokedAt c.expiresAt c.familyId c.device →
    ∀ row, credentialRowTx σ s'.db s'.clock secret = .ok row → row.1.familyId ≠ c.familyId
  ticket : ∀ token, ∀ x ∈ s.db.tickets, x.tokenHash = σ.tokenHash token →
    ∀ resourceType resourceId p,
      validateResourceTicket σ s'.db s'.clock token resourceType resourceId = .ok p →
      resourceType = x.resourceType ∧ resourceId = x.resourceId ∧ p.sessionId = x.sessionId ∧
        (∃ a ∈ s'.db.sessions, a.sessionId = x.sessionId ∧
          s'.db.Live s'.clock a.revokedAt a.expiresAt a.familyId a.device) ∧
        x.revokedAt = none ∧ s'.clock < x.expiresAt ∧
        ∀ a ∈ s.db.sessions, a.sessionId = x.sessionId → ¬ a.Over s

/-- What a rotation, a revocation and the issue of a ticket leave. -/
structure Acts (σ : Secrets) (cfg : Settings) (s : System) : Prop where
  rotate : ∀ p current new d r,
    rotateDeviceCredential σ cfg s.db s.clock s.drawn p current new = .ok (d, r) →
    ∃ c ∈ d.credentials, c.credentialHash = σ.tokenHash current ∧ p.familyId = some c.familyId ∧
      c.revokedAt.isSome
  revokeSession : ∀ sessionId d r, revokeSession s.db s.clock sessionId = .ok (d, r) →
    ∀ a ∈ d.sessions, a.sessionId = sessionId → a.revokedAt.isSome
  revokeFamily : ∀ p familyId d r, p.publicFamily? = some familyId →
    revokeSessionFamily s.db s.clock p = .ok (d, r) →
    ∀ f ∈ d.families, f.familyId = familyId → f.device = p.device → f.revokedAt.isSome
  revokeDevice : ∀ p credential d r, p.mode = .publicMode →
    revokeDevice σ s.db s.clock p credential = .ok (d, r) →
    ∀ x ∈ d.devices, x.key = p.device → x.revokedAt.isSome
  issueTicket : ∀ p resourceType resourceId ttl d token r,
    issueResourceTicket σ s.db s.clock s.drawn p resourceType resourceId ttl = .ok (d, token, r) →
    ∃ x ∈ d.tickets, x.tokenHash = σ.tokenHash token ∧ x.resourceType = resourceType ∧
      x.resourceId = resourceId ∧ x.sessionId = p.sessionId

theorem oneBearer_of_sound (hs : Sound σ s) : OneBearer s.db where
  sole a ha b hb hfamily hactive hactive' :=
    eq_of_conflict ha hb (.inr (.inr ⟨⟨hactive, hactive'⟩, hfamily⟩))
  current a ha hactive := by
    obtain ⟨f, hf, hid, -⟩ := s.db.sound.session a ha
    exact ⟨f, hf, hid, ((hs.current.bearer a ha f hf hid).2 hactive).symm⟩

theorem increasing_run (hs : Sound σ s) (trace : List Label) :
    Increasing s.db (run (step σ cfg) s trace).db := by
  intro a ha b hb hfamily hsince
  obtain ⟨f, hf, hid, -⟩ := s.db.sound.session a ha
  obtain ⟨k, hk, hnew⟩ := newFamily_of_mem hs hf hid
  have hpast : s.db.Past a.familyId a.generation fun i => ∃ x ∈ s.db.sessions, x.sessionId = i := by
    constructor
    · intro g hg hgid
      exact (hs.current.bearer a ha g hg hgid).1
    · intro x hx _
      exact .inl ⟨x, hx, rfl⟩
  have hrun := run_keeps cfg (P := fun _ d => d.Past a.familyId a.generation
    fun i => ∃ x ∈ s.db.sessions, x.sessionId = i) hs
    (fun hle hevolves hd => hevolves.past (hk.trans_le hle) hnew hd) (fun hd => hd) trace hpast
  rcases hrun.2 b hb hfamily with ⟨x, hx, hold⟩ | hlt
  · exact absurd hold (hsince x hx)
  · exact hlt

theorem final_run (hs : Sound σ s) (trace : List Label) : Final σ s (run (step σ cfg) s trace) where
  bearer token a ha hhash hover p hvalid := by
    obtain ⟨b, hb, hbhash, hlive, -⟩ := validatePublicToken_eq_ok hvalid
    exact hlive.not_ended (dead_run hs ha hover trace b hb (.inr (hbhash.trans hhash.symm)))
  principal p familyId hfamily a ha hid hover hvalid := by
    obtain ⟨b, hb, hbid, -, -, hlive⟩ := assertActivePrincipal_eq_ok hfamily hvalid
    exact hlive.not_ended (dead_run hs ha hover trace b hb (.inl (hbid.trans hid.symm)))
  credential secret c hc hhash hended row hvalid hsame := by
    obtain ⟨hmem, hrow, hlive, -, -⟩ := credentialRowTx_eq_ok hvalid
    rcases gone_run hs hc hended trace with ⟨x, hx, hxhash, -, hxended⟩ | hnone
    · have heq : row.1 = x := eq_of_conflict hmem hx
        (.inr (.inl (hrow.trans (hhash.symm.trans hxhash.symm))))
      rw [heq] at hlive
      exact hlive.not_ended hxended
    · obtain ⟨f, hf, hid, -⟩ := (run (step σ cfg) s trace).db.sound.credential _ hmem
      exact hnone f hf (hid.trans hsame)
  ticket token x hx hhash resourceType resourceId p hvalid := by
    obtain ⟨y, hy, hyhash, htype, hresource, hactive, hunexpired, a, ha, hid, hlive, rfl⟩ :=
      validateResourceTicket_eq_ok hvalid
    have heq : y = x := sole_run hs hx trace y hy (hyhash.trans hhash.symm)
    subst heq
    refine ⟨htype.symm, hresource.symm, hid, ⟨a, ha, hid, hlive⟩, hactive, hunexpired, ?_⟩
    intro b hb hbid hover
    exact hlive.not_ended (dead_run hs hb hover trace a ha (.inl (hid.trans hbid.symm)))

/-! ## What an operation leaves -/

theorem rotate_leaves {current new : String}
    (h : rotateDeviceCredential σ cfg d now n p current new = .ok (d', r)) :
    ∃ c ∈ d'.credentials, c.credentialHash = σ.tokenHash current ∧ p.familyId = some c.familyId ∧
      c.revokedAt.isSome := by
  unfold rotateDeviceCredential at h
  split at h
  · cases h
  obtain ⟨-, -, h⟩ := bind_eq_ok.1 h
  obtain ⟨old, hold, h⟩ := bind_eq_ok.1 h
  obtain ⟨hrow, hfamily, -⟩ := authorize_eq_ok hold
  obtain ⟨hmem, hhash, hlive, -, -⟩ := credentialRowTx_eq_ok hrow
  obtain ⟨d₁, h₁, h⟩ := bind_eq_ok.1 h
  obtain ⟨d₂, h₂, h⟩ := bind_eq_ok.1 h
  obtain ⟨d₃, h₃, h⟩ := bind_eq_ok.1 h
  obtain ⟨enrollments, -, h⟩ := bind_eq_ok.1 h
  obtain ⟨d₄, h₄, h⟩ := bind_eq_ok.1 h
  cases h
  obtain ⟨cs₁, hcs₁, h₁⟩ := write_eq_ok.1 h₁
  obtain ⟨cs₂, hcs₂, h₂⟩ := write_eq_ok.1 h₂
  obtain ⟨cs₃, hcs₃, h₃⟩ := write_eq_ok.1 h₃
  have h₄ := exec_eq_ok.1 h₄
  have hrevoked : { old.1 with revokedAt := some now } ∈ d₁.credentials := by
    rw [h₁]
    refine (mem_update? hcs₁).2 ⟨old.1, hmem, ?_⟩
    rw [if_pos (decide_eq_true ⟨rfl, hlive.active⟩)]
  have hleft : { old.1 with revokedAt := some now } ∈ d₂.credentials := by
    rw [h₂]
    exact (mem_insert? hcs₂).2 (.inl hrevoked)
  refine ⟨{ old.1 with
    revokedAt := some now
    rotatedToCredentialId := some (σ.newId "credential" n) }, ?_, hhash, hfamily, rfl⟩
  rw [h₄]
  rw [h₃]
  refine (mem_update? hcs₃).2 ⟨_, hleft, ?_⟩
  rw [if_pos (decide_eq_true rfl)]

theorem revokeSession_leaves {sessionId : String}
    (h : revokeSession d now sessionId = .ok (d', changed)) :
    ∀ a ∈ d'.sessions, a.sessionId = sessionId → a.revokedAt.isSome := by
  obtain ⟨sessions, hupd, h⟩ := bind_eq_ok.1 h
  obtain ⟨d₁, h₁, h⟩ := bind_eq_ok.1 h
  cases h
  rw [exec_eq_ok.1 h₁]
  intro a' ha' hid
  rcases update?_cases (unique_eq_ok.1 hupd) ha' with ⟨a, -, -, rfl⟩ | ⟨-, hkeep⟩
  · rfl
  · rw [isSome_iff_ne_none]
    exact fun hactive => hkeep (decide_eq_true ⟨hid, hactive⟩)

theorem revokeIssued_other {bearer : SessionRow → Bool} {credential : CredentialRow → Bool}
    (h : revokeIssued d now bearer credential = .ok d') :
    d'.families = d.families ∧ d'.devices = d.devices := by
  obtain ⟨sessions, -, h⟩ := bind_eq_ok.1 h
  obtain ⟨d₁, h₁, h⟩ := bind_eq_ok.1 h
  obtain ⟨credentials, -, h₂⟩ := write_eq_ok.1 h
  rw [h₂]
  rw [exec_eq_ok.1 h₁]
  exact ⟨rfl, rfl⟩

theorem revokeSessionFamily_leaves (hpublic : p.publicFamily? = some familyId)
    (h : revokeSessionFamily d now p = .ok (d', changed)) :
    ∀ f ∈ d'.families, f.familyId = familyId → f.device = p.device → f.revokedAt.isSome := by
  unfold revokeSessionFamily at h
  rw [hpublic] at h
  simp only [bind_eq_ok] at h
  obtain ⟨families, hupd, d₁, h₁, d₂, h₂, h⟩ := h
  cases h
  rw [(revokeIssued_other h₂).1, exec_eq_ok.1 h₁]
  intro f' hf' hid hdevice
  rcases update?_cases (unique_eq_ok.1 hupd) hf' with ⟨f, -, -, rfl⟩ | ⟨-, hkeep⟩
  · rfl
  · rw [isSome_iff_ne_none]
    exact fun hactive => hkeep (decide_eq_true ⟨hid, hdevice, hactive⟩)

theorem revokeDevice_leaves {credential : String} (hmode : p.mode = .publicMode)
    (h : revokeDevice σ d now p credential = .ok (d', changed)) :
    ∀ x ∈ d'.devices, x.key = p.device → x.revokedAt.isSome := by
  unfold revokeDevice at h
  rw [if_neg (not_not_intro hmode)] at h
  obtain ⟨row, -, h⟩ := bind_eq_ok.1 h
  obtain ⟨d₃, hwrites, h⟩ := bind_eq_ok.1 h
  cases h
  obtain ⟨devices, hdevices, h⟩ := bind_eq_ok.1 hwrites
  obtain ⟨d₁, h₁, h⟩ := bind_eq_ok.1 h
  obtain ⟨families, -, h⟩ := bind_eq_ok.1 h
  obtain ⟨d₂, h₂, h⟩ := bind_eq_ok.1 h
  rw [(revokeIssued_other h).2, exec_eq_ok.1 h₂]
  rw [exec_eq_ok.1 h₁]
  intro x' hx' hkey
  rcases update?_cases (unique_eq_ok.1 hdevices) hx' with ⟨x, -, -, rfl⟩ | ⟨-, hkeep⟩
  · rfl
  · rw [isSome_iff_ne_none]
    exact fun hactive => hkeep (decide_eq_true ⟨hkey, hactive⟩)

theorem issueResourceTicket_leaves {resourceType : ResourceType} {resourceId token : String}
    {ttl : Int}
    (h : issueResourceTicket σ d now n p resourceType resourceId ttl = .ok (d', token, r)) :
    ∃ x ∈ d'.tickets, x.tokenHash = σ.tokenHash token ∧ x.resourceType = resourceType ∧
      x.resourceId = resourceId ∧ x.sessionId = p.sessionId := by
  simp only [issueResourceTicket, bind_eq_ok] at h
  obtain ⟨-, -, -, -, -, -, d₁, h₁, h⟩ := h
  cases h
  obtain ⟨tickets, hins, h₁⟩ := write_eq_ok.1 h₁
  rw [h₁]
  exact ⟨_, (mem_insert? hins).2 (.inr rfl), rfl, rfl, rfl, rfl⟩

theorem acts (σ : Secrets) (cfg : Settings) (s : System) : Acts σ cfg s where
  rotate _ _ _ _ _ h := rotate_leaves h
  revokeSession _ _ _ h := revokeSession_leaves h
  revokeFamily _ _ _ _ hpublic h := revokeSessionFamily_leaves hpublic h
  revokeDevice _ _ _ _ hmode h := revokeDevice_leaves hmode h
  issueTicket _ _ _ _ _ _ _ h := issueResourceTicket_leaves h

/-! ## Every run -/

/-- In every state that the store reaches a family has one live bearer, its generations grow,
and what is over by then never validates again, a credential not in its family. -/
theorem bearers_final (σ : Secrets) (cfg : Settings) (legacy : List LegacySession)
    (before after : List Label) :
    OneBearer (run (step σ cfg) (System.migrated σ legacy) before).db ∧
    Increasing (run (step σ cfg) (System.migrated σ legacy) before).db
      (run (step σ cfg) (System.migrated σ legacy) (before ++ after)).db ∧
    Final σ (run (step σ cfg) (System.migrated σ legacy) before)
      (run (step σ cfg) (System.migrated σ legacy) (before ++ after)) ∧
    Acts σ cfg (run (step σ cfg) (System.migrated σ legacy) before) := by
  have hs : Sound σ (run (step σ cfg) (System.migrated σ legacy) before) :=
    sound_run legacy before
  rw [run_append]
  exact ⟨oneBearer_of_sound hs, increasing_run hs after, final_run hs after, acts σ cfg _⟩

/-- A device is enrolled once, and all that was issued to it is of the family it enrolled with. -/
structure Apart (t : Tables) : Prop where
  device : ∀ e ∈ t.enrollments, ∀ e' ∈ t.enrollments, e.device = e'.device → e = e'
  session : ∀ e ∈ t.enrollments, ∀ a ∈ t.sessions, a.device = e.device → a.familyId = e.familyId
  credential : ∀ e ∈ t.enrollments, ∀ c ∈ t.credentials,
    c.device = e.device → c.familyId = e.familyId

theorem Linked.apart (h : Linked t) (hkeys : t.ForeignKeys) : Apart t where
  device e he e' he' hdevice := by
    obtain ⟨f, hf, hfamily, hof⟩ := hkeys.enrollment e' he'
    exact h.family e he e' he' ((h.device e he f hf (hof.trans hdevice.symm)).symm.trans hfamily)
  session e he a ha hdevice := by
    obtain ⟨f, hf, hfamily, hof⟩ := hkeys.session a ha
    exact hfamily.symm.trans (h.device e he f hf (hof.trans hdevice))
  credential e he c hc hdevice := by
    obtain ⟨f, hf, hfamily, hof⟩ := hkeys.credential c hc
    exact hfamily.symm.trans (h.device e he f hf (hof.trans hdevice))

/-- Whatever is enrolled, rotated, revoked and cleaned up, in any order. -/
theorem installations_apart (σ : Secrets) (cfg : Settings) (legacy : List LegacySession)
    (trace : List Label) : Apart (run (step σ cfg) (System.migrated σ legacy) trace).db.toTables :=
  (sound_run legacy trace).linked.apart (run (step σ cfg) (System.migrated σ legacy) trace).db.sound

/-! ## Secrets that are chosen again -/

/-- Drawn values that are told apart by their length. -/
def Secrets.ones : Secrets where
  tokenHash secret := secret
  bindingHash domain value := domain ++ "/" ++ value
  tokenHex n := String.ofList (List.replicate n '1')
  tokenUrlsafe n := String.ofList (List.replicate n '1')
  tokenHex_injective m n h := by
    have hlength := congrArg String.length h
    simpa using hlength
  tokenHash_injective kind m n h := by
    have hlength := congrArg String.length h
    simpa using hlength

def firstSecret : String := "the-first-secret-of-the-installation"

def request (enrollmentId deviceSecret : String) : EnrollRequest :=
  ⟨some enrollmentId, some deviceSecret, "peer", none, none, none, none, none⟩

/-- The principal of the first enrollment. -/
def firstPrincipal : Principal :=
  ⟨⟨⟨"tenant_", "owner_"⟩, "device_"⟩, "session_", .publicMode, some "family_"⟩

/-- An installation enrolls and rotates its secret. -/
def rotated : List Label :=
  [.enroll (request "enrollment-of-the-first-installation" firstSecret),
    .rotate firstPrincipal firstSecret "the-second-secret-of-the-installation"]

/-- It revokes its family, and another one enrolls with its first secret. -/
def chosenAgain : List Label :=
  [.revokeFamily firstPrincipal,
    .enroll (request "enrollment-of-the-other-installation" firstSecret)]

theorem secret_breaks : ¬ ∀ (σ : Secrets) (cfg : Settings) (legacy : List LegacySession)
    (before after : List Label) (secret : String),
    ∀ c ∈ (run (step σ cfg) (System.migrated σ legacy) before).db.credentials,
      c.credentialHash = σ.tokenHash secret → c.revokedAt.isSome →
      ∀ row, credentialRowTx σ (run (step σ cfg) (System.migrated σ legacy) (before ++ after)).db
        (run (step σ cfg) (System.migrated σ legacy) (before ++ after)).clock secret ≠ .ok row := by
  intro h
  have hrevoked : ∃ c ∈ (run (step .ones {}) (System.migrated .ones []) rotated).db.credentials.rows,
      c.credentialHash = Secrets.ones.tokenHash firstSecret ∧ c.revokedAt.isSome := by
    decide +kernel
  obtain ⟨c, hc, hhash, hsome⟩ := hrevoked
  have hvalid : (credentialRowTx .ones
      (run (step .ones {}) (System.migrated .ones []) (rotated ++ chosenAgain)).db
      (run (step .ones {}) (System.migrated .ones []) (rotated ++ chosenAgain)).clock
      firstSecret).toOption.isSome = true := by decide +kernel
  have hnone := h .ones {} [] rotated chosenAgain firstSecret c (Table.mem_def.2 hc) hhash hsome
  revert hvalid hnone
  cases credentialRowTx .ones
      (run (step .ones {}) (System.migrated .ones []) (rotated ++ chosenAgain)).db
      (run (step .ones {}) (System.migrated .ones []) (rotated ++ chosenAgain)).clock
      firstSecret with
  | error e =>
    intro hvalid
    cases hvalid
  | ok row =>
    intro _ hnone
    exact hnone row rfl

end Sessions
