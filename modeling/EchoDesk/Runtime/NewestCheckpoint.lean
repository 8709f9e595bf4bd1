import EchoDesk.Runtime.CheckpointStore

/-! # The newest checkpoint of a session

A save makes its checkpoint the latest one, whatever its sequence. While checkpoints are saved
in the order of their sequences, the latest one is the newest and a resume returns it; a save
that comes late, or again, moves the session back.
-/

namespace SessionCheckpoints

open EchoDesk Transaction Transition List Option Keyed

variable {lib : Library} {d d' : Store} {session : SessionRow} {row c : CheckpointRow}
  {sessionId : String}
variable {checkpoint : Json} {payload : Dict} {saved : List CheckpointRow}
variable {result : Checked Store} {sum : String}

/-! ## What a write does -/

/-- A write to the sessions that leaves the latest checkpoint and keeps the sequence rising. -/
inductive Touched (d : Store) : Store → Prop where
  | same {d' : Store} (hsessions : d'.sessions = d.sessions)
      (hcheckpoints : d'.checkpoints = d.checkpoints) : Touched d d'
  | created {d' : Store} (row : SessionRow) (hnew : d.sessions.get? row.sessionId = none)
      (hlatest : row.latestCheckpointId = none)
      (hsessions : d'.sessions = d.sessions.put row)
      (hcheckpoints : d'.checkpoints = d.checkpoints) : Touched d d'
  | updated {d' : Store} (old new : SessionRow) (hold : d.sessions.get? new.sessionId = some old)
      (hlatest : new.latestCheckpointId = old.latestCheckpointId)
      (hseq : old.lastDurableEventSeq ≤ new.lastDurableEventSeq)
      (hsessions : d'.sessions = d.sessions.put new)
      (hcheckpoints : d'.checkpoints = d.checkpoints) : Touched d d'

theorem sessionId_of_get? (h : d.sessions.get? sessionId = some session) :
    session ∈ d.sessions ∧ session.sessionId = sessionId := mem_get?.1 h

theorem insertSession_ok {grantId : Json} {new : SessionRow}
    (hlatest : new.latestCheckpointId = none) (h : insertSession d new grantId = .ok d') :
    Touched d d' := by
  unfold insertSession at h
  split at h
  · cases h
    exact .same rfl rfl
  rename_i hnew
  obtain ⟨_, _, h⟩ := bind_eq_ok.1 h
  cases h
  exact .created new hnew hlatest rfl rfl

theorem createSession_ok {identity : IdentityInput} {createdAt : String}
    (h : createSession lib d identity createdAt = .ok d') : Touched d d' := by
  unfold createSession at h
  simp only [bind_eq_ok] at h
  obtain ⟨bound, _, _, _, grant, _, revision, _, build, _, _, _, d₁, hinsert, _, _, _, _, _, _, _,
    _, heq⟩ := h
  cases heq
  exact insertSession_ok rfl hinsert

theorem setSessionState_ok {state : SessionState} {updatedAt : String}
    (h : setSessionState lib d sessionId state updatedAt = .ok d') : Touched d d' := by
  unfold setSessionState at h
  simp only [bind_eq_ok, requireSession_eq_ok] at h
  obtain ⟨_, _, _, _, session, hsession, heq⟩ := h
  cases heq
  have hid := (sessionId_of_get? hsession).2
  rw [← hid] at hsession
  exact .updated session { session with state, updatedAt } hsession rfl (Int.le_refl _) rfl rfl

theorem storeEvent_ok {event : EventRow}
    (hsession : d.sessions.get? session.sessionId = some session)
    (h : storeEvent d session event = .ok d') : Touched d d' := by
  unfold storeEvent at h
  split at h
  · obtain ⟨_, _, h⟩ := bind_eq_ok.1 h
    cases h
    exact .same rfl rfl
  · cases h
    exact .updated session { session with
      lastDurableEventSeq := max session.lastDurableEventSeq event.durableEventSeq
      updatedAt := event.occurredAt } hsession rfl (Int.le_max_left _ _) rfl rfl

theorem appendEvent_ok {request : AppendRequest} (h : appendEvent lib d request = .ok d') :
    Touched d d' := by
  unfold appendEvent at h
  simp only [bind_eq_ok, requireSession_eq_ok] at h
  obtain ⟨_, _, _, _, _, _, _, _, payload, _, _, _, _, _, session, hsession, h⟩ := h
  rw [← (sessionId_of_get? hsession).2] at hsession
  exact storeEvent_ok hsession h

/-! ## What a stored checkpoint is -/

/-- The columns of a checkpoint are those of its payload. -/
structure CheckpointRow.Sound (lib : Library) (c : CheckpointRow) : Prop where
  seq : SessionCheckpoints.lastDurableEventSeq c.payload = .ok c.lastDurableEventSeq
  id : lookup c.payload "checkpointId" "checkpoint_id" = .str c.checkpointId
  sorted : c.payload.dump = c.payload
  sum : c.checksum = SessionCheckpoints.checksum lib c.payload

theorem lastDurableEventSeq_dump {n : Int} (h : lastDurableEventSeq payload = .ok n) :
    lastDurableEventSeq payload.dump = .ok n := by
  unfold lastDurableEventSeq requiredNonNegativeInt at h ⊢
  rw [requiredInt_eq_ok] at h ⊢
  rw [lookup_dump, h.1]
  exact ⟨rfl, h.2⟩

/-- Two checkpoints of one checksum have one payload. -/
theorem CheckpointRow.Sound.payload_eq (hsha : Function.Injective lib.sha256)
    (hc : c.Sound lib) (hrow : row.Sound lib) (hsum : c.checksum = row.checksum) :
    c.payload = row.payload := by
  rw [hc.sum, hrow.sum] at hsum
  have hdigest : digest lib c.payload = digest lib row.payload := by
    have hlist := congrArg String.toList hsum
    unfold SessionCheckpoints.checksum at hlist
    rw [String.toList_append, String.toList_append] at hlist
    exact String.toList_injective (append_cancel_left hlist)
  have hdump : JsonText.dumps c.payload.dump = JsonText.dumps row.payload.dump := hsha hdigest
  have hload := congrArg JsonText.loads hdump
  rw [JsonText.loads_dumps, JsonText.loads_dumps, hc.sorted, hrow.sorted] at hload
  exact some.inj hload

variable {savedAt : String}

theorem checkSave_ok (h : checkSave lib d sessionId checkpoint savedAt = .ok (session, row)) :
    d.sessions.get? sessionId = some session ∧ row.sessionId = sessionId ∧ row.Sound lib ∧
      row.lastDurableEventSeq ≤ session.lastDurableEventSeq ∧
      ∀ existing, d.checkpoints.get? row.key = some existing →
        existing.checksum = row.checksum := by
  unfold checkSave at h
  simp only [bind_eq_ok, requireSession_eq_ok, require_eq_ok] at h
  obtain ⟨_, _, ⟨payload, sum⟩, hserialize, h⟩ := h
  simp only [requiredString_eq_ok] at h
  obtain ⟨_, _, taskId, _, operationKey, _, modelRevision, _, grantRevision, _, n, hseq, id, hid,
    grant, _, session', hsession, _, _, _, _, _, _, storedGrant, _, _, _, _, hahead, _, hbound,
    heq⟩ := h
  obtain ⟨rfl, rfl⟩ := Prod.mk.inj (Except.ok.inj heq)
  refine ⟨hsession, rfl, ?_, hahead, hbound⟩
  constructor
  · exact lastDurableEventSeq_dump hseq
  · rw [lookup_dump, hid.1]
    rfl
  · exact Dict.dump_dump payload
  unfold serializeCheckpoint at hserialize
  simp only [bind_eq_ok] at hserialize
  obtain ⟨_, _, _, _, _, _, _, _, heq⟩ := hserialize
  obtain ⟨hpayload, hsum⟩ := Prod.mk.inj (Except.ok.inj heq)
  rw [← hsum, hpayload]
  unfold checksum digest
  rw [Dict.dump_dump]

/-! ## The tables -/

/-- Each checkpoint belongs to a session and is not ahead of it, and the latest one of a session
is the newest. -/
structure Store.Sound (lib : Library) (d : Store) : Prop where
  rows : ∀ c ∈ d.checkpoints, c.Sound lib
  owned : ∀ c ∈ d.checkpoints, ∃ session ∈ d.sessions, session.sessionId = c.sessionId
  below : ∀ session ∈ d.sessions, ∀ c ∈ d.checkpoints, c.sessionId = session.sessionId →
    c.lastDurableEventSeq ≤ session.lastDurableEventSeq
  none : ∀ session ∈ d.sessions, session.latestCheckpointId = none →
    ∀ c ∈ d.checkpoints, c.sessionId ≠ session.sessionId
  latest : ∀ session ∈ d.sessions, ∀ id, session.latestCheckpointId = some id →
    ∃ c ∈ d.checkpoints, c.key = (session.sessionId, id) ∧
      ∀ c' ∈ d.checkpoints, c'.sessionId = session.sessionId →
        c'.lastDurableEventSeq ≤ c.lastDurableEventSeq

theorem Touched.sound (h : Touched d d') (hd : d.Sound lib) : d'.Sound lib := by
  cases h with
  | same hsessions hcheckpoints =>
    exact ⟨hcheckpoints ▸ hd.rows, by rw [hcheckpoints, hsessions]; exact hd.owned,
      by rw [hcheckpoints, hsessions]; exact hd.below,
      by rw [hcheckpoints, hsessions]; exact hd.none,
      by rw [hcheckpoints, hsessions]; exact hd.latest⟩
  | created new hnew hlatest hsessions hcheckpoints =>
    -- a session that is new has no checkpoint
    have hfresh : ∀ c ∈ d.checkpoints, c.sessionId ≠ new.sessionId := by
      intro c hc heq
      obtain ⟨owner, howner, hid⟩ := hd.owned c hc
      exact get?_eq_none.1 hnew owner howner (hid.trans heq)
    have hmem : ∀ x, x ∈ d'.sessions → x = new ∨ x ∈ d.sessions := by
      intro x hx
      rw [hsessions, mem_put] at hx
      rcases hx with rfl | ⟨hx, _⟩
      · exact Or.inl rfl
      · exact Or.inr hx
    constructor
    · rw [hcheckpoints]
      exact hd.rows
    · intro c hc
      rw [hcheckpoints] at hc
      obtain ⟨owner, howner, hid⟩ := hd.owned c hc
      refine ⟨owner, ?_, hid⟩
      rw [hsessions, mem_put]
      exact Or.inr ⟨howner, hid ▸ hfresh c hc⟩
    · intro x hx c hc hid
      rw [hcheckpoints] at hc
      rcases hmem x hx with rfl | hx
      · exact absurd hid (hfresh c hc)
      · exact hd.below x hx c hc hid
    · intro x hx hnone c hc
      rw [hcheckpoints] at hc
      rcases hmem x hx with rfl | hx
      · exact hfresh c hc
      · exact hd.none x hx hnone c hc
    · intro x hx id hid
      rw [hcheckpoints]
      rcases hmem x hx with rfl | hx
      · exact absurd (hlatest.symm.trans hid) (by simp)
      · exact hd.latest x hx id hid
  | updated old new hold hlatest hseq hsessions hcheckpoints =>
    obtain ⟨hmemOld, hidOld⟩ := sessionId_of_get? hold
    have hmem : ∀ x, x ∈ d'.sessions → x = new ∨ x ∈ d.sessions := by
      intro x hx
      rw [hsessions, mem_put] at hx
      rcases hx with rfl | ⟨hx, _⟩
      · exact Or.inl rfl
      · exact Or.inr hx
    constructor
    · rw [hcheckpoints]
      exact hd.rows
    · intro c hc
      rw [hcheckpoints] at hc
      obtain ⟨owner, howner, hid⟩ := hd.owned c hc
      by_cases hsame : owner.sessionId = new.sessionId
      · refine ⟨new, ?_, hsame ▸ hid⟩
        rw [hsessions, mem_put]
        exact Or.inl rfl
      · refine ⟨owner, ?_, hid⟩
        rw [hsessions, mem_put]
        exact Or.inr ⟨howner, hsame⟩
    · intro x hx c hc hid
      rw [hcheckpoints] at hc
      rcases hmem x hx with rfl | hx
      · have := hd.below old hmemOld c hc (hid.trans hidOld.symm)
        omega
      · exact hd.below x hx c hc hid
    · intro x hx hnone c hc
      rw [hcheckpoints] at hc
      rcases hmem x hx with rfl | hx
      · rw [← hidOld]
        exact hd.none old hmemOld (hlatest ▸ hnone) c hc
      · exact hd.none x hx hnone c hc
    · intro x hx id hid
      rw [hcheckpoints]
      rcases hmem x hx with rfl | hx
      · rw [← hidOld]
        exact hd.latest old hmemOld id (hlatest ▸ hid)
      · exact hd.latest x hx id hid

/-! ## A save -/

/-- A stored checkpoint stays, but for the time of its last save. -/
def CheckpointRow.SameBut (c c' : CheckpointRow) : Prop :=
  c' = { c with savedAt := c'.savedAt }

theorem CheckpointRow.SameBut.refl (c : CheckpointRow) : c.SameBut c := rfl

theorem CheckpointRow.SameBut.trans {a b : CheckpointRow} (hab : a.SameBut b) (hbc : b.SameBut c) :
    a.SameBut c := by
  unfold SameBut at hab hbc ⊢
  rw [hbc, hab]

theorem CheckpointRow.SameBut.sound {c' : CheckpointRow} (h : c.SameBut c') (hc : c.Sound lib) :
    c'.Sound lib := by
  rw [h]
  exact ⟨hc.seq, hc.id, hc.sorted, hc.sum⟩

def Keeps (d d' : Store) : Prop :=
  ∀ c ∈ d.checkpoints, ∃ c' ∈ d'.checkpoints, c.SameBut c'

theorem Touched.keeps (h : Touched d d') : Keeps d d' := by
  intro c hc
  have hsame : d'.checkpoints = d.checkpoints := by
    cases h with
    | same _ hcheckpoints | created _ _ _ _ hcheckpoints | updated _ _ _ _ _ _ hcheckpoints =>
      exact hcheckpoints
  exact ⟨c, hsame ▸ hc, .refl c⟩

/-- The row that a save leaves: the new one, or the one that is bound with a new time. -/
structure Stored (lib : Library) (d : Store) (row stored : CheckpointRow) : Prop where
  key : stored.key = row.key
  sound : stored.Sound lib
  seq : stored.lastDurableEventSeq = row.lastDurableEventSeq
  mem : ∀ c, c ∈ (upsertCheckpoint d row).checkpoints ↔
    c = stored ∨ c ∈ d.checkpoints ∧ c.key ≠ row.key
  same : ∀ existing ∈ d.checkpoints, existing.key = row.key → existing.SameBut stored

theorem exists_stored (hsha : Function.Injective lib.sha256) (hd : d.Sound lib)
    (hrow : row.Sound lib) (hbound : ∀ existing, d.checkpoints.get? row.key = some existing →
      existing.checksum = row.checksum) : ∃ stored, Stored lib d row stored := by
  cases hget : d.checkpoints.get? row.key with
  | none =>
    refine ⟨row, rfl, hrow, rfl, ?_, ?_⟩
    · intro c
      unfold upsertCheckpoint
      rw [hget]
      exact mem_put
    · intro existing hexisting hkey
      exact absurd hkey (get?_eq_none.1 hget existing hexisting)
  | some existing =>
    obtain ⟨hmem, hkey⟩ := mem_get?.1 hget
    have hsound := hd.rows existing hmem
    have hpayload := hsound.payload_eq hsha hrow (hbound existing hget)
    refine ⟨{ existing with savedAt := row.savedAt }, hkey, ?_, ?_, ?_, ?_⟩
    · exact CheckpointRow.SameBut.sound (c := existing) rfl hsound
    · have hseq := hsound.seq
      rw [hpayload, hrow.seq] at hseq
      exact (Except.ok.inj hseq).symm
    · intro c
      unfold upsertCheckpoint
      rw [hget]
      rw [mem_put]
      show c = _ ∨ c ∈ d.checkpoints ∧ c.key ≠ existing.key ↔ _
      rw [hkey]
    · intro other hother hother'
      have heq : other = existing :=
        some.inj ((mem_get?.2 ⟨hother, hother'⟩).symm.trans hget)
      rw [heq]
      rfl

theorem Stored.keeps {stored : CheckpointRow} (h : Stored lib d row stored) :
    Keeps d (upsertCheckpoint d row) := by
  intro c hc
  by_cases hkey : c.key = row.key
  · exact ⟨stored, (h.mem stored).2 (Or.inl rfl), h.same c hc hkey⟩
  · exact ⟨c, (h.mem c).2 (Or.inr ⟨hc, hkey⟩), .refl c⟩

@[simp] theorem sessions_upsertCheckpoint : (upsertCheckpoint d row).sessions = d.sessions := by
  unfold upsertCheckpoint
  split <;> rfl

/-- The store after a save. -/
def published (d : Store) (session : SessionRow) (row : CheckpointRow) (savedAt : String) : Store :=
  { upsertCheckpoint d row with
    sessions := (upsertCheckpoint d row).sessions.put
      { session with latestCheckpointId := some row.checkpointId, updatedAt := savedAt } }

theorem saveCheckpoint_ok {id : String}
    (h : saveCheckpoint lib d sessionId checkpoint savedAt = .ok (d', id)) :
    ∃ session row, checkSave lib d sessionId checkpoint savedAt = .ok (session, row) ∧
      d' = published d session row savedAt ∧ id = row.checkpointId := by
  obtain ⟨⟨session, row⟩, hcheck, heq⟩ := bind_eq_ok.1 h
  obtain ⟨hd, hid⟩ := Prod.mk.inj (Except.ok.inj heq)
  exact ⟨session, row, hcheck, hd.symm, hid.symm⟩

theorem saveCheckpoint_of_check
    (h : checkSave lib d sessionId checkpoint savedAt = .ok (session, row)) :
    saveCheckpoint lib d sessionId checkpoint savedAt =
      .ok (published d session row savedAt, row.checkpointId) := by
  unfold saveCheckpoint
  rw [h]
  rfl

/-- A save in the order of the sequences keeps the latest checkpoint the newest. -/
theorem sound_published (hsha : Function.Injective lib.sha256) (hd : d.Sound lib)
    (hcheck : checkSave lib d sessionId checkpoint savedAt = .ok (session, row))
    (horder : ∀ c ∈ d.checkpoints, c.sessionId = sessionId →
      c.lastDurableEventSeq ≤ row.lastDurableEventSeq) :
    (published d session row savedAt).Sound lib := by
  obtain ⟨hsession, hrowId, hrow, hahead, hbound⟩ := checkSave_ok hcheck
  obtain ⟨hmemSession, hid⟩ := sessionId_of_get? hsession
  obtain ⟨stored, hstored⟩ := exists_stored hsha hd hrow hbound
  have hstoredId : stored.sessionId = sessionId := by
    rw [← hrowId]
    exact (Prod.mk.inj hstored.key).1
  have hsessions : ∀ x, x ∈ (published d session row savedAt).sessions →
      x = { session with latestCheckpointId := some row.checkpointId, updatedAt := savedAt } ∨
        x ∈ d.sessions ∧ x.sessionId ≠ sessionId := by
    intro x hx
    unfold published at hx
    rw [sessions_upsertCheckpoint, mem_put] at hx
    rcases hx with rfl | ⟨hx, hne⟩
    · exact Or.inl rfl
    · exact Or.inr ⟨hx, hid ▸ hne⟩
  have hseqs : ∀ c ∈ (upsertCheckpoint d row).checkpoints, c.sessionId = sessionId →
      c.lastDurableEventSeq ≤ row.lastDurableEventSeq := by
    intro c hc hcid
    rcases (hstored.mem c).1 hc with rfl | ⟨hc, _⟩
    · exact Int.le_of_eq hstored.seq
    · exact horder c hc hcid
  -- the checkpoints of the other sessions are as they were
  have hothers : ∀ c, c.sessionId ≠ sessionId →
      (c ∈ (upsertCheckpoint d row).checkpoints ↔ c ∈ d.checkpoints) := by
    intro c hc
    rw [hstored.mem]
    constructor
    · rintro (rfl | ⟨hmem, _⟩)
      · exact absurd hstoredId hc
      · exact hmem
    · intro hmem
      refine Or.inr ⟨hmem, ?_⟩
      intro hkey
      exact hc ((Prod.mk.inj hkey).1.trans hrowId)
  constructor
  · intro c hc
    rcases (hstored.mem c).1 hc with rfl | ⟨hc, _⟩
    · exact hstored.sound
    · exact hd.rows c hc
  · intro c hc
    have hmemNew : { session with
        latestCheckpointId := some row.checkpointId, updatedAt := savedAt } ∈
          (published d session row savedAt).sessions := by
      unfold published
      rw [mem_put]
      exact Or.inl rfl
    by_cases hcid : c.sessionId = sessionId
    · exact ⟨_, hmemNew, hid.trans hcid.symm⟩
    obtain ⟨owner, howner, hownerId⟩ := hd.owned c ((hothers c hcid).1 hc)
    refine ⟨owner, ?_, hownerId⟩
    unfold published
    rw [sessions_upsertCheckpoint, mem_put]
    exact Or.inr ⟨howner, by rw [hownerId]; exact hid ▸ hcid⟩
  · intro x hx c hc hcid
    rcases hsessions x hx with rfl | ⟨hx, hne⟩
    · have := hseqs c hc (hcid.trans hid)
      show c.lastDurableEventSeq ≤ session.lastDurableEventSeq
      omega
    · exact hd.below x hx c ((hothers c (hcid ▸ hne)).1 hc) hcid
  · intro x hx hnone c hc
    rcases hsessions x hx with rfl | ⟨hx, hne⟩
    · exact absurd hnone (by simp)
    · intro hcid
      exact hd.none x hx hnone c ((hothers c (hcid ▸ hne)).1 hc) hcid
  intro x hx id hlatest
  rcases hsessions x hx with rfl | ⟨hx, hne⟩
  · refine ⟨stored, (hstored.mem stored).2 (Or.inl rfl), ?_, ?_⟩
    · rw [hstored.key, ← some.inj hlatest]
      show (row.sessionId, row.checkpointId) = (session.sessionId, row.checkpointId)
      rw [hrowId, hid]
    · intro c hc hcid
      rw [hstored.seq]
      exact hseqs c hc (hcid.trans hid)
  obtain ⟨newest, hnewest, hkey, hmax⟩ := hd.latest x hx id hlatest
  have hnewestId : newest.sessionId ≠ sessionId := by
    rw [(Prod.mk.inj hkey).1]
    exact hne
  refine ⟨newest, (hothers newest hnewestId).2 hnewest, hkey, ?_⟩
  intro c hc hcid
  exact hmax c ((hothers c (hcid ▸ hne)).1 hc) hcid

theorem checkSave_payload (h : checkSave lib d sessionId checkpoint savedAt = .ok (session, row))
    (hserialize : serializeCheckpoint lib checkpoint = .ok (payload, sum)) :
    row.payload = payload.dump ∧
      lookup payload "checkpointId" "checkpoint_id" = .str row.checkpointId := by
  unfold checkSave at h
  simp only [bind_eq_ok, requireSession_eq_ok, require_eq_ok] at h
  obtain ⟨_, _, ⟨payload', sum'⟩, hserialize', h⟩ := h
  obtain ⟨rfl, rfl⟩ := Prod.mk.inj (Except.ok.inj (hserialize'.symm.trans hserialize))
  simp only [requiredString_eq_ok] at h
  obtain ⟨_, _, taskId, _, operationKey, _, modelRevision, _, grantRevision, _, n, _, id, hid,
    grant, _, session', _, _, _, _, _, _, _, storedGrant, _, _, _, _, _, _, _, heq⟩ := h
  obtain ⟨_, rfl⟩ := Prod.mk.inj (Except.ok.inj heq)
  exact ⟨rfl, hid.1⟩

/-! ## Runs -/

/-- A resume that has succeeded, with the checkpoints that were saved when it read the
session. -/
structure Resumed where
  reading : Resuming
  saved : List CheckpointRow
  payload : Dict

structure System where
  store : Store := {}
  resuming : List (Resuming × List CheckpointRow) := []
  resumed : List Resumed := []

inductive Label where
  | createSession (identity : IdentityInput) (createdAt : String)
  | setSessionState (sessionId : String) (state : SessionState) (updatedAt : String)
  | appendEvent (request : AppendRequest)
  | saveCheckpoint (sessionId : String) (checkpoint : Json) (savedAt : String)
  | readSession (request : ResumeRequest)
  /-- The second read of the resume at that place. -/
  | readCheckpoint (place : Nat)

/-- A transaction that fails is rolled back. -/
def System.commit (s : System) (result : Checked Store) : System :=
  match result with
  | .ok store => { s with store }
  | .error _ => s

def System.finishResume (lib : Library) (s : System) (reading : Resuming)
    (saved : List CheckpointRow) : System :=
  match SessionCheckpoints.readCheckpoint lib s.store reading with
  | .ok payload => { s with resumed := s.resumed ++ [{ reading, saved, payload }] }
  | .error _ => s

def System.step (lib : Library) (s : System) : Label → System
  | .createSession identity createdAt =>
    s.commit (SessionCheckpoints.createSession lib s.store identity createdAt)
  | .setSessionState sessionId state updatedAt =>
    s.commit (SessionCheckpoints.setSessionState lib s.store sessionId state updatedAt)
  | .appendEvent request => s.commit (SessionCheckpoints.appendEvent lib s.store request)
  | .saveCheckpoint sessionId checkpoint savedAt =>
    s.commit ((SessionCheckpoints.saveCheckpoint lib s.store sessionId checkpoint savedAt).map
      Prod.fst)
  | .readSession request =>
    match SessionCheckpoints.readSession lib s.store request with
    | .ok reading =>
      { s with resuming := s.resuming ++ [(reading, s.store.saved request.sessionId)] }
    | .error _ => s
  | .readCheckpoint place =>
    match s.resuming[place]? with
    | some (reading, saved) =>
      { s.finishResume lib reading saved with resuming := s.resuming.eraseIdx place }
    | none => s

/-! ## The law -/

/-- The checkpoint is bound to the identity of the session and of the caller. -/
structure Resumed.Bound (lib : Library) (r : Resumed) : Prop where
  task : lookup r.payload "taskId" "task_id" = .str r.reading.session.taskId ∧
    r.reading.session.taskId = r.reading.expected.taskId
  operation : lookup r.payload "operationKey" "operation_key" =
      .str r.reading.session.operationKey ∧
    r.reading.session.operationKey = r.reading.expected.operationKey
  modelRevision : lookup r.payload "modelConfigRevision" "model_config_revision" =
      .int r.reading.session.modelConfigRevision ∧
    r.reading.session.modelConfigRevision = r.reading.expected.modelConfigRevision
  grant : ∃ grant,
    jsonObject (r.payload.read "grantSnapshot") "checkpoint grantSnapshot" = .ok grant ∧
    lib.same (.obj grant) (.obj (Dict.dump (fieldsOf r.reading.stored.grantSnapshot))) ∧
    lib.same (.obj grant) (.obj (Dict.dump (fieldsOf r.reading.expected.grantSnapshot)))
  identity : ∃ storedJson expectedJson, r.reading.stored.asJson = .ok storedJson ∧
    r.reading.expected.asJson = .ok expectedJson ∧ lib.same (.obj storedJson) (.obj expectedJson)

/-- The checkpoint is one of those that were saved, none of them is newer, and it is not ahead
of the session. -/
structure Resumed.Newest (r : Resumed) : Prop where
  saved : ∃ c ∈ r.saved, c.sessionId = r.reading.request.sessionId ∧
    lookup r.payload "checkpointId" "checkpoint_id" = .str c.checkpointId ∧
    lastDurableEventSeq r.payload = .ok c.lastDurableEventSeq ∧
    (∀ c' ∈ r.saved, c'.lastDurableEventSeq ≤ c.lastDurableEventSeq) ∧
    c.lastDurableEventSeq ≤ r.reading.session.lastDurableEventSeq

/-- The sequence of the checkpoint a session is resumed from. -/
def Store.latestSeq (d : Store) (sessionId : String) : Option Int :=
  (d.sessions.get? sessionId).bind fun session =>
    session.latestCheckpointId.bind fun id =>
      (d.checkpoints.get? (sessionId, id)).map CheckpointRow.lastDurableEventSeq

/-- What a step must not do: a save of another body under a saved id changes nothing, and no
save moves a session back. -/
def Saves (lib : Library) (s : System) : Label → Prop
  | .saveCheckpoint sessionId checkpoint savedAt =>
    (∀ payload sum c, serializeCheckpoint lib checkpoint = .ok (payload, sum) →
      c ∈ s.store.checkpoints → c.sessionId = sessionId →
      lookup payload "checkpointId" "checkpoint_id" = .str c.checkpointId →
      c.payload ≠ payload.dump →
        (∃ error, SessionCheckpoints.saveCheckpoint lib s.store sessionId checkpoint savedAt =
          .error error) ∧
        s.step lib (.saveCheckpoint sessionId checkpoint savedAt) = s) ∧
    ∀ m, s.store.latestSeq sessionId = some m →
      ∃ n, (s.step lib (.saveCheckpoint sessionId checkpoint savedAt)).store.latestSeq sessionId =
        some n ∧ m ≤ n
  | _ => True

/-- The law of a step: every resume so far has given the newest checkpoint of its session. -/
structure Lawful (lib : Library) (s : System) (l : Label) : Prop where
  saves : Saves lib s l
  newest : ∀ r ∈ (s.step lib l).resumed, r.Newest
  bound : ∀ r ∈ (s.step lib l).resumed, r.Bound lib

/-- A save that is accepted is not older than any checkpoint of its session. -/
def InOrder (lib : Library) (s : System) : Label → Prop
  | .saveCheckpoint sessionId checkpoint savedAt =>
    ∀ session row, checkSave lib s.store sessionId checkpoint savedAt = .ok (session, row) →
      ∀ c ∈ s.store.checkpoints, c.sessionId = sessionId →
        c.lastDurableEventSeq ≤ row.lastDurableEventSeq
  | _ => True

theorem latestSeq_eq_some {m : Int} (h : d.latestSeq sessionId = some m) :
    ∃ c ∈ d.checkpoints, c.sessionId = sessionId ∧ c.lastDurableEventSeq = m := by
  obtain ⟨session, _, h⟩ := bind_eq_some_iff.1 h
  obtain ⟨id, _, h⟩ := bind_eq_some_iff.1 h
  obtain ⟨c, hc, hseq⟩ := map_eq_some_iff.1 h
  obtain ⟨hmem, hkey⟩ := mem_get?.1 hc
  exact ⟨c, hmem, (Prod.mk.inj hkey).1, hseq⟩

/-- After a save the session is resumed from the checkpoint that was saved. -/
theorem latestSeq_published (hsha : Function.Injective lib.sha256) (hd : d.Sound lib)
    (hcheck : checkSave lib d sessionId checkpoint savedAt = .ok (session, row)) :
    (published d session row savedAt).latestSeq sessionId = some row.lastDurableEventSeq := by
  obtain ⟨hsession, hrowId, hrow, _, hbound⟩ := checkSave_ok hcheck
  obtain ⟨stored, hstored⟩ := exists_stored hsha hd hrow hbound
  have hid := (sessionId_of_get? hsession).2
  have hnew : (published d session row savedAt).sessions.get? sessionId =
      some { session with latestCheckpointId := some row.checkpointId, updatedAt := savedAt } := by
    unfold published
    rw [get?_put, if_pos hid.symm]
  have hkey : stored.key = (sessionId, row.checkpointId) := by
    rw [hstored.key, ← hrowId]
    rfl
  have hget : (published d session row savedAt).checkpoints.get? (sessionId, row.checkpointId) =
      some stored :=
    mem_get?.2 ⟨(hstored.mem stored).2 (Or.inl rfl), hkey⟩
  unfold Store.latestSeq
  rw [hnew, bind_some, bind_some, hget, map_some, hstored.seq]

/-- The newest checkpoint of a session is the one it is resumed from. -/
theorem Store.Sound.latestSeq (hd : d.Sound lib)
    (hsession : d.sessions.get? sessionId = some session) (hc : c ∈ d.checkpoints)
    (hid : c.sessionId = sessionId) :
    ∃ m, d.latestSeq sessionId = some m ∧ c.lastDurableEventSeq ≤ m := by
  obtain ⟨hmem, hsessionId⟩ := sessionId_of_get? hsession
  cases hlatest : session.latestCheckpointId with
  | none => exact absurd (hid.trans hsessionId.symm) (hd.none session hmem hlatest c hc)
  | some id =>
    obtain ⟨newest, hnewest, hkey, hmax⟩ := hd.latest session hmem id hlatest
    refine ⟨newest.lastDurableEventSeq, ?_, hmax c hc (hid.trans hsessionId.symm)⟩
    have hget : d.checkpoints.get? (sessionId, id) = some newest := by
      apply mem_get?.2
      exact ⟨hnewest, by rw [hkey, hsessionId]⟩
    unfold Store.latestSeq
    rw [hsession, bind_some, hlatest, bind_some, hget, map_some]

/-! ## A resume -/

/-- Between its two reads a resume knows the newest checkpoint that was saved at the first. -/
structure Resuming.Sound (lib : Library) (d : Store) (r : Resuming) (saved : List CheckpointRow) :
    Prop where
  newest : ∃ c ∈ saved, c.key = (r.request.sessionId, r.checkpointId) ∧ c.Sound lib ∧
    (∃ c' ∈ d.checkpoints, c.SameBut c') ∧
    (∀ c' ∈ saved, c'.lastDurableEventSeq ≤ c.lastDurableEventSeq) ∧
    c.lastDurableEventSeq ≤ r.session.lastDurableEventSeq
  task : r.stored.taskId = r.session.taskId
  operation : r.stored.operationKey = r.session.operationKey
  modelRevision : r.stored.modelConfigRevision = r.session.modelConfigRevision
  identity : ∃ storedJson expectedJson, r.stored.asJson = .ok storedJson ∧
    r.expected.asJson = .ok expectedJson ∧ lib.same (.obj storedJson) (.obj expectedJson)

variable {r : Resuming} {l : Label}

theorem Resuming.Sound.keeps (h : r.Sound lib d saved) (hkeeps : Keeps d d') :
    r.Sound lib d' saved := by
  obtain ⟨c, hc, hkey, hsound, ⟨c', hc', hsame⟩, hmax, hbelow⟩ := h.newest
  obtain ⟨c'', hc'', hsame'⟩ := hkeeps c' hc'
  exact ⟨⟨c, hc, hkey, hsound, ⟨c'', hc'', hsame.trans hsame'⟩, hmax, hbelow⟩, h.task,
    h.operation, h.modelRevision, h.identity⟩

theorem readSession_ok {request : ResumeRequest} (hd : d.Sound lib)
    (h : readSession lib d request = .ok r) :
    r.request = request ∧ r.Sound lib d (d.saved request.sessionId) := by
  unfold readSession at h
  simp only [bind_eq_ok, requireSession_eq_ok, require_eq_ok] at h
  obtain ⟨expected, _, _, _, _, _, now, _, _, _, session, hsession, _, _, storedGrant, _,
    storedBuild, _, storedJson, hstored, expectedJson, hexpected, _, hsame, id, hlatest, heq⟩ := h
  cases heq
  obtain ⟨hmem, hid⟩ := sessionId_of_get? hsession
  have hlatestId : session.latestCheckpointId = some id := by
    unfold readSession.requiredLatest at hlatest
    cases hvalue : session.latestCheckpointId with
    | none => simp [hvalue] at hlatest
    | some value =>
      simp only [hvalue, Except.ok.injEq] at hlatest
      rw [hlatest]
  obtain ⟨newest, hnewest, hkey, hmax⟩ := hd.latest session hmem id hlatestId
  have hnewestId : newest.sessionId = session.sessionId := (Prod.mk.inj hkey).1
  refine ⟨rfl, ⟨newest, ?_, ?_, hd.rows newest hnewest, ⟨newest, hnewest, .refl newest⟩, ?_,
    hd.below session hmem newest hnewest hnewestId⟩, rfl, rfl, rfl,
    ⟨storedJson, expectedJson, hstored, hexpected, hsame⟩⟩
  · unfold Store.saved
    rw [mem_filter]
    exact ⟨hnewest, by simpa using hnewestId.trans hid⟩
  · rw [hkey, hid]
  · intro c hc
    unfold Store.saved at hc
    rw [mem_filter] at hc
    exact hmax c hc.1 ((of_decide_eq_true hc.2).trans hid.symm)

/-- What is read back of a stored checkpoint has the fields it was stored with. -/
theorem deserializeCheckpoint_ok {raw : Dict} (hsorted : raw.dump = raw)
    (h : deserializeCheckpoint lib raw sum = .ok payload) {camel snake : String}
    (hcamel : camel ≠ "checksum") (hsnake : snake ≠ "checksum") :
    lookup payload camel snake = lookup raw camel snake := by
  obtain ⟨⟨payload', sum'⟩, hserialize, h⟩ := bind_eq_ok.1 h
  obtain ⟨_, _, heq⟩ := bind_eq_ok.1 h
  unfold serializeCheckpoint at hserialize
  simp only [bind_eq_ok] at hserialize
  obtain ⟨fields, hfields, _, _, _, _, _, _, hpair⟩ := hserialize
  obtain ⟨hpayload, _⟩ := Prod.mk.inj (Except.ok.inj hpair)
  obtain ⟨fields', hobj, hdump⟩ := jsonObject_eq_ok hfields
  obtain rfl : raw = fields' := Json.obj.inj hobj
  have hresult : payload' = payload := Except.ok.inj heq
  rw [← hresult, ← hpayload, lookup_set_checksum _ _ hcamel hsnake, hdump, hsorted]

/-- A grant that passed its check is an object, with its keys sorted. -/
theorem jsonObject_fieldsOf {value : Json} {label : String} {fields : Dict}
    (h : jsonObject value label = .ok fields) : fields = Dict.dump (fieldsOf value) := by
  obtain ⟨fields', rfl, hdump⟩ := jsonObject_eq_ok h
  exact hdump

theorem checkpointGrantSnapshot_ok {grant : Dict} {taskId operationKey : String} {revision : Int}
    (h : checkpointGrantSnapshot lib payload taskId operationKey revision = .ok grant) :
    jsonObject (payload.read "grantSnapshot") "checkpoint grantSnapshot" = .ok grant := by
  unfold checkpointGrantSnapshot at h
  simp only [bind_eq_ok] at h
  obtain ⟨_, _, grant', hgrant, _, _, _, _, _, _, _, _, _, _, _, _, heq⟩ := h
  rw [hgrant, ← Except.ok.inj heq]

theorem readCheckpoint_ok (hr : r.Sound lib d saved) (h : readCheckpoint lib d r = .ok payload) :
    Resumed.Newest ⟨r, saved, payload⟩ ∧ Resumed.Bound lib ⟨r, saved, payload⟩ := by
  unfold readCheckpoint at h
  simp only [bind_eq_ok] at h
  obtain ⟨row, hrow, payload', hpayload, _, hvalid, _, _, _, _, _, _, _, _, _, _, heq⟩ := h
  obtain rfl : payload' = payload := Except.ok.inj heq
  obtain ⟨c, hc, hkey, hsound, ⟨c', hc', hsame⟩, hmax, hbelow⟩ := hr.newest
  have hkey' : c'.key = (r.request.sessionId, r.checkpointId) := by
    rw [hsame]
    exact hkey
  have hget := mem_get?.2 ⟨hc', hkey'⟩
  unfold requireCheckpoint at hrow
  rw [hget] at hrow
  obtain rfl : c' = row := Except.ok.inj hrow
  have hraw : c'.payload = c.payload := by rw [hsame]
  rw [hraw] at hpayload
  have hlookup : ∀ camel snake : String, camel ≠ "checksum" → snake ≠ "checksum" →
      lookup payload' camel snake = lookup c.payload camel snake :=
    fun camel snake => deserializeCheckpoint_ok hsound.sorted hpayload
  constructor
  · refine ⟨c, hc, (Prod.mk.inj hkey).1, ?_, ?_, hmax, hbelow⟩
    · rw [hlookup _ _ (by decide) (by decide)]
      exact hsound.id
    · unfold lastDurableEventSeq
      rw [hlookup _ _ (by decide) (by decide)]
      exact hsound.seq
  unfold validateCheckpointIdentity at hvalid
  simp only [bind_eq_ok, require_eq_ok, requiredString_eq_ok, requiredRevision,
    requiredInt_eq_ok] at hvalid
  obtain ⟨taskId, htask, operationKey, hoperation, modelRevision, hmodel, grantRevision, _,
    grant, hgrant, storedGrant, hstoredGrant, expectedGrant, hexpectedGrant, _, htasks, _,
    hoperations, _, hmodels, _, _, _, _, _, _, hsameGrant⟩ := hvalid
  constructor
  · constructor
    · rw [htask.1, htasks.1, hr.task]
    · rw [← hr.task, ← htasks.1, htasks.2]
  · constructor
    · rw [hoperation.1, hoperations.1, hr.operation]
    · rw [← hr.operation, ← hoperations.1, hoperations.2]
  · constructor
    · rw [hmodel.1, hmodels.1, hr.modelRevision]
    · rw [← hr.modelRevision, ← hmodels.1, hmodels.2]
  · refine ⟨grant, checkpointGrantSnapshot_ok hgrant, ?_, ?_⟩
    · rw [← jsonObject_fieldsOf hstoredGrant]
      exact hsameGrant.1
    · rw [← jsonObject_fieldsOf hexpectedGrant]
      exact hsameGrant.2
  · exact hr.identity

/-! ## What a step keeps -/

structure System.Sound (lib : Library) (s : System) : Prop where
  store : s.store.Sound lib
  resuming : ∀ p ∈ s.resuming, p.1.Sound lib s.store p.2
  resumed : ∀ r ∈ s.resumed, r.Newest ∧ r.Bound lib

variable {s : System}

theorem System.Sound.commit (hs : s.Sound lib)
    (hstore : ∀ d', result = .ok d' → d'.Sound lib ∧ Keeps s.store d') :
    (s.commit result).Sound lib := by
  cases result with
  | ok d' =>
    obtain ⟨hsound, hkeeps⟩ := hstore d' rfl
    exact ⟨hsound, fun p hp => (hs.resuming p hp).keeps hkeeps, hs.resumed⟩
  | error error => exact hs

theorem System.Sound.commit_touched (hs : s.Sound lib)
    (htouched : ∀ d', result = .ok d' → Touched s.store d') : (s.commit result).Sound lib := by
  apply hs.commit
  intro d' hok
  exact ⟨(htouched d' hok).sound hs.store, (htouched d' hok).keeps⟩

theorem keeps_published (hsha : Function.Injective lib.sha256) (hd : d.Sound lib)
    (hcheck : checkSave lib d sessionId checkpoint savedAt = .ok (session, row)) :
    Keeps d (published d session row savedAt) := by
  obtain ⟨_, _, hrow, _, hbound⟩ := checkSave_ok hcheck
  obtain ⟨stored, hstored⟩ := exists_stored hsha hd hrow hbound
  exact hstored.keeps

theorem System.Sound.finishResume (hs : s.Sound lib) {reading : Resuming}
    (hreading : reading.Sound lib s.store saved) :
    (s.finishResume lib reading saved).Sound lib := by
  unfold System.finishResume
  split
  · rename_i payload hok
    refine ⟨hs.store, hs.resuming, ?_⟩
    intro r hr
    rcases mem_append.1 hr with hold | hnew
    · exact hs.resumed r hold
    · rw [mem_singleton.1 hnew]
      exact readCheckpoint_ok hreading hok
  · exact hs

theorem System.Sound.step (hsha : Function.Injective lib.sha256) (hs : s.Sound lib)
    (horder : InOrder lib s l) : (s.step lib l).Sound lib := by
  cases l with
  | createSession identity createdAt =>
    exact hs.commit_touched fun d' hok => createSession_ok hok
  | setSessionState sessionId state updatedAt =>
    exact hs.commit_touched fun d' hok => setSessionState_ok hok
  | appendEvent request => exact hs.commit_touched fun d' hok => appendEvent_ok hok
  | saveCheckpoint sessionId checkpoint savedAt =>
    apply hs.commit
    intro d' hok
    cases hsave : saveCheckpoint lib s.store sessionId checkpoint savedAt with
    | error error =>
      rw [hsave] at hok
      exact absurd hok (by simp [Except.map])
    | ok saved =>
      rw [hsave] at hok
      obtain rfl : saved.1 = d' := Except.ok.inj hok
      obtain ⟨session, row, hcheck, heq, _⟩ := 
        saveCheckpoint_ok (hsave : _ = Except.ok (saved.1, saved.2))
      rw [heq]
      exact ⟨sound_published hsha hs.store hcheck (horder session row hcheck),
        keeps_published hsha hs.store hcheck⟩
  | readSession request =>
    simp only [System.step]
    split
    · rename_i reading hok
      obtain ⟨_, hreading⟩ := readSession_ok hs.store hok
      refine ⟨hs.store, ?_, hs.resumed⟩
      intro p hp
      rcases mem_append.1 hp with hold | hnew
      · exact hs.resuming p hold
      · rw [mem_singleton.1 hnew]
        exact hreading
    · exact hs
  | readCheckpoint place =>
    simp only [System.step]
    split
    · rename_i reading saved hplace
      have hmem : (reading, saved) ∈ s.resuming := mem_of_getElem? hplace
      have hdone := hs.finishResume (hs.resuming _ hmem)
      have hstore : (s.finishResume lib reading saved).store = s.store := by
        unfold System.finishResume
        split <;> rfl
      refine ⟨hdone.store, ?_, hdone.resumed⟩
      intro p hp
      rw [hstore]
      exact hs.resuming p (mem_of_mem_eraseIdx hp)
    · exact hs

/-! ## The law and its condition -/

theorem saves_of_inOrder (hsha : Function.Injective lib.sha256) (hs : s.Sound lib)
    (horder : InOrder lib s l) : Saves lib s l := by
  cases l with
  | saveCheckpoint sessionId checkpoint savedAt =>
    cases hcheck : checkSave lib s.store sessionId checkpoint savedAt with
    | error error =>
      have hsave : saveCheckpoint lib s.store sessionId checkpoint savedAt = .error error := by
        unfold saveCheckpoint
        rw [hcheck]
        rfl
      have hstep : s.step lib (.saveCheckpoint sessionId checkpoint savedAt) = s := by
        simp only [System.step, hsave]
        rfl
      constructor
      · intro payload sum c _ _ _ _ _
        exact ⟨⟨error, hsave⟩, hstep⟩
      · intro m hm
        rw [hstep]
        exact ⟨m, hm, Int.le_refl m⟩
    | ok pair =>
      obtain ⟨session, row⟩ := pair
      obtain ⟨_, hrowId, hrow, _, hbound⟩ := checkSave_ok hcheck
      constructor
      · intro payload sum c hserialize hc hcid hid hne
        exfalso
        obtain ⟨hpayload, hrowCheckpoint⟩ := checkSave_payload hcheck hserialize
        have hsame : c.checkpointId = row.checkpointId :=
          Json.str.inj (hid.symm.trans hrowCheckpoint)
        have hkey : c.key = row.key := by
          unfold CheckpointRow.key
          rw [hcid, hrowId, hsame]
        have hsum := hbound c (mem_get?.2 ⟨hc, hkey⟩)
        apply hne
        rw [(hs.store.rows c hc).payload_eq hsha hrow hsum, hpayload]
      · intro m hm
        have hstep : (s.step lib (.saveCheckpoint sessionId checkpoint savedAt)).store =
            published s.store session row savedAt := by
          simp only [System.step, saveCheckpoint_of_check hcheck]
          rfl
        obtain ⟨c, hc, hcid, rfl⟩ := latestSeq_eq_some hm
        refine ⟨row.lastDurableEventSeq, ?_, horder session row hcheck c hc hcid⟩
        rw [hstep]
        exact latestSeq_published hsha hs.store hcheck
  | _ => trivial

theorem inOrder_of_saves (hsha : Function.Injective lib.sha256) (hs : s.Sound lib)
    (hsaves : Saves lib s l) : InOrder lib s l := by
  cases l with
  | saveCheckpoint sessionId checkpoint savedAt =>
    intro session row hcheck c hc hcid
    have hstep : (s.step lib (.saveCheckpoint sessionId checkpoint savedAt)).store =
        published s.store session row savedAt := by
      simp only [System.step, saveCheckpoint_of_check hcheck]
      rfl
    obtain ⟨m, hm, hle⟩ := hs.store.latestSeq (checkSave_ok hcheck).1 hc hcid
    obtain ⟨n, hn, hmn⟩ := hsaves.2 m hm
    rw [hstep, latestSeq_published hsha hs.store hcheck] at hn
    have hrow := some.inj hn
    omega
  | _ => trivial

/-- Along a run, every resume gives the newest checkpoint of its session and no save moves a
session back exactly when no accepted save is older than a checkpoint of its session. -/
theorem lawful_iff (lib : Library) (trace : List Label) (hsha : Function.Injective lib.sha256) :
    Meets (System.step lib) (Lawful lib) {} trace ↔
      Meets (System.step lib) (InOrder lib) {} trace := by
  refine meets_congr ?_ ?_ (?_ : System.Sound lib {}) trace
  · intro s l hs
    constructor
    · intro h
      exact inOrder_of_saves hsha hs h.saves
    intro horder
    have hstep := hs.step hsha horder
    exact ⟨saves_of_inOrder hsha hs horder, fun r hr => (hstep.resumed r hr).1,
      fun r hr => (hstep.resumed r hr).2⟩
  · intro s l horder hs
    exact hs.step hsha horder
  refine ⟨⟨?_, ?_, ?_, ?_, ?_⟩, ?_, ?_⟩
  · exact fun c hc => absurd hc (Keyed.not_mem_empty c)
  · exact fun c hc => absurd hc (Keyed.not_mem_empty c)
  · exact fun x hx => absurd hx (Keyed.not_mem_empty x)
  · exact fun x hx => absurd hx (Keyed.not_mem_empty x)
  · exact fun x hx => absurd hx (Keyed.not_mem_empty x)
  · exact fun p hp => absurd hp List.not_mem_nil
  · exact fun r hr => absurd hr List.not_mem_nil

/-! ## A late save -/

private def noon : String := "2026-07-15T12:00:00+00:00"

private def plain : Library where
  sha256 text := text
  same a b := a = b
  fromIso text := if text = noon then some (some 1784116800000000) else none

private def grant : Json :=
  .obj [("grantId", .str "grant"), ("operationKey", .str "operation"), ("revision", .int 1),
    ("schemaVersion", .int 1), ("taskId", .str "task")]

private def owner : IdentityInput :=
  .identity ⟨"session", "task", "operation", 1, grant, .obj [("buildId", .str "build")]⟩

private def checkpointAt (id : String) (seq : Int) : Json :=
  .obj [("schemaVersion", .int 1), ("checkpointId", .str id), ("taskId", .str "task"),
    ("operationKey", .str "operation"), ("modelConfigRevision", .int 1),
    ("grantRevision", .int 1), ("grantSnapshot", grant), ("lastDurableEventSeq", .int seq),
    ("messages", .arr []), ("compactState", .obj []), ("budgetState", .obj []),
    ("createdAt", .str noon)]

/-- A session whose durable sequence is two. -/
private def durableTwo : List Label :=
  [.createSession owner noon, .appendEvent {
      sessionId := "session"
      eventSeq := 2
      eventType := "agent.brief"
      payload := .obj []
      occurredAt := noon }]

theorem lawful_after_one_save : Meets (System.step plain) (Lawful plain) {}
    (durableTwo ++ [.saveCheckpoint "session" (checkpointAt "second" 2) noon,
      .readSession ⟨"session", owner, 2, noon, none⟩, .readCheckpoint 0]) := by
  apply (lawful_iff plain _ fun _ _ h => h).2
  have hnone : (run (System.step plain) {} durableTwo).store.checkpoints.rows.length = 0 := by
    decide +kernel
  rw [meets_append]
  refine ⟨⟨trivial, trivial, trivial⟩, ?_, trivial, trivial, trivial⟩
  intro session row _ c hc
  exact absurd hc (by rw [Keyed.mem_def, List.length_eq_zero_iff.1 hnone]; exact List.not_mem_nil)

/-- A checkpoint of an older sequence arrives after a newer one: the session is resumed from
the older one afterwards. -/
theorem late_save_moves_back : ¬ Meets (System.step plain) (Lawful plain) {}
    (durableTwo ++ [.saveCheckpoint "session" (checkpointAt "second" 2) noon] ++
      [.saveCheckpoint "session" (checkpointAt "first" 1) noon]) := by
  intro hmeets
  rw [meets_append] at hmeets
  have hbefore : (run (System.step plain) {} (durableTwo ++
      [.saveCheckpoint "session" (checkpointAt "second" 2) noon])).store.latestSeq "session" =
        some 2 := by
    decide +kernel
  have hafter : ((run (System.step plain) {} (durableTwo ++
      [.saveCheckpoint "session" (checkpointAt "second" 2) noon])).step plain
        (.saveCheckpoint "session" (checkpointAt "first" 1) noon)).store.latestSeq "session" =
        some 1 := by
    decide +kernel
  obtain ⟨n, hn, hle⟩ := hmeets.2.1.saves.2 2 hbefore
  rw [hafter] at hn
  have := some.inj hn
  omega

end SessionCheckpoints
