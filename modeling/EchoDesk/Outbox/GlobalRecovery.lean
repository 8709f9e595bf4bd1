import EchoDesk.Foundations.Interleaving
import EchoDesk.Outbox.Steps

/-! # The global scan covers what it has passed

The scan cursor moves over the ids up to the watermark `recovery_through`. Every
row it leaves behind unpublished is in the global lane of its scope, at or past
the head of that lane.

The argument needs no lease. A global lane is removed only when its scope has no
unpublished row up to the watermark, so an unpublished row that once had a lane
keeps one. What a discovery has read therefore stays true while others work.
-/

namespace Outbox.Delivery

open EchoDesk OrderedLog Transition List Option Function Proc

variable {π : Type}
variable {row : OutboxRow π} {rows : List (OutboxRow π)} {fence : Option Nat} {now : Timestamp}
variable {result : Discovered} {t : OutboxTable π} {db₁ : Db π} {scope : Scope}

/-- What the tables promise each other. -/
structure ScanSound (db : Db π) : Prop where
  through_le : db.globalState.recoveryThrough ≤ db.outbox.lastId
  scan_le : db.globalState.scanCursor ≤ db.globalState.recoveryThrough
  lane_le : ∀ scope lane, db.globalLanes scope = some lane →
    lane.nextOutboxId ≤ db.globalState.recoveryThrough
  /-- The head of a lane is at or before every unpublished row of its scope. -/
  lane_first : ∀ scope lane, db.globalLanes scope = some lane →
    ∀ row, Unpublished db row → row.scope = scope → lane.nextOutboxId ≤ row.outboxId
  scanned : ∀ row, Unpublished db row → row.outboxId ≤ db.globalState.scanCursor →
    (db.globalLanes row.scope).isSome

/-- What a flush relies on the other processes for. -/
structure ScanRely (db db' : Db π) : Prop where
  outbox : Evolves db.outbox db'.outbox
  through : db.globalState.recoveryThrough ≤ db'.globalState.recoveryThrough
  scan : db.globalState.scanCursor ≤ db'.globalState.scanCursor
  /-- An unpublished row keeps the lane of its scope. -/
  lanes : ∀ row, Unpublished db' row → row.outboxId ≤ db.globalState.recoveryThrough →
    (db.globalLanes row.scope).isSome → (db'.globalLanes row.scope).isSome

/-- A step kept the tables sound and did what the others rely on. -/
structure Kept (db db' : Db π) : Prop where
  sound : ScanSound db'
  rely : ScanRely db db'

variable {db db' : Db π} {c : ConsumerId} {me : LeaseOwner} {limit through : Nat} {d : Discovery π}
variable {stage : Stage π} {p : Proc π}

theorem covered_of_sound (h : ScanSound db) : ScannedCovered db := by
  intro row hu hle
  obtain ⟨lane, hlane⟩ := isSome_iff_exists.1 (h.scanned row hu hle)
  exact ⟨lane, hlane, h.lane_first _ lane hlane row hu rfl⟩

/-- An unpublished row with an old id was unpublished before. -/
theorem Unpublished.before {row' : OutboxRow π} (hu : Unpublished db' row')
    (hout : Evolves db.outbox db'.outbox) (hle : row'.outboxId ≤ db.outbox.lastId) :
    ∃ row, Unpublished db row ∧ row.outboxId = row'.outboxId ∧ row.scope = row'.scope := by
  obtain ⟨row, hrow, hid, hscope, hpub⟩ := hout.old hu.1 hle
  exact ⟨row, ⟨hrow, hpub hu.2⟩, hid, hscope⟩

theorem ScanRely.refl (db : Db π) : ScanRely db db :=
  ⟨.refl _, Nat.le_refl _, Nat.le_refl _, fun _ _ _ h => h⟩

theorem Kept.refl (h : ScanSound db) : Kept db db := ⟨h, .refl db⟩

theorem Kept.trans {db₂ : Db π} (h₀ : ScanSound db) (h₁ : Kept db db₁) (h₂ : Kept db₁ db₂) :
    Kept db db₂ where
  sound := h₂.sound
  rely := by
    refine ⟨h₁.rely.outbox.trans h₂.rely.outbox, Nat.le_trans h₁.rely.through h₂.rely.through,
      Nat.le_trans h₁.rely.scan h₂.rely.scan, fun row hu hle hlane => ?_⟩
    have hle₁ : row.outboxId ≤ db₁.outbox.lastId :=
      Nat.le_trans (Nat.le_trans hle h₀.through_le) h₁.rely.outbox.lastId
    obtain ⟨row₁, hu₁, hid, hscope⟩ := hu.before h₂.rely.outbox hle₁
    refine h₂.rely.lanes row hu (Nat.le_trans hle h₁.rely.through) ?_
    rw [← hscope] at hlane ⊢
    exact h₁.rely.lanes row₁ hu₁ (hid ▸ hle) hlane

/-! ## Changes of the tables -/

section

variable (h : ScanSound db)

include h

/-- The outbox evolved and the watermark rose; the lanes are as they were. -/
theorem ScanSound.kept_of_sameLanes (hout : Evolves db.outbox db'.outbox)
    (hlanes : db'.globalLanes = db.globalLanes)
    (hscan : db'.globalState.scanCursor = db.globalState.scanCursor)
    (hthrough : db.globalState.recoveryThrough ≤ db'.globalState.recoveryThrough)
    (hle : db'.globalState.recoveryThrough ≤ db'.outbox.lastId) : Kept db db' := by
  refine ⟨⟨hle, ?_, ?_, ?_, ?_⟩, ⟨hout, hthrough, Nat.le_of_eq hscan.symm, ?_⟩⟩
  · rw [hscan]
    exact Nat.le_trans h.scan_le hthrough
  · intro scope lane hl
    rw [hlanes] at hl
    exact Nat.le_trans (h.lane_le scope lane hl) hthrough
  · intro scope lane hl row' hu hscope
    rw [hlanes] at hl
    have hlast := Nat.le_trans (h.lane_le scope lane hl) h.through_le
    rcases Nat.lt_or_ge db.outbox.lastId row'.outboxId with hnew | hold
    · omega
    obtain ⟨row, hu, hid, hs⟩ := hu.before hout hold
    rw [← hid]
    exact h.lane_first scope lane hl row hu (hs.trans hscope)
  · intro row' hu hle'
    rw [hscan] at hle'
    have hold := Nat.le_trans (Nat.le_trans hle' h.scan_le) h.through_le
    obtain ⟨row, hu, hid, hs⟩ := hu.before hout hold
    rw [hlanes, ← hs]
    exact h.scanned row hu (hid ▸ hle')
  · intro row _ _ hl
    rwa [hlanes]

/-- A transaction outside the global scan. -/
theorem ScanSound.kept_of_same (hout : Evolves db.outbox db'.outbox)
    (hsame : SameScan db db') : Kept db db' := by
  refine h.kept_of_sameLanes hout hsame.globalLanes hsame.scanCursor
    (Nat.le_of_eq hsame.recoveryThrough.symm) ?_
  rw [hsame.recoveryThrough]
  exact Nat.le_trans h.through_le hout.lastId

theorem ScanSound.kept_of_frame (hf : LocalFrame c db db') :
    Kept db db' := h.kept_of_same hf.1.outbox hf.2

/-- New lanes: each one stands at or before the unpublished rows of its scope,
and one is missing only where its scope has none up to the watermark. -/
theorem ScanSound.kept_of_lanes (lanes : Scope → Option ScopeRecovery)
    (hle : ∀ scope lane, lanes scope = some lane →
      lane.nextOutboxId ≤ db.globalState.recoveryThrough)
    (hfirst : ∀ scope lane, lanes scope = some lane →
      ∀ row, Unpublished db row → row.scope = scope → lane.nextOutboxId ≤ row.outboxId)
    (hkeep : ∀ row, Unpublished db row → row.outboxId ≤ db.globalState.recoveryThrough →
      (db.globalLanes row.scope).isSome → (lanes row.scope).isSome) :
    Kept db { db with globalLanes := lanes } := by
  refine ⟨⟨h.through_le, h.scan_le, hle, hfirst, ?_⟩,
    ⟨.refl _, Nat.le_refl _, Nat.le_refl _, hkeep⟩⟩
  intro row hu hscan
  exact hkeep row hu (Nat.le_trans hscan h.scan_le) (h.scanned row hu hscan)

/-- The lane of one scope changes. -/
theorem ScanSound.kept_of_setGlobalLane (scope : Scope) (lane : Option ScopeRecovery)
    (hsome : ∀ l, lane = some l → l.nextOutboxId ≤ db.globalState.recoveryThrough ∧
      ∀ row, Unpublished db row → row.scope = scope → l.nextOutboxId ≤ row.outboxId)
    (hnone : lane = none → (db.globalLanes scope).isSome → ∀ row, Unpublished db row →
      row.scope = scope → db.globalState.recoveryThrough < row.outboxId) :
    Kept db (db.setGlobalLane scope lane) := by
  refine h.kept_of_lanes _ ?_ ?_ ?_
  · intro scope' l hl
    by_cases hs : scope' = scope
    · subst hs
      rw [update_self] at hl
      exact (hsome l hl).1
    · rw [update_of_ne hs] at hl
      exact h.lane_le scope' l hl
  · intro scope' l hl row hu hrow
    by_cases hs : scope' = scope
    · subst hs
      rw [update_self] at hl
      exact (hsome l hl).2 row hu hrow
    · rw [update_of_ne hs] at hl
      exact h.lane_first scope' l hl row hu hrow
  intro row hu hle hlane
  by_cases hs : row.scope = scope
  · rw [hs, update_self]
    cases lane with
    | some l => rfl
    | none =>
      rw [hs] at hlane
      have := hnone rfl hlane row hu hs
      omega
  · rwa [update_of_ne hs]

/-- The scan cursor moves to `id`: up to there every unpublished row has a lane. -/
theorem ScanSound.kept_of_advance {id : Nat}
    (hadv : advanceGlobalScanCursor db me fence id now = .ok db')
    (hid : id ≤ db.globalState.recoveryThrough)
    (hlane : ∀ row, Unpublished db row → row.outboxId ≤ id → (db.globalLanes row.scope).isSome) :
    Kept db db' := by
  cases extend_ok hadv
  refine ⟨⟨h.through_le, Nat.max_le.2 ⟨h.scan_le, hid⟩, h.lane_le, h.lane_first, ?_⟩,
    ⟨.refl _, Nat.le_refl _, Nat.le_max_left _ _, fun _ _ _ hl => hl⟩⟩
  intro row hu hle
  by_cases hpast : row.outboxId ≤ id
  · exact hlane row hu hpast
  refine h.scanned row hu ?_
  have hmax : row.outboxId ≤ max db.globalState.scanCursor id := hle
  omega

end

/-! ## The transactions of the global lanes -/

variable {low high : Nat} {s : St π} (settings : Settings)

theorem minUnpublished_none (h : minUnpublished t scope low high = none) (hrow : row ∈ t.rows)
    (hpub : row.publishedAt = none) (hscope : row.scope = scope) (hlow : low ≤ row.outboxId)
    : high < row.outboxId := by
  rw [minUnpublished, map_eq_none_iff, find?_eq_none] at h
  by_contra hle
  exact h row hrow (by simpa using ⟨hscope, hlow, Nat.le_of_not_lt hle, hpub⟩)

theorem minUnpublished_some {n : Nat} (h : minUnpublished t scope low high = some n) :
    n ≤ high ∧ ∀ row ∈ t.rows, row.publishedAt = none → row.scope = scope →
      low ≤ row.outboxId → n ≤ row.outboxId := by
  obtain ⟨first, hfirst, rfl⟩ := map_eq_some_iff.1 h
  have hsel := find?_some hfirst
  simp only [decide_eq_true_eq] at hsel
  refine ⟨hsel.2.2.1, fun row hrow hpub hscope hlow => ?_⟩
  by_cases hhigh : row.outboxId ≤ high
  · exact t.sorted.find?_le hfirst hrow (by simpa using ⟨hscope, hlow, hhigh, hpub⟩)
  · omega

/-- `_normalize_global_scope_recovery` moves heads forward and drops lanes, but
never past an unpublished row up to the watermark. -/
theorem ScanSound.kept_of_normalize (h : ScanSound db)
    (hok : normalizeGlobalScopeRecovery db me fence now = .ok db') : Kept db db' := by
  obtain ⟨expires, rfl⟩ := normalize_ok hok
  have hnext : ∀ {scope lane'}, (db.globalLanes scope).bind (normalizeLane db scope) = some lane' →
      ∃ lane, db.globalLanes scope = some lane ∧
        minUnpublished db.outbox scope lane.nextOutboxId db.globalState.recoveryThrough =
          some lane'.nextOutboxId := by
    intro scope lane' hl
    obtain ⟨lane, hlane, hnorm⟩ := bind_eq_some_iff.1 hl
    obtain ⟨next, hmin, rfl⟩ := map_eq_some_iff.1 hnorm
    refine ⟨lane, hlane, hmin.trans ?_⟩
    by_cases hne : next = lane.nextOutboxId
    · simp [hne]
    · simp [hne]
  have hlanes := h.kept_of_lanes (fun scope => (db.globalLanes scope).bind (normalizeLane db scope))
    ?_ ?_ ?_
  · exact hlanes.trans h (hlanes.sound.kept_of_same (.refl _) ⟨rfl, rfl, rfl⟩)
  · intro scope lane' hl
    obtain ⟨lane, _, hmin⟩ := hnext hl
    exact (minUnpublished_some hmin).1
  · intro scope lane' hl row hu hscope
    obtain ⟨lane, hlane, hmin⟩ := hnext hl
    exact (minUnpublished_some hmin).2 row hu.1 hu.2 hscope
      (h.lane_first scope lane hlane row hu hscope)
  intro row hu hle hlane
  obtain ⟨lane, hlane⟩ := isSome_iff_exists.1 hlane
  rw [hlane, bind_some, normalizeLane, isSome_map]
  cases hmin : minUnpublished db.outbox row.scope lane.nextOutboxId
      db.globalState.recoveryThrough with
  | some next => rfl
  | none =>
    -- the row itself is unpublished, at or past the head, and up to the watermark
    have := minUnpublished_none hmin hu.1 hu.2 rfl (h.lane_first _ lane hlane row hu rfl)
    omega

/-- The row is at or before every unpublished row of its scope, and within the
watermark: what the head of a lane is when a flush picks it up. -/
structure Head (db : Db π) (row : OutboxRow π) : Prop where
  le_through : row.outboxId ≤ db.globalState.recoveryThrough
  first : ∀ other, Unpublished db other → other.scope = row.scope → row.outboxId ≤ other.outboxId

theorem Head.stable (hs : ScanSound db) (hr : ScanRely db db') (h : Head db row) :
    Head db' row := by
  refine ⟨Nat.le_trans h.le_through hr.through, fun other hu hscope => ?_⟩
  rcases Nat.lt_or_ge db.outbox.lastId other.outboxId with hnew | hold
  · have := Nat.le_trans h.le_through hs.through_le
    omega
  · obtain ⟨old, hold, hid, hsc⟩ := hu.before hr.outbox hold
    rw [← hid]
    exact h.first old hold (hsc.trans hscope)

/-- The lane of the scope of a head is queued at it. -/
theorem ScanSound.kept_of_markFailed (h : ScanSound db) {error : String} (hhead : Head db row)
    (hok : markGlobalOutboxFailed db me fence row error now = .ok db') :
    Kept db db' ∧ (db'.globalLanes row.scope).isSome := by
  obtain ⟨expires, retryAt, rfl⟩ := markGlobalOutboxFailed_ok hok
  have hfail : Kept db (db.setFailed row.outboxId error) :=
    h.kept_of_frame (c := "") (Writes.localFrame (.single (.setFailed row.outboxId error)))
  have hhead' := hhead.stable h hfail.rely
  have hqueue : Kept (db.setFailed row.outboxId error) (queueGlobalScopeRecovery
      (db.setFailed row.outboxId error) row (some error) true now) := by
    refine hfail.sound.kept_of_setGlobalLane row.scope _ ?_ (fun hn => by cases hn)
    intro lane' hl'
    cases hl'
    rw [queueLane_next]
    cases hl : (db.setFailed row.outboxId error).globalLanes row.scope with
    | none => exact ⟨hhead'.le_through, fun other hu hscope => hhead'.first other hu hscope⟩
    | some lane =>
      refine ⟨Nat.le_trans (Nat.min_le_left _ _) hhead'.le_through, fun other hu hscope => ?_⟩
      exact Nat.le_trans (Nat.min_le_left _ _) (hhead'.first other hu hscope)
  refine ⟨(hfail.trans h hqueue).trans h ?_, ?_⟩
  · exact hqueue.sound.kept_of_same (.refl _) ⟨rfl, rfl, rfl⟩
  · simp [queueGlobalScopeRecovery, Db.setGlobalLane]

/-- A published head is dropped from its lane. -/
theorem ScanSound.kept_of_markPublished (h : ScanSound db) {advanceLane : Bool}
    (hhead : advanceLane = true → Head db row)
    (hok : markGlobalOutboxPublished db c me fence row advanceLane now = .ok db') :
    Kept db db' := by
  obtain ⟨db₁, h₁, h₂⟩ := ok_of_bind hok
  cases begin_ok h₁
  rw [extend_ok h₂]
  have hpub : Kept db (db.setPublished row.outboxId now) :=
    h.kept_of_frame (c := c) (Writes.localFrame (.single (.setPublished row.outboxId now)))
  have hlane : Kept (db.setPublished row.outboxId now)
      (if advanceLane then advanceGlobalScopeRecovery (db.setPublished row.outboxId now) row
        else db.setPublished row.outboxId now) := by
    by_cases hadv : advanceLane
    · rw [if_pos hadv]
      have hhead' := (hhead hadv).stable h hpub.rely
      -- the row itself is published now, so the others of its scope lie past it
      have hpast : ∀ other, Unpublished (db.setPublished row.outboxId now) other →
          other.scope = row.scope → row.outboxId + 1 ≤ other.outboxId := by
        intro other hu hscope
        have hle := hhead'.first other hu hscope
        have hne : other.outboxId ≠ row.outboxId := fun heq =>
          publishedAt_setPublished db row.outboxId now hu.1 heq hu.2
        omega
      unfold advanceGlobalScopeRecovery
      split
      · rename_i hmin
        refine hpub.sound.kept_of_setGlobalLane row.scope none (fun l hl => by cases hl) ?_
        intro _ _ other hu hscope
        exact minUnpublished_none hmin hu.1 hu.2 hscope (hpast other hu hscope)
      rename_i next hmin
      refine hpub.sound.kept_of_setGlobalLane row.scope _ ?_ ?_
      · intro l hl
        obtain ⟨old, _, rfl⟩ := map_eq_some_iff.1 hl
        refine ⟨(minUnpublished_some hmin).1, fun other hu hscope => ?_⟩
        exact (minUnpublished_some hmin).2 other hu.1 hu.2 hscope (hpast other hu hscope)
      · intro hn hsome
        rw [map_eq_none_iff.1 hn] at hsome
        cases hsome
    · rw [if_neg hadv]
      exact .refl hpub.sound
  refine (hpub.trans h hlane).trans h ?_
  exact hlane.sound.kept_of_same (.refl _) ⟨rfl, rfl, rfl⟩

/-! ## What a flush knows between its steps -/

/-- How far the fetched rows reach: up to the watermark, or to the last of them
when there are as many as asked for. -/
def reach (limit through : Nat) (fetched : List (OutboxRow π)) : Nat :=
  if fetched.length < limit then through
  else lastPos (fun row : OutboxRow π => row.outboxId) 0 fetched

/-- The fetched rows hold every unpublished row past the scan cursor that they
reach. -/
structure Fetched (db : Db π) (limit through : Nat) (rows : List (OutboxRow π)) : Prop where
  reach_le : reach limit through rows ≤ db.globalState.recoveryThrough
  sorted : Sorted (fun row : OutboxRow π => row.outboxId) rows
  within : ∀ row ∈ rows, row.outboxId ≤ reach limit through rows
  complete : ∀ row, Unpublished db row → db.globalState.scanCursor < row.outboxId →
    row.outboxId ≤ reach limit through rows →
    ∃ r ∈ rows, r.outboxId = row.outboxId ∧ r.scope = row.scope

/-- Within the reach of a discovery, an unpublished row is still to be handled or
its scope is blocked, and a blocked scope has its lane. -/
structure Discovering (db : Db π) (limit : Nat) (d : Discovery π) (rows : List (OutboxRow π)) :
    Prop where
  reach_le : reach limit d.through d.fetched ≤ db.globalState.recoveryThrough
  sorted : Sorted (fun row : OutboxRow π => row.outboxId) rows
  within : ∀ row ∈ rows, row.outboxId ≤ reach limit d.through d.fetched
  todo : ∀ row, Unpublished db row → row.outboxId ≤ reach limit d.through d.fetched →
    (∃ r ∈ rows, r.outboxId = row.outboxId ∧ r.scope = row.scope) ∨ d.blocked row.scope = true
  blocked : ∀ row, Unpublished db row → row.outboxId ≤ reach limit d.through d.fetched →
    d.blocked row.scope = true → (db.globalLanes row.scope).isSome

/-- The outcome of a row agrees with what blocked its scope. -/
def Discovered.Fits (d : Discovery π) (row : OutboxRow π) : Discovered → Prop
  | .skipped => d.blocked row.scope = true
  | _ => d.blocked row.scope = false

def StageKnows (db : Db π) (limit : Nat) : Stage π → Prop
  | .handle (.globalScope _) _ rows => ∀ row ∈ rows, Head db row
  | .settle (.globalScope _) _ row _ rows => ∀ r ∈ row :: rows, Head db r
  | .discoveryRows scan through =>
    scan ≤ db.globalState.scanCursor ∧ through ≤ db.globalState.recoveryThrough
  | .blockedScopes through rows => Fetched db limit through rows
  | .discover d rows => Discovering db limit d rows
  | .discovered d row result rows => Discovering db limit d (row :: rows) ∧ result.Fits d row
  | _ => True

/-- What the process knows about the tables, by its phase. -/
def Knows (db : Db π) (p : Proc π) : Prop :=
  match p.phase with
  | .register _ (some candidate) => candidate ≤ db.outbox.lastId
  | .flush limit stage => StageKnows db limit stage
  | _ => True

theorem Fetched.stable (hs : ScanSound db) (hr : ScanRely db db')
    (h : Fetched db limit through rows) : Fetched db' limit through rows := by
  refine ⟨Nat.le_trans h.reach_le hr.through, h.sorted, h.within, fun row hu hscan hle => ?_⟩
  have hold := Nat.le_trans (Nat.le_trans hle h.reach_le) hs.through_le
  obtain ⟨old, hu', hid, hscope⟩ := hu.before hr.outbox hold
  rw [← hid, ← hscope]
  rw [← hid] at hscan hle
  exact h.complete old hu' (Nat.lt_of_le_of_lt hr.scan hscan) hle

theorem Discovering.stable (hs : ScanSound db) (hr : ScanRely db db')
    (h : Discovering db limit d rows) : Discovering db' limit d rows := by
  have hbefore : ∀ row, Unpublished db' row → row.outboxId ≤ reach limit d.through d.fetched →
      ∃ old, Unpublished db old ∧ old.outboxId = row.outboxId ∧ old.scope = row.scope := by
    intro row hu hle
    exact hu.before hr.outbox (Nat.le_trans (Nat.le_trans hle h.reach_le) hs.through_le)
  refine ⟨Nat.le_trans h.reach_le hr.through, h.sorted, h.within, fun row hu hle => ?_,
    fun row hu hle hb => ?_⟩
  · obtain ⟨old, hu', hid, hscope⟩ := hbefore row hu hle
    rw [← hid, ← hscope]
    exact h.todo old hu' (hid ▸ hle)
  · obtain ⟨old, hu', hid, hscope⟩ := hbefore row hu hle
    refine hr.lanes row hu (Nat.le_trans hle h.reach_le) ?_
    rw [← hscope] at hb ⊢
    exact h.blocked old hu' (hid ▸ hle) hb

theorem StageKnows.stable (hs : ScanSound db) (hr : ScanRely db db')
    (h : StageKnows db limit stage) : StageKnows db' limit stage := by
  cases stage with
  | handle loop budget rows =>
    cases loop with
    | globalScope complete => exact fun row hrow => (h row hrow).stable hs hr
    | _ => trivial
  | settle loop budget row error rows =>
    cases loop with
    | globalScope complete => exact fun r hmem => (h r hmem).stable hs hr
    | _ => trivial
  | discoveryRows scan through =>
    exact ⟨Nat.le_trans h.1 hr.scan, Nat.le_trans h.2 hr.through⟩
  | blockedScopes through rows => exact Fetched.stable hs hr h
  | discover d rows => exact Discovering.stable hs hr h
  | discovered d row result rows => exact ⟨Discovering.stable hs hr h.1, h.2⟩
  | _ => trivial

theorem knows_stable : Interleaving.Stable (ι := ConsumerId) ScanSound
    (fun _ => Knows (π := π)) (fun _ => ScanRely) := by
  intro _ db db' p hs hr h
  unfold Knows at h ⊢
  split
  · rename_i call candidate hphase
    rw [hphase] at h
    exact Nat.le_trans h hr.outbox.lastId
  · rename_i limit stage hphase
    rw [hphase] at h
    exact StageKnows.stable hs hr h
  · trivial

/-! ## The steps of a discovery -/

theorem fetched_of_rows {scan : Nat} (limit : Nat) (hscan : scan ≤ db.globalState.scanCursor)
    (hthrough : through ≤ db.globalState.recoveryThrough) :
    Fetched db limit through (undiscoveredRows db scan through limit) := by
  have hsorted : Sorted (fun row : OutboxRow π => row.outboxId)
      (undiscoveredRows db scan through limit) := page_sorted db.outbox.sorted _ _
  have hmem : ∀ row ∈ undiscoveredRows db scan through limit, row.outboxId ≤ through := by
    intro row hrow
    have := (mem_of_mem_page hrow).2
    simp only [decide_eq_true_eq] at this
    exact this.2.2
  have hlast : lastPos (fun row : OutboxRow π => row.outboxId) 0
      (undiscoveredRows db scan through limit) ≤ through := by
    by_cases hnil : undiscoveredRows db scan through limit = []
    · simp [hnil, lastPos]
    obtain ⟨row, hrow, heq⟩ := @exists_pos_eq_lastPos _
      (fun row : OutboxRow π => row.outboxId) _ hnil 0
    rw [← heq]
    exact hmem row hrow
  refine ⟨?_, hsorted, ?_, ?_⟩
  · unfold reach
    split
    · exact hthrough
    · exact Nat.le_trans hlast hthrough
  · intro row hrow
    unfold reach
    split
    · exact hmem row hrow
    · exact hsorted.le_lastPos hrow 0
  intro row hu hpast hle
  refine ⟨row, ?_, rfl, rfl⟩
  unfold reach at hle
  split at hle
  · rename_i hshort
    refine mem_page_of_short hshort hu.1 ?_
    simpa using ⟨hu.2, Nat.lt_of_le_of_lt hscan hpast, hle⟩
  -- a full page reaches up to its last row
  by_cases hnil : undiscoveredRows db scan through limit = []
  · simp [hnil, lastPos] at hle
    omega
  obtain ⟨last, hmemlast, heq⟩ := @exists_pos_eq_lastPos _
    (fun row : OutboxRow π => row.outboxId) _ hnil 0
  rw [← heq] at hle
  refine mem_page db.outbox.sorted hu.1 ?_ hmemlast hle
  simpa using ⟨hu.2, Nat.lt_of_le_of_lt hscan hpast, Nat.le_trans hle (hmem last hmemlast)⟩

/-- The scopes that have a lane now are the blocked ones. -/
theorem discovering_of_fetched (hs : ScanSound db) (h : Fetched db limit through rows) :
    Discovering db limit ⟨through, rows, fun scope => (db.globalLanes scope).isSome⟩ rows := by
  refine ⟨h.reach_le, h.sorted, h.within, fun row hu hle => ?_, fun row _ _ hb => hb⟩
  rcases Nat.lt_or_ge db.globalState.scanCursor row.outboxId with hpast | hscanned
  · exact .inl (h.complete row hu hpast hle)
  · exact .inr (hs.scanned row hu hscanned)

theorem Discovering.tail (h : Discovering db limit d (row :: rows))
    (hrow : ∀ other, Unpublished db other → other.outboxId = row.outboxId →
      other.scope = row.scope → d.blocked other.scope = true) : Discovering db limit d rows := by
  refine ⟨h.reach_le, h.sorted.of_cons, fun r hr => h.within r (mem_cons_of_mem _ hr),
    fun other hu hle => ?_, h.blocked⟩
  rcases h.todo other hu hle with ⟨r, hr, hid, hscope⟩ | hb
  · rcases mem_cons.1 hr with rfl | hr
    · exact .inr (hrow other hu hid.symm hscope.symm)
    · exact .inl ⟨r, hr, hid, hscope⟩
  · exact .inr hb

/-- The row in hand is at or before every unpublished row of a scope that is not
blocked. -/
theorem Discovering.head (h : Discovering db limit d (row :: rows))
    (hb : d.blocked row.scope = false) : Head db row := by
  have hreach := h.within row mem_cons_self
  refine ⟨Nat.le_trans hreach h.reach_le, fun other hu hscope => ?_⟩
  by_contra hlt
  have hlt : other.outboxId < row.outboxId := Nat.lt_of_not_le hlt
  rcases h.todo other hu (Nat.le_trans (Nat.le_of_lt hlt) hreach) with ⟨r, hr, hid, _⟩ | hblocked
  · rcases mem_cons.1 hr with rfl | hr
    · omega
    · have : row.outboxId < r.outboxId := rel_of_pairwise_cons h.sorted hr
      omega
  · rw [hscope, hb] at hblocked
    cases hblocked

/-- The first part of the transaction of a discovered row. -/
theorem Discovering.mark (hs : ScanSound db) (h : Discovering db limit d (row :: rows))
    (hfits : result.Fits d row) (hok : markDiscovered db c me fence row now result = .ok db₁) :
    Kept db db₁ ∧ Discovering db₁ limit (d.block row result) rows := by
  cases result with
  | skipped =>
    rw [begin_ok hok]
    exact ⟨.refl hs, h.tail fun other _ _ hscope => hscope ▸ hfits⟩
  | published =>
    have hkept : Kept db db₁ := hs.kept_of_markPublished (fun hf => by cases hf) hok
    refine ⟨hkept, (h.stable hs hkept.rely).tail fun other hu hid _ => ?_⟩
    -- the row is published now
    obtain ⟨db₂, h₂, h₃⟩ := ok_of_bind hok
    cases begin_ok h₂
    cases extend_ok h₃
    exact absurd hu.2 (publishedAt_setPublished db row.outboxId now hu.1 hid)
  | failed error =>
    obtain ⟨hkept, hlane⟩ := hs.kept_of_markFailed (h.head hfits) hok
    have h₁ := h.stable hs hkept.rely
    have hblock : Discovering db₁ limit (d.block row (.failed error)) (row :: rows) := by
      refine ⟨h₁.reach_le, h₁.sorted, h₁.within, fun other hu hle => ?_, fun other hu hle hb => ?_⟩
      · rcases h₁.todo other hu hle with hr | hb
        · exact .inl hr
        refine .inr ?_
        by_cases hscope : other.scope = row.scope
        · rw [hscope]
          exact update_self ..
        · exact (update_of_ne hscope _ _).trans hb
      · by_cases hscope : other.scope = row.scope
        · rw [hscope]
          exact hlane
        · exact h₁.blocked other hu hle ((update_of_ne hscope _ _).symm.trans hb)
    refine ⟨hkept, hblock.tail fun other _ _ hscope => ?_⟩
    rw [hscope]
    exact update_self ..

/-- Up to the row in hand, every unpublished row has its lane. -/
theorem Discovering.record (hs : ScanSound db) (h : Discovering db limit d (row :: rows))
    (hfits : result.Fits d row) (hok : recordDiscovered db c me fence row result now = .ok db') :
    Kept db db' ∧ Discovering db' limit (d.block row result) rows := by
  obtain ⟨db₁, h₁, h₂⟩ := ok_of_bind hok
  obtain ⟨hkept, hdisc⟩ := h.mark hs hfits h₁
  have hreach : row.outboxId ≤
      reach limit (d.block row result).through (d.block row result).fetched := by
    have := h.within row mem_cons_self
    cases result <;> exact this
  have hadv : Kept db₁ db' := by
    refine hkept.sound.kept_of_advance h₂ (Nat.le_trans hreach hdisc.reach_le) ?_
    intro other hu hle
    have hle' := Nat.le_trans hle hreach
    refine hdisc.blocked other hu hle' ?_
    rcases hdisc.todo other hu hle' with ⟨r, hr, hid, _⟩ | hb
    · have : row.outboxId < r.outboxId := rel_of_pairwise_cons h.sorted hr
      omega
    · exact hb
  exact ⟨hkept.trans hs hadv, hdisc.stable hkept.sound hadv.rely⟩

/-- Behind the last row, a page that was not full is the whole range. -/
theorem Discovering.finish (hs : ScanSound db) (h : Discovering db limit d [])
    (hok : finishDiscovery db me fence d limit now = .ok db') : Kept db db' := by
  unfold finishDiscovery at hok
  split at hok
  · rename_i hshort
    obtain ⟨db₁, h₁, h₂⟩ := ok_of_bind hok
    cases begin_ok h₁
    have hreach : reach limit d.through d.fetched = d.through := if_pos hshort
    refine hs.kept_of_advance h₂ (hreach ▸ h.reach_le) fun row hu hle => ?_
    rw [← hreach] at hle
    refine h.blocked row hu hle ?_
    rcases h.todo row hu hle with ⟨r, hr, _⟩ | hb
    · cases hr
    · exact hb
  · cases hok
    exact .refl hs

/-! ## One step, and every run -/

theorem attempt_keeps (hs : ScanSound db) {p' : Proc π} {next : Stage π}
    {result : Except DeliveryError (Db π)}
    (h : ∀ db', result = .ok db' → Kept db db' ∧ StageKnows db' limit next) :
    Kept db (p.attempt p' limit stage db result next).2 ∧
      Knows (p.attempt p' limit stage db result next).2
        (p.attempt p' limit stage db result next).1 := by
  rcases attempt_cases p p' limit stage next db result with ⟨db', hok, heq⟩ | ⟨e, _, heq⟩
  · rw [heq]
    exact h db' hok
  rw [heq]
  refine ⟨.refl hs, ?_⟩
  unfold Proc.catch
  split
  · split <;> trivial
  · trivial

/-- The rows of a global lane that is due are heads. -/
theorem head_of_due (hs : ScanSound db) {now : Nat}
    (h : row ∈ globalScopeRecoveryRows db now limit) : Head db row := by
  have hsel := (mem_of_mem_page h).2
  obtain ⟨lane, hlane, hdue⟩ := (any_eq_true _ _).1 hsel
  simp only [decide_eq_true_eq] at hdue
  refine ⟨?_, fun other hu hscope => ?_⟩
  · rw [← hdue.1]
    exact hs.lane_le _ lane hlane
  · rw [← hdue.1]
    exact hs.lane_first _ lane hlane other hu hscope

/-- A step of a flush keeps the scan sound, and the process knows what it needs
for its next one. -/
theorem flush_keeps (hs : ScanSound db) (p : Proc π) (c : ConsumerId) (limit : Nat)
    (now : Timestamp) (error : Option String) (hk : StageKnows db limit stage) :
    Kept db (p.flush c limit now error db stage).2 ∧
      Knows (p.flush c limit now error db stage).2 (p.flush c limit now error db stage).1 := by
  -- a publish writes nothing, so what the flush knows about the tables stays true
  have hpublish : ∀ row err, Kept db (publishTo db c row err) := fun row err =>
    hs.kept_of_frame (.publishTo db c row err)
  cases stage with
  | fetch loop budget =>
    simp only [flush]
    split
    · refine ⟨.refl hs, ?_⟩
      cases loop <;> trivial
    rename_i row rows hrows
    refine ⟨.refl hs, ?_⟩
    cases loop with
    | globalScope complete =>
      intro r hr
      rw [← hrows] at hr
      exact head_of_due hs hr
    | _ => trivial
  | handle loop budget rows =>
    cases rows with
    | nil => exact ⟨.refl hs, trivial⟩
    | cons row rows =>
      refine ⟨hpublish row error, ?_⟩
      cases loop with
      | globalScope complete => exact fun r hr => (hk r hr).stable hs (hpublish row error).rely
      | _ => trivial
  | settle loop budget row err rows =>
    refine attempt_keeps hs fun db' hok => ?_
    -- the two other loops leave the scan's tables alone
    cases loop with
    | globalScope complete =>
      have hhead : Head db row := hk row mem_cons_self
      have hkept : Kept db db' := by
        cases err with
        | none =>
          exact hs.kept_of_markPublished (fun _ => hhead) hok
        | some err =>
          exact (hs.kept_of_markFailed hhead hok).1
      exact ⟨hkept, fun r hr => (hk r (mem_cons_of_mem _ hr)).stable hs hkept.rely⟩
    | legacy | scope =>
      refine ⟨hs.kept_of_frame (c := c) ?_, trivial⟩
      cases err <;> unfold Loop.record at hok
      · exact (markOutboxPublished_writes hok).localFrame
      · exact (markOutboxFailed_writes hok).localFrame
  | acquire =>
    refine ⟨hs.kept_of_frame (tryAcquire_writes db c _ now).localFrame, ?_⟩
    simp only [flush, Knows, goto]
    split <;> trivial
  | notHeld =>
    refine ⟨.refl hs, ?_⟩
    simp only [flush]
    split <;> trivial
  | lost => exact ⟨.refl hs, trivial⟩
  | normalize =>
    exact attempt_keeps hs fun db' hok => ⟨hs.kept_of_normalize hok, trivial⟩
  | position =>
    simp only [flush]
    split
    · exact ⟨.refl hs, trivial⟩
    · exact ⟨.refl hs, Nat.le_refl _, Nat.le_refl _⟩
  | discoveryRows scan through => exact ⟨.refl hs, fetched_of_rows limit hk.1 hk.2⟩
  | blockedScopes through rows => exact ⟨.refl hs, discovering_of_fetched hs hk⟩
  | discover d rows =>
    cases rows with
    | nil => exact attempt_keeps hs fun db' hok => ⟨Discovering.finish hs hk hok, trivial⟩
    | cons row rows =>
      simp only [flush]
      split
      · rename_i hb
        exact ⟨.refl hs, hk, hb⟩
      · rename_i hb
        refine ⟨hpublish row error, Discovering.stable hs (hpublish row error).rely hk, ?_⟩
        cases error <;> exact Bool.eq_false_iff.2 hb
  | discovered d row result rows =>
    exact attempt_keeps hs fun db' hok => hk.1.record hs hk.2 hok
  | discoveryComplete processed =>
    simp only [flush]
    split <;> exact ⟨.refl hs, trivial⟩
  | release complete =>
    simp only [flush]
    refine ⟨?_, ?_⟩
    · split
      · exact hs.kept_of_frame (release_writes db c _ _).localFrame
      · exact .refl hs
    · split <;> split <;> trivial
  | mainRows => exact ⟨.refl hs, trivial⟩
  | mainCheck rows =>
    cases rows with
    | nil => exact ⟨.refl hs, trivial⟩
    | cons row rows =>
      simp only [flush]
      split <;> exact ⟨.refl hs, trivial⟩
  | mainQueue row existing rows =>
    exact attempt_keeps hs fun db' hok => ⟨hs.kept_of_frame (queueBehind_writes hok).localFrame, trivial⟩
  | mainPublish row rows => exact ⟨hpublish row error, trivial⟩
  | mainSettle row err rows =>
    cases err with
    | none =>
      exact attempt_keeps hs fun db' hok =>
        ⟨hs.kept_of_frame (markOutboxPublished_writes hok).localFrame, trivial⟩
    | some err =>
      exact attempt_keeps hs fun db' hok =>
        ⟨hs.kept_of_frame (markOutboxFailed_writes hok).localFrame, trivial⟩

theorem knows_begin (db : Db π) {call : Call} (h : p.phase = call.begin) :
    Knows db p := by
  rw [Knows, h]
  cases call with
  | flush limit =>
    by_cases hpos : 0 < limit
    · rw [show (Call.flush limit).begin (π := π) = _ from if_pos hpos]
      trivial
    · rw [show (Call.flush limit).begin (π := π) = _ from if_neg hpos]
      trivial
  | _ => trivial

/-- A registration raises the watermark to the cursor it registers, which is the
id of a row or 0. -/
theorem ScanSound.kept_of_ensure (h : ScanSound db) (c : ConsumerId) {candidate : Option Nat}
    (hc : ∀ n, candidate = some n → n ≤ db.outbox.lastId) (now : Timestamp) :
    Kept db (ensureOutboxConsumer db c candidate now).1 := by
  have hle : candidate.getD 0 ≤ db.outbox.lastId := by
    cases candidate with
    | none => exact Nat.zero_le _
    | some n => exact hc n rfl
  unfold ensureOutboxConsumer
  split
  · exact h.kept_of_sameLanes (.refl _) rfl rfl (Nat.le_max_left _ _)
      (Nat.max_le.2 ⟨h.through_le, hle⟩)
  · exact h.kept_of_frame (Writes.localFrame (.single (write_heartbeat db c now)))

theorem ScanSound.kept_of_prune (h : ScanSound db) (settings : Settings) (now : Timestamp) :
    Kept db (pruneOutbox settings db now) := by
  unfold pruneOutbox
  dsimp only
  split
  · exact h.kept_of_same (.filter _ _) ⟨rfl, rfl, rfl⟩
  · exact h.kept_of_same (.refl _) ⟨rfl, rfl, rfl⟩

theorem ScanSound.kept_of_aclose (h : ScanSound db) (c : ConsumerId) (me : LeaseOwner) :
    Kept db (aclose db c me) := by
  refine h.kept_of_same (.refl _) ⟨?_, ?_, rfl⟩
  · show (if _ then _ else _ : GlobalRecoveryState).scanCursor = _
    split <;> rfl
  · show (if _ then _ else _ : GlobalRecoveryState).recoveryThrough = _
    split <;> rfl

theorem next_keeps (hs : ScanSound db) (hk : Knows db p) (c : ConsumerId) (now : Timestamp)
    (error : Option String) :
    Kept db (p.next settings c now error db).2 ∧
      Knows (p.next settings c now error db).2 (p.next settings c now error db).1 := by
  unfold Knows at hk
  unfold Proc.next
  split
  · rename_i hphase
    exact ⟨.refl hs, by rw [Knows, hphase]; trivial⟩
  · split <;> exact ⟨.refl hs, trivial⟩
  · exact ⟨.refl hs, outboxReplayFloor_le _ _⟩
  · rename_i call candidate hphase
    rw [hphase] at hk
    refine ⟨hs.kept_of_ensure c ?_ now, knows_begin _ rfl⟩
    rintro n rfl
    exact hk
  · rename_i limit stage hphase
    rw [hphase] at hk
    exact flush_keeps hs p c limit now error hk
  · exact ⟨hs.kept_of_prune settings now, trivial⟩

theorem call_keeps (hs : ScanSound db) (hk : Knows db p) (c : ConsumerId) (call : Call) :
    Kept db (p.call c db call).2 ∧ Knows (p.call c db call).2 (p.call c db call).1 := by
  unfold Proc.call
  split
  · split
    · rename_i hphase
      split
      · exact ⟨hs.kept_of_aclose c _, by simp only [Knows, hphase]⟩
      · exact ⟨.refl hs, hk⟩
    · exact ⟨.refl hs, hk⟩
  · split
    · exact ⟨.refl hs, trivial⟩
    · exact ⟨.refl hs, hk⟩

theorem knows_abort (db : Db π) (p : Proc π) (bodyRan : Bool) : Knows db (p.abort bodyRan) := by
  unfold abort
  split
  · split
    · trivial
    · split <;> trivial
  · trivial

/-- The invariant of the global scan over the whole system. -/
def ScanInv (s : St π) : Prop :=
  Interleaving.Invariant ScanSound (fun _ : ConsumerId => Knows) s.db s.procs

theorem scan_init (h : Init s) : ScanInv s := by
  obtain ⟨hdb, hprocs⟩ := h
  refine ⟨⟨?_, ?_, ?_, ?_, ?_⟩, fun c => ?_⟩
  · rw [hdb.globalState]
    refine maxPos_le.2 fun a ha => ?_
    exact (hdb.consumers.sound a ha).cursor_le
  · rw [hdb.globalState]
    exact Nat.zero_le _
  · intro scope lane hl
    rw [hdb.globalLanes] at hl
    cases hl
  · intro scope lane hl
    rw [hdb.globalLanes] at hl
    cases hl
  · intro row hu hle
    rw [hdb.globalState] at hle
    have := (s.db.outbox.issued row hu.1).1
    exact absurd hle (Nat.not_le.2 this)
  · obtain ⟨incarnation, hp⟩ := hprocs c
    rw [hp]
    trivial

theorem scan_step (s : St π) (l : Lbl π) (hi : ScanInv s) : ScanInv (step settings s l) := by
  -- the other processes rely on the same things, whoever takes the step
  have hstep : ∀ (c : ConsumerId) (r : Proc π × Db π), Kept s.db r.2 → Knows r.2 r.1 →
      ScanInv (s.set c r) := fun c r hkept hknows =>
    hi.update knows_stable c hkept.sound hknows fun _ _ => hkept.rely
  cases l with
  | append rows =>
    have hkept : Kept s.db { s.db with outbox := s.db.outbox.appendAll rows } :=
      hi.store.kept_of_same (.appendAll _ _) ⟨rfl, rfl, rfl⟩
    exact hi.environment knows_stable hkept.sound fun _ => hkept.rely
  | call c call =>
    obtain ⟨hkept, hknows⟩ := call_keeps hi.store (hi.process c) c call
    exact hstep c _ hkept hknows
  | next c now error =>
    obtain ⟨hkept, hknows⟩ := next_keeps settings hi.store (hi.process c) c now error
    exact hstep c _ hkept hknows
  | abort c bodyRan => exact hstep c _ (.refl hi.store) (knows_abort _ _ _)
  | crash c => exact hstep c _ (.refl hi.store) trivial

/-- In every reachable state the global lanes cover what the scan has passed. -/
theorem scanned_covered (settings : Settings) {s : St π}
    (h : Reachable Init (step settings) s) : ScannedCovered s.db :=
  covered_of_sound (reachable_invariant (fun _ => scan_init) (scan_step settings) h).store

/-! ### A run -/

/-- New consumers start behind the last row, and nothing expires within a day. -/
def noReplay : Settings := ⟨0, 86400000, 86400000, 10000⟩

def noteRow : NewOutboxRow Unit :=
  ⟨⟨"tenant", "owner"⟩, "laptop", .domain, "note", "note.created", (), 0⟩

/-- A consumer registers behind a first row and scans it; the bus is down. -/
def failedDiscovery : List (Lbl Unit) :=
  [.append [noteRow], .call "a" (.flush 10)] ++ List.replicate 9 (.next "a" 0 none) ++
    [.next "a" 0 (some "down"), .next "a" 0 none]

/-- The row stays unpublished behind the scan cursor, and its scope has a lane. -/
theorem scanned_covered_failed :
    (run (step noReplay) (.ofOutbox .empty) failedDiscovery).db.outbox.rows.map
        (fun row => (row.outboxId, row.publishedAt)) = [(1, none)] ∧
      (run (step noReplay) (.ofOutbox .empty) failedDiscovery).db.globalState.scanCursor = 1 ∧
      ScannedCovered (run (step noReplay) (.ofOutbox .empty) failedDiscovery).db :=
  ⟨by decide +kernel, by decide +kernel,
    scanned_covered noReplay ⟨_, failedDiscovery, init_ofOutbox _, rfl⟩⟩

end Outbox.Delivery
