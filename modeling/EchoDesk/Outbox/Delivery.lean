import EchoDesk.Outbox.ConsumerRecovery
import Mathlib.Data.List.Nodup

/-! # No row is lost for a live consumer

Every step of a flush hands its process what the next step needs to know, and
every transaction leaves the recovery rows of its consumer sound. Registrations
and prunes concern all consumers at once: a prune may only delete a row that
every consumer still registered has got.
-/

namespace Outbox.Delivery

open EchoDesk OrderedLog Transition List Option Bool Stage Proc

variable {π : Type}
variable {row : OutboxRow π} {rows : List (OutboxRow π)}
variable {next : Stage π} {now : Timestamp}

/-! ## What a flush knows next -/

variable {db db' : Db π} {c : ConsumerId} {cursor limit : Nat} {a : Consumer π} {p : Proc π}

theorem snapshot_of_mem (h : row ∈ db.outbox.rows) : Snapshot db row := by
  refine ⟨(db.outbox.issued row h).2, fun stored hstored hid => ?_⟩
  rw [db.outbox.sorted.eq_of_pos_eq hstored h hid]

theorem MainPage.nil (db : Db π) (cursor : Nat) : MainPage db cursor [] :=
  ⟨List.Pairwise.nil, fun _ h => absurd h not_mem_nil, fun _ _ _ _ h => absurd h not_mem_nil⟩

/-- A stage that knows no more of its rows than that they are rows. -/
structure Stage.Plain (stage : Stage π) : Prop where
  sent : stage.sent = []
  due : stage.due = []
  heads : stage.heads = []
  page : stage.page = []
  queued : stage.queued = none

variable {stage : Stage π}

theorem Stage.Plain.knows (h : stage.Plain)
    (hcur : ∀ a ∈ db.consumers, a.consumerId = c → a.cursor = cursor)
    (hrows : ∀ row ∈ stage.rows, Snapshot db row) : FlushKnows c cursor db stage where
  cursor_eq := hcur
  rows := hrows
  sent row hrow := by
    rw [h.sent] at hrow
    cases hrow
  due row hrow := by
    rw [h.due] at hrow
    cases hrow
  heads row hrow := by
    rw [h.heads] at hrow
    cases hrow
  page := by
    rw [h.page]
    exact .nil db cursor
  queued q hq := by
    rw [h.queued] at hq
    cases hq

/-- A stage with no row in hand: only the cursor matters. -/
structure Stage.Bare (stage : Stage π) : Prop extends stage.Plain where
  rows : stage.rows = []

theorem Stage.Bare.knows (h : stage.Bare)
    (hcur : ∀ a ∈ db.consumers, a.consumerId = c → a.cursor = cursor) :
    FlushKnows c cursor db stage := by
  refine h.toPlain.knows hcur fun row hrow => ?_
  rw [h.rows] at hrow
  cases hrow

/-- After a transaction, the rows that are still in hand. -/
theorem FlushKnows.move {cursor' : Nat} (hs : ConsumersSound db) (hk : FlushKnows c cursor db stage)
    (hm : Moves c db db') (hown : Own c cursor' db') (hrows : ∀ row ∈ next.rows, row ∈ stage.rows)
    (hdue : ∀ row ∈ next.due, row ∈ stage.due) (hheads : ∀ row ∈ next.heads, row ∈ stage.heads)
    (hsent : next.sent = []) (hqueued : next.queued = none)
    (hpage : MainPage db' cursor' next.page) : FlushKnows c cursor' db' next := by
  refine ⟨fun a ha hc => (hown a ha hc).1,
    fun row hrow => (hk.rows row (hrows row hrow)).stable hm.frame.outbox, fun row hrow => ?_,
    fun row hrow a' ha' hc => ?_, fun row hrow a' ha' hc => ?_, hpage, fun q hq => ?_⟩
  · rw [hsent] at hrow
    cases hrow
  · obtain ⟨a, ha, hcont, _⟩ := hm.consumers a' ha' hc
    have hac : a.consumerId = c := hcont.consumerId.symm.trans hc
    have hmem := hdue row hrow
    exact (hk.due row hmem a ha hac).stable hm.frame.outbox hcont
      (hk.rows row (stage.due_subset row hmem)).le_lastId
  · obtain ⟨a, ha, hcont, hle⟩ := hm.consumers a' ha' hc
    have hac : a.consumerId = c := hcont.consumerId.symm.trans hc
    have hhead := hk.heads row (hheads row hrow) a ha hac
    refine ⟨Nat.le_trans hhead.le_cursor hle, fun earlier he hl hscope => ?_⟩
    rw [hc] at hl
    have hl : (db.legacy a.consumerId earlier.outboxId).isSome := hac.symm ▸ hm.legacy _ hl
    have hlast := Nat.le_trans ((hs.sound a ha).legacy_le _ hl) (hs.sound a ha).cursor_le
    obtain ⟨old, hold, hid, hsc, _⟩ := hm.frame.outbox.old he hlast
    rw [← hid] at hl ⊢
    exact hhead.legacy old hold hl (hsc.trans hscope)
  · rw [hqueued] at hq
    cases hq

/-! ## What the reads of a flush find -/

/-- No legacy row of the scope comes before the row. -/
theorem no_legacy_before {earlier : OutboxRow π}
    (h : (db.outbox.rows.any fun prior => (db.legacy c prior.outboxId).isSome &&
      prior.outboxId < row.outboxId && prior.scope = row.scope) = false)
    (he : earlier ∈ db.outbox.rows) (hscope : earlier.scope = row.scope)
    (hlt : earlier.outboxId < row.outboxId) : (db.legacy c earlier.outboxId).isSome = false := by
  have := any_eq_false.1 h earlier he
  simpa [hscope, hlt] using this

/-- A row up to the cursor that no recovery row of its scope comes before. -/
theorem RecoverySound.earlierGot (h : RecoverySound db a) (hle : row.outboxId ≤ a.cursor)
    (hlane : ∀ lane, db.lanes a.consumerId row.scope = some lane → row.outboxId ≤ lane.nextOutboxId)
    (hlegacy : ∀ earlier ∈ db.outbox.rows, earlier.scope = row.scope →
      earlier.outboxId < row.outboxId → (db.legacy a.consumerId earlier.outboxId).isSome = false) :
    EarlierGot db a row := by
  intro earlier he hscope hreg hlt
  rcases h.covered earlier he hreg (by omega) with hgot | ⟨lane, hl, hnext⟩ | hleg
  · exact hgot
  · rw [hscope] at hl
    have := hlane lane hl
    omega
  · rw [hlegacy earlier he hscope hlt] at hleg
    cases hleg

theorem earlierGot_of_dueLegacy (h : RecoverySound db a) {now : Nat}
    (hrow : row ∈ dueLegacyRecoveryRows db a.consumerId now limit) : EarlierGot db a row := by
  obtain ⟨hmem, hsel⟩ := mem_of_mem_page hrow
  rw [and_eq_true] at hsel
  have hleg : (db.legacy a.consumerId row.outboxId).isSome := by
    obtain ⟨recovery, hr, _⟩ := (any_eq_true _ _).1 hsel.1
    exact isSome_iff_exists.2 ⟨recovery, hr⟩
  refine h.earlierGot (h.legacy_le _ hleg) (fun lane hl => ?_) fun earlier he hscope hlt => ?_
  · exact Nat.le_of_lt (h.legacy_lt row hmem hleg lane hl)
  · exact no_legacy_before (by simpa using hsel.2) he hscope hlt

theorem laneHead_of_dueScope (h : RecoverySound db a) {now : Nat}
    (hrow : row ∈ dueScopeRecoveryRows db a.consumerId now limit) :
    LaneHead db a row ∧ EarlierGot db a row := by
  obtain ⟨hmem, hsel⟩ := mem_of_mem_page hrow
  rw [and_eq_true, and_eq_true] at hsel
  obtain ⟨lane, hlane, hdue⟩ := (any_eq_true _ _).1 hsel.1.1
  simp only [decide_eq_true_eq] at hdue
  have hle : row.outboxId ≤ a.cursor := hdue.1 ▸ h.lane_le _ lane hlane
  refine ⟨⟨hle, fun earlier he hl hscope => ?_⟩, h.earlierGot hle (fun l hl => ?_)
    fun earlier he hscope hlt => ?_⟩
  · rw [← hdue.1]
    exact h.legacy_lt earlier he hl lane (hscope.symm ▸ hlane)
  · rw [hlane] at hl
    cases hl
    exact Nat.le_of_eq hdue.1.symm
  · exact no_legacy_before (by simpa using hsel.1.2) he hscope hlt

/-- The check before a publish of the main lane: what lies between the cursor and
the row is none of its scope, and what lies before the cursor was published. -/
theorem earlierGot_of_check (h : RecoverySound db a) (hpage : MainPage db a.cursor (row :: rows))
    (hcheck : hasEarlierScopeRecovery db a.consumerId row = false) : EarlierGot db a row := by
  intro earlier he hscope hreg hlt
  unfold hasEarlierScopeRecovery at hcheck
  rw [or_eq_false_iff, or_eq_false_iff] at hcheck
  rcases Nat.lt_or_ge a.cursor earlier.outboxId with hpast | hle
  · -- the page holds every row it has passed, and the row is its first
    have hid := hpage.only he hpast (by omega)
    omega
  rcases h.covered earlier he hreg hle with hgot | ⟨lane, hl, hnext⟩ | hleg
  · exact hgot
  · rw [hscope] at hl
    have := hcheck.1.1
    rw [hl] at this
    simp only [any_some, decide_eq_false_iff_not] at this
    omega
  · rw [no_legacy_before hcheck.2 he hscope hlt] at hleg
    cases hleg

/-- The page `flush_outbox` reads behind the cursor. -/
theorem mainPage_of_window (db : Db π) (cursor limit : Nat) :
    MainPage db cursor (window (fun row : OutboxRow π => row.outboxId) cursor limit
      db.outbox.rows) := by
  refine ⟨window_sorted db.outbox.sorted cursor limit, fun row hrow => (mem_of_mem_window hrow).2,
    fun stored hstored hlt row hrow hle => ?_⟩
  exact ⟨stored, mem_window db.outbox.sorted hstored hlt hrow hle, rfl⟩

/-! ## One step of a flush -/

/-- The tables are sound after a step of the process of `c`, and the process
knows what it needs for its next one. -/
def Delivers (c : ConsumerId) (r : Proc π × Db π) : Prop :=
  ConsumersSound r.2 ∧ DeliveryKnows c r.2 r.1

section

variable (hs : ConsumersSound db)

include hs

theorem delivers_attempt {p' : Proc π} {result : Except DeliveryError (Db π)}
    (hcur : ∀ a ∈ db.consumers, a.consumerId = c → a.cursor = p.cursor)
    (h : ∀ db', result = .ok db' → ConsumersSound db' ∧ FlushKnows c p'.cursor db' next) :
    Delivers c (p.attempt p' limit stage db result next) := by
  rcases attempt_cases p p' limit stage next db result with ⟨db', hok, heq⟩ | ⟨e, _, heq⟩
  · rw [heq]
    exact h db' hok
  rw [heq]
  refine ⟨hs, ?_⟩
  unfold Proc.catch
  -- nothing was written, and no row stays in hand
  split
  · split
    · exact Stage.Bare.knows ⟨⟨rfl, rfl, rfl, rfl, rfl⟩, rfl⟩ hcur
    · exact Stage.Bare.knows ⟨⟨rfl, rfl, rfl, rfl, rfl⟩, rfl⟩ hcur
  · trivial

/-- A transaction that leaves the recovery rows of `c` alone, before a stage
without a row in hand. -/
theorem Quiet.bare (h : Quiet c db db') (hk : FlushKnows c cursor db stage) (hnext : next.Bare) :
    ConsumersSound db' ∧ FlushKnows c cursor db' next := by
  have hown := h.own hs hk.cursor_eq
  exact ⟨hs.of_moves h.moves hown, hnext.knows fun a ha hc => (hown a ha hc).1⟩

/-- A publish changes no table, so what the flush knows stays true. -/
theorem FlushKnows.publish (hk : FlushKnows c cursor db stage) (hrow : row ∈ stage.rows)
    (error : Option String) : ConsumersSound (publishTo db c row error) ∧
      FlushKnows c cursor (publishTo db c row error) stage := by
  have hquiet := quiet_publishTo (hk.rows row hrow) c error
  exact ⟨hs.of_moves hquiet.moves (hquiet.own hs hk.cursor_eq), hk.stable hs hquiet.rely⟩

theorem settle_delivers (p : Proc π) {loop : Loop} {budget : Nat} {error : Option String}
    (hk : FlushKnows c p.cursor db (.settle loop budget row error rows))
    (hok : loop.record db c p row error now = .ok db') :
    ConsumersSound db' ∧ FlushKnows c p.cursor db' (.handle loop budget rows) := by
  have hmoves : Moves c db db' ∧ Own c p.cursor db' := by
    cases loop with
    | legacy =>
      cases error with
      | none =>
        exact own_legacyPublished hs hk hok
      | some error =>
        unfold Loop.record at hok
        have hquiet := quiet_legacyFailed hok
        exact ⟨hquiet.moves, hquiet.own hs hk.cursor_eq⟩
    | globalScope complete =>
      cases error with
      | none =>
        exact own_globalPublished hs hk.cursor_eq (hk.sent row (mem_singleton_self row)) hok
      | some error =>
        have hquiet := quiet_globalFailed (c := c) hok
        exact ⟨hquiet.moves, hquiet.own hs hk.cursor_eq⟩
    | scope =>
      cases error with
      | none =>
        exact own_scopePublished hs hk hok
      | some error =>
        exact own_scopeFailed hs hk hok
  refine ⟨hs.of_moves hmoves.1 hmoves.2, hk.move hs hmoves.1 hmoves.2
    (fun r hr => mem_cons_of_mem _ hr) ?_ ?_ rfl rfl (.nil _ _)⟩
  · intro r hr
    cases loop <;> exact hr
  intro r hr
  cases loop with
  | scope => exact mem_cons_of_mem _ hr
  | _ => exact hr

theorem discovered_delivers (p : Proc π) {d : Discovery π} {result : Discovered}
    (hk : FlushKnows c p.cursor db (.discovered d row result rows))
    (hok : recordDiscovered db c (p.leaseOwner c) p.fence row result now = .ok db') :
    ConsumersSound db' ∧ FlushKnows c p.cursor db' (.discover (d.block row result) rows) := by
  obtain ⟨db₁, h₁, h₂⟩ := ok_of_bind hok
  have hmoves : Moves c db db₁ ∧ Own c p.cursor db₁ := by
    cases result with
    | skipped =>
      rw [begin_ok h₁]
      exact ⟨.refl c db, (Quiet.refl c db).own hs hk.cursor_eq⟩
    | published =>
      exact own_globalPublished hs hk.cursor_eq (hk.sent row (mem_singleton_self row)) h₁
    | failed error =>
      have hquiet := quiet_globalFailed (c := c) h₁
      exact ⟨hquiet.moves, hquiet.own hs hk.cursor_eq⟩
  have hs₁ := hs.of_moves hmoves.1 hmoves.2
  have hk₁ : FlushKnows c p.cursor db₁ (.discover (d.block row result) rows) :=
    hk.move hs hmoves.1 hmoves.2 (fun r hr => mem_cons_of_mem _ hr) (fun r hr => hr)
      (fun r hr => hr) rfl rfl (.nil _ _)
  have hquiet : Quiet c db₁ db' := quiet_extend h₂
  exact ⟨hs₁.of_moves hquiet.moves (hquiet.own hs₁ hk₁.cursor_eq), hk₁.stable hs₁ hquiet.rely⟩

/-- A transaction of the main lane: the cursor is at the row in hand, and the rest
of the page starts right behind it. -/
theorem main_delivers (hk : FlushKnows c cursor db stage) (hrows : stage.rows = row :: rows)
    (hpage : stage.page = row :: rows) (h : Moves c db db' ∧ Own c (max cursor row.outboxId) db') :
    ConsumersSound db' ∧ FlushKnows c (max cursor row.outboxId) db' (.mainCheck rows) := by
  have hall : ∀ r ∈ row :: rows, Snapshot db r := by
    intro r hr
    exact hk.rows r (hrows.symm ▸ hr)
  refine ⟨hs.of_moves h.1 h.2, hk.move hs h.1 h.2 (fun r hr => ?_) (fun r hr => by cases hr)
    (fun r hr => by cases hr) rfl rfl ?_⟩
  · rw [hrows]
    exact mem_cons_of_mem _ hr
  · have hp := hk.page
    rw [hpage] at hp
    exact hp.tail h.1.frame.outbox hall

/-- The rows a loop fetches are what it takes them for. -/
theorem fetch_knows {loop : Loop} {budget n : Nat} {now : Timestamp}
    (hk : FlushKnows c cursor db (.fetch loop budget)) :
    FlushKnows c cursor db (.handle loop n (loop.dueRows db c now budget)) := by
  refine ⟨hk.cursor_eq, fun row hrow => ?_, (fun row hrow => by cases hrow),
    fun row hrow a ha hc => ?_, fun row hrow a ha hc => ?_, .nil db cursor,
    (fun q hq => by cases hq)⟩
  · refine snapshot_of_mem ?_
    cases loop <;> exact (mem_of_mem_page hrow).1
  · subst hc
    cases loop with
    | legacy => exact earlierGot_of_dueLegacy (hs.sound a ha) hrow
    | globalScope complete => cases hrow
    | scope => exact (laneHead_of_dueScope (hs.sound a ha) hrow).2
  · subst hc
    cases loop with
    | scope => exact (laneHead_of_dueScope (hs.sound a ha) hrow).1
    | _ => cases hrow

/-- A step of a flush. -/
theorem flush_delivers (p : Proc π) (limit : Nat) (now : Timestamp) (error : Option String)
    (hk : FlushKnows c p.cursor db stage) : Delivers c (p.flush c limit now error db stage) := by
  have hcur := hk.cursor_eq
  cases stage with
  | fetch loop budget =>
    simp only [flush]
    split
    · refine ⟨hs, ?_⟩
      cases loop with
      | scope => trivial
      | _ => exact Bare.knows ⟨⟨rfl, rfl, rfl, rfl, rfl⟩, rfl⟩ hcur
    · rename_i row rows hrows
      refine ⟨hs, ?_⟩
      have h := @fetch_knows _ _ _ _ hs _ _ (budget - (row :: rows).length) now hk
      rw [hrows] at h
      exact h
  | handle loop budget rows =>
    cases rows with
    | nil => exact ⟨hs, Bare.knows ⟨⟨rfl, rfl, rfl, rfl, rfl⟩, rfl⟩ hcur⟩
    | cons row rows =>
      obtain ⟨hs', hk'⟩ := hk.publish hs (mem_cons_self : row ∈ row :: rows) error
      refine ⟨hs', hk'.cursor_eq, hk'.rows, fun r hr a ha hc => ?_, fun r hr => hk'.due r ?_,
        fun r hr => hk'.heads r ?_, .nil _ _, (fun q hq => by cases hq)⟩
      -- the consumer got the row unless the bus raised
      · cases error with
        | some error => cases hr
        | none =>
          rw [mem_singleton.1 hr]
          exact got_of_published ha hc
      · cases loop with
        | globalScope complete => cases hr
        | _ => exact mem_cons_of_mem _ hr
      · cases loop with
        | scope => exact hr
        | _ => cases hr
  | settle loop budget row err rows =>
    exact delivers_attempt hs hcur fun db' hok => settle_delivers hs p hk hok
  | acquire =>
    have hquiet : Quiet c db (tryAcquireGlobalRecoveryLease db (p.leaseOwner c) now).1 := by
      refine .of_global (tryAcquire_writes db c _ now).frame ?_ ?_ ?_ <;>
      · unfold tryAcquireGlobalRecoveryLease
        dsimp only
        split <;> rfl
    simp only [flush]
    split
    · exact hquiet.bare hs hk ⟨⟨rfl, rfl, rfl, rfl, rfl⟩, rfl⟩
    · exact hquiet.bare hs hk ⟨⟨rfl, rfl, rfl, rfl, rfl⟩, rfl⟩
  | notHeld =>
    simp only [flush]
    split
    · exact ⟨hs, Bare.knows ⟨⟨rfl, rfl, rfl, rfl, rfl⟩, rfl⟩ hcur⟩
    · exact ⟨hs, trivial⟩
  | lost => exact ⟨hs, Bare.knows ⟨⟨rfl, rfl, rfl, rfl, rfl⟩, rfl⟩ hcur⟩
  | normalize =>
    refine delivers_attempt hs hcur fun db' hok => ?_
    have hf := (normalize_writes c hok).frame
    obtain ⟨_, rfl⟩ := normalize_ok hok
    exact (Quiet.of_global hf rfl rfl rfl).bare hs hk ⟨⟨rfl, rfl, rfl, rfl, rfl⟩, rfl⟩
  | position =>
    simp only [flush]
    split <;> exact ⟨hs, Bare.knows ⟨⟨rfl, rfl, rfl, rfl, rfl⟩, rfl⟩ hcur⟩
  | discoveryRows scan through =>
    exact ⟨hs, Plain.knows ⟨rfl, rfl, rfl, rfl, rfl⟩ hcur fun row hrow =>
      snapshot_of_mem (mem_of_mem_page hrow).1⟩
  | blockedScopes through rows =>
    exact ⟨hs, Plain.knows ⟨rfl, rfl, rfl, rfl, rfl⟩ hcur hk.rows⟩
  | discover d rows =>
    cases rows with
    | nil =>
      refine delivers_attempt hs hcur fun db' hok => ?_
      have hquiet : Quiet c db db' := by
        unfold finishDiscovery at hok
        split at hok
        · obtain ⟨db₁, h₁, h₂⟩ := ok_of_bind hok
          cases begin_ok h₁
          exact quiet_extend h₂
        · cases hok
          exact .refl c db
      exact hquiet.bare hs hk ⟨⟨rfl, rfl, rfl, rfl, rfl⟩, rfl⟩
    | cons row rows =>
      simp only [flush]
      split
      · exact ⟨hs, Plain.knows ⟨rfl, rfl, rfl, rfl, rfl⟩ hcur hk.rows⟩
      obtain ⟨hs', hk'⟩ := hk.publish hs (mem_cons_self : row ∈ row :: rows) error
      refine ⟨hs', hk'.cursor_eq, hk'.rows, fun r hr a ha hc => ?_, (fun r hr => by cases hr),
        (fun r hr => by cases hr), .nil _ _, (fun q hq => by cases hq)⟩
      cases error with
      | some error => cases hr
      | none =>
        rw [mem_singleton.1 hr]
        exact got_of_published ha hc
  | discovered d row result rows =>
    exact delivers_attempt hs hcur fun db' hok => discovered_delivers hs p hk hok
  | discoveryComplete processed =>
    simp only [flush]
    split <;> exact ⟨hs, Bare.knows ⟨⟨rfl, rfl, rfl, rfl, rfl⟩, rfl⟩ hcur⟩
  | release complete =>
    have hquiet : Quiet c db (if error.isNone then
        releaseGlobalRecoveryLease db (p.leaseOwner c) p.fence else db) := by
      split
      · refine .of_global (release_writes db c _ _).frame ?_ ?_ ?_ <;>
        · unfold releaseGlobalRecoveryLease
          dsimp only
          split <;> rfl
      · exact .refl c db
    have hnext : (mainRows : Stage π).Bare := ⟨⟨rfl, rfl, rfl, rfl, rfl⟩, rfl⟩
    obtain ⟨hs', hk'⟩ := hquiet.bare hs hk hnext
    refine ⟨hs', ?_⟩
    -- the main lane follows only a recovery that is complete
    by_cases hcomplete : complete = some true
    · simp only [flush, if_pos hcomplete]
      exact hk'
    · simp only [flush, if_neg hcomplete]
      trivial
  | mainRows =>
    have hpage := mainPage_of_window db p.cursor limit
    exact ⟨hs, hcur, fun row hrow => snapshot_of_mem (mem_of_mem_window hrow).1,
      (fun row hrow => by cases hrow), (fun row hrow => by cases hrow),
      (fun row hrow => by cases hrow), hpage, (fun q hq => by cases hq)⟩
  | mainCheck rows =>
    cases rows with
    | nil => exact ⟨hs, Bare.knows ⟨⟨rfl, rfl, rfl, rfl, rfl⟩, rfl⟩ hcur⟩
    | cons row rows =>
      simp only [flush]
      split
      -- an earlier row of the scope is still to be recovered: this one is queued behind it
      · refine ⟨hs, hcur, hk.rows, (fun r hr => by cases hr), (fun r hr => by cases hr),
          (fun r hr => by cases hr), hk.page, fun q hq a ha hc => ?_⟩
        cases hq
        rfl
      -- nothing earlier is to be recovered, so the row is published
      rename_i hcheck
      refine ⟨hs, hcur, hk.rows, (fun r hr => by cases hr), fun r hr a ha hc => ?_,
        (fun r hr => by cases hr), hk.page, (fun q hq => by cases hq)⟩
      rw [mem_singleton.1 hr]
      have hpage : MainPage db a.cursor (row :: rows) := by
        rw [hcur a ha hc]
        exact hk.page
      exact earlierGot_of_check (hs.sound a ha) hpage (hc.symm ▸ eq_false_iff.2 hcheck)
  | mainQueue row existing rows =>
    exact delivers_attempt hs hcur fun db' hok =>
      main_delivers hs hk rfl rfl (own_mainQueued hs hk hok)
  | mainPublish row rows =>
    obtain ⟨hs', hk'⟩ := hk.publish hs (mem_cons_self : row ∈ row :: rows) error
    refine ⟨hs', hk'.cursor_eq, hk'.rows, fun r hr a ha hc => ?_, fun r hr => ?_,
      (fun r hr => by cases hr), hk'.page, (fun q hq => by cases hq)⟩
    · cases error with
      | some error => cases hr
      | none =>
        rw [mem_singleton.1 hr]
        exact got_of_published ha hc
    · cases hr
  | mainSettle row err rows =>
    cases err with
    | none =>
      exact delivers_attempt hs hcur fun db' hok =>
        main_delivers hs hk rfl rfl (own_mainPublished hs hk hok)
    | some err =>
      exact delivers_attempt hs hcur fun db' hok =>
        main_delivers hs hk rfl rfl (own_mainFailed hs hk hok)

end

/-! ## Registration -/

theorem ConsumersSound.eq_of_id (hs : ConsumersSound db) {b : Consumer π} (ha : a ∈ db.consumers)
    (hb : b ∈ db.consumers) (h : a.consumerId = b.consumerId) : a = b :=
  inj_on_of_nodup_map hs.unique ha hb h

theorem consumer?_eq_none (h : db.consumer? c = none) : c ∉ db.consumerIds := by
  intro hmem
  obtain ⟨a, ha, hc⟩ := mem_map.1 hmem
  have := find?_eq_none.1 h a ha
  simp [hc] at this

/-- What a step leaves of the tables, and of what every other process relies on. -/
structure KeepsConsumers (c : ConsumerId) (db db' : Db π) : Prop where
  sound : ConsumersSound db'
  rely : ∀ c', c' ≠ c → ConsumerRely c' db db'

/-- A registration gives a new consumer no recovery rows, and nothing behind its
cursor is its concern. -/
theorem ensure_keeps {db : Db π} (hs : ConsumersSound db) {c : ConsumerId}
    {candidate : Option Nat} (hle : ∀ n, candidate = some n → n ≤ db.outbox.lastId)
    (now : Timestamp) :
    KeepsConsumers c db (ensureOutboxConsumer db c candidate now).1 ∧
      ∀ a ∈ (ensureOutboxConsumer db c candidate now).1.consumers, a.consumerId = c →
        a.cursor = (ensureOutboxConsumer db c candidate now).2 := by
  have hcand : candidate.getD 0 ≤ db.outbox.lastId := by
    cases candidate with
    | none => exact Nat.zero_le _
    | some n => exact hle n rfl
  unfold ensureOutboxConsumer
  cases hfound : db.consumer? c with
  | none =>
    have hnew : c ∉ db.consumerIds := consumer?_eq_none hfound
    have hold : ∀ a ∈ db.consumers, a.consumerId ≠ c := by
      intro a ha hc
      exact hnew (mem_map.2 ⟨a, ha, hc⟩)
    refine ⟨⟨⟨?_, ?_, ?_, ?_⟩, ?_⟩, ?_⟩
    · simp only [Db.consumerIds, map_append, map_cons, map_nil]
      refine nodup_append.2 ⟨hs.unique, pairwise_singleton _ c, ?_⟩
      intro x hx y hy hxy
      rw [mem_singleton.1 hy] at hxy
      exact hnew (hxy ▸ hx)
    · intro a ha
      rcases mem_append.1 ha with ha | ha
      · have h := hs.sound a ha
        exact ⟨h.cursor_le, h.bus_le, h.lane_le, h.legacy_le, h.legacy_lt, h.covered⟩
      -- the new consumer has no recovery rows and got nothing yet
      rw [mem_singleton.1 ha]
      refine ⟨hcand, (fun sent h => by cases h), fun scope lane hl => ?_, fun id hl => ?_,
        fun row _ hl => ?_, fun row _ hreg hcur => ?_⟩
      · exact absurd (hs.lane_owner c scope (isSome_of_eq_some hl)) hnew
      · exact absurd (hs.legacy_owner c id hl) hnew
      · exact absurd (hs.legacy_owner c _ hl) hnew
      · exact absurd hcur (Nat.not_le.2 hreg)
    · intro c' scope hl
      have := hs.lane_owner c' scope hl
      simp only [Db.consumerIds, map_append]
      exact mem_append_left _ this
    · intro c' id hl
      have := hs.legacy_owner c' id hl
      simp only [Db.consumerIds, map_append]
      exact mem_append_left _ this
    · intro c' hne
      refine ⟨.refl _, fun a ha hc => ?_, fun _ _ _ _ => rfl, fun _ _ _ _ => rfl⟩
      rcases mem_append.1 ha with ha | ha
      · exact ⟨a, ha, .refl _ a, rfl⟩
      · rw [mem_singleton.1 ha] at hc
        exact absurd hc.symm hne
    · intro a ha hc
      rcases mem_append.1 ha with ha | ha
      · exact absurd hc (hold a ha)
      · rw [mem_singleton.1 ha]
  | some row =>
    have hrow : row ∈ db.consumers := mem_of_find?_eq_some hfound
    have hid : row.consumerId = c := by simpa using find?_some hfound
    have hquiet : Quiet c db (db.heartbeat c now) :=
      ⟨(write_heartbeat db c now).frame, fun a ha hc => continues_heartbeat ha hc _, rfl, fun _ => rfl⟩
    have hown : Own c row.cursor (db.heartbeat c now) := by
      refine hquiet.own hs fun a ha hc => ?_
      rw [hs.eq_of_id ha hrow (hc.trans hid.symm)]
    exact ⟨⟨hs.of_moves hquiet.moves hown, fun c' hne => .of_frame hquiet.frame hne⟩,
      fun a ha hc => (hown a ha hc).1⟩

/-! ## Deleted consumers and rows -/

theorem lanes_deleteConsumers (db : Db π) (gone : Consumer π → Bool) (c : ConsumerId)
    (scope : Scope) : (db.deleteConsumers gone).lanes c scope =
      if db.consumers.any fun a => a.consumerId = c && gone a then none else db.lanes c scope := rfl

theorem legacy_deleteConsumers (db : Db π) (gone : Consumer π → Bool) (c : ConsumerId)
    (id : Nat) : (db.deleteConsumers gone).legacy c id =
      if db.consumers.any fun a => a.consumerId = c && gone a then none else db.legacy c id := rfl

/-- Deleting consumers leaves the others as they are. -/
theorem keeps_deleteConsumers (hs : ConsumersSound db) (gone : Consumer π → Bool) :
    ConsumersSound (db.deleteConsumers gone) ∧
      ∀ c, ConsumerRely c db (db.deleteConsumers gone) := by
  have hleft : ∀ a ∈ (db.deleteConsumers gone).consumers,
      a ∈ db.consumers ∧ (db.consumers.any fun b => b.consumerId = a.consumerId && gone b) =
        false := by
    intro a ha
    obtain ⟨ha, hkeep⟩ := mem_filter.1 ha
    refine ⟨ha, any_eq_false.2 fun b hb hgone => ?_⟩
    rw [and_eq_true, decide_eq_true_eq] at hgone
    rw [hs.eq_of_id hb ha hgone.1] at hgone
    simp [hgone.2] at hkeep
  have hrely : ∀ c, ConsumerRely c db (db.deleteConsumers gone) := by
    intro c
    refine ⟨.refl _, fun a ha _ => ⟨a, (hleft a ha).1, .refl _ a, rfl⟩, fun a ha hc scope => ?_,
      fun a ha hc id => ?_⟩
    · have hkeep := (hleft a ha).2
      rw [hc] at hkeep
      rw [lanes_deleteConsumers, hkeep]
      rfl
    · have hkeep := (hleft a ha).2
      rw [hc] at hkeep
      rw [legacy_deleteConsumers, hkeep]
      rfl
  -- a recovery row that is left belongs to a consumer that is left
  have howner : ∀ c, c ∈ db.consumerIds →
      (db.consumers.any fun b => b.consumerId = c && gone b) = false →
      c ∈ (db.deleteConsumers gone).consumerIds := by
    intro c hc hnot
    obtain ⟨a, ha, hac⟩ := mem_map.1 hc
    refine mem_map.2 ⟨a, mem_filter.2 ⟨ha, ?_⟩, hac⟩
    simpa [hac] using any_eq_false.1 hnot a ha
  refine ⟨⟨?_, fun a ha => (hrely a.consumerId).recoverySound hs.sound ha rfl, ?_, ?_⟩, hrely⟩
  · exact List.Nodup.sublist (filter_sublist.map _) hs.unique
  · intro c scope hl
    rw [lanes_deleteConsumers] at hl
    split at hl
    · cases hl
    · rename_i hdel
      exact howner c (hs.lane_owner c scope hl) (eq_false_iff.2 hdel)
  intro c id hl
  rw [legacy_deleteConsumers] at hl
  split at hl
  · cases hl
  · rename_i hdel
    exact howner c (hs.legacy_owner c id hl) (eq_false_iff.2 hdel)

theorem keeps_aclose (hs : ConsumersSound db) (c : ConsumerId) (me : LeaseOwner) :
    ConsumersSound (aclose db c me) ∧ ∀ c', ConsumerRely c' db (aclose db c me) := by
  have h := keeps_deleteConsumers hs fun a => a.consumerId = c
  refine ⟨?_, fun c' => ?_⟩
  · exact ⟨h.1.unique, fun a ha => ⟨(h.1.sound a ha).cursor_le, (h.1.sound a ha).bus_le,
      (h.1.sound a ha).lane_le, (h.1.sound a ha).legacy_le, (h.1.sound a ha).legacy_lt,
      (h.1.sound a ha).covered⟩, h.1.lane_owner, h.1.legacy_owner⟩
  · exact ⟨(h.2 c').outbox, (h.2 c').consumers, (h.2 c').lanes, (h.2 c').legacy⟩

/-- A change of the outbox alone. -/
theorem keeps_outbox (hs : ConsumersSound db) {outbox : OutboxTable π}
    (hout : Evolves db.outbox outbox) :
    ConsumersSound { db with outbox := outbox } ∧
      ∀ c, ConsumerRely c db { db with outbox := outbox } := by
  have hrely : ∀ c, ConsumerRely c db { db with outbox := outbox } := fun c =>
    ⟨hout, fun a ha _ => ⟨a, ha, .refl _ a, rfl⟩, fun _ _ _ _ => rfl, fun _ _ _ _ => rfl⟩
  exact ⟨⟨hs.unique, fun a ha => (hrely a.consumerId).recoverySound hs.sound ha rfl,
    hs.lane_owner, hs.legacy_owner⟩, hrely⟩

/-- A prune takes the consumer for gone: `heartbeat_at < active_after`. -/
def expired (settings : Settings) (now : Timestamp) (a : Consumer π) : Bool :=
  a.heartbeatAt + settings.consumerTtl < now

variable (settings : Settings)

/-- A prune deletes the expired consumers, and then published rows that no consumer left has
ahead of its cursor or in recovery. -/
theorem pruneOutbox_cases (db : Db π) (now : Timestamp) :
    pruneOutbox settings db now = db.deleteConsumers (expired settings now) ∨
      ∃ keep : OutboxRow π → Bool, pruneOutbox settings db now =
          { db.deleteConsumers (expired settings now) with outbox := db.outbox.filter keep } ∧
        ∀ row, keep row = false → row.publishedAt ≠ none ∧
          inRecovery (db.deleteConsumers (expired settings now)) row = false ∧
          ∀ a ∈ (db.deleteConsumers (expired settings now)).consumers, row.outboxId ≤ a.cursor := by
  unfold pruneOutbox
  dsimp only
  split
  · refine .inr ⟨_, rfl, fun row hkeep => ?_⟩
    rw [Bool.not_eq_false', Option.any_eq_true] at hkeep
    obtain ⟨at_, hat, hdel⟩ := hkeep
    rw [decide_eq_true_eq] at hdel
    have hpublished : row.publishedAt ≠ none := by
      rw [hat]
      exact Option.some_ne_none at_
    refine ⟨hpublished, hdel.2.2, fun a ha => ?_⟩
    refine Nat.le_trans hdel.1 (Nat.le_trans (Nat.min_le_left _ _) ?_)
    -- the safe cursor is the least one of the consumers that are left
    have hlive : a ∈ (db.deleteConsumers (expired settings now)).consumers.filter
          fun a => ¬ a.heartbeatAt + settings.consumerTtl < now := by
      refine mem_filter.2 ⟨ha, ?_⟩
      simpa [expired] using (mem_filter.1 ha).2
    exact min?_getD_le_of_mem (mem_map_of_mem hlive)
  · exact .inl rfl

theorem keeps_prune (hs : ConsumersSound db) (settings : Settings) (now : Timestamp) :
    ConsumersSound (pruneOutbox settings db now) ∧
      ∀ c, ConsumerRely c db (pruneOutbox settings db now) := by
  obtain heq | ⟨keep, heq, _⟩ := pruneOutbox_cases settings db now
  · rw [heq]
    exact keeps_deleteConsumers hs _
  obtain ⟨hs₁, hr₁⟩ := keeps_deleteConsumers hs (expired settings now)
  have h := keeps_outbox hs₁ (Evolves.filter db.outbox keep)
  rw [heq]
  refine ⟨h.1, fun c => ?_⟩
  exact ⟨.filter db.outbox keep, (hr₁ c).consumers, (hr₁ c).lanes, (hr₁ c).legacy⟩

/-- A row a prune deletes was published to every consumer that is left. -/
theorem got_of_pruned (hs : ConsumersSound db) {settings : Settings}
    (ha : a ∈ (pruneOutbox settings db now).consumers) (hrow : row ∈ db.outbox.rows)
    (hreg : a.registeredAt < row.outboxId)
    (hgone : row ∉ (pruneOutbox settings db now).outbox.rows) : a.Got row := by
  obtain heq | ⟨keep, heq, hkeep⟩ := pruneOutbox_cases settings db now
  · rw [heq] at hgone
    exact absurd hrow hgone
  rw [heq] at ha hgone
  have hs₁ := (keeps_deleteConsumers hs (expired settings now)).1
  have hdel : keep row = false := by
    by_contra h
    exact hgone (mem_filter.2 ⟨hrow, by simpa using h⟩)
  obtain ⟨-, hrec, hcur⟩ := hkeep row hdel
  have hnone := any_eq_false.1 hrec a ha
  rw [not_eq_true, or_eq_false_iff] at hnone
  rcases (hs₁.sound a ha).covered row hrow hreg (hcur a ha) with hgot | ⟨lane, hl, hnext⟩ | hleg
  · exact hgot
  · have := hnone.2
    rw [hl] at this
    simp only [any_some, decide_eq_false_iff_not] at this
    exact absurd ⟨hnext, hcur a ha⟩ this
  · rw [hnone.1] at hleg
    cases hleg

/-! ## One step, and every run -/

theorem deliveryKnows_begin {call : Call}
    (hcur : ∀ a ∈ db.consumers, a.consumerId = c → a.cursor = p.cursor) (h : p.phase = call.begin) :
    DeliveryKnows c db p := by
  rw [DeliveryKnows, h]
  cases call with
  | flush limit =>
    by_cases hpos : 0 < limit
    · rw [show (Call.flush limit).begin (π := π) = _ from if_pos hpos]
      exact Bare.knows ⟨⟨rfl, rfl, rfl, rfl, rfl⟩, rfl⟩ hcur
    · rw [show (Call.flush limit).begin (π := π) = _ from if_neg hpos]
      trivial
  | _ => trivial

theorem next_delivers (hs : ConsumersSound db) (hk : DeliveryKnows c db p) (now : Timestamp)
    (error : Option String) :
    Delivers c (p.next settings c now error db) ∧
      ∀ c', c' ≠ c → ConsumerRely c' db (p.next settings c now error db).2 := by
  unfold DeliveryKnows at hk
  unfold Proc.next
  split
  · rename_i hphase
    exact ⟨⟨hs, by rw [DeliveryKnows, hphase]; trivial⟩, fun _ _ => .refl _ db⟩
  · split <;> exact ⟨⟨hs, trivial⟩, fun _ _ => .refl _ db⟩
  · exact ⟨⟨hs, outboxReplayFloor_le _ _⟩, fun _ _ => .refl _ db⟩
  · rename_i call candidate hphase
    rw [hphase] at hk
    have hcandidate : ∀ n, candidate = some n → n ≤ db.outbox.lastId := by
      rintro n rfl
      exact hk
    obtain ⟨hkeeps, hcur⟩ := @ensure_keeps _ _ hs c _ hcandidate now
    exact ⟨⟨hkeeps.sound, deliveryKnows_begin hcur rfl⟩, hkeeps.rely⟩
  · rename_i limit stage hphase
    rw [hphase] at hk
    exact ⟨flush_delivers hs p limit now error hk,
      fun c' hne => .of_frame (flush_frame p c limit now error db stage) hne⟩
  · obtain ⟨hsound, hrely⟩ := keeps_prune hs settings now
    exact ⟨⟨hsound, trivial⟩, fun c' _ => hrely c'⟩

theorem call_delivers (hs : ConsumersSound db) (hk : DeliveryKnows c db p) (call : Call) :
    Delivers c (p.call c db call) ∧ ∀ c', c' ≠ c → ConsumerRely c' db (p.call c db call).2 := by
  unfold Proc.call
  split
  · split
    · rename_i hphase
      split
      · obtain ⟨hsound, hrely⟩ := keeps_aclose hs c (p.leaseOwner c)
        exact ⟨⟨hsound, by simp only [DeliveryKnows, hphase]⟩, fun c' _ => hrely c'⟩
      · exact ⟨⟨hs, hk⟩, fun _ _ => .refl _ db⟩
    · exact ⟨⟨hs, hk⟩, fun _ _ => .refl _ db⟩
  · split
    · exact ⟨⟨hs, trivial⟩, fun _ _ => .refl _ db⟩
    · exact ⟨⟨hs, hk⟩, fun _ _ => .refl _ db⟩

theorem delivers_abort (hs : ConsumersSound db) (hk : DeliveryKnows c db p) (bodyRan : Bool) :
    Delivers c (p.abort bodyRan, db) := by
  refine ⟨hs, ?_⟩
  unfold DeliveryKnows at hk
  unfold abort
  split
  · rename_i limit stage hphase
    rw [hphase] at hk
    split
    · exact Bare.knows ⟨⟨rfl, rfl, rfl, rfl, rfl⟩, rfl⟩ hk.cursor_eq
    · split <;> trivial
  · trivial

/-- The invariant of delivery over the whole system. -/
def DeliveryInv (s : St π) : Prop :=
  Interleaving.Invariant ConsumersSound DeliveryKnows s.db s.procs

theorem delivery_init {s : St π} (h : Init s) : DeliveryInv s := by
  obtain ⟨hdb, hprocs⟩ := h
  refine ⟨hdb.consumers, fun c => ?_⟩
  obtain ⟨incarnation, hp⟩ := hprocs c
  rw [hp]
  trivial

theorem delivery_step (s : St π) (l : Lbl π) (hi : DeliveryInv s) :
    DeliveryInv (step settings s l) := by
  have hstep : ∀ (c : ConsumerId) (r : Proc π × Db π), Delivers c r →
      (∀ c', c' ≠ c → ConsumerRely c' s.db r.2) → DeliveryInv (s.set c r) :=
    fun c r hd hrely => hi.update deliveryKnows_stable c hd.1 hd.2 hrely
  cases l with
  | append rows =>
    obtain ⟨hsound, hrely⟩ := keeps_outbox hi.store (.appendAll s.db.outbox rows)
    exact hi.environment deliveryKnows_stable hsound hrely
  | call c call =>
    obtain ⟨hd, hrely⟩ := call_delivers hi.store (hi.process c) call
    exact hstep c _ hd hrely
  | next c now error =>
    obtain ⟨hd, hrely⟩ := next_delivers settings hi.store (hi.process c) now error
    exact hstep c _ hd hrely
  | abort c bodyRan =>
    exact hstep c _ (delivers_abort hi.store (hi.process c) bodyRan) fun _ _ => .refl _ _
  | crash c => exact hstep c _ ⟨hi.store, trivial⟩ fun _ _ => .refl _ _

/-- In every reachable state each row between the registration and the cursor of a
consumer was published to it or is covered by a recovery row of it; and a row that
a prune deletes was published to every consumer the prune leaves. -/
theorem nothing_lost (settings : Settings) {s : St π} (h : Reachable Init (step settings) s) :
    ∀ a ∈ s.db.consumers, NothingLost s.db a ∧
      ∀ now, a ∈ (pruneOutbox settings s.db now).consumers →
        ∀ row ∈ s.db.outbox.rows, a.registeredAt < row.outboxId →
          row ∉ (pruneOutbox settings s.db now).outbox.rows → a.Got row := by
  intro a ha
  have hs := (reachable_invariant (fun _ => delivery_init) (delivery_step settings) h).store
  refine ⟨(hs.sound a ha).covered, fun now hleft row hrow hreg hgone => ?_⟩
  exact got_of_pruned hs hleft hrow hreg hgone

/-- A registered consumer, and a row that its main lane publishes while the bus is
down. -/
def failedMainLane : List (Lbl Unit) :=
  [.call "a" .prune] ++ List.replicate 4 (.next "a" 0 none) ++
    [.append [⟨⟨"tenant", "owner"⟩, "laptop", .domain, "note", "note.created", (), 0⟩],
      .call "a" (.flush 10)] ++ List.replicate 10 (.next "a" 0 none) ++
    [.next "a" 0 (some "down"), .next "a" 0 none]

/-- The cursor passed the row, which waits in the lane of its scope. -/
theorem nothing_lost_failed :
    (run (step ⟨0, 86400000, 86400000, 10000⟩) (.ofOutbox .empty) failedMainLane).db.consumers.map
        (fun a => (a.registeredAt, a.cursor, a.bus.length)) = [(0, 1, 0)] ∧
      ∀ a ∈ (run (step ⟨0, 86400000, 86400000, 10000⟩) (.ofOutbox .empty)
          failedMainLane).db.consumers,
        NothingLost (run (step ⟨0, 86400000, 86400000, 10000⟩) (.ofOutbox .empty)
          failedMainLane).db a :=
  ⟨by decide +kernel, fun a ha =>
    (nothing_lost _ ⟨_, failedMainLane, init_ofOutbox _, rfl⟩ a ha).1⟩

end Outbox.Delivery
