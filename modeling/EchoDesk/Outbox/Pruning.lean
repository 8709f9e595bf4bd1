import EchoDesk.Outbox.Delivery

/-! # Pruning is safe

A prune deletes published rows that every live consumer has behind its cursor and in no lane.
The lanes name rows by id alone, with no foreign key to the outbox, so that their heads are
there is an invariant of its own. A flush has rows in hand that it may queue later: those of
the main lane are past the cursor of its consumer, and those of the lanes are at the heads, so
that a prune in between leaves them in the table as long as the consumer is registered.
-/

namespace Outbox.Delivery

open EchoDesk OrderedLog Transition List Option Function Bool

variable {π : Type}
variable {db db' : Db π} {c : ConsumerId} {row : OutboxRow π} {now : Timestamp} {stage : Stage π}
variable {error : Option String} {scope : Scope} {rows : List (OutboxRow π)} {id : Nat}
  {next : Stage π} {db₀ db₁ : Db π}

/-! ## What a prune may delete -/

/-- A prune at this time does not take the consumer for expired. -/
def Live (settings : Settings) (now : Timestamp) (a : Consumer π) : Prop :=
  now ≤ a.heartbeatAt + settings.consumerTtl

/-- The consumer still has to deliver the row: it lies in the range of its lane, or it is
waiting by itself since before the lanes. -/
def InRange (db : Db π) (a : Consumer π) (row : OutboxRow π) : Prop :=
  (∃ lane, db.lanes a.consumerId row.scope = some lane ∧
    lane.nextOutboxId ≤ row.outboxId ∧ row.outboxId ≤ a.cursor) ∨
  (db.legacy a.consumerId row.outboxId).isSome

/-- Every row a prune deletes was published, and every live consumer is past it. -/
def PrunesSafely (settings : Settings) (db : Db π) (now : Timestamp) : Prop :=
  ∀ row ∈ db.outbox.rows, row ∉ (pruneOutbox settings db now).outbox.rows → row.publishedAt ≠ none ∧
      ∀ a ∈ db.consumers, Live settings now a → row.outboxId ≤ a.cursor ∧ ¬ InRange db a row

/-! ## The places of the rows -/

/-- The table has the row that a lane of the scope names by its id. -/
def Stored (db : Db π) (id : Nat) (scope : Scope) : Prop := (id, scope) ∈ db.places

/-- Every lane names a row of its scope. -/
def HeadsStored (db : Db π) : Prop :=
  ∀ c scope lane, db.lanes c scope = some lane → Stored db lane.nextOutboxId scope

theorem stored_iff :
    Stored db id scope ↔ ∃ row ∈ db.outbox.rows, row.outboxId = id ∧ row.scope = scope := by
  simp [Stored, Db.places]

theorem stored_of_mem (h : row ∈ db.outbox.rows) :
    Stored db row.outboxId row.scope := stored_iff.2 ⟨row, h, rfl, rfl⟩

theorem Stored.congr (h : db'.places = db.places) (hs : Stored db id scope) :
    Stored db' id scope := by
  rw [Stored, h]
  exact hs

theorem HeadsStored.congr (h : HeadsStored db) (hplaces : db'.places = db.places)
    (hlanes : db'.lanes = db.lanes) : HeadsStored db' := by
  intro c scope lane hl
  rw [hlanes] at hl
  exact (h c scope lane hl).congr hplaces

variable {existing : Option ScopeRecovery} {attempted : Bool} {cursor : Nat} {me : LeaseOwner}
variable {p : Proc π}

/-- The transaction of a discovered row leaves the consumers' lanes alone. -/
theorem recordDiscovered_lanes {fence : Option Nat} {result : Discovered}
    (h : recordDiscovered db c me fence row result now = .ok db') : db'.lanes = db.lanes := by
  obtain ⟨db₁, h₁, h₂⟩ := ok_of_bind h
  rw [extend_ok h₂]
  cases result with
  | skipped =>
    rw [begin_ok h₁]
  | published =>
    exact (markGlobalOutboxPublished_local h₁).2.1
  | failed error =>
    obtain ⟨_, _, rfl⟩ := markGlobalOutboxFailed_ok h₁
    rfl

/-! ## What a flush knows of the lanes -/

/-- While its consumer is registered: the page of the main lane is in the table, and every
head in hand is where the lane of its scope stands. -/
structure LanesKnown (c : ConsumerId) (db : Db π) (stage : Stage π) : Prop where
  page : c ∈ db.consumerIds → ∀ row ∈ stage.page, Stored db row.outboxId row.scope
  heads : c ∈ db.consumerIds → ∀ row ∈ stage.heads,
    (db.lanes c row.scope).map (·.nextOutboxId) = some row.outboxId
  apart : stage.heads.Pairwise fun a b => a.scope ≠ b.scope

/-- What the process of `c` knows of its lanes, by its phase. -/
def KnowsLanes (c : ConsumerId) (db : Db π) (p : Proc π) : Prop :=
  match p.phase with
  | .flush _ stage => LanesKnown c db stage
  | _ => True

/-- The others delete no row past the cursor of a consumer that stays registered. -/
def KeepsAhead (c : ConsumerId) (db db' : Db π) : Prop :=
  ∀ a ∈ db'.consumers, a.consumerId = c → ∀ id scope, a.cursor < id → Stored db id scope →
    Stored db' id scope

namespace LanesKnown

variable {c : ConsumerId} {db db' : Db π} {stage next : Stage π}

/-- A stage without heads and without a page. -/
theorem bare (hpage : next.page = []) (hheads : next.heads = []) : LanesKnown c db next := by
  constructor
  · intro _ row hrow
    rw [hpage] at hrow
    cases hrow
  · intro _ row hrow
    rw [hheads] at hrow
    cases hrow
  · rw [hheads]
    exact List.Pairwise.nil

/-- The rows still in hand, after a transaction that left their lanes alone. -/
theorem move (h : LanesKnown c db stage) (hids : db'.consumerIds = db.consumerIds)
    (hplaces : db'.places = db.places)
    (hlanes : ∀ row ∈ next.heads, db'.lanes c row.scope = db.lanes c row.scope)
    (hpage : ∀ row ∈ next.page, row ∈ stage.page) (hheads : next.heads.Sublist stage.heads) :
    LanesKnown c db' next := by
  constructor
  · intro hc row hrow
    exact (h.page (hids ▸ hc) row (hpage row hrow)).congr hplaces
  · intro hc row hrow
    rw [hlanes row hrow]
    exact h.heads (hids ▸ hc) row (hheads.subset hrow)
  · exact h.apart.sublist hheads

theorem stable (hr : ConsumerRely c db db') (hahead : KeepsAhead c db db') {cursor : Nat}
    (hk : FlushKnows c cursor db stage) (h : LanesKnown c db stage) : LanesKnown c db' stage := by
  have hreg : c ∈ db'.consumerIds → ∃ a' ∈ db'.consumers, a'.consumerId = c ∧
      a'.cursor = cursor ∧ c ∈ db.consumerIds := by
    intro hc
    obtain ⟨a', ha', hid⟩ := mem_map.1 hc
    obtain ⟨a, ha, hcont, hcursor⟩ := hr.consumers a' ha' hid
    have hac : a.consumerId = c := hcont.consumerId.symm.trans hid
    exact ⟨a', ha', hid, hcursor.trans (hk.cursor_eq a ha hac), mem_map.2 ⟨a, ha, hac⟩⟩
  constructor
  · intro hc row hrow
    obtain ⟨a', ha', hid, hcursor, hold⟩ := hreg hc
    have hpast : a'.cursor < row.outboxId := by
      rw [hcursor]
      exact hk.page.past row hrow
    exact hahead a' ha' hid _ _ hpast (h.page hold row hrow)
  · intro hc row hrow
    obtain ⟨a', ha', hid, -, hold⟩ := hreg hc
    rw [hr.lanes a' ha' hid]
    exact h.heads hold row hrow
  · exact h.apart

/-- A head in hand is in the table. -/
theorem head_stored (h : LanesKnown c db stage) (hheads : HeadsStored db) (hc : c ∈ db.consumerIds)
    (hrow : row ∈ stage.heads) : Stored db row.outboxId row.scope := by
  obtain ⟨lane, hlane, hnext⟩ := map_eq_some_iff.1 (h.heads hc row hrow)
  rw [← hnext]
  exact hheads c row.scope lane hlane

end LanesKnown

/-- The heads that a fetch of the lanes finds. -/
theorem lanesKnown_dueScope (c : ConsumerId) (db : Db π) (now limit budget : Nat) :
    LanesKnown c db (.handle .scope budget (dueScopeRecoveryRows db c now limit)) := by
  have hhead : ∀ row ∈ dueScopeRecoveryRows db c now limit,
      (db.lanes c row.scope).map (·.nextOutboxId) = some row.outboxId := by
    intro row hrow
    have hsel := (mem_of_mem_page hrow).2
    rw [and_eq_true, and_eq_true] at hsel
    obtain ⟨lane, hlane, hdue⟩ := (any_eq_true _ _).1 hsel.1.1
    simp only [decide_eq_true_eq] at hdue
    rw [hlane, map_some, hdue.1]
  have hsorted : Sorted (fun row : OutboxRow π => row.outboxId)
      (dueScopeRecoveryRows db c now limit) := page_sorted db.outbox.sorted _ _
  constructor
  · intro _ row hrow
    cases hrow
  · intro _ row hrow
    exact hhead row hrow
  -- one scope has one lane, and the ids of the page grow
  refine List.Pairwise.imp_of_mem ?_ hsorted
  intro a b ha hb hlt hscope
  have hids : a.outboxId < b.outboxId := hlt
  have hnext := hhead a ha
  rw [hscope, hhead b hb, some.injEq] at hnext
  omega

/-! ## One step of a flush -/

/-- A row is queued that is in the table, or is behind the head of its lane. -/
theorem HeadsStored.queue (hs : ConsumersSound db) (h : HeadsStored db)
    (hqueue : queueScopeRecovery db₀ c row existing error attempted now = .ok db₁)
    (hplaces : db₀.places = db.places) (hlanes : db₀.lanes = db.lanes)
    (hconsumers : db₀.consumers = db.consumers) (hexisting : c ∈ db.consumerIds →
      existing.map (·.nextOutboxId) = (db.lanes c row.scope).map (·.nextOutboxId))
    (hrow : c ∈ db.consumerIds → Stored db row.outboxId row.scope) : HeadsStored db₁ := by
  rcases queueScopeRecovery_cases hqueue with ⟨howner, rfl⟩ | ⟨-, -, rfl⟩
  swap
  · exact h.congr hplaces hlanes
  have hc : c ∈ db.consumerIds := by
    rcases howner with hlane | hfound
    · rw [hlanes] at hlane
      exact hs.lane_owner c row.scope hlane
    · have hmem := mem_ids_of_consumer? hfound
      rw [Db.consumerIds, hconsumers] at hmem
      exact hmem
  intro c' scope lane hl
  refine Stored.congr hplaces ?_
  by_cases hown : c' = c ∧ scope = row.scope
  · obtain ⟨rfl, rfl⟩ := hown
    have hlane : queueLane existing row.outboxId error attempted now = lane := by
      simpa [Db.setLane] using hl
    rw [← hlane, queueLane_next]
    cases existing with
    | none => exact hrow hc
    | some old =>
      -- the lane still stands where it was read
      obtain ⟨current, hcurrent, hnext⟩ := map_eq_some_iff.1 (hexisting hc).symm
      have hold := h c' row.scope current hcurrent
      rw [hnext] at hold
      dsimp only [Option.elim]
      rcases Nat.le_total row.outboxId old.nextOutboxId with hle | hle
      · rw [Nat.min_eq_left hle]
        exact hrow hc
      · rw [Nat.min_eq_right hle]
        exact hold
  · have hsame : (db₀.setLane c row.scope
        (some (queueLane existing row.outboxId error attempted now))).lanes c' scope =
          db.lanes c' scope := by
      rw [← hlanes]
      unfold Db.setLane
      by_cases hc' : c' = c
      · subst hc'
        have hscope : scope ≠ row.scope := fun heq => hown ⟨rfl, heq⟩
        simp [update_of_ne hscope]
      · simp [update_of_ne hc']
    rw [hsame] at hl
    exact h c' scope lane hl

/-- A lane moves on to a row of the table. -/
theorem HeadsStored.advance (h : HeadsStored db)
    (hok : markOutboxPublished db c cursor .scope row now = .ok db') : HeadsStored db' := by
  have hplaces := (markOutboxPublished_writes hok).still.places
  obtain ⟨db₁, h₁, rfl⟩ := ok_of_map hok
  obtain ⟨-, rfl⟩ := advanceScopeRecovery_ok h₁
  intro c' scope lane hl
  refine Stored.congr hplaces ?_
  by_cases hown : c' = c ∧ scope = row.scope
  · obtain ⟨rfl, rfl⟩ := hown
    simp only [Db.heartbeat, Db.updateConsumer, Db.setLane, update_self] at hl
    obtain ⟨later, hlater, rfl⟩ := map_eq_some_iff.1 hl
    have hsel := find?_some hlater
    simp only [decide_eq_true_eq] at hsel
    have hmem := stored_of_mem (mem_of_find?_eq_some hlater)
    rw [hsel.1] at hmem
    exact hmem.congr (places_setPublished db row.outboxId now).symm
  refine h c' scope lane ?_
  by_cases hc' : c' = c
  · subst hc'
    have hscope : scope ≠ row.scope := fun heq => hown ⟨rfl, heq⟩
    simpa [Db.heartbeat, Db.updateConsumer, Db.setLane, Db.setPublished,
      update_of_ne hscope] using hl
  · simpa [Db.heartbeat, Db.updateConsumer, Db.setLane, Db.setPublished, update_of_ne hc'] using hl

/-- The lanes name rows of the table, and the process of `c` knows its own. -/
def KeepsLanes (c : ConsumerId) (r : Proc π × Db π) : Prop :=
  HeadsStored r.2 ∧ KnowsLanes c r.2 r.1

theorem keepsLanes_attempt (h : HeadsStored db) {p' : Proc π} {limit : Nat}
    {result : Except DeliveryError (Db π)}
    (hok : ∀ db', result = .ok db' → HeadsStored db' ∧ LanesKnown c db' next) :
    KeepsLanes c (p.attempt p' limit stage db result next) := by
  rcases attempt_cases p p' limit stage next db result with ⟨db', hres, heq⟩ | ⟨e, -, heq⟩
  · rw [heq]
    exact hok db' hres
  rw [heq]
  refine ⟨h, ?_⟩
  -- an exception leaves no row in hand
  unfold Proc.catch
  split
  · split <;> exact LanesKnown.bare rfl rfl
  · trivial

theorem settle_lanes (hs : ConsumersSound db) (hheads : HeadsStored db) (p : Proc π) {loop : Loop}
    {budget : Nat} (hk : LanesKnown c db (.settle loop budget row error rows))
    (hok : loop.record db c p row error now = .ok db') :
    HeadsStored db' ∧ LanesKnown c db' (.handle loop budget rows) := by
  cases loop with
  | legacy =>
    refine ⟨?_, .bare rfl rfl⟩
    cases error with
    | none =>
      unfold Loop.record at hok
      have hplaces := (markOutboxPublished_writes hok).still.places
      cases hok
      exact hheads.congr hplaces rfl
    | some error =>
      unfold Loop.record at hok
      have hplaces := (markOutboxFailed_writes hok).still.places
      obtain ⟨db₁, h₁, rfl⟩ := ok_of_map hok
      unfold retryLegacyRecovery at h₁
      split at h₁
      · cases h₁
      · cases h₁
        exact hheads.congr hplaces rfl
  | globalScope complete =>
    refine ⟨?_, .bare rfl rfl⟩
    cases error with
    | none =>
      exact hheads.congr (markGlobalOutboxPublished_writes hok).still.places
        (markGlobalOutboxPublished_local hok).2.1
    | some error =>
      have hplaces := (markGlobalOutboxFailed_writes c hok).still.places
      obtain ⟨_, _, rfl⟩ := markGlobalOutboxFailed_ok hok
      exact hheads.congr hplaces rfl
  | scope =>
    have hapart := pairwise_cons.1 hk.apart
    -- only the lane of the row in hand moves
    have hother : ∀ lane, db'.lanes c = Function.update (db.lanes c) row.scope lane →
        db'.consumerIds = db.consumerIds → db'.places = db.places →
        LanesKnown c db' (.handle .scope budget rows) := by
      intro lane hlanes hids hplaces
      refine hk.move hids hplaces ?_ (fun r hr => ?_) (sublist_cons_self row rows)
      · intro r hr
        rw [hlanes, update_of_ne (hapart.1 r hr).symm]
      · cases hr
    cases error with
    | none =>
      unfold Loop.record at hok
      have hplaces := (markOutboxPublished_writes hok).still.places
      have hids := (markOutboxPublished_writes hok).frame.ids
      refine ⟨hheads.advance hok, ?_⟩
      obtain ⟨db₁, h₁, rfl⟩ := ok_of_map hok
      obtain ⟨-, rfl⟩ := advanceScopeRecovery_ok h₁
      exact hother _ (update_self ..) hids hplaces
    | some error =>
      unfold Loop.record at hok
      have hplaces := (markOutboxFailed_writes hok).still.places
      have hids := (markOutboxFailed_writes hok).frame.ids
      obtain ⟨db₁, h₁, rfl⟩ := ok_of_map hok
      have hqueued := hheads.queue hs h₁ (places_setFailed ..) rfl rfl (fun _ => rfl)
        fun hc => hk.head_stored hheads hc mem_cons_self
      refine ⟨hqueued.congr rfl rfl, ?_⟩
      rcases queueScopeRecovery_cases h₁ with ⟨-, rfl⟩ | ⟨-, -, rfl⟩
      · exact hother _ (update_self ..) hids hplaces
      · exact hother _ (update_eq_self row.scope (db.lanes c)).symm hids hplaces

/-- A transaction of the main lane that queues the row in hand. -/
theorem main_queued (hs : ConsumersSound db) (hheads : HeadsStored db) (hk : LanesKnown c db stage)
    (hpage : stage.page = row :: rows)
    (hqueue : queueScopeRecovery db₀ c row existing error attempted now = .ok db₁)
    (h₀ : db₀.places = db.places ∧ db₀.lanes = db.lanes ∧ db₀.consumers = db.consumers)
    (h₁ : db'.places = db₁.places ∧ db'.lanes = db₁.lanes) (hids : db'.consumerIds = db.consumerIds)
    (hexisting : c ∈ db.consumerIds →
      existing.map (·.nextOutboxId) = (db.lanes c row.scope).map (·.nextOutboxId)) :
    HeadsStored db' ∧ LanesKnown c db' (.mainCheck rows) := by
  have hrow : c ∈ db.consumerIds → Stored db row.outboxId row.scope := by
    intro hc
    refine hk.page hc row ?_
    rw [hpage]
    exact mem_cons_self
  have hqueued := hheads.queue hs hqueue h₀.1 h₀.2.1 h₀.2.2 hexisting hrow
  have hplaces : db'.places = db.places :=
    (h₁.1.trans (queueScopeRecovery_writes hqueue).still.places).trans h₀.1
  refine ⟨hqueued.congr h₁.1 h₁.2, ?_⟩
  constructor
  · intro hc r hr
    refine (hk.page (hids ▸ hc) r ?_).congr hplaces
    rw [hpage]
    exact mem_cons_of_mem _ hr
  · intro _ r hr
    cases hr
  · exact List.Pairwise.nil

/-- A publish changes no lane and no row. -/
theorem LanesKnown.publish (h : LanesKnown c db stage) (row : OutboxRow π) (error : Option String)
    (hpage : ∀ r ∈ next.page, r ∈ stage.page) (hheads : next.heads.Sublist stage.heads) :
    LanesKnown c (publishTo db c row error) next := by
  have hframe := (LocalFrame.publishTo db c row error).1
  refine h.move hframe.ids ?_ ?_ hpage hheads
  · cases error <;> rfl
  · intro r _
    cases error <;> rfl

theorem HeadsStored.publish (h : HeadsStored db) (c : ConsumerId) (row : OutboxRow π)
    (error : Option String) : HeadsStored (publishTo db c row error) := by
  refine h.congr ?_ ?_ <;> cases error <;> rfl

/-- A step of a flush. -/
theorem flush_lanes (hs : ConsumersSound db) (hheads : HeadsStored db) (p : Proc π) (limit : Nat)
    (now : Timestamp) (error : Option String) (hflush : FlushKnows c p.cursor db stage)
    (hk : LanesKnown c db stage) : KeepsLanes c (p.flush c limit now error db stage) := by
  cases stage with
  | fetch loop budget =>
    simp only [Proc.flush]
    split
    · refine ⟨hheads, ?_⟩
      cases loop with
      | scope => trivial
      | _ => exact LanesKnown.bare rfl rfl
    rename_i row rows hrows
    refine ⟨hheads, ?_⟩
    -- only the scope loop holds heads of lanes
    cases loop with
    | scope =>
      have hdue := lanesKnown_dueScope c db now budget (budget - (row :: rows).length)
      rw [show dueScopeRecoveryRows db c now budget = row :: rows from hrows] at hdue
      exact hdue
    | _ => exact LanesKnown.bare rfl rfl
  | handle loop budget rows =>
    cases rows with
    | nil => exact ⟨hheads, LanesKnown.bare rfl rfl⟩
    | cons row rows =>
      refine ⟨hheads.publish c row error, ?_⟩
      cases loop with
      | scope => exact hk.publish row error (fun r hr => hr) (List.Sublist.refl _)
      | _ => exact LanesKnown.bare rfl rfl
  | settle loop budget row err rows =>
    exact keepsLanes_attempt hheads fun db' hok => settle_lanes hs hheads p hk hok
  | acquire =>
    have hsame : HeadsStored (tryAcquireGlobalRecoveryLease db (p.leaseOwner c) now).1 := by
      refine hheads.congr ?_ ?_ <;>
      · unfold tryAcquireGlobalRecoveryLease
        dsimp only
        split <;> rfl
    simp only [Proc.flush]
    split <;> exact ⟨hsame, LanesKnown.bare rfl rfl⟩
  | notHeld =>
    simp only [Proc.flush]
    split
    · exact ⟨hheads, LanesKnown.bare rfl rfl⟩
    · exact ⟨hheads, trivial⟩
  | lost => exact ⟨hheads, LanesKnown.bare rfl rfl⟩
  | normalize =>
    refine keepsLanes_attempt hheads fun db' hok => ?_
    obtain ⟨_, rfl⟩ := normalize_ok hok
    exact ⟨hheads.congr rfl rfl, .bare rfl rfl⟩
  | position =>
    simp only [Proc.flush]
    split <;> exact ⟨hheads, LanesKnown.bare rfl rfl⟩
  | discoveryRows scan through | blockedScopes through rows =>
    exact ⟨hheads, LanesKnown.bare rfl rfl⟩
  | discover d rows =>
    cases rows with
    | nil =>
      refine keepsLanes_attempt hheads fun db' hok => ⟨?_, .bare rfl rfl⟩
      unfold finishDiscovery at hok
      split at hok
      · obtain ⟨db₁, h₁, h₂⟩ := ok_of_bind hok
        cases begin_ok h₁
        rw [extend_ok h₂]
        exact hheads.congr rfl rfl
      · cases hok
        exact hheads
    | cons row rows =>
      simp only [Proc.flush]
      split
      · exact ⟨hheads, LanesKnown.bare rfl rfl⟩
      · exact ⟨hheads.publish c row error, LanesKnown.bare rfl rfl⟩
  | discovered d row result rows =>
    refine keepsLanes_attempt hheads fun db' hok => ⟨?_, .bare rfl rfl⟩
    exact hheads.congr (recordDiscovered_writes hok).still.places (recordDiscovered_lanes hok)
  | discoveryComplete processed =>
    simp only [Proc.flush]
    split <;> exact ⟨hheads, LanesKnown.bare rfl rfl⟩
  | release complete =>
    -- the lease is not a lane
    have hsame : HeadsStored (if error.isNone then
        releaseGlobalRecoveryLease db (p.leaseOwner c) p.fence else db) := by
      refine hheads.congr ?_ ?_ <;>
      · unfold releaseGlobalRecoveryLease
        dsimp only
        split
        · split <;> rfl
        · rfl
    by_cases hcomplete : complete = some true
    · simp only [Proc.flush, if_pos hcomplete]
      exact ⟨hsame, LanesKnown.bare rfl rfl⟩
    · simp only [Proc.flush, if_neg hcomplete]
      exact ⟨hsame, trivial⟩
  | mainRows =>
    refine ⟨hheads, ⟨fun _ row hrow => ?_, fun _ row hrow => ?_, List.Pairwise.nil⟩⟩
    · exact stored_of_mem (mem_of_mem_window hrow).1
    · cases hrow
  | mainCheck rows =>
    cases rows with
    | nil => exact ⟨hheads, LanesKnown.bare rfl rfl⟩
    | cons row rows =>
      simp only [Proc.flush]
      split
      · exact ⟨hheads, hk.page, hk.heads, hk.apart⟩
      · exact ⟨hheads, hk.page, hk.heads, hk.apart⟩
  | mainQueue row existing rows =>
    refine keepsLanes_attempt hheads fun db' hok => ?_
    have hids := (queueBehind_writes hok).frame.ids
    obtain ⟨db₁, h₁, rfl⟩ := ok_of_map hok
    refine main_queued hs hheads hk rfl h₁ ⟨rfl, rfl, rfl⟩ ⟨rfl, rfl⟩ hids fun hc => ?_
    obtain ⟨a, ha, hid⟩ := mem_map.1 hc
    exact hflush.queued _ rfl a ha hid
  | mainPublish row rows =>
    exact ⟨hheads.publish c row error, hk.publish row error (fun r hr => hr) (List.Sublist.refl _)⟩
  | mainSettle row err rows =>
    cases err with
    | none =>
      refine keepsLanes_attempt hheads fun db' hok => ?_
      have hplaces := (markOutboxPublished_writes hok).still.places
      have hids := (markOutboxPublished_writes hok).frame.ids
      cases hok
      refine ⟨hheads.congr hplaces rfl, hk.move hids hplaces ?_ (fun r hr => ?_) ?_⟩
      · intro r hr
        cases hr
      · exact mem_cons_of_mem _ hr
      · exact List.Sublist.refl _
    | some err =>
      refine keepsLanes_attempt hheads fun db' hok => ?_
      have hids := (markOutboxFailed_writes hok).frame.ids
      obtain ⟨db₁, h₁, rfl⟩ := ok_of_map hok
      exact main_queued hs hheads hk rfl h₁ ⟨places_setFailed .., rfl, rfl⟩ ⟨rfl, rfl⟩ hids
        fun _ => rfl

/-! ## The other transactions -/

theorem KeepsAhead.of_places (c : ConsumerId) (h : db'.places = db.places) :
    KeepsAhead c db db' := by
  intro _ _ _ _ _ _ hs
  exact hs.congr h

/-- New rows come behind the stored ones. -/
theorem stored_appendAll {rows : List (NewOutboxRow π)} (h : Stored db id scope) :
    Stored { db with outbox := db.outbox.appendAll rows } id scope := by
  obtain ⟨row, hrow, hid, hscope⟩ := stored_iff.1 h
  obtain ⟨added, hrows, -, -⟩ := db.outbox.rows_appendAll rows
  refine stored_iff.2 ⟨row, ?_, hid, hscope⟩
  rw [hrows]
  exact mem_append_left _ hrow

/-- The lanes of the consumers that are left are those they had. -/
theorem HeadsStored.deleteConsumers (h : HeadsStored db) (gone : Consumer π → Bool) :
    HeadsStored (db.deleteConsumers gone) := by
  intro c scope lane hl
  rw [lanes_deleteConsumers] at hl
  split at hl
  · cases hl
  · exact h c scope lane hl

theorem HeadsStored.aclose (h : HeadsStored db) (c : ConsumerId) (me : LeaseOwner) :
    HeadsStored (aclose db c me) := by
  have hstate : HeadsStored { db with globalState := _ } := h.congr rfl rfl
  exact hstate.deleteConsumers _

theorem ensure_places (db : Db π) (c : ConsumerId) (candidate : Option Nat) (now : Timestamp) :
    (ensureOutboxConsumer db c candidate now).1.places = db.places ∧
      (ensureOutboxConsumer db c candidate now).1.lanes = db.lanes := by
  unfold ensureOutboxConsumer
  split <;> exact ⟨rfl, rfl⟩

/-! ### The prune -/

/-- A row a prune deletes is behind every lane's head: a lane of a consumer that is left covers
its own head. -/
theorem HeadsStored.prune (hs : ConsumersSound db) (h : HeadsStored db) (settings : Settings)
    (now : Timestamp) : HeadsStored (pruneOutbox settings db now) := by
  have hdel := h.deleteConsumers (expired settings now)
  have hs₁ := (keeps_deleteConsumers hs (expired settings now)).1
  rcases pruneOutbox_cases settings db now with heq | ⟨keep, heq, hkeep⟩
  · rw [heq]
    exact hdel
  rw [heq]
  intro c scope lane hl
  obtain ⟨row, hrow, hid, hscope⟩ := stored_iff.1 (hdel c scope lane hl)
  refine stored_iff.2 ⟨row, mem_filter.2 ⟨hrow, ?_⟩, hid, hscope⟩
  by_contra hnot
  obtain ⟨-, hrec, -⟩ := hkeep row (by simpa using hnot)
  -- the lane has an owner, whose cursor the head does not pass
  have howner := hs₁.lane_owner c scope (by rw [hl]; rfl)
  obtain ⟨a, ha, hac⟩ := mem_map.1 howner
  have hle : lane.nextOutboxId ≤ a.cursor := by
    refine (hs₁.sound a ha).lane_le scope lane ?_
    rw [hac]
    exact hl
  have hnone := any_eq_false.1 hrec a ha
  rw [not_eq_true, or_eq_false_iff] at hnone
  have hlane := hnone.2
  rw [hac, hscope, hl] at hlane
  simp only [any_some, decide_eq_false_iff_not] at hlane
  omega

variable {s : St π} (settings : Settings)

/-- A prune deletes nothing past the cursor of a consumer it leaves. -/
theorem keepsAhead_prune (db : Db π) (now : Timestamp) (c : ConsumerId) :
    KeepsAhead c db (pruneOutbox settings db now) := by
  intro a ha _ id scope hlt hstored
  rcases pruneOutbox_cases settings db now with heq | ⟨keep, heq, hkeep⟩
  · rw [heq]
    exact hstored
  rw [heq] at ha ⊢
  obtain ⟨row, hrow, hid, hscope⟩ := stored_iff.1 hstored
  refine stored_iff.2 ⟨row, mem_filter.2 ⟨hrow, ?_⟩, hid, hscope⟩
  by_contra hnot
  obtain ⟨-, -, hcur⟩ := hkeep row (by simpa using hnot)
  have := hcur a ha
  omega

theorem prunesSafely (hs : ConsumersSound db) (settings : Settings) (now : Timestamp) :
    PrunesSafely settings db now := by
  intro row hrow hgone
  rcases pruneOutbox_cases settings db now with heq | ⟨keep, heq, hkeep⟩
  · rw [heq] at hgone
    exact absurd hrow hgone
  rw [heq] at hgone
  have hdel : keep row = false := by
    by_contra h
    exact hgone (mem_filter.2 ⟨hrow, by simpa using h⟩)
  obtain ⟨hpublished, hrec, hcur⟩ := hkeep row hdel
  refine ⟨hpublished, fun a ha hlive => ?_⟩
  have hnotgone : expired settings now a = false := decide_eq_false (Nat.not_lt.2 hlive)
  have ha₁ : a ∈ (db.deleteConsumers (expired settings now)).consumers :=
    mem_filter.2 ⟨ha, by rw [hnotgone]; rfl⟩
  -- ids are unique, so the recovery rows of a live consumer are not deleted
  have hany : (db.consumers.any fun b =>
      b.consumerId = a.consumerId && expired settings now b) = false := by
    refine any_eq_false.2 fun b hb hgone' => ?_
    rw [and_eq_true, decide_eq_true_eq] at hgone'
    rw [hs.eq_of_id hb ha hgone'.1, hnotgone] at hgone'
    exact absurd hgone'.2 Bool.false_ne_true
  have hnone := any_eq_false.1 hrec a ha₁
  rw [not_eq_true, or_eq_false_iff, lanes_deleteConsumers, legacy_deleteConsumers, hany] at hnone
  refine ⟨hcur a ha₁, ?_⟩
  rintro (⟨lane, hl, hrange⟩ | hlegacy)
  · have hlane := hnone.2
    simp only [false_eq_true, if_false, hl, any_some, decide_eq_false_iff_not] at hlane
    exact hlane hrange
  · have hleg := hnone.1
    simp only [false_eq_true, if_false] at hleg
    rw [hlegacy] at hleg
    cases hleg

/-! ## One step, and every run -/

theorem knowsLanes_stable (hr : ConsumerRely c db db') (hahead : KeepsAhead c db db')
    (hk : DeliveryKnows c db p) (h : KnowsLanes c db p) : KnowsLanes c db' p := by
  unfold KnowsLanes at h ⊢
  split
  · rename_i limit stage hphase
    rw [hphase] at h
    rw [DeliveryKnows, hphase] at hk
    exact h.stable hr hahead hk
  · trivial

theorem next_lanes (hs : ConsumersSound db) (hheads : HeadsStored db) (hdel : DeliveryKnows c db p)
    (hk : KnowsLanes c db p) (now : Timestamp) (error : Option String) :
    KeepsLanes c (p.next settings c now error db) ∧
      ∀ c', KeepsAhead c' db (p.next settings c now error db).2 := by
  have hrefl : ∀ c', KeepsAhead c' db db := fun c' => .of_places c' rfl
  unfold DeliveryKnows at hdel
  unfold KnowsLanes at hk
  unfold Proc.next
  split
  · rename_i hphase
    refine ⟨⟨hheads, ?_⟩, hrefl⟩
    rw [KnowsLanes, hphase]
    trivial
  · split <;> exact ⟨⟨hheads, trivial⟩, hrefl⟩
  · exact ⟨⟨hheads, trivial⟩, hrefl⟩
  · rename_i call candidate hphase
    obtain ⟨hplaces, hlanes⟩ := ensure_places db c candidate now
    refine ⟨⟨hheads.congr hplaces hlanes, ?_⟩, fun c' => .of_places c' hplaces⟩
    -- a flush starts with nothing in hand
    cases call with
    | flush limit =>
      by_cases hpos : 0 < limit
      · rw [show (Call.flush limit).begin (π := π) = _ from if_pos hpos]
        exact LanesKnown.bare rfl rfl
      · rw [show (Call.flush limit).begin (π := π) = _ from if_neg hpos]
        trivial
    | _ => trivial
  · rename_i limit stage hphase
    rw [hphase] at hk hdel
    exact ⟨flush_lanes hs hheads p limit now error hdel hk,
      fun c' => .of_places c' (flush_places p c limit now error db stage)⟩
  · exact ⟨⟨hheads.prune hs settings now, trivial⟩, fun c' => keepsAhead_prune settings db now c'⟩

theorem call_lanes (hheads : HeadsStored db) (hk : KnowsLanes c db p) (call : Call) :
    KeepsLanes c (p.call c db call) ∧ ∀ c', KeepsAhead c' db (p.call c db call).2 := by
  have hrefl : ∀ c', KeepsAhead c' db db := fun c' => .of_places c' rfl
  unfold Proc.call
  split
  · split
    · rename_i hphase
      split
      · refine ⟨⟨hheads.aclose c _, ?_⟩, fun c' => .of_places c' rfl⟩
        simp only [KnowsLanes, hphase]
      · exact ⟨⟨hheads, hk⟩, hrefl⟩
    · exact ⟨⟨hheads, hk⟩, hrefl⟩
  · split
    · exact ⟨⟨hheads, trivial⟩, hrefl⟩
    · exact ⟨⟨hheads, hk⟩, hrefl⟩

theorem abort_lanes (p : Proc π) (bodyRan : Bool) : KnowsLanes c db (p.abort bodyRan) := by
  unfold Proc.abort
  split
  · split
    · exact LanesKnown.bare rfl rfl
    · split <;> trivial
  · trivial

/-- The lanes and what every process knows of them. -/
structure LanesInv (s : St π) : Prop where
  delivery : DeliveryInv s
  heads : HeadsStored s.db
  known : ∀ c, KnowsLanes c s.db (s.procs c)

/-- A step of one process, or of none. -/
theorem LanesInv.update (hi : LanesInv s) {settings : Settings} {l : Lbl π} {r : Proc π × Db π}
    (hstep : step settings s l = s.set c r) (hr : KeepsLanes c r)
    (hrely : ∀ c', c' ≠ c → ConsumerRely c' s.db r.2) (hahead : ∀ c', KeepsAhead c' s.db r.2) :
    LanesInv (step settings s l) := by
  refine ⟨delivery_step settings s l hi.delivery, ?_, fun c' => ?_⟩
  · rw [hstep]
    exact hr.1
  rw [hstep]
  by_cases h : c' = c
  · subst h
    simp only [St.set, update_self]
    exact hr.2
  · simp only [St.set, update_of_ne h]
    exact knowsLanes_stable (hrely c' h) (hahead c') (hi.delivery.process c') (hi.known c')

theorem lanes_step (s : St π) (l : Lbl π) (hi : LanesInv s) : LanesInv (step settings s l) := by
  have hs := hi.delivery.store
  cases l with
  | append rows =>
    refine ⟨delivery_step settings s _ hi.delivery, fun c scope lane hl => ?_, fun c => ?_⟩
    · exact stored_appendAll (hi.heads c scope lane hl)
    obtain ⟨-, hrely⟩ := keeps_outbox hs (.appendAll s.db.outbox rows)
    refine knowsLanes_stable (hrely c) ?_ (hi.delivery.process c) (hi.known c)
    intro _ _ _ _ _ _ hstored
    exact stored_appendAll hstored
  | call c call =>
    obtain ⟨hkeeps, hahead⟩ := call_lanes hi.heads (hi.known c) call
    exact hi.update rfl hkeeps (call_delivers hs (hi.delivery.process c) call).2 hahead
  | next c now error =>
    have hdel := hi.delivery.process c
    obtain ⟨hkeeps, hahead⟩ := next_lanes settings hs hi.heads hdel (hi.known c) now error
    exact hi.update rfl hkeeps (next_delivers settings hs hdel now error).2 hahead
  | abort c bodyRan =>
    exact hi.update rfl ⟨hi.heads, abort_lanes _ bodyRan⟩ (fun _ _ => .refl _ _)
      fun c' => .of_places c' rfl
  | crash c =>
    exact hi.update rfl ⟨hi.heads, trivial⟩ (fun _ _ => .refl _ _) fun c' => .of_places c' rfl

/-- The processes start over a database whose lanes name rows, as on the day their table was
made. -/
def StartsWithHeads : StatePred (St π) := fun s => Init s ∧ HeadsStored s.db

theorem lanes_init (h : StartsWithHeads s) : LanesInv s := by
  refine ⟨delivery_init h.1, h.2, fun c => ?_⟩
  obtain ⟨incarnation, hp⟩ := h.1.2 c
  rw [hp]
  trivial

/-- In every reachable state a prune, whenever it comes, deletes only published rows that every
live consumer has behind its cursor and in no lane; and every lane names a row of its scope. -/
theorem pruning_safe (settings : Settings) {s : St π}
    (h : Reachable StartsWithHeads (step settings) s) :
    (∀ now, PrunesSafely settings s.db now) ∧ HeadsStored s.db := by
  have hi : LanesInv s := reachable_invariant (fun _ => lanes_init) (lanes_step settings) h
  exact ⟨prunesSafely hi.delivery.store settings, hi.heads⟩

/-- After the failed publish of a row the consumer prunes, long enough later that the row would
be too old. -/
def prunedLane : List (Lbl Unit) :=
  failedMainLane ++ [.abort "a" false, .call "a" .prune] ++ List.replicate 3 (.next "a" 9 none)

/-- The row is still there for its lane. -/
theorem pruning_safe_lane : (run (step ⟨0, 8, 0, 0⟩) (.ofOutbox .empty) prunedLane).db.places =
        [(1, ⟨"tenant", "owner"⟩)] ∧
      (run (step ⟨0, 8, 0, 0⟩) (.ofOutbox .empty) prunedLane).db.lanes "a" ⟨"tenant", "owner"⟩ ≠
        none ∧
      HeadsStored (run (step ⟨0, 8, 0, 0⟩) (.ofOutbox .empty) prunedLane).db := by
  refine ⟨by decide +kernel, by decide +kernel, ?_⟩
  have hstart : StartsWithHeads (St.ofOutbox (.empty : OutboxTable Unit)) := by
    refine ⟨init_ofOutbox _, fun c scope lane hl => ?_⟩
    cases hl
  exact (pruning_safe _ ⟨_, prunedLane, hstart, rfl⟩).2

end Outbox.Delivery
