import EchoDesk.Foundations.Interleaving
import EchoDesk.Outbox.Steps

/-! # The recovery rows of one consumer

The cursor and the recovery rows of a consumer are written by its own process
only; the others may at most delete the consumer with all of them. So a flush may
rely on what it has read of its own rows (`FlushKnows`), and each of its
transactions moves coverage from one place to another: from the cursor to a lane,
along the lane, and from a lane to the bus. There is one lemma for each of them.
-/

namespace Outbox.Delivery

open EchoDesk OrderedLog Transition List Option Function

variable {π : Type}
variable {c : ConsumerId} {row : OutboxRow π} {db db' : Db π} {now : Timestamp}
variable {error : String} {fence : Option Nat} {attempted : Bool} {db₁ : Db π}

/-! ## What a process relies on -/

/-- `a'` is the same registration as `a`: its bus may have got more rows. -/
structure Continues (lastId : Nat) (a a' : Consumer π) : Prop where
  consumerId : a'.consumerId = a.consumerId
  registeredAt : a'.registeredAt = a.registeredAt
  bus : ∀ sent ∈ a.bus, sent ∈ a'.bus
  bus_le : ∀ sent ∈ a'.bus, sent ∈ a.bus ∨ sent.outboxId ≤ lastId

theorem Continues.refl (lastId : Nat) (a : Consumer π) : Continues lastId a a :=
  ⟨rfl, rfl, fun _ h => h, fun _ h => .inl h⟩

variable {a a' : Consumer π} {cursor budget : Nat} {me : LeaseOwner}

theorem Continues.got {lastId : Nat} (h : Continues lastId a a') {row' : OutboxRow π}
    (hg : a.Got row) (hid : row.outboxId = row'.outboxId) : a'.Got row' := by
  obtain ⟨sent, hsent, hsid⟩ := hg
  exact ⟨sent, h.bus sent hsent, hsid.trans hid⟩

/-- The consumer `c` kept its cursor and its recovery rows, if it is still
registered. -/
structure ConsumerRely (c : ConsumerId) (db db' : Db π) : Prop where
  outbox : Evolves db.outbox db'.outbox
  consumers : ∀ a' ∈ db'.consumers, a'.consumerId = c →
    ∃ a ∈ db.consumers, Continues db.outbox.lastId a a' ∧ a'.cursor = a.cursor
  lanes : ∀ a' ∈ db'.consumers, a'.consumerId = c → ∀ scope,
    (db'.lanes c scope).map (·.nextOutboxId) = (db.lanes c scope).map (·.nextOutboxId)
  legacy : ∀ a' ∈ db'.consumers, a'.consumerId = c → ∀ id,
    (db'.legacy c id).isSome = (db.legacy c id).isSome

namespace ConsumerRely

variable {c : ConsumerId} {db db' : Db π}

theorem refl (c : ConsumerId) (db : Db π) : ConsumerRely c db db :=
  ⟨.refl _, fun a ha _ => ⟨a, ha, .refl _ a, rfl⟩, fun _ _ _ _ => rfl, fun _ _ _ _ => rfl⟩

/-- The transactions of the others. -/
theorem of_frame {c' : ConsumerId} (h : Frame c' db db') (hne : c ≠ c') :
    ConsumerRely c db db' := by
  refine ⟨h.outbox, fun a ha hc => ?_, fun _ _ _ scope => ?_, fun _ _ _ id => ?_⟩
  · exact ⟨a, (h.consumers a (hc ▸ hne)).1 ha, .refl _ a, rfl⟩
  · rw [h.lanes c hne]
  · rw [h.legacy c hne]

end ConsumerRely

/-! ## The recovery rows of one consumer -/

theorem Covered.of_lane {lane : ScopeRecovery} (hc : a.consumerId = c)
    (hl : db.lanes c row.scope = some lane) (hle : lane.nextOutboxId ≤ row.outboxId) :
    Covered db a row :=
  .inr (.inl ⟨lane, hc ▸ hl, hle⟩)

theorem Covered.of_legacy (hc : a.consumerId = c) (hl : (db.legacy c row.outboxId).isSome) :
    Covered db a row :=
  .inr (.inr (hc ▸ hl))

/-- A row stays covered when its lane or its legacy row goes on to cover it. -/
theorem Covered.move (h : Covered db a row) (hcont : Continues db.outbox.lastId a a')
    (hc : a'.consumerId = c) (hlane : ∀ lane, db.lanes c row.scope = some lane →
      lane.nextOutboxId ≤ row.outboxId → Covered db' a' row)
    (hlegacy : (db.legacy c row.outboxId).isSome → Covered db' a' row) : Covered db' a' row := by
  rw [hcont.consumerId] at hc
  subst hc
  rcases h with hg | ⟨lane, hl, hle⟩ | hleg
  · exact .inl (hcont.got hg rfl)
  · exact hlane lane hl hle
  · exact hlegacy hleg

/-- The recovery rows of a consumer after a step. A lane keeps its head, or it stands within the
cursor and past the legacy rows of its scope. -/
theorem RecoverySound.update (h : RecoverySound db a) (hout : Evolves db.outbox db'.outbox)
    (hcont : Continues db.outbox.lastId a a') (hc : a'.consumerId = c) (hcur : a.cursor ≤ a'.cursor)
    (hlast : a'.cursor ≤ db.outbox.lastId) (hlane : ∀ scope lane, db'.lanes c scope = some lane →
      (∃ old, db.lanes c scope = some old ∧ old.nextOutboxId = lane.nextOutboxId) ∨
      lane.nextOutboxId ≤ a'.cursor ∧ ∀ row ∈ db.outbox.rows, row.scope = scope →
        (db.legacy c row.outboxId).isSome → row.outboxId < lane.nextOutboxId)
    (hlegacy : ∀ id, (db'.legacy c id).isSome → (db.legacy c id).isSome)
    (hcovered : ∀ row ∈ db.outbox.rows, row.outboxId ≤ a'.cursor →
      (row.outboxId ≤ a.cursor → Covered db a row) → Covered db' a' row) :
    RecoverySound db' a' := by
  have hac := hcont.consumerId.symm.trans hc
  subst hac
  refine ⟨Nat.le_trans hlast hout.lastId, fun sent hs => ?_, fun scope lane hl => ?_,
    fun id hl => ?_, fun row' hrow' hl lane hl' => ?_, fun row' hrow' hreg hle => ?_⟩
  · rcases hcont.bus_le sent hs with hold | hle
    · exact Nat.le_trans (h.bus_le sent hold) hout.lastId
    · exact Nat.le_trans hle hout.lastId
  · rw [hc] at hl
    rcases hlane scope lane hl with ⟨old, hold, heq⟩ | ⟨hle, -⟩
    · exact heq ▸ Nat.le_trans (h.lane_le scope old hold) hcur
    · exact hle
  · rw [hc] at hl
    exact Nat.le_trans (h.legacy_le id (hlegacy id hl)) hcur
  · rw [hc] at hl hl'
    replace hl := hlegacy _ hl
    obtain ⟨row, hrow, hid, hscope, _⟩ :=
      hout.old hrow' (Nat.le_trans (h.legacy_le _ hl) h.cursor_le)
    rw [← hid] at hl ⊢
    rw [← hscope] at hl'
    rcases hlane row.scope lane hl' with ⟨old, hold, heq⟩ | ⟨-, hpast⟩
    · exact heq ▸ h.legacy_lt row hrow hl old hold
    · exact hpast row hrow rfl hl
  · obtain ⟨row, hrow, hid, hscope, _⟩ := hout.old hrow' (Nat.le_trans hle hlast)
    rw [hcont.registeredAt, ← hid] at hreg
    rw [← hid] at hle
    have hcov := hcovered row hrow hle (h.covered row hrow hreg)
    unfold Covered Consumer.Got at hcov
    rwa [hid, hscope] at hcov

/-- What the others do leaves the recovery rows of a consumer sound. -/
theorem ConsumerRely.recoverySound (hr : ConsumerRely c db db')
    (hs : ∀ a ∈ db.consumers, RecoverySound db a) (ha' : a' ∈ db'.consumers)
    (hc : a'.consumerId = c) : RecoverySound db' a' := by
  obtain ⟨a, ha, hcont, hcur⟩ := hr.consumers a' ha' hc
  have hlegacy := hr.legacy a' ha' hc
  refine (hs a ha).update hr.outbox hcont hc (Nat.le_of_eq hcur.symm) (hcur ▸ (hs a ha).cursor_le)
    (fun scope lane hl => .inl (map_eq_some_iff.1 ((hr.lanes a' ha' hc scope).symm.trans (congrArg _ hl)))) (fun id hl => hlegacy id ▸ hl)
    fun row _ hle hcov => ?_
  refine (hcov (hcur ▸ hle)).move hcont hc (fun lane hl hnext => ?_) fun hl => ?_
  · obtain ⟨lane', hlane', heq⟩ := map_eq_some_iff.1 ((hr.lanes a' ha' hc _).trans (congrArg _ hl))
    exact .of_lane hc hlane' (heq ▸ hnext)
  · exact .of_legacy hc ((hlegacy _).symm ▸ hl)

/-! ## The own transactions -/

/-- A transaction of the process of `c`, as the process itself sees it: its
cursor does not fall, and it gets no legacy rows. -/
structure Moves (c : ConsumerId) (db db' : Db π) : Prop where
  frame : Frame c db db'
  consumers : ∀ a' ∈ db'.consumers, a'.consumerId = c →
    ∃ a ∈ db.consumers, Continues db.outbox.lastId a a' ∧ a.cursor ≤ a'.cursor
  lanes : ∀ scope, (db'.lanes c scope).isSome → (db.lanes c scope).isSome ∨ c ∈ db.consumerIds
  legacy : ∀ id, (db'.legacy c id).isSome → (db.legacy c id).isSome

/-- The consumer `c` stands at `cursor` with sound recovery rows. -/
def Own (c : ConsumerId) (cursor : Nat) (db : Db π) : Prop :=
  ∀ a ∈ db.consumers, a.consumerId = c → a.cursor = cursor ∧ RecoverySound db a

theorem ConsumersSound.of_moves (hs : ConsumersSound db) (hm : Moves c db db')
    (hown : Own c cursor db') : ConsumersSound db' := by
  refine ⟨hm.frame.ids ▸ hs.unique, fun a ha => ?_, fun c' scope hl => ?_, fun c' id hl => ?_⟩
  · by_cases hc : a.consumerId = c
    · exact (hown a ha hc).2
    · exact (ConsumerRely.of_frame hm.frame hc).recoverySound hs.sound ha rfl
  · rw [hm.frame.ids]
    by_cases hc : c' = c
    · subst hc
      rcases hm.lanes scope hl with hold | hmem
      · exact hs.lane_owner c' scope hold
      · exact hmem
    · rw [hm.frame.lanes c' hc] at hl
      exact hs.lane_owner c' scope hl
  · rw [hm.frame.ids]
    by_cases hc : c' = c
    · subst hc
      exact hs.legacy_owner c' id (hm.legacy id hl)
    · rw [hm.frame.legacy c' hc] at hl
      exact hs.legacy_owner c' id hl

theorem Moves.refl (c : ConsumerId) (db : Db π) : Moves c db db :=
  ⟨.refl c db, fun a ha _ => ⟨a, ha, .refl _ a, Nat.le_refl _⟩, fun _ h => .inl h, fun _ h => h⟩

/-- Neither the cursor nor a recovery row of `c` moves. -/
structure Quiet (c : ConsumerId) (db db' : Db π) : Prop where
  frame : Frame c db db'
  consumers : ∀ a' ∈ db'.consumers, a'.consumerId = c →
    ∃ a ∈ db.consumers, Continues db.outbox.lastId a a' ∧ a'.cursor = a.cursor
  lanes : db'.lanes c = db.lanes c
  legacy : ∀ id, (db'.legacy c id).isSome = (db.legacy c id).isSome

theorem Quiet.refl (c : ConsumerId) (db : Db π) : Quiet c db db :=
  ⟨.refl c db, fun a ha _ => ⟨a, ha, .refl _ a, rfl⟩, rfl, fun _ => rfl⟩

theorem Quiet.of_global (hf : Frame c db db') (hcons : db'.consumers = db.consumers)
    (hlanes : db'.lanes = db.lanes) (hlegacy : db'.legacy = db.legacy) : Quiet c db db' := by
  refine ⟨hf, fun a ha _ => ⟨a, hcons ▸ ha, .refl _ a, rfl⟩, by rw [hlanes], fun _ => ?_⟩
  rw [hlegacy]

theorem Quiet.moves (h : Quiet c db db') : Moves c db db' := by
  refine ⟨h.frame, fun a' ha' hc => ?_, fun scope hl => .inl (h.lanes ▸ hl), fun id hl => ?_⟩
  · obtain ⟨a, ha, hcont, hcur⟩ := h.consumers a' ha' hc
    exact ⟨a, ha, hcont, Nat.le_of_eq hcur.symm⟩
  · rwa [h.legacy] at hl

theorem Quiet.rely (h : Quiet c db db') : ConsumerRely c db db' :=
  ⟨h.frame.outbox, h.consumers, fun _ _ _ _ => by rw [h.lanes], fun _ _ _ => h.legacy⟩

theorem Quiet.own (h : Quiet c db db') (hs : ConsumersSound db)
    (hcur : ∀ a ∈ db.consumers, a.consumerId = c → a.cursor = cursor) : Own c cursor db' := by
  intro a' ha' hc
  obtain ⟨a, ha, hcont, heq⟩ := h.consumers a' ha' hc
  exact ⟨heq.trans (hcur a ha (hcont.consumerId.symm.trans hc)),
    h.rely.recoverySound hs.sound ha' hc⟩

/-! ## What a flush knows about its consumer -/

/-- The stored versions of a fetched row: its id was given out, and its scope is
the one that was fetched. -/
structure Snapshot (db : Db π) (row : OutboxRow π) : Prop where
  le_lastId : row.outboxId ≤ db.outbox.lastId
  scope : ∀ stored ∈ db.outbox.rows, stored.outboxId = row.outboxId → stored.scope = row.scope

/-- The consumer got every earlier row of the scope. -/
def EarlierGot (db : Db π) (a : Consumer π) (row : OutboxRow π) : Prop :=
  ∀ earlier ∈ db.outbox.rows, earlier.scope = row.scope →
    a.registeredAt < earlier.outboxId → earlier.outboxId < row.outboxId → a.Got earlier

/-- The row is where a lane of the consumer may stand. -/
structure LaneHead (db : Db π) (a : Consumer π) (row : OutboxRow π) : Prop where
  le_cursor : row.outboxId ≤ a.cursor
  legacy : ∀ earlier ∈ db.outbox.rows, (db.legacy a.consumerId earlier.outboxId).isSome →
    earlier.scope = row.scope → earlier.outboxId < row.outboxId

/-- The fetched rows of the main lane start right behind the cursor. -/
structure MainPage (db : Db π) (cursor : Nat) (rows : List (OutboxRow π)) : Prop where
  sorted : Sorted (fun row : OutboxRow π => row.outboxId) rows
  past : ∀ row ∈ rows, cursor < row.outboxId
  complete : ∀ stored ∈ db.outbox.rows, cursor < stored.outboxId → ∀ row ∈ rows,
    stored.outboxId ≤ row.outboxId → ∃ r ∈ rows, r.outboxId = stored.outboxId

/-- The rows a stage has in hand. -/
def Stage.rows : Stage π → List (OutboxRow π)
  | .handle _ _ rows | .blockedScopes _ rows | .discover _ rows | .mainCheck rows => rows
  | .settle _ _ row _ rows | .discovered _ row _ rows | .mainQueue row _ rows => row :: rows
  | .mainPublish row rows | .mainSettle row _ rows => row :: rows
  | _ => []

/-- The row that was published and is not recorded yet. -/
def Stage.sent : Stage π → List (OutboxRow π)
  | .settle _ _ row none _ | .discovered _ row .published _ | .mainSettle row none _ => [row]
  | _ => []

/-- The rows a local lane found due: nothing of their scope is to come before them. -/
def Stage.due : Stage π → List (OutboxRow π)
  | .handle .legacy _ rows | .settle .legacy _ _ _ rows => rows
  | .handle .scope _ rows | .settle .scope _ _ _ rows => rows
  | .mainPublish row _ => [row]
  | _ => []

/-- The heads of the own lanes. -/
def Stage.heads : Stage π → List (OutboxRow π)
  | .handle .scope _ rows => rows
  | .settle .scope _ row _ rows => row :: rows
  | _ => []

/-- The page of the main lane. -/
def Stage.page : Stage π → List (OutboxRow π)
  | .mainCheck rows => rows
  | .mainQueue row _ rows | .mainPublish row rows | .mainSettle row _ rows => row :: rows
  | _ => []

/-- The lane that was read for the row in hand. -/
def Stage.queued : Stage π → Option (OutboxRow π × Option ScopeRecovery)
  | .mainQueue row existing _ => some (row, existing)
  | _ => none

theorem Stage.due_subset (stage : Stage π) : ∀ row ∈ stage.due, row ∈ stage.rows := by
  intro row hrow
  cases stage with
  | handle loop budget rows =>
    cases loop with
    | globalScope complete => cases hrow
    | _ => exact hrow
  | settle loop budget r error rows =>
    cases loop with
    | globalScope complete => cases hrow
    | _ => exact mem_cons_of_mem _ hrow
  | mainPublish r rows =>
    rw [mem_singleton.1 hrow]
    exact mem_cons_self
  | _ => cases hrow

/-- What a flush of the process of `c` knows, given its `_outbox_cursor`. -/
structure FlushKnows (c : ConsumerId) (cursor : Nat) (db : Db π) (stage : Stage π) : Prop where
  cursor_eq : ∀ a ∈ db.consumers, a.consumerId = c → a.cursor = cursor
  rows : ∀ row ∈ stage.rows, Snapshot db row
  sent : ∀ row ∈ stage.sent, ∀ a ∈ db.consumers, a.consumerId = c → a.Got row
  due : ∀ row ∈ stage.due, ∀ a ∈ db.consumers, a.consumerId = c → EarlierGot db a row
  heads : ∀ row ∈ stage.heads, ∀ a ∈ db.consumers, a.consumerId = c → LaneHead db a row
  page : MainPage db cursor stage.page
  queued : ∀ q ∈ stage.queued, ∀ a ∈ db.consumers, a.consumerId = c →
    q.2.map (·.nextOutboxId) = (db.lanes c q.1.scope).map (·.nextOutboxId)

/-- What the process of `c` knows, by its phase. -/
def DeliveryKnows (c : ConsumerId) (db : Db π) (p : Proc π) : Prop :=
  match p.phase with
  | .register _ (some candidate) => candidate ≤ db.outbox.lastId
  | .flush _ stage => FlushKnows c p.cursor db stage
  | _ => True

/-! ### It stays true -/

theorem Snapshot.stable (hout : Evolves db.outbox db'.outbox) (h : Snapshot db row) :
    Snapshot db' row := by
  refine ⟨Nat.le_trans h.le_lastId hout.lastId, fun stored hstored hid => ?_⟩
  obtain ⟨old, hold, hid', hscope, _⟩ := hout.old hstored (hid ▸ h.le_lastId)
  rw [← hscope]
  exact h.scope old hold (hid'.trans hid)

theorem EarlierGot.stable (hout : Evolves db.outbox db'.outbox)
    (hcont : Continues db.outbox.lastId a a') (hle : row.outboxId ≤ db.outbox.lastId)
    (h : EarlierGot db a row) : EarlierGot db' a' row := by
  intro earlier he hscope hreg hlt
  obtain ⟨old, hold, hid, hsc, _⟩ := hout.old he (by omega)
  rw [hcont.registeredAt, ← hid] at hreg
  exact hcont.got (h old hold (hsc.trans hscope) hreg (hid ▸ hlt)) hid

theorem MainPage.stable (hout : Evolves db.outbox db'.outbox) {rows : List (OutboxRow π)}
    (hrows : ∀ row ∈ rows, Snapshot db row) (h : MainPage db cursor rows) :
    MainPage db' cursor rows := by
  refine ⟨h.sorted, h.past, fun stored hstored hlt row hrow hle => ?_⟩
  obtain ⟨old, hold, hid, _⟩ :=
    hout.old hstored (Nat.le_trans hle (hrows row hrow).le_lastId)
  rw [← hid] at hlt hle ⊢
  exact h.complete old hold hlt row hrow hle

variable {stage : Stage π} {existing : Option ScopeRecovery}

/-- The facts about the rows in hand survive what the others do. -/
theorem FlushKnows.stable (hs : ConsumersSound db) (hr : ConsumerRely c db db')
    (h : FlushKnows c cursor db stage) : FlushKnows c cursor db' stage := by
  have hrows : ∀ row ∈ stage.rows, Snapshot db' row := fun row hrow =>
    (h.rows row hrow).stable hr.outbox
  have hpage : ∀ row ∈ stage.page, Snapshot db row := by
    intro row hrow
    refine h.rows row ?_
    cases stage <;> first | exact hrow | cases hrow
  refine ⟨fun a' ha' hc => ?_, hrows, fun row hrow a' ha' hc => ?_, fun row hrow a' ha' hc => ?_,
    fun row hrow a' ha' hc => ?_, h.page.stable hr.outbox hpage, fun q hq a' ha' hc => ?_⟩
  all_goals
    obtain ⟨a, ha, hcont, hcur⟩ := hr.consumers a' ha' hc
    have hac : a.consumerId = c := hcont.consumerId.symm.trans hc
  · rw [hcur]
    exact h.cursor_eq a ha hac
  · exact hcont.got (h.sent row hrow a ha hac) rfl
  · exact (h.due row hrow a ha hac).stable hr.outbox hcont
      (h.rows row (stage.due_subset row hrow)).le_lastId
  · have hhead := h.heads row hrow a ha hac
    refine ⟨hcur ▸ hhead.le_cursor, fun earlier he hl hscope => ?_⟩
    rw [hc, hr.legacy a' ha' hc, ← hac] at hl
    have hle := Nat.le_trans ((hs.sound a ha).legacy_le _ hl) (hs.sound a ha).cursor_le
    obtain ⟨old, hold, hid, hsc, _⟩ := hr.outbox.old he hle
    rw [← hid] at hl ⊢
    exact hhead.legacy old hold hl (hsc.trans hscope)
  · rw [hr.lanes a' ha' hc]
    exact h.queued q hq a ha hac

theorem deliveryKnows_stable : Interleaving.Stable (S := Db π) ConsumersSound DeliveryKnows
    ConsumerRely := by
  intro c db db' p hs hr h
  unfold DeliveryKnows at h ⊢
  split
  · rename_i call candidate hphase
    rw [hphase] at h
    exact Nat.le_trans h hr.outbox.lastId
  · rename_i limit stage hphase
    rw [hphase] at h
    exact FlushKnows.stable hs hr h
  · trivial

/-! ## One lemma for each own transaction -/

theorem mem_updateConsumer {assign : Consumer π → Consumer π}
    (h : a' ∈ (db.updateConsumer c assign).consumers) (hc : a'.consumerId = c) :
    ∃ a ∈ db.consumers, a.consumerId = c ∧ a' = assign a := by
  obtain ⟨a, ha, rfl⟩ := mem_map.1 h
  by_cases hac : a.consumerId = c
  · exact ⟨a, ha, hac, if_pos hac⟩
  · rw [if_neg hac] at hc
    exact absurd hc hac

/-- A publish adds the row to the bus and writes nothing. -/
theorem quiet_publishTo (h : Snapshot db row) (c : ConsumerId) (error : Option String) :
    Quiet c db (publishTo db c row error) := by
  refine ⟨(LocalFrame.publishTo db c row error).1, fun a' ha' hc => ?_, ?_, ?_⟩
  · cases error with
    | some error => exact ⟨a', ha', .refl _ a', rfl⟩
    | none =>
      obtain ⟨a, ha, _, rfl⟩ := mem_updateConsumer ha' hc
      refine ⟨a, ha, ⟨rfl, rfl, fun sent hs => mem_append_left _ hs, fun sent hs => ?_⟩, rfl⟩
      rcases mem_append.1 hs with hs | hs
      · exact .inl hs
      · rw [mem_singleton.1 hs]
        exact .inr h.le_lastId
  · cases error <;> rfl
  · intro id
    cases error <;> rfl

theorem got_of_published (h : a' ∈ (publishTo db c row none).consumers) (hc : a'.consumerId = c) :
    a'.Got row := by
  obtain ⟨a, _, _, rfl⟩ := mem_updateConsumer h hc
  exact ⟨row, mem_append_right _ (mem_singleton_self row), rfl⟩

/-- A heartbeat, and nothing else of the consumer. -/
theorem continues_heartbeat (h : a' ∈ (db.heartbeat c now).consumers) (hc : a'.consumerId = c)
    (lastId : Nat) : ∃ a ∈ db.consumers, Continues lastId a a' ∧ a'.cursor = a.cursor := by
  obtain ⟨a, ha, _, rfl⟩ := mem_updateConsumer h hc
  exact ⟨a, ha, ⟨rfl, rfl, fun _ hs => hs, fun _ hs => .inl hs⟩, rfl⟩

/-- The advanced cursor of the main lane. -/
theorem continues_advance (h : a' ∈ (advanceOutboxCursor db c cursor now).consumers)
    (hc : a'.consumerId = c) (lastId : Nat) :
    ∃ a ∈ db.consumers, Continues lastId a a' ∧ a'.cursor = max a.cursor cursor := by
  obtain ⟨a, ha, _, rfl⟩ := mem_updateConsumer h hc
  exact ⟨a, ha, ⟨rfl, rfl, fun _ hs => hs, fun _ hs => .inl hs⟩, rfl⟩

theorem quiet_legacyFailed (h : markOutboxFailed db c cursor .legacy row error now = .ok db') :
    Quiet c db db' := by
  have hf := (markOutboxFailed_writes h).frame
  obtain ⟨db₁, h₁, rfl⟩ := ok_of_map h
  unfold retryLegacyRecovery at h₁
  split at h₁
  · cases h₁
  rename_i existing hexisting
  cases h₁
  refine ⟨hf, fun a' ha' hc => continues_heartbeat ha' hc _, rfl, fun id => ?_⟩
  simp only [Db.heartbeat, Db.updateConsumer, Db.setLegacy, update_self]
  by_cases hid : id = row.outboxId
  · subst hid
    rw [update_self]
    exact (congrArg Option.isSome hexisting).symm
  · rw [update_of_ne hid]
    rfl

/-- The consumer goes on, and comes to `cursor`. -/
def Reaches (c : ConsumerId) (cursor : Nat) (db db' : Db π) : Prop :=
  ∀ a' ∈ db'.consumers, a'.consumerId = c → ∃ a ∈ db.consumers, a.consumerId = c ∧
    Continues db.outbox.lastId a a' ∧ a.cursor ≤ cursor ∧ cursor ≤ db.outbox.lastId ∧
    a'.cursor = cursor

theorem reaches_kept (hs : ConsumersSound db)
    (hcur : ∀ a ∈ db.consumers, a.consumerId = c → a.cursor = cursor)
    (hcons : ∀ a' ∈ db'.consumers, a'.consumerId = c →
      ∃ a ∈ db.consumers, Continues db.outbox.lastId a a' ∧ a'.cursor = a.cursor) :
    Reaches c cursor db db' := by
  intro a' ha' hc
  obtain ⟨a, ha, hcont, heq⟩ := hcons a' ha' hc
  have hac := hcont.consumerId.symm.trans hc
  obtain rfl := hcur a ha hac
  exact ⟨a, ha, hac, hcont, Nat.le_refl _, (hs.sound a ha).cursor_le, heq⟩

/-- A transaction of the process of `c`, by what it does to the recovery rows of `c`. -/
theorem own_step (hs : ConsumersSound db) (hf : Frame c db db') (hto : Reaches c cursor db db')
    (howner : ∀ scope, (db'.lanes c scope).isSome → (db.lanes c scope).isSome ∨ c ∈ db.consumerIds)
    (hlegacy : ∀ id, (db'.legacy c id).isSome → (db.legacy c id).isSome)
    (hlane : ∀ a ∈ db.consumers, a.consumerId = c → ∀ scope lane, db'.lanes c scope = some lane →
      (∃ old, db.lanes c scope = some old ∧ old.nextOutboxId = lane.nextOutboxId) ∨
      lane.nextOutboxId ≤ cursor ∧ ∀ row ∈ db.outbox.rows, row.scope = scope →
        (db.legacy c row.outboxId).isSome → row.outboxId < lane.nextOutboxId)
    (hcovered : ∀ a ∈ db.consumers, a.consumerId = c → ∀ a', a'.consumerId = c →
      Continues db.outbox.lastId a a' → ∀ row ∈ db.outbox.rows, row.outboxId ≤ cursor →
      (row.outboxId ≤ a.cursor → Covered db a row) → Covered db' a' row) :
    Moves c db db' ∧ Own c cursor db' := by
  refine ⟨⟨hf, fun a' ha' hc => ?_, howner, hlegacy⟩, fun a' ha' hc => ?_⟩
  · obtain ⟨a, ha, -, hcont, hle, -, heq⟩ := hto a' ha' hc
    exact ⟨a, ha, hcont, heq ▸ hle⟩
  · obtain ⟨a, ha, hac, hcont, hle, hlast, rfl⟩ := hto a' ha' hc
    exact ⟨rfl, (hs.sound a ha).update hf.outbox hcont hc hle hlast (hlane a ha hac) hlegacy
      (hcovered a ha hac a' hc hcont)⟩

/-- The legacy row of a row the consumer got is deleted. -/
theorem own_dropLegacy (hs : ConsumersSound db) (hf : Frame c db db')
    (hcons : ∀ a' ∈ db'.consumers, a'.consumerId = c →
      ∃ a ∈ db.consumers, Continues db.outbox.lastId a a' ∧ a'.cursor = a.cursor)
    (hlanes : db'.lanes c = db.lanes c)
    (hlegacy : db'.legacy c = Function.update (db.legacy c) row.outboxId none)
    (hcur : ∀ a ∈ db.consumers, a.consumerId = c → a.cursor = cursor)
    (hgot : ∀ a ∈ db.consumers, a.consumerId = c → a.Got row) :
    Moves c db db' ∧ Own c cursor db' := by
  refine own_step hs hf (reaches_kept hs hcur hcons) (fun scope hl => .inl (hlanes ▸ hl))
    (fun id hl => ?_) (fun _ _ _ scope lane hl => .inl ⟨lane, hlanes ▸ hl, rfl⟩)
    fun a ha hac a' hc hcont stored _ hle hcov => ?_
  · rw [hlegacy] at hl
    by_cases hid : id = row.outboxId
    · rw [hid, update_self] at hl
      cases hl
    · rwa [update_of_ne hid] at hl
  rw [hcur a ha hac] at hcov
  refine (hcov hle).move hcont hc (fun lane hl => .of_lane hc (hlanes ▸ hl)) fun hl => ?_
  by_cases hid : stored.outboxId = row.outboxId
  · exact .inl (hcont.got (hgot a ha hac) hid.symm)
  · refine .of_legacy hc ?_
    rwa [hlegacy, update_of_ne hid]

/-- The row comes next in the lane of its scope, and up to `cursor` it is the only one to come. -/
structure Queueable (c : ConsumerId) (cursor : Nat) (db : Db π) (row : OutboxRow π) : Prop where
  snapshot : Snapshot db row
  le : row.outboxId ≤ cursor
  before : ∀ a ∈ db.consumers, a.consumerId = c → ∀ earlier ∈ db.outbox.rows,
    earlier.scope = row.scope → (db.legacy c earlier.outboxId).isSome →
    earlier.outboxId < row.outboxId
  only : ∀ a ∈ db.consumers, a.consumerId = c → ∀ stored ∈ db.outbox.rows,
    a.cursor < stored.outboxId → stored.outboxId ≤ cursor → stored.outboxId = row.outboxId

section

variable (hs : ConsumersSound db) (hf : Frame c db db') (hto : Reaches c cursor db db')
  (hlegacy : db'.legacy c = db.legacy c)

include hs hf hto hlegacy

/-- The lane of the scope of a row is queued at it, and the cursor may move up to
the row. -/
theorem own_queue {lane : ScopeRecovery} (hq : Queueable c cursor db row)
    (hlanes : db'.lanes c = Function.update (db.lanes c) row.scope (some lane))
    (howner : (db.lanes c row.scope).isSome ∨ c ∈ db.consumerIds)
    (hnext : ∀ a ∈ db.consumers, a.consumerId = c → lane.nextOutboxId =
      (db.lanes c row.scope).elim row.outboxId fun lane => min row.outboxId lane.nextOutboxId) :
    Moves c db db' ∧ Own c cursor db' := by
  have hn_le : ∀ a ∈ db.consumers, a.consumerId = c → lane.nextOutboxId ≤ row.outboxId := by
    intro a ha hac
    rw [hnext a ha hac]
    cases db.lanes c row.scope with
    | none => exact Nat.le_refl _
    | some old => exact Nat.min_le_left _ _
  have hqueued : db'.lanes c row.scope = some lane := by
    rw [hlanes, update_self]
  have hother : ∀ scope, scope ≠ row.scope → db'.lanes c scope = db.lanes c scope := by
    intro scope hscope
    rw [hlanes, update_of_ne hscope]
  refine own_step hs hf hto (fun scope hl => ?_) (fun id hl => hlegacy ▸ hl)
    (fun a ha hac scope l hl => ?_) fun a ha hac a' hc hcont stored hstored hle hcov => ?_
  · by_cases hscope : scope = row.scope
    · rw [hscope]
      exact howner
    · exact .inl (hother scope hscope ▸ hl)
  · by_cases hscope : scope = row.scope
    · subst hscope
      rw [hqueued] at hl
      cases hl
      cases hold : db.lanes c row.scope with
      | none =>
        have hn := hnext a ha hac
        rw [hold] at hn
        exact .inr (hn ▸ ⟨hq.le, hq.before a ha hac⟩)
      | some old =>
        have hn := hnext a ha hac
        rw [hold] at hn
        -- the head is the row or the old one
        rcases Nat.le_total old.nextOutboxId row.outboxId with hle | hle
        · exact .inl ⟨old, rfl, (hn.trans (Nat.min_eq_right hle)).symm⟩
        · have hn := hn.trans (Nat.min_eq_left hle)
          exact .inr (hn ▸ ⟨hq.le, hq.before a ha hac⟩)
    · exact .inl ⟨l, hother scope hscope ▸ hl, rfl⟩
  · rcases Nat.lt_or_ge a.cursor stored.outboxId with hlt | hge
    · have hid := hq.only a ha hac stored hstored hlt hle
      refine .of_lane hc ?_ (hid ▸ hn_le a ha hac)
      rw [hq.snapshot.scope stored hstored hid]
      exact hqueued
    refine (hcov hge).move hcont hc (fun old hl hle' => ?_) fun hl =>
      .of_legacy hc (hlegacy.symm ▸ hl)
    by_cases hscope : stored.scope = row.scope
    · refine .of_lane hc (hscope ▸ hqueued) ?_
      rw [hscope] at hl
      rw [hnext a ha hac, hl]
      exact Nat.le_trans (Nat.min_le_right _ _) hle'
    · exact .of_lane hc ((hother _ hscope).symm ▸ hl) hle'

/-- The main lane passes a row the consumer got. -/
theorem own_pass (hq : Queueable c cursor db row) (hlanes : db'.lanes c = db.lanes c)
    (hgot : ∀ a ∈ db.consumers, a.consumerId = c → a.Got row) :
    Moves c db db' ∧ Own c cursor db' := by
  refine own_step hs hf hto (fun scope hl => .inl (hlanes ▸ hl)) (fun id hl => hlegacy ▸ hl)
    (fun _ _ _ scope lane hl => .inl ⟨lane, hlanes ▸ hl, rfl⟩)
    fun a ha hac a' hc hcont stored hstored hle hcov => ?_
  rcases Nat.lt_or_ge a.cursor stored.outboxId with hlt | hge
  · exact .inl (hcont.got (hgot a ha hac) (hq.only a ha hac stored hstored hlt hle).symm)
  · exact (hcov hge).move hcont hc (fun lane hl => .of_lane hc (hlanes ▸ hl))
      fun hl => .of_legacy hc (hlegacy.symm ▸ hl)

/-- The lane of a scope moves from a row the consumer got to the next one. -/
theorem own_advanceLane {next : Option (OutboxRow π)}
    (hlanes : db'.lanes c = Function.update (db.lanes c) row.scope
      (next.map fun later => ⟨later.outboxId, 0, 0, none⟩)) (howner : (db.lanes c row.scope).isSome)
    (hcur : ∀ a ∈ db.consumers, a.consumerId = c → a.cursor = cursor)
    (hgot : ∀ a ∈ db.consumers, a.consumerId = c → a.Got row)
    (hbefore : ∀ a ∈ db.consumers, a.consumerId = c → ∀ earlier ∈ db.outbox.rows,
      earlier.scope = row.scope → (db.legacy c earlier.outboxId).isSome →
      earlier.outboxId < row.outboxId)
    (hfirst : ∀ lane, db.lanes c row.scope = some lane → lane.nextOutboxId = row.outboxId)
    (hlater : ∀ later, next = some later → row.outboxId < later.outboxId ∧ later.outboxId ≤ cursor)
    (hleast : ∀ stored ∈ db.outbox.rows, stored.scope = row.scope →
      row.outboxId < stored.outboxId → stored.outboxId ≤ cursor →
      ∃ later, next = some later ∧ later.outboxId ≤ stored.outboxId) :
    Moves c db db' ∧ Own c cursor db' := by
  have hmoved : db'.lanes c row.scope = next.map fun later => ⟨later.outboxId, 0, 0, none⟩ := by
    rw [hlanes, update_self]
  have hother : ∀ scope, scope ≠ row.scope → db'.lanes c scope = db.lanes c scope := by
    intro scope hscope
    rw [hlanes, update_of_ne hscope]
  refine own_step hs hf hto (fun scope hl => ?_) (fun id hl => hlegacy ▸ hl)
    (fun a ha hac scope l hl => ?_) fun a ha hac a' hc hcont stored hstored hle hcov => ?_
  · by_cases hscope : scope = row.scope
    · rw [hscope]
      exact .inl howner
    · exact .inl (hother scope hscope ▸ hl)
  · by_cases hscope : scope = row.scope
    · -- the lane stands past the row and within the cursor
      subst hscope
      rw [hmoved] at hl
      obtain ⟨later, hnext, rfl⟩ := map_eq_some_iff.1 hl
      obtain ⟨hlt, hle⟩ := hlater later hnext
      exact .inr ⟨hle, fun earlier he hscope hl =>
        Nat.lt_trans (hbefore a ha hac earlier he hscope hl) hlt⟩
    · exact .inl ⟨l, hother scope hscope ▸ hl, rfl⟩
  rw [hcur a ha hac] at hcov
  refine (hcov hle).move hcont hc (fun old hl hold => ?_) fun hl =>
    .of_legacy hc (hlegacy.symm ▸ hl)
  by_cases hscope : stored.scope = row.scope
  · -- the row itself is on the bus, and what follows it is in the moved lane
    rw [hscope] at hl
    rw [hfirst old hl] at hold
    rcases Nat.eq_or_lt_of_le hold with hid | hlt
    · exact .inl (hcont.got (hgot a ha hac) hid)
    obtain ⟨later, hnext, hle'⟩ := hleast stored hstored hscope hlt hle
    have hl' : db'.lanes c stored.scope = some ⟨later.outboxId, 0, 0, none⟩ := by
      rw [hscope, hmoved, hnext]
      rfl
    exact .of_lane hc hl' hle'
  · exact .of_lane hc ((hother _ hscope).symm ▸ hl) hold

end

/-! ## The transactions of a flush -/

/-- The rows between the cursor and the row in hand: there are none but it. -/
theorem MainPage.only {rows : List (OutboxRow π)} (h : MainPage db cursor (row :: rows))
    {stored : OutboxRow π} (hs : stored ∈ db.outbox.rows) (hlt : cursor < stored.outboxId)
    (hle : stored.outboxId ≤ max cursor row.outboxId) : stored.outboxId = row.outboxId := by
  have hpast := h.past row mem_cons_self
  obtain ⟨r, hr, hid⟩ := h.complete stored hs hlt row mem_cons_self (by omega)
  rcases mem_cons.1 hr with rfl | hr
  · exact hid.symm
  · have : row.outboxId < r.outboxId := rel_of_pairwise_cons h.sorted hr
    omega

/-- The rest of the page starts right behind the passed row. -/
theorem MainPage.tail {rows : List (OutboxRow π)} (hout : Evolves db.outbox db'.outbox)
    (hrows : ∀ r ∈ row :: rows, Snapshot db r) (h : MainPage db cursor (row :: rows)) :
    MainPage db' (max cursor row.outboxId) rows := by
  have h' := h.stable hout hrows
  have hpast := h.past row mem_cons_self
  refine ⟨h'.sorted.of_cons, fun r hr => ?_, fun stored hs hlt r hr hle => ?_⟩
  · have : row.outboxId < r.outboxId := rel_of_pairwise_cons h.sorted hr
    omega
  obtain ⟨r', hr', hid⟩ := h'.complete stored hs (by omega) r (mem_cons_of_mem _ hr) hle
  rcases mem_cons.1 hr' with rfl | hr'
  · omega
  · exact ⟨r', hr', hid⟩

/-- The row in hand is the next one of the main lane. -/
theorem FlushKnows.queueable (hs : ConsumersSound db) (hk : FlushKnows c cursor db stage)
    {rows : List (OutboxRow π)} (hpage : stage.page = row :: rows) (hrow : row ∈ stage.rows) :
    Queueable c (max cursor row.outboxId) db row := by
  have hmain : MainPage db cursor (row :: rows) := hpage ▸ hk.page
  refine ⟨hk.rows row hrow, Nat.le_max_right _ _, fun a ha hac earlier _ _ hl => ?_,
    fun a ha hac stored hstored hlt hle => ?_⟩
  · have hle := (hs.sound a ha).legacy_le _ (hac.symm ▸ hl)
    rw [hk.cursor_eq a ha hac] at hle
    exact Nat.lt_of_le_of_lt hle (hmain.past row mem_cons_self)
  · rw [hk.cursor_eq a ha hac] at hlt
    exact hmain.only hstored hlt hle

theorem FlushKnows.reaches (hk : FlushKnows c cursor db stage) {rows : List (OutboxRow π)}
    (hpage : stage.page = row :: rows) (hrow : row ∈ stage.rows)
    (hdb₁ : db₁.consumers = db.consumers) :
    Reaches c (max cursor row.outboxId) db
      (advanceOutboxCursor db₁ c (max cursor row.outboxId) now) := by
  intro a' ha' hc
  obtain ⟨a, ha, hcont, heq⟩ := continues_advance ha' hc db.outbox.lastId
  rw [hdb₁] at ha
  have hac := hcont.consumerId.symm.trans hc
  have hpast := (hpage ▸ hk.page : MainPage db cursor (row :: rows)).past row mem_cons_self
  have hlast := (hk.rows row hrow).le_lastId
  have hle : a.cursor ≤ max cursor row.outboxId := hk.cursor_eq a ha hac ▸ Nat.le_max_left _ _
  exact ⟨a, ha, hac, hcont, hle, by omega, heq.trans (Nat.max_eq_right hle)⟩

theorem own_mainPublished (hs : ConsumersSound db) {rows : List (OutboxRow π)}
    (hk : FlushKnows c cursor db (.mainSettle row none rows))
    (h : markOutboxPublished db c cursor .main row now = .ok db') :
    Moves c db db' ∧ Own c (max cursor row.outboxId) db' := by
  have hf := (markOutboxPublished_writes h).frame
  cases h
  exact own_pass hs hf (hk.reaches rfl mem_cons_self rfl) rfl
    (hk.queueable hs rfl mem_cons_self) rfl (hk.sent row (mem_singleton_self row))

/-- `_queue_scope_recovery` inside a transaction from `db` to `db'`: the writes
before it (`db₀`) and after it leave the recovery rows alone. -/
theorem own_queueScope {db₀ : Db π} (hs : ConsumersSound db) {error : Option String}
    (h : queueScopeRecovery db₀ c row existing error attempted now = .ok db₁)
    (h₀ : db₀.consumers = db.consumers ∧ db₀.lanes = db.lanes ∧ db₀.legacy = db.legacy)
    (h₁ : db'.lanes = db₁.lanes ∧ db'.legacy = db₁.legacy) (hf : Frame c db db')
    (hexisting : ∀ a ∈ db.consumers, a.consumerId = c →
      existing.map (·.nextOutboxId) = (db.lanes c row.scope).map (·.nextOutboxId))
    (hto : Reaches c cursor db db')
    (hq : ∀ a ∈ db.consumers, a.consumerId = c → Queueable c cursor db row) :
    Moves c db db' ∧ Own c cursor db' := by
  obtain ⟨hcons₀, hlanes₀, hlegacy₀⟩ := h₀
  obtain ⟨hlanes₁, hlegacy₁⟩ := h₁
  rcases queueScopeRecovery_cases h with ⟨howner, rfl⟩ | ⟨hsome, hnone, rfl⟩
  · have hmem : c ∈ db.consumerIds := by
      rcases howner with hl | hc
      · exact hs.lane_owner c _ (hlanes₀ ▸ hl)
      · have hc := mem_ids_of_consumer? hc
        rwa [Db.consumerIds, hcons₀] at hc
    obtain ⟨a, ha, hac⟩ := mem_map.1 hmem
    have hlane : db'.lanes c = Function.update (db.lanes c) row.scope
        (some (queueLane existing row.outboxId error attempted now)) := by
      rw [hlanes₁, ← hlanes₀]
      exact update_self ..
    refine own_queue hs hf hto ?_ (hq a ha hac) hlane (.inr hmem) fun a ha hac => ?_
    · rw [hlegacy₁, ← hlegacy₀]
      rfl
    rw [queueLane_next]
    have hmap := hexisting a ha hac
    cases existing with
    | none =>
      rw [map_none] at hmap
      rw [map_eq_none_iff.1 hmap.symm]
    | some lane =>
      obtain ⟨old, hold, heq⟩ := map_eq_some_iff.1 hmap.symm
      rw [hold]
      exact congrArg (min row.outboxId) heq.symm
  · -- the lane that was read is gone: so is the consumer
    have hgone : ∀ a ∈ db.consumers, a.consumerId ≠ c := by
      intro a ha hc
      have hmap := hexisting a ha hc
      rw [hlanes₀] at hnone
      rw [hnone, map_none, map_eq_none_iff] at hmap
      rw [hmap] at hsome
      cases hsome
    refine own_step hs hf hto (fun scope hl => .inl ?_) (fun id hl => ?_)
      (fun a ha hac => absurd hac (hgone a ha)) fun a ha hac => absurd hac (hgone a ha)
    · rwa [hlanes₁, hlanes₀] at hl
    · rwa [hlegacy₁, hlegacy₀] at hl

theorem queueScopeRecovery_consumers {error : Option String}
    (h : queueScopeRecovery db c row existing error attempted now = .ok db') :
    db'.consumers = db.consumers := by
  rcases queueScopeRecovery_cases h with ⟨-, rfl⟩ | ⟨-, -, rfl⟩
  · rfl
  · rfl

section

variable (hs : ConsumersSound db)

include hs

theorem own_mainFailed {rows : List (OutboxRow π)}
    (hk : FlushKnows c cursor db (.mainSettle row (some error) rows))
    (h : markOutboxFailed db c cursor .main row error now = .ok db') :
    Moves c db db' ∧ Own c (max cursor row.outboxId) db' := by
  have hf := (markOutboxFailed_writes h).frame
  obtain ⟨db₁, h₁, rfl⟩ := ok_of_map h
  have hcons : db₁.consumers = (db.setFailed row.outboxId error).consumers :=
    queueScopeRecovery_consumers h₁
  exact own_queueScope hs h₁ ⟨rfl, rfl, rfl⟩ ⟨rfl, rfl⟩ hf (fun _ _ _ => rfl)
    (hk.reaches rfl mem_cons_self hcons)
    fun _ _ _ => hk.queueable hs rfl mem_cons_self

theorem own_mainQueued {rows : List (OutboxRow π)}
    (hk : FlushKnows c cursor db (.mainQueue row existing rows))
    (h : queueBehind db c cursor row existing now = .ok db') :
    Moves c db db' ∧ Own c (max cursor row.outboxId) db' := by
  have hf := (queueBehind_writes h).frame
  obtain ⟨db₁, h₁, rfl⟩ := ok_of_map h
  exact own_queueScope hs h₁ ⟨rfl, rfl, rfl⟩ ⟨rfl, rfl⟩ hf (hk.queued _ rfl)
    (hk.reaches rfl mem_cons_self (queueScopeRecovery_consumers h₁))
    fun _ _ _ => hk.queueable hs rfl mem_cons_self

theorem own_scopeFailed {err : Option String} {rows : List (OutboxRow π)}
    (hk : FlushKnows c cursor db (.settle .scope budget row err rows))
    (h : markOutboxFailed db c cursor .scope row error now = .ok db') :
    Moves c db db' ∧ Own c cursor db' := by
  have hf := (markOutboxFailed_writes h).frame
  obtain ⟨db₁, h₁, rfl⟩ := ok_of_map h
  have hto : Reaches c cursor db (db₁.heartbeat c now) := by
    refine reaches_kept hs hk.cursor_eq fun a' ha' hc => ?_
    obtain ⟨a, ha, hcont⟩ := continues_heartbeat ha' hc db.outbox.lastId
    exact ⟨a, queueScopeRecovery_consumers h₁ ▸ ha, hcont⟩
  refine own_queueScope hs h₁ ⟨rfl, rfl, rfl⟩ ⟨rfl, rfl⟩ hf (fun _ _ _ => rfl) hto
    fun a₀ ha₀ hc₀ => ?_
  refine ⟨hk.rows row mem_cons_self, ?_, fun a ha hac earlier he hscope hl => ?_,
    fun a ha hac stored _ hlt hle => ?_⟩
  · exact hk.cursor_eq a₀ ha₀ hc₀ ▸ (hk.heads row mem_cons_self a₀ ha₀ hc₀).le_cursor
  · exact (hk.heads row mem_cons_self a ha hac).legacy earlier he (hac.symm ▸ hl) hscope
  · rw [hk.cursor_eq a ha hac] at hlt
    omega

theorem own_scopePublished {rows : List (OutboxRow π)}
    (hk : FlushKnows c cursor db (.settle .scope budget row none rows))
    (h : markOutboxPublished db c cursor .scope row now = .ok db') :
    Moves c db db' ∧ Own c cursor db' := by
  have hf := (markOutboxPublished_writes h).frame
  obtain ⟨db₁, h₁, rfl⟩ := ok_of_map h
  obtain ⟨⟨lane, hlane, hfirst⟩, rfl⟩ := advanceScopeRecovery_ok h₁
  refine own_advanceLane hs hf
    (reaches_kept hs hk.cursor_eq fun a' ha' hc => continues_heartbeat ha' hc _) rfl
    (update_self ..) (isSome_iff_exists.2 ⟨lane, hlane⟩) hk.cursor_eq
    (hk.sent row (mem_singleton_self row)) (fun a ha hc earlier he hscope hl => ?_)
    (fun l hl => ?_) (fun later hl => ?_) (fun stored hstored hscope hlt hle => ?_)
  · exact (hk.heads row mem_cons_self a ha hc).legacy earlier he (hc.symm ▸ hl) hscope
  · rw [show db.lanes c row.scope = some lane from hlane] at hl
    cases hl
    exact hfirst
  · have hsel := find?_some hl
    simp only [decide_eq_true_eq] at hsel
    exact hsel.2
  obtain ⟨stored', hmem, hid, hsc⟩ := kept_setPublished db row.outboxId now hstored
  have hsel : (decide (stored'.scope = row.scope ∧ row.outboxId < stored'.outboxId ∧
      stored'.outboxId ≤ cursor)) = true := by
    rw [hid, hsc]
    simpa using ⟨hscope, hlt, hle⟩
  cases hfound : (db.setPublished row.outboxId now).outbox.rows.find? fun later =>
      later.scope = row.scope ∧ row.outboxId < later.outboxId ∧ later.outboxId ≤ cursor with
  | none => exact absurd hsel (find?_eq_none.1 hfound stored' hmem)
  | some later =>
    refine ⟨later, rfl, ?_⟩
    rw [← hid]
    exact (db.setPublished row.outboxId now).outbox.sorted.find?_le hfound hmem hsel

theorem own_legacyPublished {rows : List (OutboxRow π)}
    (hk : FlushKnows c cursor db (.settle .legacy budget row none rows))
    (h : markOutboxPublished db c cursor .legacy row now = .ok db') :
    Moves c db db' ∧ Own c cursor db' := by
  have hf := (markOutboxPublished_writes h).frame
  cases h
  exact own_dropLegacy hs hf (fun a' ha' hc => continues_heartbeat ha' hc _) rfl
    (update_self ..) hk.cursor_eq (hk.sent row (mem_singleton_self row))

/-- `_mark_global_outbox_published` drops the own legacy row of a row that was
published to the own bus. -/
theorem own_globalPublished {advanceLane : Bool}
    (hcur : ∀ a ∈ db.consumers, a.consumerId = c → a.cursor = cursor)
    (hgot : ∀ a ∈ db.consumers, a.consumerId = c → a.Got row)
    (h : markGlobalOutboxPublished db c me fence row advanceLane now = .ok db') :
    Moves c db db' ∧ Own c cursor db' := by
  have hf := (markGlobalOutboxPublished_writes h).frame
  obtain ⟨hcons, hlanes, hlegacy⟩ := markGlobalOutboxPublished_local h
  refine own_dropLegacy hs hf (fun a ha _ => ⟨a, hcons ▸ ha, .refl _ a, rfl⟩) ?_ ?_ hcur hgot
  · rw [hlanes]
  · rw [hlegacy, update_self]

end

theorem quiet_globalFailed (h : markGlobalOutboxFailed db me fence row error now = .ok db') :
    Quiet c db db' := by
  have hf := (markGlobalOutboxFailed_writes c h).frame
  obtain ⟨_, _, rfl⟩ := markGlobalOutboxFailed_ok h
  exact .of_global hf rfl rfl rfl

theorem quiet_extend {assign : GlobalRecoveryState → GlobalRecoveryState}
    (h : extendGlobalRecoveryLease db me fence now assign = .ok db') : Quiet c db db' := by
  have hf := (extend_writes c h).frame
  rw [extend_ok h] at hf ⊢
  exact .of_global hf rfl rfl rfl

end Outbox.Delivery
