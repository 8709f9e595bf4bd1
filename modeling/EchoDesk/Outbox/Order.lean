import EchoDesk.Outbox.Delivery
import EchoDesk.Outbox.GlobalRecovery

/-! # The order of publications in a scope

The three local lanes never overtake: what they publish has no earlier row of its
scope that its consumer did not get. The global scan is another matter. It only
looks at rows nobody has marked published, so a row that some other consumer took
is passed over, although this consumer may still have it ahead. The order holds
along a run exactly when that does not happen.
-/

namespace Outbox.Delivery

open EchoDesk OrderedLog Transition List

variable {π : Type}
variable {row : OutboxRow π}
variable {a a' : Consumer π}

/-! ## The order along a run -/

/-- The step does not publish a row for the global scan while an earlier row of its
scope is marked published that its consumer did not get. -/
def NoRowTaken (s : St π) : Lbl π → Prop
  | .next c _ none =>
    match (s.procs c).phase with
    | .flush _ stage => ∀ row ∈ stage.publishesGlobally, ∀ a ∈ s.db.consumers,
        a.consumerId = c → ∀ earlier ∈ s.db.outbox.rows, earlier.scope = row.scope →
        a.registeredAt < earlier.outboxId → earlier.outboxId < row.outboxId →
        earlier.publishedAt ≠ none → a.Got earlier
    | _ => True
  | _ => True

/-- The publications to every consumer are in order. -/
def AllInOrder (db : Db π) : Prop := ∀ a ∈ db.consumers, InOrder db a

/-- A change that gives nothing to any bus. -/
theorem inOrder_of_deliveries {db db' : Db π} (hs : ConsumersSound db)
    (hout : Evolves db.outbox db'.outbox)
    (hsub : ∀ a' ∈ db'.consumers, a'.bus = [] ∨ ∃ a ∈ db.consumers,
      a'.registeredAt = a.registeredAt ∧ a'.bus = a.bus)
    (h : AllInOrder db) : AllInOrder db' := by
  intro a' ha' before row after hbus earlier he hscope hreg hlt
  rcases hsub a' ha' with hnil | ⟨a, ha, hreg', hbus'⟩
  · rw [hnil] at hbus
    simp at hbus
  rw [hbus'] at hbus
  rw [hreg'] at hreg
  have hrow : row ∈ a.bus := by
    rw [hbus]
    exact mem_append_right _ mem_cons_self
  have hlast := (hs.sound a ha).bus_le row hrow
  obtain ⟨old, hold, hid, hsc, _⟩ := hout.old he (by omega)
  rw [← hid] at hreg hlt
  obtain ⟨sent, hsent, heq⟩ := h a ha before row after hbus old hold (hsc.trans hscope) hreg hlt
  exact ⟨sent, hsent, heq.trans hid⟩

variable {db db' : Db π} {c : ConsumerId}

theorem exists_of_deliveries (h : db'.deliveries = db.deliveries) (ha' : a' ∈ db'.consumers) :
    ∃ a ∈ db.consumers, a'.registeredAt = a.registeredAt ∧ a'.bus = a.bus := by
  have hmem : (a'.consumerId, a'.registeredAt, a'.bus) ∈ db.deliveries := by
    rw [← h]
    exact mem_map_of_mem ha'
  obtain ⟨a, ha, heq⟩ := mem_map.1 hmem
  rw [Prod.mk.injEq, Prod.mk.injEq] at heq
  exact ⟨a, ha, heq.2.1.symm, heq.2.2.symm⟩

/-- The consumers after a publish. -/
theorem mem_publishTo (h : a' ∈ (publishTo db c row none).consumers) :
    a' ∈ db.consumers ∨ ∃ a ∈ db.consumers, a.consumerId = c ∧
      a' = { a with bus := a.bus ++ [row] } := by
  obtain ⟨a, ha, rfl⟩ := mem_map.1 h
  by_cases hc : a.consumerId = c
  · exact .inr ⟨a, ha, hc, if_pos hc⟩
  · rw [if_neg hc]
    exact .inl ha

/-- A publish keeps the order when the consumer got all earlier rows of the scope. -/
theorem inOrder_publish {error : Option String}
    (hearlier : error = none → ∀ a ∈ db.consumers, a.consumerId = c → EarlierGot db a row)
    (h : AllInOrder db) : AllInOrder (publishTo db c row error) := by
  intro a' ha' before r after hbus earlier he hscope hreg hlt
  cases error with
  | some error => exact h a' ha' before r after hbus earlier he hscope hreg hlt
  | none =>
    rcases mem_publishTo ha' with ha | ⟨a, ha, hc, rfl⟩
    · exact h a' ha before r after hbus earlier he hscope hreg hlt
    rcases append_eq_append_iff.1 hbus with ⟨mid, hmid, hlast⟩ | ⟨mid, hmid, hlast⟩
    · -- the row in question is the published one, or comes even after it
      cases mid with
      | nil =>
        rw [nil_append, cons.injEq] at hlast
        rw [hlast.1] at hearlier
        obtain ⟨sent, hsent, hid⟩ := hearlier rfl a ha hc earlier he hscope hreg hlt
        rw [append_nil] at hmid
        exact ⟨sent, hmid ▸ hsent, hid⟩
      | cons m mid =>
        rw [cons_append, cons.injEq] at hlast
        simp at hlast
    cases mid with
    | nil =>
      rw [nil_append, cons.injEq] at hlast
      rw [← hlast.1] at hearlier
      obtain ⟨sent, hsent, hid⟩ := hearlier rfl a ha hc earlier he hscope hreg hlt
      rw [append_nil] at hmid
      exact ⟨sent, hmid ▸ hsent, hid⟩
    | cons m mid =>
      rw [cons_append, cons.injEq] at hlast
      rw [← hlast.1] at hmid
      exact h a ha before r mid hmid earlier he hscope hreg hlt

/-- What a local lane publishes has no earlier row that its consumer did not get. -/
theorem earlierGot_of_local (hk : FlushKnows c cursor db stage)
    (h : stage.publishesLocally = some row) (ha : a ∈ db.consumers) (hc : a.consumerId = c) :
    EarlierGot db a row := by
  refine hk.due row ?_ a ha hc
  unfold Stage.publishesLocally at h
  split at h
  · cases h
    exact mem_cons_self
  · cases h
    exact mem_cons_self
  · cases h
    exact mem_cons_self
  · cases h

/-- What the global scan publishes has no earlier row that is unpublished. -/
theorem head_of_global {limit : Nat} (hk : StageKnows db limit stage)
    (h : stage.publishesGlobally = some row) : Head db row := by
  unfold Stage.publishesGlobally at h
  split at h
  · cases h
    exact hk row mem_cons_self
  · rename_i d r rows
    by_cases hb : d.blocked r.scope
    · rw [if_pos hb] at h
      cases h
    · rw [if_neg hb] at h
      cases h
      exact Discovering.head hk (Bool.eq_false_iff.2 hb)
  · cases h

/-- A row of the scope that is marked published, or was never overtaken. -/
theorem earlierGot_of_global (hhead : Head db row)
    (h : ∀ earlier ∈ db.outbox.rows, earlier.scope = row.scope →
      a.registeredAt < earlier.outboxId → earlier.outboxId < row.outboxId →
      earlier.publishedAt ≠ none → a.Got earlier) : EarlierGot db a row := by
  intro earlier he hscope hreg hlt
  refine h earlier he hscope hreg hlt fun hunpub => ?_
  have := hhead.first earlier ⟨he, hunpub⟩ hscope
  omega

theorem inOrder_flush (hs : ConsumersSound db) (p : Proc π) (limit : Nat) (now : Timestamp)
    (error : Option String) (hk : FlushKnows c p.cursor db stage)
    (hscan : StageKnows db limit stage)
    (htaken : error = none → ∀ row ∈ stage.publishesGlobally, ∀ a ∈ db.consumers,
      a.consumerId = c → ∀ earlier ∈ db.outbox.rows, earlier.scope = row.scope →
      a.registeredAt < earlier.outboxId → earlier.outboxId < row.outboxId →
      earlier.publishedAt ≠ none → a.Got earlier) (h : AllInOrder db) :
    AllInOrder (p.flush c limit now error db stage).2 := by
  rcases flush_still p c limit now error db stage with ⟨row, hpub, heq⟩ | ⟨_, heq⟩
  · rw [heq]
    refine inOrder_publish (fun hnone a ha hc => ?_) h
    rcases Option.or_eq_some_iff.1 hpub with hlocal | ⟨_, hglobal⟩
    · exact earlierGot_of_local hk hlocal ha hc
    · exact earlierGot_of_global (head_of_global hscan hglobal) (htaken hnone row hglobal a ha hc)
  · exact inOrder_of_deliveries hs (flush_frame p c limit now error db stage).outbox
      (fun a' ha' => .inr (exists_of_deliveries heq.deliveries ha')) h

theorem inOrder_ensure (hs : ConsumersSound db) (c : ConsumerId) (candidate : Option Nat)
    (now : Timestamp) (h : AllInOrder db) :
    AllInOrder (ensureOutboxConsumer db c candidate now).1 := by
  unfold ensureOutboxConsumer
  split
  · refine @inOrder_of_deliveries _ db _ hs (.refl _) (fun a' ha' => ?_) h
    rcases mem_append.1 ha' with ha | ha
    · exact .inr ⟨a', ha, rfl, rfl⟩
    · rw [mem_singleton.1 ha]
      exact .inl rfl
  · exact inOrder_of_deliveries hs (.refl _)
      (fun a' ha' => .inr (exists_of_deliveries (write_heartbeat db c now).still.deliveries ha')) h

theorem inOrder_deleteConsumers (hs : ConsumersSound db) (hout : Evolves db.outbox db'.outbox)
    (hsub : ∀ a ∈ db'.consumers, a ∈ db.consumers) (h : AllInOrder db) : AllInOrder db' :=
  inOrder_of_deliveries hs hout (fun a ha => .inr ⟨a, hsub a ha, rfl, rfl⟩) h

variable {s : St π} {l : Lbl π} (settings : Settings)

theorem inOrder_step (hd : DeliveryInv s) (hscan : ScanInv s) (htaken : NoRowTaken s l)
    (h : AllInOrder s.db) :
    AllInOrder (step settings s l).db := by
  cases l with
  | append rows =>
    exact inOrder_deleteConsumers hd.store (.appendAll s.db.outbox rows) (fun _ ha => ha) h
  | call c call =>
    show AllInOrder ((s.procs c).call c s.db call).2
    unfold Proc.call
    split
    · split
      · split
        · exact inOrder_deleteConsumers hd.store (.refl _) (fun a ha => (mem_filter.1 ha).1) h
        · exact h
      · exact h
    · split <;> exact h
  | next c now error =>
    show AllInOrder ((s.procs c).next settings c now error s.db).2
    have hk := hd.process c
    have hkscan := hscan.process c
    unfold DeliveryKnows at hk
    unfold Knows at hkscan
    unfold Proc.next
    split
    · exact h
    · split <;> exact h
    · exact h
    · exact inOrder_ensure hd.store c _ now h
    · rename_i limit stage hphase
      rw [hphase] at hk hkscan
      refine inOrder_flush hd.store _ limit now error hk hkscan (fun hnone => ?_) h
      subst hnone
      simp only [NoRowTaken, hphase] at htaken
      exact htaken
    refine inOrder_deleteConsumers hd.store
      ((keeps_prune hd.store settings now).2 c).outbox (fun a ha => ?_) h
    obtain heq | ⟨keep, heq, _⟩ := pruneOutbox_cases settings s.db now
    · rw [heq] at ha
      exact (mem_filter.1 ha).1
    · rw [heq] at ha
      exact (mem_filter.1 ha).1
  | abort c bodyRan | crash c => exact h

/-- A row published globally out of order is out of order on the bus. -/
theorem noRowTaken_of_inOrder (h : AllInOrder (step settings s l).db) : NoRowTaken s l := by
  unfold NoRowTaken
  split
  · rename_i c now
    split
    · rename_i limit stage hphase
      intro row hrow a ha hc earlier he hscope hreg hlt _
      -- the step gives the row to the bus, right behind what was there
      have hpub : stage.publishes = some row := by
        rw [Stage.publishes, show stage.publishesGlobally = some row from hrow]
        cases hlocal : stage.publishesLocally with
        | none => rfl
        | some r =>
          unfold Stage.publishesLocally at hlocal
          split at hlocal <;> first | cases hrow | cases hlocal
      have hdb : (step settings s (.next c now none)).db = publishTo s.db c row none := by
        show ((s.procs c).next settings c now none s.db).2 = _
        unfold Proc.next
        rw [hphase]
        rcases flush_still (s.procs c) c limit now none s.db stage with
          ⟨r, hr, heq⟩ | ⟨hnone, _⟩
        · rw [hpub] at hr
          cases hr
          exact heq
        · rw [hpub] at hnone
          cases hnone
      have hmem : { a with bus := a.bus ++ [row] } ∈
          (step settings s (.next c now none)).db.consumers := by
        rw [hdb]
        exact mem_map.2 ⟨a, ha, if_pos hc⟩
      have hearlier : earlier ∈ (step settings s (.next c now none)).db.outbox.rows := by
        rw [hdb]
        exact he
      exact h _ hmem a.bus row [] rfl earlier hearlier hscope hreg hlt
    · trivial
  · trivial

/-- The publications of a run are in order exactly when the global scan never passes
over a row that its consumer did not get. -/
theorem inOrder_iff_no_row_taken (settings : Settings) {s : St π} (h₀ : Init s)
    (trace : List (Lbl π)) :
    (∀ before after, trace = before ++ after → AllInOrder (run (step settings) s before).db) ↔
      Meets (step settings) NoRowTaken s trace := by
  constructor
  · intro h
    rw [meets_iff_forall_split]
    rintro before l after rfl
    have hnext := h (before ++ [l]) after (by simp)
    rw [run_snoc] at hnext
    exact noRowTaken_of_inOrder settings hnext
  rintro hm before after rfl
  have hstep : ∀ (s : St π) (l : Lbl π), NoRowTaken s l →
      DeliveryInv s ∧ ScanInv s ∧ AllInOrder s.db →
      DeliveryInv (step settings s l) ∧ ScanInv (step settings s l) ∧
        AllInOrder (step settings s l).db := fun s l htaken hi =>
    ⟨delivery_step settings s l hi.1, scan_step settings s l hi.2.1,
      inOrder_step settings hi.1 hi.2.1 htaken hi.2.2⟩
  have hrun := run_invariant_of_meets hstep ((meets_append _ _ _).1 hm).1
    ⟨delivery_init h₀, scan_init h₀, h₀.1.ordered⟩
  exact hrun.2.2

/-! ### A row that another consumer took -/

/-- Consumer `a` registers on the empty outbox, two rows of one scope come, and `b`
registers behind them. The global scan of `b` publishes the first row, the one of
`a` the second. -/
def overtaken : List (Lbl Unit) :=
  [.call "a" .prune] ++ List.replicate 4 (.next "a" 0 none) ++
    [.append [noteRow, noteRow], .call "b" (.flush 1)] ++
    List.replicate 14 (.next "b" 0 none) ++ [.call "a" (.flush 10)] ++
    List.replicate 9 (.next "a" 0 none)

theorem inOrder_iff_no_row_taken_overtaken : (∀ before after, overtaken = before ++ after →
        AllInOrder (run (step noReplay) (.ofOutbox .empty) before).db) ↔
      Meets (step noReplay) NoRowTaken (.ofOutbox .empty) overtaken :=
  inOrder_iff_no_row_taken noReplay (init_ofOutbox _) overtaken

/-- Row 2 is on the bus of `a`, row 1 is not. -/
theorem not_inOrder_overtaken :
    ¬ ∀ (settings : Settings) (s : St Unit), Reachable Init (step settings) s →
      AllInOrder s.db := by
  intro h
  let s := run (step noReplay) (.ofOutbox .empty) overtaken
  have horder := h noReplay s ⟨_, overtaken, init_ofOutbox _, rfl⟩
  have hbus : ∃ a ∈ s.db.consumers, a.registeredAt = 0 ∧
      a.bus.map (fun row => (row.outboxId, row.scope)) = [(2, noteRow.scope)] := by
    have hall : (s.db.consumers.any fun a => a.registeredAt = 0 ∧
        a.bus.map (fun row => (row.outboxId, row.scope)) = [(2, noteRow.scope)]) = true := by
      decide +kernel
    simpa using hall
  have hrow : ∃ row ∈ s.db.outbox.rows, row.outboxId = 1 ∧ row.scope = noteRow.scope := by
    have hany : (s.db.outbox.rows.any fun row =>
        row.outboxId = 1 ∧ row.scope = noteRow.scope) = true := by
      decide +kernel
    simpa using hany
  obtain ⟨a, ha, hreg, hsent⟩ := hbus
  obtain ⟨earlier, he, hid, hscope⟩ := hrow
  obtain ⟨row, hrow, hnil⟩ : ∃ row, a.bus = [row] ∧
      (row.outboxId, row.scope) = (2, noteRow.scope) := by
    cases hb : a.bus with
    | nil => simp [hb] at hsent
    | cons row rest =>
      rw [hb, List.map_cons, cons.injEq, List.map_eq_nil_iff] at hsent
      exact ⟨row, by rw [hsent.2], hsent.1⟩
  rw [Prod.mk.injEq] at hnil
  obtain ⟨sent, hmem, _⟩ := horder a ha [] row [] hrow earlier he (hscope.trans hnil.2.symm)
    (by omega) (by omega)
  cases hmem

end Outbox.Delivery
