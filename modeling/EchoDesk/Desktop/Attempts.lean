import EchoDesk.Desktop.Completeness

/-! # How often an operation is sent

`claim_pending` counts an attempt of every operation it may send, and then returns the
oldest ones that are being sent, at most `limit` of them. An operation beyond the limit is
counted and not returned; one that a broken cycle left in `sending` is returned and not
counted. The count is exact along the runs whose claims meet neither.
-/

namespace Desktop

open EchoDesk Transaction Transition Hub List OutboxRow

/-- The `operation_id` of the `n`-th UUID. -/
def operationIdOf (py : Python) (deviceId : String) (n : Nat) : String :=
  "sync:" ++ deviceId ++ ":" ++ py.uuid4 n

/-- A store, and the operation ids `claim_pending` has returned so far. -/
structure Pusher where
  db : ClientDb
  sent : List String

/-- What happens to the outbox. A hub error in the middle of a cycle is a claim that no
`record` and no `markFailed` follows. -/
inductive PusherLabel where
  | write (repo : Repository)
  | reconcile (now : Timestamp) (limit : Nat)
  | applyChanges (snapshot : Bool) (changes : List Dict)
  | claim (now : Timestamp) (limit : Nat)
  | record (now : Timestamp) (applied duplicate conflict : List String)
  | markFailed (now : Timestamp) (operationIds : List String)
  | restart (now : Timestamp)

/-- The operations a claim returns. -/
def returnedIds (now : Timestamp) (limit : Nat) (db : ClientDb) : List String :=
  (claimPending now limit db).1.map (·.operationId)

def pusherStep (py : Python) (deviceId : String) (s : Pusher) : PusherLabel → Pusher
  | .write repo => { s with db := { s.db with repo := repo } }
  | .reconcile now limit => { s with db := (reconcileLocalChanges py deviceId now limit s.db).2 }
  | .applyChanges snapshot changes =>
    { s with db := (applyChanges py deviceId snapshot changes s.db).2 }
  | .claim now limit =>
    { db := (claimPending now limit s.db).2, sent := returnedIds now limit s.db ++ s.sent }
  | .record now applied duplicate conflict =>
    { s with db := markPushResults now applied duplicate conflict s.db }
  | .markFailed now operationIds => { s with db := markFailed now operationIds s.db }
  | .restart now => { s with db := initStore now s.db }

/-- A desktop that has sent nothing. -/
def Pusher.fresh (drawn : Nat) : Pusher := ⟨.fresh drawn, []⟩

/-- `state IN ('pending', 'failed') AND attempts < 10`. -/
def OutboxRow.Claimable (row : OutboxRow) : Prop :=
  (row.state = .pending ∨ row.state = .failed) ∧ row.attempts < 10

instance (row : OutboxRow) : Decidable row.Claimable :=
  inferInstanceAs (Decidable (_ ∧ _))

/-- The counters are right: an operation was returned as often as its row says, none more
than ten times, and one that waits and is not claimed any more was returned ten times. -/
structure Exact (s : Pusher) : Prop where
  attempts : ∀ row ∈ s.db.outbox, row.attempts = s.sent.count row.operationId
  atMostTen : ∀ operationId, s.sent.count operationId ≤ 10
  exhausted : ∀ row ∈ s.db.outbox, row.state = .pending ∨ row.state = .failed →
    ¬ row.Claimable → s.sent.count row.operationId = 10

/-- A claim changes only rows it returns. -/
def ChangesReturned (s : Pusher) : PusherLabel → Prop
  | .claim now limit => ∀ row ∈ s.db.outbox, row.claim now ≠ row →
      row.operationId ∈ returnedIds now limit s.db
  | _ => True

/-- The step keeps the count of the attempts. -/
def Counted (py : Python) (deviceId : String) (s : Pusher) (l : PusherLabel) : Prop :=
  ChangesReturned s l ∧ Exact (pusherStep py deviceId s l)

/-- The rows that are being sent once a claim has done its update, the oldest first. -/
def openRows (db : ClientDb) : List OutboxRow :=
  (db.outbox.rows.filter fun row => row.Claimable ∨ row.state = .sending).insertionSort
    fun a b => a.createdAt ≤ b.createdAt

/-- `max(1, min(limit, 200))`. -/
def claimLimit (limit : Nat) : Nat := max 1 (min limit 200)

/-- The rows a claim returns are claimed by it, and those beyond its limit were claimed
before. -/
def ClaimsWhatItReturns (s : Pusher) : PusherLabel → Prop
  | .claim _ limit =>
    (∀ row ∈ (openRows s.db).take (claimLimit limit), row.Claimable) ∧
      ∀ row ∈ (openRows s.db).drop (claimLimit limit), ¬ row.Claimable
  | _ => True

instance (s : Pusher) : ∀ l, Decidable (ClaimsWhatItReturns s l)
  | .claim _ _ => inferInstanceAs (Decidable (_ ∧ _))
  | .write _ => .isTrue trivial
  | .reconcile _ _ => .isTrue trivial
  | .applyChanges _ _ => .isTrue trivial
  | .record _ _ _ _ => .isTrue trivial
  | .markFailed _ _ => .isTrue trivial
  | .restart _ => .isTrue trivial

/-! ## The rows a claim returns -/

variable {row : OutboxRow}

theorem OutboxRow.claim_of_claimable (now : Timestamp) (h : row.Claimable) : row.claim now =
      { row with state := .sending, attempts := row.attempts + 1, stateUpdatedAt := now } :=
  if_pos h

theorem OutboxRow.claim_of_not_claimable (now : Timestamp) (h : ¬ row.Claimable) :
    row.claim now = row := if_neg h

@[simp] theorem OutboxRow.claim_createdAt (now : Timestamp) (row : OutboxRow) :
    (row.claim now).createdAt = row.createdAt := by
  unfold claim
  split <;> rfl

theorem OutboxRow.claim_sending (now : Timestamp) (row : OutboxRow) :
    (row.claim now).state = .sending ↔ row.Claimable ∨ row.state = .sending := by
  by_cases h : row.Claimable
  · rw [claim_of_claimable now h]
    exact ⟨fun _ => .inl h, fun _ => rfl⟩
  · rw [claim_of_not_claimable now h]
    exact ⟨.inr, fun hor => hor.resolve_left h⟩

theorem OutboxRow.claim_attempts (now : Timestamp) (row : OutboxRow) :
    (row.claim now).attempts = row.attempts + if row.Claimable then 1 else 0 := by
  by_cases h : row.Claimable
  · rw [claim_of_claimable now h, if_pos h]
  · rw [claim_of_not_claimable now h, if_neg h, Nat.add_zero]

variable {db : ClientDb}

theorem mem_openRows :
    row ∈ openRows db ↔ row ∈ db.outbox ∧ (row.Claimable ∨ row.state = .sending) := by
  unfold openRows
  rw [mem_insertionSort, mem_filter, decide_eq_true_iff]
  exact Iff.rfl

/-- The claimed rows in their order are the open rows in theirs. -/
theorem claimPending_rows (now : Timestamp) (limit : Nat) (db : ClientDb) :
    (claimPending now limit db).1 = ((openRows db).take (claimLimit limit)).map (claim now) := by
  show (List.insertionSort _ ((db.outbox.rows.map (claim now)).filter _)).take _ = _
  have hsending : (fun row => decide (row.state = OutboxState.sending)) ∘ claim now =
      fun row => decide (row.Claimable ∨ row.state = .sending) := by
    funext row
    exact decide_eq_decide.2 (claim_sending now row)
  rw [filter_map, hsending, map_take, openRows]
  refine congrArg (List.take _) (Eq.symm ?_)
  refine map_insertionSort _ _ _ _ fun a _ b _ => ?_
  rw [claim_createdAt, claim_createdAt]

theorem returnedIds_eq (now : Timestamp) (limit : Nat) (db : ClientDb) : returnedIds now limit db =
      ((openRows db).take (claimLimit limit)).map (·.operationId) := by
  unfold returnedIds
  rw [claimPending_rows, map_map]
  exact map_congr_left fun row _ => claim_operationId now row

theorem nodup_operationIds (db : ClientDb) : (db.outbox.rows.map (·.operationId)).Nodup := by
  rw [List.Nodup, pairwise_map]
  exact db.outbox.sound

theorem openRows_operationIds (db : ClientDb) : ((openRows db).map (·.operationId)).Nodup := by
  have hperm := (db.outbox.rows.filter fun row =>
    row.Claimable ∨ row.state = .sending).perm_insertionSort fun a b => a.createdAt ≤ b.createdAt
  refine (hperm.map _).nodup_iff.2 ?_
  exact (nodup_operationIds db).sublist (filter_sublist.map _)

theorem returnedIds_nodup (now : Timestamp) (limit : Nat) (db : ClientDb) :
    (returnedIds now limit db).Nodup := by
  rw [returnedIds_eq]
  exact (openRows_operationIds db).sublist ((take_sublist _ _).map _)

variable {limit n : Nat} {s : Pusher}
variable {now : Timestamp}
variable {entityType : SyncEntityType} {result : ApplyResult} {updatedAt : String} {snapshot : Bool}

/-- A row is returned when it is one of the first open ones. -/
theorem mem_returnedIds (hrow : row ∈ db.outbox) :
    row.operationId ∈ returnedIds now limit db ↔ row ∈ (openRows db).take (claimLimit limit) := by
  rw [returnedIds_eq, mem_map]
  constructor
  · rintro ⟨first, hfirst, hid⟩
    have hmem := (mem_openRows.1 (mem_of_mem_take hfirst)).1
    have hsame : first = row := Table.eq_of_conflict hmem hrow hid
    rwa [← hsame]
  · intro hfirst
    exact ⟨row, hfirst, rfl⟩

/-- The condition says that a claim returns what it counts. -/
theorem claimsWhatItReturns_iff : ClaimsWhatItReturns s (.claim now limit) ↔
      ∀ row ∈ s.db.outbox, row.Claimable ↔ row.operationId ∈ returnedIds now limit s.db := by
  have hsplit := take_append_drop (claimLimit limit) (openRows s.db)
  constructor
  · rintro ⟨hfirst, hrest⟩ row hrow
    rw [mem_returnedIds hrow]
    constructor
    · intro hclaimable
      have hopen : row ∈ openRows s.db := mem_openRows.2 ⟨hrow, .inl hclaimable⟩
      rw [← hsplit] at hopen
      rcases mem_append.1 hopen with hmem | hmem
      · exact hmem
      · exact absurd hclaimable (hrest row hmem)
    · exact hfirst row
  intro h
  constructor
  · intro row hfirst
    have hrow := (mem_openRows.1 (mem_of_mem_take hfirst)).1
    exact (h row hrow).2 ((mem_returnedIds hrow).2 hfirst)
  intro row hrest hclaimable
  have hrow := (mem_openRows.1 (mem_of_mem_drop hrest)).1
  have hfirst := (mem_returnedIds hrow).1 ((h row hrow).1 hclaimable)
  have hnodup := (openRows_operationIds s.db).of_map
  rw [← hsplit] at hnodup
  exact (nodup_append.1 hnodup).2.2 row hfirst row hrest rfl

/-! ## What a claim does to the count -/

/-- A waiting row that is not claimed any more was sent ten times when the counts agree. -/
theorem exact_of_attempts
    (hattempts : ∀ row ∈ s.db.outbox, row.attempts = s.sent.count row.operationId)
    (hten : ∀ operationId, s.sent.count operationId ≤ 10) : Exact s where
  attempts := hattempts
  atMostTen := hten
  exhausted row hrow hwaits hnot := by
    have hspent : ¬ row.attempts < 10 := fun hlt => hnot ⟨hwaits, hlt⟩
    have hcount := hattempts row hrow
    have hle := hten row.operationId
    omega

/-- A claim keeps the count when it returns exactly the rows it counts. -/
theorem counted_claim_iff {py : Python} {deviceId : String} (h : Exact s) (now : Timestamp)
    (limit : Nat) :
    Counted py deviceId s (.claim now limit) ↔ ClaimsWhatItReturns s (.claim now limit) := by
  rw [claimsWhatItReturns_iff]
  have hcount : ∀ operationId, (returnedIds now limit s.db ++ s.sent).count operationId =
        (if operationId ∈ returnedIds now limit s.db then 1 else 0) +
          s.sent.count operationId := by
    intro operationId
    rw [count_append, (returnedIds_nodup now limit s.db).count]
  constructor
  · rintro ⟨-, hafter⟩ row hrow
    have hclaimed := hafter.attempts (row.claim now) (mem_map_of_mem hrow)
    have hbefore := h.attempts row hrow
    rw [claim_operationId, claim_attempts] at hclaimed
    have hnext := hclaimed.trans (hcount row.operationId)
    by_cases hclaimable : row.Claimable
    · by_cases hreturned : row.operationId ∈ returnedIds now limit s.db
      · exact ⟨fun _ => hreturned, fun _ => hclaimable⟩
      · rw [if_pos hclaimable, if_neg hreturned] at hnext
        omega
    · by_cases hreturned : row.operationId ∈ returnedIds now limit s.db
      · rw [if_neg hclaimable, if_pos hreturned] at hnext
        omega
      · exact ⟨fun hyes => absurd hyes hclaimable, fun hyes => absurd hyes hreturned⟩
  intro hreturns
  constructor
  · intro row hrow hchanged
    refine (hreturns row hrow).1 ?_
    by_contra hnot
    exact hchanged (claim_of_not_claimable now hnot)
  refine exact_of_attempts ?_ ?_
  · intro row' hrow'
    obtain ⟨row, hrow, rfl⟩ := mem_map.1 hrow'
    show _ = (returnedIds now limit s.db ++ s.sent).count _
    rw [hcount, claim_attempts, claim_operationId, h.attempts row hrow]
    simp only [hreturns row hrow]
    exact Nat.add_comm _ _
  intro operationId
  show (returnedIds now limit s.db ++ s.sent).count operationId ≤ 10
  rw [hcount]
  split
  · rename_i hreturned
    -- a returned operation was claimable, so it had been sent fewer than ten times
    rw [returnedIds_eq] at hreturned
    obtain ⟨row, hfirst, rfl⟩ := mem_map.1 hreturned
    have hrow := (mem_openRows.1 (mem_of_mem_take hfirst)).1
    have hclaimable := (hreturns row hrow).2 ((mem_returnedIds hrow).2 hfirst)
    have hbefore := h.attempts row hrow
    have hlt := hclaimable.2
    omega
  · have hle := h.atMostTen operationId
    omega

/-! ## What the other steps do to the outbox -/

/-- Rows keep their id and their count, and a new one begins with none, under an id that
was drawn in between. -/
structure Ages (py : Python) (deviceId : String) (db db' : ClientDb) : Prop where
  drawn : db.drawn ≤ db'.drawn
  outbox : ∀ row' ∈ db'.outbox,
    (∃ row ∈ db.outbox, row.operationId = row'.operationId ∧ row.attempts = row'.attempts) ∨
      row'.attempts = 0 ∧
        ∃ n, db.drawn ≤ n ∧ n < db'.drawn ∧ row'.operationId = operationIdOf py deviceId n

variable {py : Python} {deviceId : String} {db db' db'' : ClientDb}

/-- A step that adds no operation. -/
theorem Ages.of_mem (hdrawn : db.drawn ≤ db'.drawn) (h : ∀ row ∈ db'.outbox, row ∈ db.outbox) :
    Ages py deviceId db db' where
  drawn := hdrawn
  outbox row hrow := .inl ⟨row, h row hrow, rfl, rfl⟩

theorem Ages.refl (db : ClientDb) : Ages py deviceId db db :=
  .of_mem (le_rfl) fun _ h => h

theorem Ages.trans (h : Ages py deviceId db db') (h' : Ages py deviceId db' db'') :
    Ages py deviceId db db'' where
  drawn := Nat.le_trans h.drawn h'.drawn
  outbox row'' hrow'' := by
    rcases h'.outbox row'' hrow'' with ⟨row', hrow', hid', hcount'⟩ | ⟨hnone, n, hge, hlt, hid⟩
    · rcases h.outbox row' hrow' with ⟨row, hrow, hid, hcount⟩ | ⟨hnone, n, hge, hlt, hid⟩
      · exact .inl ⟨row, hrow, hid.trans hid', hcount.trans hcount'⟩
      · have hlater := h'.drawn
        exact .inr ⟨hcount'.symm.trans hnone, n, hge, by omega, hid'.symm.trans hid⟩
    · have hearlier := h.drawn
      exact .inr ⟨hnone, n, by omega, hlt, hid⟩

/-- An update of columns other than the key and the count. -/
theorem ages_updateOutbox {f : OutboxRow → OutboxRow}
    (hf : ∀ row, (f row).operationId = row.operationId)
    (hattempts : ∀ row, (f row).attempts = row.attempts) :
    Ages py deviceId db (updateOutbox db f hf) where
  drawn := le_rfl
  outbox row' hrow' := by
    obtain ⟨row, hrow, rfl⟩ := mem_map.1 hrow'
    exact .inl ⟨row, hrow, (hf row).symm, (hattempts row).symm⟩

theorem ages_setState (state : OutboxState) (lastError : Option String) (now : Timestamp)
    (operationIds : List String) (db : ClientDb) :
    Ages py deviceId db (setState state lastError now operationIds db) := by
  refine ages_updateOutbox _ ?_
  intro row
  unfold mark
  split <;> rfl

theorem ages_initStore (now : Timestamp) (db : ClientDb) :
    Ages py deviceId db (initStore now db) := by
  refine ages_updateOutbox _ ?_
  intro row
  unfold release
  split <;> rfl

theorem ages_enqueue {entityId : String} {baseRevision : Nat} {payloadJson : Dict}
    (h : Returns (enqueue py deviceId now entityType entityId baseRevision updatedAt payloadJson)
      db n db') : Ages py deviceId db db' := by
  simp only [enqueue, drawUuid, returns_bind, returns_get, returns_set, returns_pure,
    returns_orRaise] at h
  obtain ⟨uuid, _, ⟨_, _, ⟨rfl, rfl⟩, _, _, rfl, rfl, rfl⟩, _, _, ⟨rfl, rfl⟩, outbox, _,
    ⟨hins, rfl⟩, _, _, rfl, rfl, rfl⟩ := h
  constructor
  · exact Nat.le_succ _
  intro row hrow
  rcases (Table.mem_insert? hins).1 hrow with hold | rfl
  · exact .inl ⟨row, hold, rfl, rfl⟩
  · exact .inr ⟨rfl, _, le_rfl, Nat.lt_succ_self _, rfl⟩

theorem ages_queueLocalEntity {rawEntityId : String} {payload : Dict}
    (h : Returns (queueLocalEntity py deviceId now entityType rawEntityId updatedAt payload)
      db n db') : Ages py deviceId db db' := by
  simp only [queueLocalEntity, returns_get_bind] at h
  split at h <;>
  · rcases returns_ite.1 h with ⟨-, h⟩ | ⟨-, h⟩
    · rw [(returns_pure.1 h).2]
      exact .refl _
    · exact ages_enqueue h

theorem ages_queueAll {entities : List LocalEntity}
    (h : Returns (queueAll py deviceId now entities) db n db') : Ages py deviceId db db' := by
  induction entities generalizing db n with
  | nil =>
    rw [(returns_pure.1 h).2]
    exact .refl _
  | cons entity rest ih =>
    simp only [queueAll, returns_bind, returns_pure] at h
    obtain ⟨queued, db₁, hfirst, more, _, hrest, rfl, rfl⟩ := h
    exact (ages_queueLocalEntity hfirst).trans (ih hrest)

theorem ages_reconcile (now : Timestamp) (limit : Nat) (db : ClientDb) :
    Ages py deviceId db (reconcileLocalChanges py deviceId now limit db).2 := by
  unfold reconcileLocalChanges
  rcases atomically_cases (do
    let queued ← queueAll py deviceId now (scanned db.repo (clampLimit limit))
    return Exit.commit queued) db with h | ⟨n, db', hret, h⟩
  · rw [h]
    exact .refl _
  rw [h]
  simp only [returns_bind, returns_pure] at hret
  obtain ⟨_, _, hqueue, -, rfl⟩ := hret
  exact ages_queueAll hqueue

/-! ## What a change draws -/

@[simp] theorem removeLocalTranscriptAliases_drawn (aliases : List EntityRow) (db : ClientDb) :
    (removeLocalTranscriptAliases aliases db).drawn = db.drawn := by
  induction aliases generalizing db with
  | nil => rfl
  | cons found rest ih => exact ih _

@[simp] theorem rememberOperation_drawn (operationId : String) (db : ClientDb) :
    (rememberOperation operationId db).drawn = db.drawn := by
  unfold rememberOperation
  split <;> rfl

theorem Applied.drawn {change : Change} (h : Applied py deviceId snapshot change db result db') :
    db'.drawn = db.drawn := by
  cases h with
  | stale aliases => rw [rememberOperation_drawn, removeLocalTranscriptAliases_drawn]
  | same => rw [rememberOperation_drawn]
  | conflict => rfl
  | write current aliases repo =>
    rw [rememberOperation_drawn]
    exact removeLocalTranscriptAliases_drawn aliases { db with repo := repo }

theorem ChangeApplied.ages {index : Nat} {change : Dict}
    (h : ChangeApplied py deviceId snapshot index change db result db') :
    Ages py deviceId db db' := by
  refine .of_mem ?_ fun row hrow => h.mem_outbox hrow
  cases h with
  | malformed | known => exact Nat.le_succ _
  | new _ _ _ _ _ _ _ happlied =>
    rw [happlied.drawn]
    exact Nat.le_succ _

theorem ages_applyChanges (snapshot : Bool) (changes : List Dict) (db : ClientDb) :
    Ages py deviceId db (applyChanges py deviceId snapshot changes db).2 := by
  have hstep : ∀ index change db₁ result db₂,
      ChangeApplied py deviceId snapshot index change db₁ result db₂ →
        Ages py deviceId db db₁ → Ages py deviceId db db₂ :=
    fun _ _ _ _ _ happlied hages => hages.trans happlied.ages
  exact applyChanges_invariant hstep changes (.refl db)

/-! ## Runs -/

/-- The counts are right, and every id in use was drawn. -/
structure Accounted (py : Python) (deviceId : String) (s : Pusher) : Prop extends Exact s where
  drawnSent : ∀ operationId ∈ s.sent, ∃ n < s.db.drawn, operationId = operationIdOf py deviceId n
  drawnRow : ∀ row ∈ s.db.outbox, ∃ n < s.db.drawn, row.operationId = operationIdOf py deviceId n

theorem accounted_fresh (py : Python) (deviceId : String) (drawn : Nat) :
    Accounted py deviceId (.fresh drawn) where
  attempts row hrow := absurd hrow (Table.not_mem_empty row)
  atMostTen _ := Nat.zero_le _
  exhausted row hrow := absurd hrow (Table.not_mem_empty row)
  drawnSent _ hmem := absurd hmem not_mem_nil
  drawnRow row hrow := absurd hrow (Table.not_mem_empty row)

/-- A step that sends nothing keeps the count: what it queues was never sent. -/
theorem Accounted.ages (h : Accounted py deviceId s) (hages : Ages py deviceId s.db db') :
    Accounted py deviceId { s with db := db' } := by
  have hattempts : ∀ row ∈ db'.outbox, row.attempts = s.sent.count row.operationId := by
    intro row' hrow'
    rcases hages.outbox row' hrow' with ⟨row, hrow, hid, hcount⟩ | ⟨hnone, n, hge, -, hid⟩
    · rw [← hcount, ← hid]
      exact h.attempts row hrow
    rw [hnone, eq_comm, count_eq_zero]
    intro hsent
    obtain ⟨m, hlt, hold⟩ := h.drawnSent _ hsent
    have hsame : n = m := py.uuid4_injective ((String.append_right_inj _).1 (hid.symm.trans hold))
    omega
  refine ⟨exact_of_attempts hattempts h.atMostTen, ?_, ?_⟩
  · intro operationId hsent
    obtain ⟨n, hlt, hid⟩ := h.drawnSent operationId hsent
    exact ⟨n, Nat.lt_of_lt_of_le hlt hages.drawn, hid⟩
  · intro row' hrow'
    rcases hages.outbox row' hrow' with ⟨row, hrow, hid, -⟩ | ⟨-, n, -, hlt, hid⟩
    · obtain ⟨n, hlt, hold⟩ := h.drawnRow row hrow
      exact ⟨n, Nat.lt_of_lt_of_le hlt hages.drawn, hid.symm.trans hold⟩
    · exact ⟨n, hlt, hid⟩

/-- The ids a claim returns are those of rows. -/
theorem Accounted.claim (h : Accounted py deviceId s)
    (hreturns : ClaimsWhatItReturns s (.claim now limit)) :
    Accounted py deviceId (pusherStep py deviceId s (.claim now limit)) := by
  refine ⟨((counted_claim_iff h.toExact now limit).2 hreturns).2, ?_, ?_⟩
  · intro operationId hsent
    rcases mem_append.1 hsent with hnew | hold
    · rw [returnedIds_eq] at hnew
      obtain ⟨row, hfirst, rfl⟩ := mem_map.1 hnew
      exact h.drawnRow row (mem_openRows.1 (mem_of_mem_take hfirst)).1
    · exact h.drawnSent operationId hold
  · intro row' hrow'
    obtain ⟨row, hrow, rfl⟩ := mem_map.1 hrow'
    rw [claim_operationId]
    exact h.drawnRow row hrow

theorem Accounted.step (l : PusherLabel) (hmeets : ClaimsWhatItReturns s l)
    (h : Accounted py deviceId s) : Accounted py deviceId (pusherStep py deviceId s l) := by
  cases l with
  | write repo => exact h.ages (.of_mem (le_rfl) fun _ hrow => hrow)
  | reconcile now limit => exact h.ages (ages_reconcile now limit s.db)
  | applyChanges snapshot changes => exact h.ages (ages_applyChanges snapshot changes s.db)
  | claim now limit => exact h.claim hmeets
  | record now applied duplicate conflict => exact h.ages (((ages_setState ..).trans (ages_setState ..)).trans (ages_setState ..))
  | markFailed now operationIds => exact h.ages (ages_setState ..)
  | restart now => exact h.ages (ages_initStore now s.db)

/-- From a state with the right counts, a step keeps them exactly when it is no claim, or a
claim that returns what it counts. -/
theorem Accounted.counted_iff (h : Accounted py deviceId s) (l : PusherLabel) :
    Counted py deviceId s l ↔ ClaimsWhatItReturns s l := by
  by_cases hclaim : ∃ now limit, l = .claim now limit
  · obtain ⟨now, limit, rfl⟩ := hclaim
    exact counted_claim_iff h.toExact now limit
  have hreturned : ChangesReturned s l ∧ ClaimsWhatItReturns s l := by
    cases l with
    | claim now limit => exact absurd ⟨now, limit, rfl⟩ hclaim
    | _ => exact ⟨trivial, trivial⟩
  constructor
  · exact fun _ => hreturned.2
  · exact fun _ => ⟨hreturned.1, (h.step l hreturned.2).toExact⟩

/-- In every run of a desktop, the attempts are counted exactly, claims change only what they
return, and no operation is given up or sent beyond its ten attempts, exactly when each claim
returns what it counts. -/
theorem attempts_exact_iff (py : Python) (deviceId : String) (drawn : Nat)
    (trace : List PusherLabel) :
    Meets (pusherStep py deviceId) (Counted py deviceId) (.fresh drawn) trace ↔
      Meets (pusherStep py deviceId) ClaimsWhatItReturns (.fresh drawn) trace :=
  meets_congr (fun _ l hs => hs.counted_iff l) (fun _ l hmeets hs => hs.step l hmeets)
    (accounted_fresh py deviceId drawn) trace

/-- Two meetings are queued. A claim with the limit 1 counts both of them and returns one; and
where both were claimed and the hub failed, the next claim returns them uncounted. -/
theorem attempts_not_exact : ¬ Meets (pusherStep .ascii "desk") (Counted .ascii "desk") (.fresh 0)
        [.write twoMeetings, .reconcile 0 10, .claim 0 1] ∧
      ¬ Meets (pusherStep .ascii "desk") (Counted .ascii "desk") (.fresh 0)
        [.write twoMeetings, .reconcile 0 10, .claim 0 50, .claim 0 50] := by
  constructor
  · intro h
    have hattempts := h.2.2.1.2.attempts
    revert hattempts
    decide +kernel
  · intro h
    have hattempts := h.2.2.2.1.2.attempts
    revert hattempts
    decide +kernel

end Desktop
