import EchoDesk.Foundations.Fencing
import EchoDesk.Foundations.Transition
import EchoDesk.Runtime.ExecutionLease

/-! # Fencing of the execution leases

The lease store as a system of callers. `acquire` and `renew` read the clock
when they are called and run their statement later (`commit`), after any number
of other statements; `release` reads it inside its transaction. The clock only
moves forward.

Each resource simulates a fenced register as long as no renewal is late, that
is, commits after the end of the term it read as running. A late renewal starts
an expired term again.
-/

set_option linter.unusedSectionVars false

namespace Runtime.LeaseFencing

open Transition List Option Function Fencing

/-- A call that has read the clock and waits for its write transaction. -/
inductive Pending (Time : Type) where
  | acquire (key : LeaseKey) (holderId : String) (now expiresAt : Time)
  | renew (token : LeaseToken Time) (now expiresAt : Time)

/-- The clock reading of a call. -/
def Pending.now {Time : Type} : Pending Time → Time
  | .acquire _ _ now _ => now
  | .renew _ now _ => now

/-- State: the table, the clock, the calls between their reading and their
transaction, and the tokens handed out so far (oldest first). -/
structure St (Time : Type) where
  leases : Leases Time
  clock : Time
  pending : List (Pending Time)
  granted : List (LeaseToken Time)

/-- An empty table at clock value `clock`. -/
def St.init {Time : Type} (clock : Time) : St Time := ⟨fun _ => none, clock, [], []⟩

inductive Lbl (Time : Type) where
  /-- The clock moves on to `t`. -/
  | tick (t : Time)
  /-- A caller of `acquire` reads the clock. -/
  | acquire (key : LeaseKey) (holderId : String) (ttlSeconds : Time)
  /-- A caller of `renew` reads the clock. -/
  | renew (token : LeaseToken Time) (ttlSeconds : Time)
  /-- The transaction of the `i`-th pending call. -/
  | commit (i : Nat)
  /-- The `i`-th pending call is cancelled or rolled back. -/
  | rollback (i : Nat)
  /-- A whole `release`. -/
  | release (token : LeaseToken Time)

variable {Time : Type} [LinearOrder Time] [Zero Time] [Add Time]
variable {token : LeaseToken Time}
variable {key : LeaseKey} {trace : List (Lbl Time)} {expiresAt : Time} {l : Lbl Time}

/-- The write transaction of a pending call. -/
def St.commit (s : St Time) : Pending Time → St Time
  | .acquire key holderId now expiresAt =>
    let result := acquireStatement s.leases key holderId now expiresAt
    { s with leases := result.2, granted := s.granted ++ result.1.toList }
  | .renew token now expiresAt =>
    { s with leases := (renewStatement s.leases token now expiresAt).2 }

/-- A caller that has read the clock joins the pending calls; one whose
arguments are refused does not. -/
def St.enter (s : St Time) (call : Except LeaseError (Pending Time)) : St Time :=
  match call with
  | .ok call => { s with pending := s.pending ++ [call] }
  | .error _ => s

def step (s : St Time) : Lbl Time → St Time
  | .tick t => if s.clock ≤ t then { s with clock := t } else s
  | .acquire key holderId ttlSeconds => s.enter do
      validateIdentity [key.tenantId, key.ownerId, key.resourceKind, key.resourceId, holderId]
      let (now, expiresAt) ← term s.clock ttlSeconds
      return .acquire key holderId now expiresAt
  | .renew token ttlSeconds => s.enter do
      let (now, expiresAt) ← term s.clock ttlSeconds
      return .renew token now expiresAt
  | .commit i =>
    match s.pending[i]? with
    | some call => { s with pending := s.pending.eraseIdx i }.commit call
    | none => s
  | .rollback i => { s with pending := s.pending.eraseIdx i }
  | .release token =>
    match release s.leases s.clock token with
    | .ok result => { s with leases := result.2 }
    | .error _ => s

/-- The token passes the ownership check now. -/
def Passes (s : St Time) (token : LeaseToken Time) : Prop :=
  checkOwned s.leases s.clock token = .ok true

/-- The renewals that are not late: the call does not commit past the end of a
term that it read as running, with a new end that is still to come. -/
def NoLateRenewal (s : St Time) : Lbl Time → Prop
  | .commit i => ∀ token now expiresAt, s.pending[i]? = some (.renew token now expiresAt) →
      ∀ row, selectOwned s.leases token now = some row → row.expiresAt ≤ s.clock →
        expiresAt ≤ s.clock
  | _ => True

/-! ## What the store promises -/

/-- The tokens granted for one resource, oldest first. -/
def grants (s : St Time) (key : LeaseKey) : List (LeaseToken Time) :=
  s.granted.filter fun token => token.toLeaseKey = key

/-- The fences of a resource are granted as 1, 2, 3, … -/
def GrantsDense (s : St Time) : Prop :=
  ∀ key, (grants s key).map (·.fenceToken) = List.range' 1 (grants s key).length

/-- At most one holder and fence of a resource passes the ownership check. -/
def SingleOwner (s : St Time) : Prop :=
  ∀ token token', token.toLeaseKey = token'.toLeaseKey → Passes s token → Passes s token' →
    token.holderId = token'.holderId ∧ token.fenceToken = token'.fenceToken

/-- A granted token that once failed the check (it expired, was released or was
superseded) fails it ever after. -/
def NoRevival (s : St Time) (trace : List (Lbl Time)) : Prop :=
  ∀ before between after, trace = before ++ between ++ after →
    ∀ token ∈ (run step s before).granted, ¬ Passes (run step s before) token →
      ¬ Passes (run step s (before ++ between)) token

/-- The fencing of the leases along a run. -/
structure Fenced (s : St Time) (trace : List (Lbl Time)) : Prop where
  dense : ∀ before after, trace = before ++ after → GrantsDense (run step s before)
  single : ∀ before after, trace = before ++ after → SingleOwner (run step s before)
  noRevival : NoRevival s trace

/-! ## The register of a resource -/

/-- The number of terms a table has granted for a resource. -/
def generation (leases : Leases Time) (key : LeaseKey) : Nat := (leases key).elim 0 (·.fenceToken)

/-- The holder of the term of a resource that is running at `clock`. -/
def live (leases : Leases Time) (key : LeaseKey) (clock : Time) : Option String :=
  (leases key).bind fun row => if clock < row.expiresAt then some row.holderId else none

/-- The fenced register a table implements for a resource. -/
def register (leases : Leases Time) (clock : Time) (key : LeaseKey) : Fencing.Register String :=
  ⟨generation leases key, live leases key clock⟩

variable {s : St Time} {leases leases' : Leases Time} {clock : Time}

theorem passes_iff : Passes s token ↔ 0 ≤ s.clock ∧
      Owns (register s.leases s.clock token.toLeaseKey) token.holderId
        token.fenceToken := by
  unfold Passes
  rw [checkOwned_eq_true]
  refine and_congr_right fun _ => ?_
  cases hrow : s.leases token.toLeaseKey with
  | none => simp [Owns, register, generation, live, hrow]
  | some row =>
    by_cases hlt : s.clock < row.expiresAt <;>
      simp [Owns, register, generation, live, hrow, hlt, and_comm]

/-- What the rows, the pending readings and the handed out tokens have to do
with one another. -/
structure Inv (s : St Time) : Prop where
  /-- The fences granted for a resource run up to the fence of its row. -/
  fences : ∀ key, (grants s key).map (·.fenceToken) = List.range' 1 (generation s.leases key)
  /-- The row of a resource belongs to a granted token. -/
  holder : ∀ key row, s.leases key = some row → ∃ token ∈ s.granted,
    token.toLeaseKey = key ∧ token.holderId = row.holderId ∧ token.fenceToken = row.fenceToken
  /-- A pending call read the clock in the past. -/
  sampled : ∀ call ∈ s.pending, 0 ≤ call.now ∧ call.now ≤ s.clock
  /-- A term was only granted once the clock was at the epoch. -/
  epoch : s.granted ≠ [] → 0 ≤ s.clock

/-! ## Each statement moves the register -/

theorem register_of_row {row : LeaseRow Time} (h : leases key = some row) (clock : Time) :
    register leases clock key =
      ⟨row.fenceToken, if clock < row.expiresAt then some row.holderId else none⟩ := by
  simp [register, generation, live, h]

theorem register_of_none (h : leases key = none) (clock : Time) :
    register leases clock key = ⟨0, none⟩ := by
  simp [register, generation, live, h]

theorem register_update_other {k : LeaseKey} (hne : k ≠ key) (row : Option (LeaseRow Time))
    (clock : Time) :
    register (Function.update leases key row) clock k = register leases clock k := by
  simp [register, generation, live, update_of_ne hne]

theorem register_update_same (leases : Leases Time) (key : LeaseKey) (row : LeaseRow Time)
    (clock : Time) :
    register (Function.update leases key (some row)) clock key =
      ⟨row.fenceToken, if clock < row.expiresAt then some row.holderId else none⟩ :=
  register_of_row (update_self _ _ _) clock

/-- Time going on can only end a term. -/
theorem tick_simulates (leases : Leases Time) {t : Time} (ht : clock ≤ t) (key : LeaseKey) :
    Step (register leases clock key) (register leases t key) := by
  cases hrow : leases key with
  | none => rw [register_of_none hrow, register_of_none hrow]; exact .stay _
  | some row =>
    rw [register_of_row hrow, register_of_row hrow]
    by_cases hlt : t < row.expiresAt
    · rw [if_pos hlt, if_pos (ht.trans_lt hlt)]
      exact .stay _
    · rw [if_neg hlt]
      exact .lapse _

/-- An `acquire` whose reading is not ahead of the clock grants the next term of
a free resource, or does nothing. -/
theorem acquire_simulates (leases : Leases Time) (key : LeaseKey) (holderId : String) {now : Time}
    (hnow : now ≤ clock) (k : LeaseKey) :
    Step (register leases clock k)
      (register (acquireStatement leases key holderId now expiresAt).2 clock k) := by
  rcases hres : acquireStatement leases key holderId now expiresAt with ⟨_ | token, leases'⟩
  · rw [acquireStatement_refused hres]
    exact .stay _
  rcases acquireStatement_granted hres with ⟨hfree, _, rfl⟩
  by_cases hk : k = key
  · subst hk
    have hnone : (register leases clock k).live = none := by
      cases hrow : leases k with
      | none => simp [register_of_none hrow]
      | some old => simp [register_of_row hrow, (hfree old hrow).trans hnow]
    rw [register_update_same]
    refine .grant _ holderId hnone ?_
    by_cases hlt : clock < expiresAt <;> simp [hlt]
  · rw [register_update_other hk]
    exact .stay _

/-- A `renew` that is not late keeps the term it renews running, or lets it
lapse. -/
theorem renew_simulates (leases : Leases Time) (token : LeaseToken Time) {now : Time}
    (hlate : ∀ row, selectOwned leases token now = some row → row.expiresAt ≤ clock →
      expiresAt ≤ clock) (k : LeaseKey) :
    Step (register leases clock k)
      (register (renewStatement leases token now expiresAt).2 clock k) := by
  rcases renewStatement_cases leases token now expiresAt with ⟨_, hres⟩ | ⟨old, hsel, hres⟩
  · rw [hres]
    exact .stay _
  rw [hres]
  by_cases hk : k = token.toLeaseKey
  · subst hk
    rw [register_update_same, register_of_row (selectOwned_eq_some.1 hsel).1]
    by_cases hlt : clock < expiresAt
    · -- the new end is to come, so the term read as running still runs
      have hold : clock < old.expiresAt :=
        lt_of_not_ge fun hle => (hlate old hsel hle).not_gt hlt
      simp only [hlt, hold, if_true]
      exact .stay _
    · simp only [hlt, if_false]
      exact .lapse _
  · rw [register_update_other hk]
    exact .stay _

/-- A `release` ends the term of its token, or does nothing. -/
theorem release_simulates (leases : Leases Time) (token : LeaseToken Time) (hclock : 0 ≤ clock)
    (k : LeaseKey) :
    Step (register leases clock k) (register (releaseStatement leases token clock).2 clock k) := by
  rcases releaseStatement_cases leases token clock with ⟨_, hres⟩ | ⟨old, hsel, hres⟩
  · rw [hres]
    exact .stay _
  rw [hres]
  by_cases hk : k = token.toLeaseKey
  · subst hk
    rw [register_update_same, register_of_row (selectOwned_eq_some.1 hsel).1,
      if_neg (not_lt.2 hclock)]
    exact .lapse _
  · rw [register_update_other hk]
    exact .stay _

/-! ## The fences an operation moves -/

/-- A granted term is the next one of its resource; the other resources keep
their fences. -/
theorem acquire_generation {ttl : Time} {holderId : String} {granted : Option (LeaseToken Time)}
    (h : acquire leases clock key holderId ttl = .ok (granted, leases')) :
    (∀ k, generation leases k ≤ generation leases' k) ∧
      ∀ token, granted = some token → token.toLeaseKey = key ∧
        token.fenceToken = generation leases key + 1 ∧
        generation leases' key = token.fenceToken := by
  have hres := (acquire_eq_ok h).2.symm
  cases granted with
  | none =>
    rw [acquireStatement_refused hres]
    exact ⟨fun _ => le_rfl, fun _ h => by cases h⟩
  | some token =>
    rcases acquireStatement_granted hres with ⟨_, rfl, rfl⟩
    refine ⟨fun k => ?_, fun t ht => ?_⟩
    · by_cases hk : k = key
      · simp [hk, generation]
      · simp [generation, update_of_ne hk]
    · cases ht
      exact ⟨rfl, rfl, by simp [generation, rowToToken]⟩

theorem renew_generation {ttl : Time} {renewed : Option (LeaseToken Time)}
    (h : renew leases clock token ttl = .ok (renewed, leases')) (k : LeaseKey) :
    generation leases' k = generation leases k := by
  have hres := congrArg Prod.snd (renew_eq_ok h).2
  rcases renewStatement_cases leases token clock (clock + ttl) with ⟨_, hr⟩ | ⟨old, hsel, hr⟩
  · rw [hr] at hres
    exact congrArg (generation · k) hres
  rw [hr] at hres
  simp only at hres
  rw [hres]
  by_cases hk : k = token.toLeaseKey
  · simp [hk, generation, (selectOwned_eq_some.1 hsel).1]
  · simp [generation, update_of_ne hk]

theorem release_generation {released : Bool}
    (h : release leases clock token = .ok (released, leases')) (k : LeaseKey) :
    generation leases' k = generation leases k := by
  have hres := congrArg Prod.snd (release_eq_ok h).2
  rcases releaseStatement_cases leases token clock with ⟨_, hr⟩ | ⟨old, hsel, hr⟩
  · rw [hr] at hres
    exact congrArg (generation · k) hres
  rw [hr] at hres
  simp only at hres
  rw [hres]
  by_cases hk : k = token.toLeaseKey
  · simp [hk, generation, (selectOwned_eq_some.1 hsel).1]
  · simp [generation, update_of_ne hk]

/-! ## Each step keeps the invariant -/

theorem init_inv (clock : Time) : Inv (St.init clock) where
  fences _ := rfl
  holder _ _ h := by cases h
  sampled _ h := absurd h not_mem_nil
  epoch h := absurd rfl h

theorem grants_append (s : St Time) (leases : Leases Time) (token : LeaseToken Time)
    (key : LeaseKey) :
    grants { s with leases := leases, granted := s.granted ++ [token] } key =
      if token.toLeaseKey = key then grants s key ++ [token] else grants s key := by
  by_cases h : token.toLeaseKey = key <;> simp [grants, filter_append, h]

/-- A write that keeps the holder and the fence of every row. -/
theorem Inv.of_same_fences (hi : Inv s)
    (h : ∀ key, (leases key).map (fun row => (row.holderId, row.fenceToken)) =
      (s.leases key).map fun row => (row.holderId, row.fenceToken)) :
    Inv { s with leases := leases } where
  __ := hi
  fences key := by
    have hg : generation leases key = generation s.leases key := by
      have := congrArg (Option.elim · 0 Prod.snd) (h key)
      simpa [generation, elim_map, comp_def] using this
    simpa [grants, hg] using hi.fences key
  holder key row hrow := by
    have hk := h key
    rw [show leases key = some row from hrow] at hk
    cases hold : s.leases key with
    | none => simp [hold] at hk
    | some old =>
      simp only [hold, map_some, some.injEq, Prod.mk.injEq] at hk
      rw [hk.1, hk.2]
      exact hi.holder key old hold

theorem commit_inv (hi : Inv s) {call : Pending Time} (hnow : 0 ≤ call.now ∧ call.now ≤ s.clock) :
    Inv (s.commit call) := by
  cases call with
  | acquire key holderId now expiresAt =>
    rcases hres : acquireStatement s.leases key holderId now expiresAt with ⟨_ | token, leases⟩
    · have : s.commit (.acquire key holderId now expiresAt) = s := by
        simp [St.commit, hres, acquireStatement_refused hres]
      rw [this]
      exact hi
    rcases acquireStatement_granted hres with ⟨_, htok, hl⟩
    have hcommit : s.commit (.acquire key holderId now expiresAt) =
        { s with leases := leases, granted := s.granted ++ [token] } := by
      simp [St.commit, hres]
    rw [hcommit]
    refine ⟨fun k => ?_, fun k row (hrow : leases k = some row) => ?_, hi.sampled,
      fun _ => hnow.1.trans hnow.2⟩
    · rw [grants_append]
      by_cases hk : token.toLeaseKey = k
      · -- the fence of the granted token is the next one
        have hkey : key = k := by rw [← hk, htok]; rfl
        subst hkey
        have hgen : generation leases key = generation s.leases key + 1 := by
          simp [generation, hl]
        rw [if_pos hk, map_append, hi.fences key, hgen, range'_concat]
        simp [htok, rowToToken, generation, Nat.add_comm]
      · have hne : k ≠ key := fun h => hk (by rw [htok, h]; rfl)
        rw [if_neg hk, hi.fences k]
        simp [generation, hl, update_of_ne hne]
    · by_cases hk : k = key
      · subst hk
        refine ⟨token, by simp, by rw [htok]; rfl, ?_⟩
        rw [hl, update_self] at hrow
        cases hrow
        rw [htok]
        exact ⟨rfl, rfl⟩
      · rw [hl, update_of_ne hk] at hrow
        rcases hi.holder k row hrow with ⟨t, ht, h⟩
        exact ⟨t, mem_append_left _ ht, h⟩
  | renew token now expiresAt =>
    refine hi.of_same_fences fun key => ?_
    rcases renewStatement_cases s.leases token now expiresAt with ⟨_, hres⟩ | ⟨old, hsel, hres⟩
    · rw [hres]
    rw [hres]
    by_cases hk : key = token.toLeaseKey
    · subst hk
      simp [(selectOwned_eq_some.1 hsel).1]
    · rw [update_of_ne hk]

/-- Fewer pending calls, and a later clock, keep the invariant. -/
theorem Inv.of_fewer (hi : Inv s) {pending : List (Pending Time)} (hclock : s.clock ≤ clock)
    (hsub : ∀ call ∈ pending, call ∈ s.pending ∨ (0 ≤ call.now ∧ call.now = s.clock)) :
    Inv { s with clock := clock, pending := pending } where
  __ := hi
  sampled call hcall := by
    rcases hsub call hcall with h | ⟨h0, hnow⟩
    · exact ⟨(hi.sampled call h).1, (hi.sampled call h).2.trans hclock⟩
    · exact ⟨h0, hnow.le.trans hclock⟩
  epoch h := (hi.epoch h).trans hclock

/-- What a caller brings to the pending calls is a reading of the clock. -/
theorem enter_inv (hi : Inv s) {call : Except LeaseError (Pending Time)}
    (hnow : ∀ c, call = .ok c → 0 ≤ c.now ∧ c.now = s.clock) : Inv (s.enter call) := by
  cases call with
  | error e => exact hi
  | ok c =>
    refine hi.of_fewer le_rfl fun c' hc' => ?_
    rcases mem_append.1 hc' with h | h
    · exact .inl h
    · rw [mem_singleton.1 h]
      exact .inr (hnow c rfl)

theorem step_inv (s : St Time) (l : Lbl Time) (hi : Inv s) : Inv (step s l) := by
  cases l with
  | tick t =>
    by_cases ht : s.clock ≤ t
    · simp only [step, if_pos ht]
      exact hi.of_fewer ht fun _ h => .inl h
    · simpa only [step, if_neg ht] using hi
  | acquire key holderId ttlSeconds =>
    refine enter_inv hi fun c hc => ?_
    rcases hv : validateIdentity [key.tenantId, key.ownerId, key.resourceKind, key.resourceId,
      holderId] with e | u <;> rw [hv] at hc
    · cases hc
    rcases ht : term s.clock ttlSeconds with e | ⟨t, e⟩ <;>
      simp [ht, bind, Except.bind, pure, Except.pure] at hc
    rw [term_eq_ok] at ht
    subst hc
    exact ⟨ht.2.2.1 ▸ ht.2.1, ht.2.2.1⟩
  | renew token ttlSeconds =>
    refine enter_inv hi fun c hc => ?_
    rcases ht : term s.clock ttlSeconds with e | ⟨t, e⟩ <;>
      simp [ht, bind, Except.bind, pure, Except.pure] at hc
    rw [term_eq_ok] at ht
    subst hc
    exact ⟨ht.2.2.1 ▸ ht.2.1, ht.2.2.1⟩
  | commit i =>
    simp only [step]
    split
    · rename_i call hcall
      have hmem : call ∈ s.pending := mem_of_getElem? hcall
      have hi' : Inv { s with pending := s.pending.eraseIdx i } :=
        hi.of_fewer le_rfl fun c hc => .inl (mem_of_mem_eraseIdx hc)
      exact commit_inv hi' (hi.sampled call hmem)
    · exact hi
  | rollback i => exact hi.of_fewer le_rfl fun c hc => .inl (mem_of_mem_eraseIdx hc)
  | release token =>
    simp only [step]
    split
    · rename_i result hrel
      rw [(release_eq_ok hrel).2]
      refine hi.of_same_fences fun key => ?_
      rcases releaseStatement_cases s.leases token s.clock with ⟨_, hres⟩ | ⟨old, hsel, hres⟩
      · rw [hres]
      rw [hres]
      dsimp only
      by_cases hk : key = token.toLeaseKey
      · subst hk
        simp [(selectOwned_eq_some.1 hsel).1]
      · rw [update_of_ne hk]
    · exact hi

/-! ## Runs -/

/-- A step that is no late renewal is a move of every register. -/
theorem step_simulates (hl : NoLateRenewal s l) (hi : Inv s) (key : LeaseKey) :
    Step (register s.leases s.clock key) (register (step s l).leases (step s l).clock key) := by
  cases l with
  | tick t =>
    by_cases ht : s.clock ≤ t
    · simpa only [step, if_pos ht] using tick_simulates s.leases ht key
    · simpa only [step, if_neg ht] using Step.stay _
  | acquire k holderId ttlSeconds | renew token ttlSeconds =>
    simp only [step, St.enter]; split <;> exact .stay _
  | commit i =>
    simp only [step]
    split
    · rename_i call hcall
      have hnow := (hi.sampled call (mem_of_getElem? hcall)).2
      cases call with
      | acquire k holderId now expiresAt =>
        exact acquire_simulates s.leases k holderId hnow key
      | renew token now expiresAt =>
        exact renew_simulates s.leases token (hl token now expiresAt hcall) key
    · exact .stay _
  | rollback i => exact .stay _
  | release token =>
    simp only [step]
    split
    · rename_i result hrel
      rcases release_eq_ok hrel with ⟨hclock, rfl⟩
      exact release_simulates s.leases token hclock key
    · exact .stay _

theorem run_inv (clock : Time) (trace : List (Lbl Time)) :
    Inv (run step (St.init clock) trace) := run_invariant step_inv (init_inv clock) trace

/-- Without late renewals a whole run moves every register. -/
theorem run_simulates (hi : Inv s) (hm : Meets step NoLateRenewal s trace) (key : LeaseKey) :
    Reachable (register s.leases s.clock key)
      (register (run step s trace).leases (run step s trace).clock key) :=
  run_relation_of_meets (R := fun s t : St Time => Reachable (register s.leases s.clock key)
      (register t.leases t.clock key))
    (fun _ => .refl _) (fun _ _ _ => .trans) step_inv
    (fun _ _ hl hi => .single (step_simulates hl hi key)) hm hi

theorem dense_of_inv (hi : Inv s) : GrantsDense s := by
  intro key
  have h := hi.fences key
  have hlen : (grants s key).length = generation s.leases key := by
    simpa using congrArg List.length h
  rw [h, hlen]

theorem single_owner (s : St Time) : SingleOwner s := by
  intro token token' hkey h h'
  have h₁ := (passes_iff.1 h).2
  have h₂ := (passes_iff.1 h').2
  rw [← hkey] at h₂
  exact h₁.unique h₂

/-- The fence of a granted token is at most that of its resource. -/
theorem fence_le_generation (hi : Inv s) (h : token ∈ s.granted) :
    token.fenceToken ≤ generation s.leases token.toLeaseKey := by
  have hmem : token.fenceToken ∈ (grants s token.toLeaseKey).map (·.fenceToken) :=
    mem_map_of_mem (mem_filter.2 ⟨h, by simp⟩)
  rw [hi.fences] at hmem
  have := (mem_range'_1.1 hmem).2
  omega

/-- Between two states of a run without late renewals no granted token comes
back to life. -/
theorem no_revival_of_meets (hi : Inv s) (hm : Meets step NoLateRenewal s trace)
    (ht : token ∈ s.granted) (hend : Passes (run step s trace) token) : Passes s token := by
  rw [passes_iff] at hend ⊢
  refine ⟨hi.epoch (ne_nil_of_mem ht), ?_⟩
  exact owns_of_reachable (run_simulates hi hm token.toLeaseKey) (fence_le_generation hi ht) hend.2

/-- A late renewal revives the granted token of the row it writes. -/
theorem revives_of_late (hi : Inv s) (hl : ¬ NoLateRenewal s l) :
    ∃ token ∈ s.granted, ¬ Passes s token ∧ Passes (step s l) token := by
  cases l with
  | commit i =>
    simp only [NoLateRenewal, not_forall, not_le] at hl
    rcases hl with ⟨token, now, expiresAt, hcall, row, hsel, hexp, hnew⟩
    rcases selectOwned_eq_some.1 hsel with ⟨hrow, hholder, hfence, _⟩
    rcases hi.holder _ row hrow with ⟨t, ht, hkey, hth, htf⟩
    refine ⟨t, ht, ?_, ?_⟩
    · intro hp
      have hlive := (passes_iff.1 hp).2.2
      rw [hkey, register_of_row hrow, if_neg (not_lt.2 hexp)] at hlive
      cases hlive
    have hstep : step s (.commit i) = { s with
          pending := s.pending.eraseIdx i
          leases := Function.update s.leases token.toLeaseKey
            (some { row with expiresAt := expiresAt, heartbeatAt := now }) } := by
      simp only [step, hcall, St.commit, renewStatement, hsel]
    rw [passes_iff, hstep]
    refine ⟨hi.epoch (ne_nil_of_mem ht), ?_⟩
    rw [hkey]
    simp only [register_update_same, if_pos hnew]
    exact ⟨htf.symm, by rw [hth]⟩
  | _ => exact absurd trivial hl

/-- The store fences its resources along a run exactly when no renewal of the
run is late. -/
theorem fenced_iff_no_late_renewal (clock : Time) (trace : List (Lbl Time)) :
    Fenced (St.init clock) trace ↔ Meets step NoLateRenewal (St.init clock) trace := by
  constructor
  · intro hf
    rw [meets_iff_forall_split]
    rintro before l after rfl
    by_contra hl
    rcases revives_of_late (run_inv clock before) hl with ⟨token, ht, hno, hyes⟩
    have := hf.noRevival before [l] after (by simp) token ht hno
    rw [run_snoc] at this
    exact this hyes
  · intro hm
    refine ⟨fun before _ _ => dense_of_inv (run_inv clock before),
      fun before _ _ => single_owner _, ?_⟩
    rintro before between after rfl token ht hno
    rw [run_append]
    rw [List.append_assoc, meets_append, meets_append] at hm
    exact fun hend => hno (no_revival_of_meets (run_inv clock before) hm.2.1 ht hend)

/-- A worker renews at 9 a term that ends at 10, and its transaction gets the
write lock at 10: the expired term runs again. -/
theorem not_fenced_late_renewal : ¬ ∀ trace : List (Lbl Nat), Fenced (St.init 0) trace := by
  intro h
  let key : LeaseKey := ⟨"tenant", "owner", "workflow", "run_1"⟩
  let token : LeaseToken Nat := { key with
    holderId := "worker", fenceToken := 1, expiresAt := 10, heartbeatAt := 0 }
  let expire : List (Lbl Nat) :=
    [.acquire key "worker" 10, .commit 0, .tick 9, .renew token 10, .tick 10]
  have hno := (h (expire ++ [.commit 0])).noRevival expire [.commit 0] [] rfl token
    (by decide) (by unfold Passes; decide)
  exact hno rfl

end Runtime.LeaseFencing
