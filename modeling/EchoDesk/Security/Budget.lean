import EchoDesk.Foundations.Tally
import EchoDesk.Foundations.Transition
import EchoDesk.Security.Governor

/-! # Conservation of the budgets

Any number of callers reserve, settle and release at once. A settle marks its
reservation and then adjusts the ledger in a transaction of its own, so other
calls come in between. The ledger holds what the settled reservations used and
what the others reserved, and never more than the limit.

A settle that cannot be charged raises, and its reservation stays marked: it is
neither settled nor can it be settled again.
-/

namespace Security

open EchoDesk Tally Transition List Option Function

/-- How far the settling of a reservation is. -/
inductive Progress where
  | outstanding
  /-- `settle(actual)` marked it and has `delta` left to charge. -/
  | settling (actual delta : Int)
  | settled (actual : Int)
  /-- `settle(actual)` raised. -/
  | raised (actual : Int)
deriving DecidableEq

/-- A reservation and the call that settles it. -/
structure Entry where
  reservation : QuotaReservation
  progress : Progress
deriving DecidableEq

/-- What the entry accounts for: the actual amount once it is settled, the reserved
one before. -/
def Entry.amount (e : Entry) : Nat :=
  match e.progress with
  | .settled actual => (max 0 actual).toNat
  | _ => e.reservation.reserved

/-- What the entry weighs in the account of a row of the ledger. Only governed
principals are accounted for. -/
def Entry.weight (key : LedgerKey) (e : Entry) : Nat :=
  if isGoverned e.reservation.principal ∧ e.reservation.key = key then e.amount else 0

structure BudgetState where
  ledger : Ledger
  entries : List Entry

/-- A fresh ledger. -/
def BudgetState.init : BudgetState := ⟨fun _ => 0, []⟩

inductive BudgetLabel where
  | reserve (principal : Caller) (metric : LedgerMetric) (amount : Int) (now : UtcTime)
      (fails : Bool)
  /-- `settle(actual)` of the `i`-th reservation up to its first `await`. -/
  | settle (i : Nat) (actual : Int)
  /-- The transaction of the settle under way. -/
  | adjust (i : Nat) (now : UtcTime) (fails : Bool)

/-- `release` of the `i`-th reservation. -/
def BudgetLabel.release (i : Nat) : BudgetLabel := .settle i 0

/-- The entry after `settle(actual)` ran to its first `await`. -/
def Entry.settle (e : Entry) (actual : Int) : Entry :=
  if e.reservation.settled then e
  else
    match e.reservation.settle actual with
    | (reservation, none) => ⟨reservation, .settled actual⟩
    | (reservation, some delta) => ⟨reservation, .settling actual delta⟩

/-- The entry and the ledger after the transaction of its settle. -/
def Entry.adjust (e : Entry) (ledger : Ledger) (now : UtcTime) (fails : Bool) : Entry × Ledger :=
  match e.progress with
  | .settling actual delta =>
    match e.reservation.adjust ledger now fails delta with
    | (.ok _, ledger) => ({ e with progress := .settled actual }, ledger)
    | (.error _, ledger) => ({ e with progress := .raised actual }, ledger)
  | _ => (e, ledger)

/-- The limits of the settings. -/
abbrev Limits : Type := LedgerMetric → Nat

def budgetStep (limits : Limits) (s : BudgetState) : BudgetLabel → BudgetState
  | .reserve principal metric amount now fails =>
    match reserve s.ledger now fails principal metric amount (limits metric) with
    | (.ok reservation, ledger) => ⟨ledger, s.entries ++ [⟨reservation, .outstanding⟩]⟩
    | (.error _, ledger) => ⟨ledger, s.entries⟩
  | .settle i actual =>
    match s.entries[i]? with
    | some e => { s with entries := s.entries.set i (e.settle actual) }
    | none => s
  | .adjust i now fails =>
    match s.entries[i]? with
    | some e => ⟨(e.adjust s.ledger now fails).2, s.entries.set i (e.adjust s.ledger now fails).1⟩
    | none => s

/-- Every row of the ledger is the account of its reservations, within the limit. -/
structure Conserved (limits : Limits) (s : BudgetState) : Prop where
  sum : ∀ key, s.ledger key = total (Entry.weight key) s.entries
  limit : ∀ key, s.ledger key ≤ limits key.metric

/-- A settle that raises leaves the ledger as it is, and its reservation can be settled
again. -/
def RaisesSafely (limits : Limits) (s : BudgetState) : BudgetLabel → Prop
  | .adjust i now fails => ∀ e ∈ s.entries[i]?, ∀ actual delta error,
      e.progress = .settling actual delta →
      (e.reservation.adjust s.ledger now fails delta).1 = .error error →
      (budgetStep limits s (.adjust i now fails)).ledger = s.ledger ∧
        ∃ e' ∈ (budgetStep limits s (.adjust i now fails)).entries[i]?,
          e'.reservation.settled = false
  | _ => True

/-- The settle fits: a reservation of nothing is settled with nothing, and a
difference is accepted by the database, within the limit if it is a charge. -/
def Fits (s : BudgetState) : BudgetLabel → Prop
  | .reserve .. => True
  | .settle i actual => ∀ e ∈ s.entries[i]?, isGoverned e.reservation.principal = true →
      e.reservation.settled = false → e.reservation.reserved = 0 → actual ≤ 0
  | .adjust i _ fails => ∀ e ∈ s.entries[i]?, isGoverned e.reservation.principal = true →
      ∀ actual delta, e.progress = .settling actual delta →
        fails = false ∧ (0 < delta → s.ledger e.reservation.key + delta ≤ e.reservation.limit)

/-! ## One charge -/

variable {ledger : Ledger} {principal : Caller} {metric : LedgerMetric} {delta : Int}
variable {limit i : Nat} {limits : Limits} {e : Entry} {s : BudgetState} {l : BudgetLabel}
variable {now : UtcTime} {fails : Bool} {window : String}

/-- The ledger of a principal that is not governed is left alone. -/
theorem adjustLedger_ungoverned (h : isGoverned principal = false) :
    adjustLedger ledger now fails principal metric window delta limit = (.ok 0, ledger) := by
  simp [adjustLedger, h]

/-- A difference that fits is charged. -/
theorem adjustLedger_fits (hgov : isGoverned principal = true) (hne : delta ≠ 0)
    (hfit : 0 < delta → ledger ⟨principal.scope, metric, window⟩ + delta ≤ limit) :
    adjustLedger ledger now false principal metric window delta limit =
      (.ok (ledger ⟨principal.scope, metric, window⟩ + delta).toNat,
        Function.update ledger ⟨principal.scope, metric, window⟩
          (ledger ⟨principal.scope, metric, window⟩ + delta).toNat) := by
  have hcharged : ¬ (!isGoverned principal || delta == 0) = true := by simp [hgov, hne]
  have hroom : ¬ (0 < delta ∧
      limit < (ledger ⟨principal.scope, metric, window⟩ + delta).toNat) := by
    rintro ⟨hpos, hover⟩
    omega
  rw [adjustLedger, if_neg hcharged, if_neg Bool.false_ne_true]
  rw [if_neg hroom]

/-- A difference that does not fit raises, and the ledger is left alone. -/
theorem adjustLedger_raises (now : UtcTime) (hgov : isGoverned principal = true) (hne : delta ≠ 0)
    (hfit : ¬ (fails = false ∧
      (0 < delta → ledger ⟨principal.scope, metric, window⟩ + delta ≤ limit))) :
    ∃ error, adjustLedger ledger now fails principal metric window delta limit =
      (.error error, ledger) := by
  have hcharged : ¬ (!isGoverned principal || delta == 0) = true := by simp [hgov, hne]
  rw [adjustLedger, if_neg hcharged]
  cases fails with
  | true => exact ⟨.database, if_pos rfl⟩
  | false =>
    have hover : 0 < delta ∧ limit < (ledger ⟨principal.scope, metric, window⟩ + delta).toNat := by
      by_cases hpos : 0 < delta
      · have : ¬ (ledger ⟨principal.scope, metric, window⟩ + delta ≤ limit) := fun hle =>
          hfit ⟨rfl, fun _ => hle⟩
        exact ⟨hpos, by omega⟩
      · exact absurd ⟨rfl, fun h => absurd h hpos⟩ hfit
    rw [if_neg Bool.false_ne_true]
    rw [if_pos hover]
    exact ⟨_, rfl⟩

/-! ## The mark of a reservation -/

/-- What is known of an entry besides its amount. -/
structure Entry.Marked (limits : Limits) (e : Entry) : Prop where
  limit : e.reservation.limit = limits e.reservation.metric
  /-- Only an outstanding reservation can be settled. -/
  outstanding : e.reservation.settled = false ↔ e.progress = .outstanding
  /-- The difference under way is that of the actual amount, and is no zero. -/
  settling : ∀ actual delta, e.progress = .settling actual delta →
    delta = max 0 actual - e.reservation.reserved ∧ delta ≠ 0

/-- What `settle` leaves of an entry: nothing changes if it is marked, else it is settled
with the actual amount at once or has a difference left to charge. -/
theorem Entry.settle_cases (e : Entry) (actual : Int) :
    (e.reservation.settled = true ∧ e.settle actual = e) ∨
    (e.reservation.settled = false ∧
      (e.reservation.reserved = 0 ∨ max 0 actual = e.reservation.reserved) ∧
      e.settle actual = ⟨{ e.reservation with settled := true }, .settled actual⟩) ∨
    (e.reservation.settled = false ∧ max 0 actual - e.reservation.reserved ≠ 0 ∧
      e.settle actual = ⟨{ e.reservation with settled := true },
        .settling actual (max 0 actual - e.reservation.reserved)⟩) := by
  unfold Entry.settle
  by_cases hset : e.reservation.settled = true
  · exact .inl ⟨hset, if_pos hset⟩
  have hfalse : e.reservation.settled = false := Bool.eq_false_iff.2 hset
  right
  rw [if_neg hset, QuotaReservation.settle]
  by_cases hzero : e.reservation.reserved = 0
  · rw [if_pos (.inr hzero)]
    exact .inl ⟨hfalse, .inl hzero, rfl⟩
  rw [if_neg (by simp [hset, hzero])]
  dsimp only
  by_cases hdelta : max 0 actual - (e.reservation.reserved : Int) = 0
  · rw [if_pos hdelta]
    exact .inl ⟨hfalse, .inr (by omega), rfl⟩
  · rw [if_neg hdelta]
    exact .inr ⟨hfalse, hdelta, rfl⟩

theorem Entry.Marked.settle (he : e.Marked limits) (actual : Int) :
    (e.settle actual).Marked limits := by
  rcases e.settle_cases actual with ⟨-, h⟩ | ⟨-, -, h⟩ | ⟨-, hne, h⟩
  · rw [h]
    exact he
  · rw [h]
    exact ⟨he.limit, by simp, by simp⟩
  rw [h]
  refine ⟨he.limit, by simp, ?_⟩
  intro actual' delta hprogress
  obtain ⟨rfl, rfl⟩ : actual = actual' ∧ max 0 actual - (e.reservation.reserved : Int) = delta :=
    by simpa using hprogress
  exact ⟨rfl, hne⟩

/-- What the transaction of a settle leaves of an entry. -/
theorem Entry.adjust_cases (e : Entry) (ledger : Ledger) (now : UtcTime) (fails : Bool) :
    ((∀ actual delta, e.progress ≠ .settling actual delta) ∧
      e.adjust ledger now fails = (e, ledger)) ∨
    ∃ actual delta, e.progress = .settling actual delta ∧
      (((∃ used, (e.reservation.adjust ledger now fails delta).1 = .ok used) ∧
          e.adjust ledger now fails = ({ e with progress := .settled actual },
            (e.reservation.adjust ledger now fails delta).2)) ∨
        ((∃ error, (e.reservation.adjust ledger now fails delta).1 = .error error) ∧
          e.adjust ledger now fails = ({ e with progress := .raised actual },
            (e.reservation.adjust ledger now fails delta).2))) := by
  unfold Entry.adjust
  cases hprogress : e.progress with
  | settling actual delta =>
    right
    refine ⟨actual, delta, rfl, ?_⟩
    dsimp only
    generalize e.reservation.adjust ledger now fails delta = out
    obtain ⟨result, ledger'⟩ := out
    cases result with
    | ok used => exact .inl ⟨⟨used, rfl⟩, rfl⟩
    | error error => exact .inr ⟨⟨error, rfl⟩, rfl⟩
  | outstanding | settled actual | raised actual => exact .inl ⟨by simp, rfl⟩

theorem Entry.Marked.adjust (he : e.Marked limits) (ledger : Ledger) (now : UtcTime)
    (fails : Bool) : (e.adjust ledger now fails).1.Marked limits := by
  rcases e.adjust_cases ledger now fails with ⟨-, h⟩ | ⟨actual, delta, hprogress, h⟩
  · rw [h]
    exact he
  have hset : e.reservation.settled = true := by
    by_contra hne
    have := he.outstanding.1 (Bool.eq_false_iff.2 hne)
    rw [hprogress] at this
    cases this
  rcases h with ⟨-, h⟩ | ⟨-, h⟩
  · rw [h]
    exact ⟨he.limit, by simp [hset], by simp⟩
  · rw [h]
    exact ⟨he.limit, by simp [hset], by simp⟩

/-! ## The invariant -/

def AllMarked (limits : Limits) (s : BudgetState) : Prop := ∀ e ∈ s.entries, e.Marked limits

/-- A reservation carries the limit of its metric and is not marked. -/
theorem reserve_ok {ledger' : Ledger} {amount : Int} {r : QuotaReservation}
    (h : reserve ledger now fails principal metric amount limit = (.ok r, ledger')) :
    r.metric = metric ∧ r.limit = limit ∧ r.settled = false := by
  unfold reserve at h
  dsimp only at h
  split at h
  · cases h
    exact ⟨rfl, rfl, rfl⟩
  split at h
  · cases h
  · cases h
    exact ⟨rfl, rfl, rfl⟩

/-- An entry is replaced by a marked one. -/
theorem AllMarked.set {l : List Entry} (h : ∀ e ∈ l, e.Marked limits) (i : Nat) {e' : Entry}
    (he' : e'.Marked limits) : ∀ a ∈ l.set i e', a.Marked limits := by
  intro a ha
  rcases mem_or_eq_of_mem_set ha with ha | rfl
  · exact h a ha
  · exact he'

/-- A step adds an entry, or moves one on. -/
theorem allMarked_step (limits : Limits) (h : AllMarked limits s) (l : BudgetLabel) :
    AllMarked limits (budgetStep limits s l) := by
  cases l with
  | reserve principal metric amount now fails =>
    dsimp only [budgetStep]
    cases hreserve : reserve s.ledger now fails principal metric amount (limits metric) with
    | mk result ledger =>
      cases result with
      | error error => exact h
      | ok reservation =>
        have hres := reserve_ok hreserve
        intro a ha
        rcases mem_append.1 ha with ha | ha
        · exact h a ha
        · rw [mem_singleton.1 ha]
          exact ⟨by rw [hres.1]; exact hres.2.1, by simp [hres.2.2], by simp⟩
  | settle i actual =>
    dsimp only [budgetStep]
    cases he : s.entries[i]? with
    | none => exact h
    | some e => exact AllMarked.set h i ((h e (mem_of_getElem? he)).settle actual)
  | adjust i now fails =>
    dsimp only [budgetStep]
    cases he : s.entries[i]? with
    | none => exact h
    | some e => exact AllMarked.set h i ((h e (mem_of_getElem? he)).adjust s.ledger now fails)

/-! ## Conservation, step by step -/

/-- `_reserve` raises, reserves what is not accounted for, or charges the ledger. -/
theorem reserve_cases (ledger : Ledger) (now : UtcTime) (fails : Bool) (principal : Caller)
    (metric : LedgerMetric) (amount : Int) (limit : Nat) :
    (∃ error, reserve ledger now fails principal metric amount limit = (.error error, ledger)) ∨
    ∃ r : QuotaReservation, r.principal = principal ∧ r.metric = metric ∧ r.limit = limit ∧
      ((reserve ledger now fails principal metric amount limit = (.ok r, ledger) ∧
          (isGoverned r.principal = true → r.reserved = 0)) ∨
        (reserve ledger now fails principal metric amount limit =
            (.ok r, Function.update ledger r.key (ledger r.key + r.reserved)) ∧
          isGoverned r.principal = true ∧ ledger r.key + r.reserved ≤ limit)) := by
  dsimp only [reserve]
  by_cases hzero : amount.toNat = 0
  · right
    rw [if_pos hzero]
    exact ⟨_, rfl, rfl, rfl, .inl ⟨rfl, fun _ => hzero⟩⟩
  rw [if_neg hzero]
  by_cases hgov : isGoverned principal = true
  · by_cases hfit : fails = false ∧ (0 < (amount.toNat : Int) →
        ledger ⟨principal.scope, metric, (windowKey now metric).1⟩ + (amount.toNat : Int) ≤ limit)
    · obtain ⟨rfl, hroom⟩ := hfit
      rw [adjustLedger_fits hgov (by omega) hroom]
      right
      refine ⟨⟨principal, metric, (windowKey now metric).1, amount.toNat, limit, false⟩,
        rfl, rfl, rfl, .inr ⟨?_, hgov, ?_⟩⟩
      · rw [show ∀ a b : Nat, ((a : Int) + (b : Int)).toNat = a + b from fun a b => by omega]
        rfl
      · simp only [QuotaReservation.key]
        omega
    · obtain ⟨error, herror⟩ := adjustLedger_raises now hgov (by omega) hfit
      rw [herror]
      exact .inl ⟨error, rfl⟩
  · right
    rw [adjustLedger_ungoverned (by simpa using hgov)]
    exact ⟨_, rfl, rfl, rfl, .inl ⟨rfl, fun h => absurd h hgov⟩⟩

/-- A reservation is added to the account of the row it was charged to. -/
theorem conserved_reserve (hs : Conserved limits s) (principal : Caller) (metric : LedgerMetric)
    (amount : Int) (now : UtcTime) (fails : Bool) :
    Conserved limits (budgetStep limits s (.reserve principal metric amount now fails)) := by
  dsimp only [budgetStep]
  rcases reserve_cases s.ledger now fails principal metric amount (limits metric) with
    ⟨error, h⟩ | ⟨r, hprincipal, hmetric, hlimit, ⟨h, hfree⟩ | ⟨h, hgov, hroom⟩⟩
  · rw [h]
    exact hs
  · -- what was not charged weighs nothing
    rw [h]
    refine ⟨fun key => ?_, hs.limit⟩
    have hweight : Entry.weight key ⟨r, .outstanding⟩ = 0 := by
      unfold Entry.weight
      split
      · rename_i hkey
        exact hfree hkey.1
      · rfl
    simp only [total_append, total_cons, total_nil, hweight]
    exact hs.sum key
  rw [h]
  refine ⟨fun key => ?_, fun key => ?_⟩
  · have hsum := hs.sum key
    simp only [total_append, total_cons, total_nil, Entry.weight, Entry.amount, hgov, true_and,
      update_apply]
    by_cases hkey : r.key = key
    · rw [if_pos hkey.symm, if_pos hkey, hkey]
      omega
    · rw [if_neg (Ne.symm hkey), if_neg hkey]
      exact hsum
  simp only [update_apply]
  by_cases hkey : key = r.key
  · rw [if_pos hkey, hkey]
    show _ ≤ limits r.metric
    rw [hmetric]
    exact hroom
  · rw [if_neg hkey]
    exact hs.limit key

/-- A replaced entry that weighs the same keeps the account. -/
theorem Conserved.set (hs : Conserved limits s) {e' : Entry} (he : s.entries[i]? = some e)
    (hw : ∀ key, Entry.weight key e' = Entry.weight key e) :
    Conserved limits ⟨s.ledger, s.entries.set i e'⟩ := by
  refine ⟨fun key => ?_, hs.limit⟩
  rw [hs.sum key]
  exact (total_set_of_eq _ he (hw key)).symm

section

variable (hm : AllMarked limits s)

include hm

/-- A settle that fits keeps the account: it is charged later, or has nothing to charge. -/
theorem conserved_settle (hs : Conserved limits s) {actual : Int}
    (hfits : Fits s (.settle i actual)) :
    Conserved limits (budgetStep limits s (.settle i actual)) := by
  dsimp only [budgetStep]
  cases he : s.entries[i]? with
  | none => exact hs
  | some e =>
    apply hs.set he
    intro key
    have hmarked := hm e (mem_of_getElem? he)
    rcases e.settle_cases actual with
      ⟨-, h⟩ | ⟨hset, hamount, h⟩ | ⟨hset, -, h⟩
    · rw [h]
    · -- the entry is settled at once, with what it had reserved
      rw [h]
      have hout : e.amount = e.reservation.reserved := by
        simp only [Entry.amount, hmarked.outstanding.1 hset]
      show (if isGoverned e.reservation.principal = true ∧ e.reservation.key = key then
        (max 0 actual).toNat else 0) = Entry.weight key e
      by_cases hkey : isGoverned e.reservation.principal = true ∧ e.reservation.key = key
      · rw [Entry.weight, if_pos hkey, if_pos hkey, hout]
        rcases hamount with hzero | hsame
        · have hle := hfits e he hkey.1 hset hzero
          omega
        · omega
      · rw [Entry.weight, if_neg hkey, if_neg hkey]
    · rw [h]
      have hout := hmarked.outstanding.1 hset
      simp only [Entry.weight, Entry.amount, hout]
      rfl

/-- A difference that fits moves the entry and its row by the same amount. -/
theorem conserved_adjust (hs : Conserved limits s) (hfits : Fits s (.adjust i now fails)) :
    Conserved limits (budgetStep limits s (.adjust i now fails)) := by
  dsimp only [budgetStep]
  cases he : s.entries[i]? with
  | none => exact hs
  | some e =>
    dsimp only
    have hmarked := hm e (mem_of_getElem? he)
    rcases e.adjust_cases s.ledger now fails with ⟨-, h⟩ | ⟨actual, delta, hprogress, h⟩
    · rw [h]
      exact hs.set he fun _ => rfl
    obtain ⟨hdelta, hne⟩ := hmarked.settling actual delta hprogress
    by_cases hgov : isGoverned e.reservation.principal = true
    · obtain ⟨rfl, hroom⟩ := hfits e he hgov actual delta hprogress
      have hadjust : e.reservation.adjust s.ledger now false delta =
          (.ok (s.ledger e.reservation.key + delta).toNat,
            Function.update s.ledger e.reservation.key
              (s.ledger e.reservation.key + delta).toNat) :=
        adjustLedger_fits hgov hne hroom
      rcases h with ⟨-, h⟩ | ⟨⟨error, herror⟩, -⟩
      · rw [h, hadjust]
        have hweight := total_set (Entry.weight e.reservation.key) he
          { e with progress := .settled actual }
        have hsum := hs.sum e.reservation.key
        have hold : Entry.weight e.reservation.key e = e.reservation.reserved := by
          simp [Entry.weight, Entry.amount, hprogress, hgov]
        have hnew : Entry.weight e.reservation.key { e with progress := .settled actual } =
            (max 0 actual).toNat := by
          simp [Entry.weight, Entry.amount, hgov]
        refine ⟨fun key => ?_, fun key => ?_⟩
        · simp only [update_apply]
          by_cases hkey : key = e.reservation.key
          · rw [if_pos hkey, hkey]
            omega
          · rw [if_neg hkey, hs.sum key]
            refine (total_set_of_eq _ he ?_).symm
            simp [Entry.weight, Ne.symm hkey]
        simp only [update_apply]
        by_cases hkey : key = e.reservation.key
        · rw [if_pos hkey, hkey]
          have hlimit := hs.limit e.reservation.key
          have hle := hmarked.limit
          have hmetric : e.reservation.key.metric = e.reservation.metric := rfl
          rw [hmetric] at hlimit ⊢
          by_cases hpos : 0 < delta
          · omega
          · omega
        · rw [if_neg hkey]
          exact hs.limit key
      · rw [hadjust] at herror
        cases herror
    · -- the principal has no account
      have hadjust : e.reservation.adjust s.ledger now fails delta = (.ok 0, s.ledger) :=
        adjustLedger_ungoverned (by simpa using hgov)
      rcases h with ⟨-, h⟩ | ⟨⟨error, herror⟩, -⟩
      · rw [h, hadjust]
        apply hs.set he
        intro key
        simp [Entry.weight, hgov]
      · rw [hadjust] at herror
        cases herror

/-- A step that fits keeps the account. -/
theorem conserved_step (hs : Conserved limits s) (hfits : Fits s l) :
    Conserved limits (budgetStep limits s l) := by
  cases l with
  | reserve principal metric amount now fails =>
    exact conserved_reserve hs principal metric amount now fails
  | settle i actual => exact conserved_settle hm hs hfits
  | adjust i now fails => exact conserved_adjust hm hs hfits

/-- A settle that fits does not raise. -/
theorem raisesSafely_of_fits (hfits : Fits s l) :
    RaisesSafely limits s l := by
  cases l with
  | reserve | settle => trivial
  | adjust i now fails =>
    intro e he actual delta error hprogress herror
    exfalso
    obtain ⟨-, hne⟩ := (hm e (mem_of_getElem? he)).settling actual delta hprogress
    by_cases hgov : isGoverned e.reservation.principal = true
    · obtain ⟨rfl, hroom⟩ := hfits e he hgov actual delta hprogress
      rw [QuotaReservation.adjust, adjustLedger_fits hgov hne hroom] at herror
      cases herror
    · rw [QuotaReservation.adjust, adjustLedger_ungoverned (by simpa using hgov)] at herror
      cases herror

/-- A settle that does not fit is seen: either the account is lost, or it raises and its
reservation stays marked. -/
theorem fits_of_conserved (hs : Conserved limits s)
    (hnext : Conserved limits (budgetStep limits s l)) (hraise : RaisesSafely limits s l) :
    Fits s l := by
  cases l with
  | reserve => trivial
  | settle i actual =>
    intro e he hgov hset hzero
    by_contra hpos
    have hmarked := hm e (mem_of_getElem? he)
    obtain ⟨e', hstep, hnew⟩ : ∃ e', (budgetStep limits s (.settle i actual)) =
        ⟨s.ledger, s.entries.set i e'⟩ ∧
          Entry.weight e.reservation.key e' = (max 0 actual).toNat := by
      refine ⟨⟨{ e.reservation with settled := true }, .settled actual⟩, ?_, ?_⟩
      · simp [budgetStep, mem_def.1 he, Entry.settle, QuotaReservation.settle, hset, hzero]
      · simp [Entry.weight, Entry.amount, QuotaReservation.key, hgov]
    have hold : Entry.weight e.reservation.key e = 0 := by
      simp [Entry.weight, Entry.amount, hmarked.outstanding.1 hset, hzero]
    have hsum := hs.sum e.reservation.key
    have hsum' := hnext.sum e.reservation.key
    have htotal := total_set (Entry.weight e.reservation.key) he e'
    rw [hstep] at hsum'
    dsimp only at hsum'
    omega
  | adjust i now fails =>
    intro e he hgov actual delta hprogress
    by_contra hover
    have hmarked := hm e (mem_of_getElem? he)
    obtain ⟨-, hne⟩ := hmarked.settling actual delta hprogress
    obtain ⟨error, herror⟩ : ∃ error, e.reservation.adjust s.ledger now fails delta =
        (.error error, s.ledger) := by
      apply adjustLedger_raises _ hgov hne
      intro hfit
      apply hover
      exact hfit
    -- the reservation was marked before it raised
    obtain ⟨-, e', he', hopen⟩ := hraise e he actual delta error hprogress (by rw [herror])
    have hlt : i < s.entries.length := (List.getElem?_eq_some_iff.1 he).1
    have hstep : (budgetStep limits s (.adjust i now fails)).entries =
        s.entries.set i { e with progress := .raised actual } := by
      simp only [budgetStep, mem_def.1 he, Entry.adjust, hprogress, herror]
    rw [hstep, getElem?_set_self hlt] at he'
    have hentry : { e with progress := .raised actual } = e' := some.inj he'
    have hout := hmarked.outstanding.1 (by rw [← hentry] at hopen; exact hopen)
    rw [hprogress] at hout
    cases hout

end

/-! ## Runs -/

/-- Every state of the run accounts for its reservations, and every settle of it that raises
leaves its reservation to be settled again. -/
def AccountHolds (limits : Limits) (trace : List BudgetLabel) : Prop :=
  (∀ before after, trace = before ++ after →
    Conserved limits (run (budgetStep limits) .init before)) ∧
  ∀ before l after, trace = before ++ l :: after →
    RaisesSafely limits (run (budgetStep limits) .init before) l

theorem allMarked_init (limits : Limits) : AllMarked limits .init := by
  intro e he
  cases he

theorem allMarked_run (limits : Limits) (trace : List BudgetLabel) :
    AllMarked limits (run (budgetStep limits) .init trace) := by
  have hstep : ∀ s l, AllMarked limits s → AllMarked limits (budgetStep limits s l) :=
    fun _ l h => allMarked_step limits h l
  exact run_invariant hstep (allMarked_init limits) trace

theorem conserved_run {trace : List BudgetLabel}
    (hfits : Meets (budgetStep limits) Fits .init trace) :
    Conserved limits (run (budgetStep limits) .init trace) := by
  have hstep : ∀ s l, Fits s l → AllMarked limits s ∧ Conserved limits s →
      AllMarked limits (budgetStep limits s l) ∧ Conserved limits (budgetStep limits s l) := by
    intro s l hl hs
    exact ⟨allMarked_step limits hs.1 l, conserved_step hs.1 hs.2 hl⟩
  exact (run_invariant_of_meets hstep hfits ⟨allMarked_init limits, fun _ => rfl, fun _ => Nat.zero_le _⟩).2

/-- The account holds in a run exactly when every settle of the run fits. -/
theorem accountHolds_iff (limits : Limits) (trace : List BudgetLabel) :
    AccountHolds limits trace ↔ Meets (budgetStep limits) Fits .init trace := by
  constructor
  · rintro ⟨hconserved, hraise⟩
    rw [meets_iff_forall_split]
    intro before l after hsplit
    apply fits_of_conserved (allMarked_run limits before) (hconserved before (l :: after) hsplit)
    · have hnext := hconserved (before ++ [l]) after (by simp [hsplit])
      rw [run_snoc] at hnext
      exact hnext
    · exact hraise before l after hsplit
  · intro hfits
    constructor
    · rintro before after rfl
      exact conserved_run ((meets_append _ before after).1 hfits).1
    · intro before l after hsplit
      exact raisesSafely_of_fits (allMarked_run limits before)
        ((meets_iff_forall_split _ _).1 hfits before l after hsplit)

/-- A public caller. -/
def spender : Caller := ⟨⟨"t", "d", "o"⟩, .publicMode⟩

/-- The whole budget is reserved twice by halves, and the first half is settled with more
than it had reserved. -/
def overspent : List BudgetLabel :=
  [.reserve spender .llmTokens 5 ⟨2025, 1, 1, 0, 0, 0⟩ false,
    .reserve spender .llmTokens 5 ⟨2025, 1, 1, 0, 0, 0⟩ false, .settle 0 8]

/-- The charge of the difference raises, and the reservation can not be settled again. -/
theorem overspent_breaks : ¬ ∀ limits trace, AccountHolds limits trace := by
  intro h
  obtain ⟨-, hraise⟩ := h (fun _ => 10) (overspent ++ [.adjust 0 ⟨2025, 1, 1, 0, 0, 0⟩ false])
  obtain ⟨-, e, he, hopen⟩ := hraise overspent (.adjust 0 ⟨2025, 1, 1, 0, 0, 0⟩ false) [] rfl
    ⟨⟨spender, .llmTokens, "day:20250101", 5, 10, true⟩, .settling 8 3⟩ (by decide +kernel) 8 3
    (.quotaExceeded .llmTokens 10 10 86400) rfl (by decide +kernel)
  have hentry : (budgetStep (fun _ => 10) (run (budgetStep fun _ => 10) .init overspent)
      (.adjust 0 ⟨2025, 1, 1, 0, 0, 0⟩ false)).entries[0]? =
        some ⟨⟨spender, .llmTokens, "day:20250101", 5, 10, true⟩, .raised 8⟩ := by
    decide +kernel
  rw [Option.mem_def, hentry] at he
  cases he
  cases hopen

end Security
