import EchoDesk.Core.Data

/-! # The budgets of a principal

The durable budgets of `app/security/governor.py`: the ledger of what a
principal used within a window, the reservations that are charged to it in
advance, and how a reservation is settled with what was used in the end.
-/

namespace Security

open EchoDesk

/-- `LedgerMetric`. -/
inductive LedgerMetric where
  | requests | uploadBytes | storageBytes | llmTokens
deriving DecidableEq

/-- `PrincipalMode`: the local principal, or one of a public session. -/
inductive PrincipalMode where
  | localMode | publicMode
deriving DecidableEq

/-- The principal of a call, with its mode. -/
structure Caller extends Principal where
  mode : PrincipalMode
deriving DecidableEq

/-- `_is_governed`. -/
def isGoverned (principal : Caller) : Bool := principal.mode == .publicMode

/-- A reading of the UTC clock. -/
structure UtcTime where
  year : Nat
  month : Nat
  day : Nat
  hour : Nat
  minute : Nat
  second : Nat

/-- Two digits. -/
def twoDigits (n : Nat) : String := if n < 10 then "0" ++ toString n else toString n

/-- `now.strftime("%Y%m%d")`. -/
def UtcTime.date (now : UtcTime) : String :=
  toString now.year ++ twoDigits now.month ++ twoDigits now.day

/-- `_window_key`: the accounting window, and the seconds until the next one. -/
def windowKey (now : UtcTime) : LedgerMetric → String × Nat
  | .requests => ("minute:" ++ now.date ++ twoDigits now.hour ++ twoDigits now.minute,
      max 1 (60 - now.second))
  | .uploadBytes | .llmTokens => ("day:" ++ now.date,
      max 1 (86400 - (now.hour * 3600 + now.minute * 60 + now.second)))
  | .storageBytes => ("lifetime", 3600)

/-- The key of a row of `principal_quota_ledger`. -/
structure LedgerKey where
  scope : Scope
  metric : LedgerMetric
  windowKey : String
deriving DecidableEq

/-- The column `used`: 0 where there is no row. -/
abbrev Ledger : Type := LedgerKey → Nat

/-- What a charge of the ledger raises. -/
inductive GovernorError where
  /-- `QuotaExceeded`. -/
  | quotaExceeded (metric : LedgerMetric) (limit used retryAfterS : Nat)
  /-- The database failed, and the transaction was rolled back. -/
  | database
deriving DecidableEq

/-- `_adjust_ledger`, as one transaction that the database may refuse. -/
def adjustLedger (ledger : Ledger) (now : UtcTime) (fails : Bool) (principal : Caller)
    (metric : LedgerMetric) (window : String) (delta : Int) (limit : Nat) :
    Except GovernorError Nat × Ledger :=
  if !isGoverned principal || delta == 0 then (.ok 0, ledger)
  else if fails then (.error .database, ledger)
  else
    let key : LedgerKey := ⟨principal.scope, metric, window⟩
    let current := ledger key
    let updated := (current + delta).toNat
    if 0 < delta ∧ limit < updated then
      (.error (.quotaExceeded metric limit current (max 1 (windowKey now metric).2)), ledger)
    else (.ok updated, Function.update ledger key updated)

/-- `QuotaReservation`. -/
structure QuotaReservation where
  principal : Caller
  metric : LedgerMetric
  windowKey : String
  reserved : Nat
  limit : Nat
  settled : Bool
deriving DecidableEq

/-- The row of the ledger a reservation is charged to. -/
def QuotaReservation.key (r : QuotaReservation) : LedgerKey :=
  ⟨r.principal.scope, r.metric, r.windowKey⟩

/-- `_reserve`. -/
def reserve (ledger : Ledger) (now : UtcTime) (fails : Bool) (principal : Caller)
    (metric : LedgerMetric) (amount : Int) (limit : Nat) :
    Except GovernorError QuotaReservation × Ledger :=
  let amount := amount.toNat
  let window := (windowKey now metric).1
  let reservation : QuotaReservation := ⟨principal, metric, window, amount, limit, false⟩
  if amount = 0 then (.ok reservation, ledger)
  else
    match adjustLedger ledger now fails principal metric window amount limit with
    | (.error e, ledger) => (.error e, ledger)
    | (.ok _, ledger) => (.ok reservation, ledger)

/-- `QuotaReservation.settle` up to its first `await`: the reservation is marked, and
there may be a difference left that the ledger is to be adjusted by. -/
def QuotaReservation.settle (r : QuotaReservation) (actual : Int) : QuotaReservation × Option Int :=
  if r.settled ∨ r.reserved = 0 then ({ r with settled := true }, none)
  else
    let delta := max 0 actual - r.reserved
    ({ r with settled := true }, if delta = 0 then none else some delta)

/-- The rest of `QuotaReservation.settle`. -/
def QuotaReservation.adjust (r : QuotaReservation) (ledger : Ledger) (now : UtcTime) (fails : Bool)
    (delta : Int) : Except GovernorError Nat × Ledger :=
  adjustLedger ledger now fails r.principal r.metric r.windowKey delta r.limit

/-- `QuotaReservation.release`. -/
def QuotaReservation.release (r : QuotaReservation) : QuotaReservation × Option Int := r.settle 0

end Security
