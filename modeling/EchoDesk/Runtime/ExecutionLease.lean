import Mathlib.Algebra.GroupWithZero.Nat
import Mathlib.Order.Lattice

/-! # Execution leases

The store of `app/runtime/execution_lease.py`: one row for each resource of a
scope, with a holder, a fencing token and the end of the term. Every statement
of the store is a function on the table; the clock reading it uses is an
argument, because `acquire` and `renew` take theirs before the transaction
begins.

Times are finite clock values: any linear order with a zero and an addition
will do, and no law of the addition is used.
-/

set_option linter.unusedSectionVars false

namespace Runtime

/-- Primary key of `execution_leases`. -/
structure LeaseKey where
  tenantId : String
  ownerId : String
  resourceKind : String
  resourceId : String
deriving DecidableEq

/-- The other columns of `execution_leases`. -/
structure LeaseRow (Time : Type) where
  holderId : String
  fenceToken : Nat
  expiresAt : Time
  heartbeatAt : Time

/-- Proof that one holder owns a scoped resource for a bounded term. -/
structure LeaseToken (Time : Type) extends LeaseKey where
  holderId : String
  fenceToken : Nat
  expiresAt : Time
  heartbeatAt : Time
deriving DecidableEq

/-- The table `execution_leases`. -/
abbrev Leases (Time : Type) : Type := LeaseKey → Option (LeaseRow Time)

/-- What the store raises. -/
inductive LeaseError where
  | valueError (message : String)
  | leaseOwnershipError (message : String)
deriving DecidableEq

/-- `_validate_identity`. -/
def validateIdentity (values : List String) : Except LeaseError Unit :=
  if values.any fun value => value = "" then
    .error (.valueError "lease scope, resource, and holder identifiers must be non-empty")
  else .ok ()

/-- The columns a returned row is read into (`_row_to_token`). -/
def rowToToken {Time : Type} (key : LeaseKey) (row : LeaseRow Time) : LeaseToken Time :=
  { key with
    holderId := row.holderId
    fenceToken := row.fenceToken
    expiresAt := row.expiresAt
    heartbeatAt := row.heartbeatAt }

variable {Time : Type} [LinearOrder Time] [Zero Time] [Add Time]
variable {token : LeaseToken Time}
variable {r : Option (LeaseToken Time) × Leases Time} {key : LeaseKey} {leases' : Leases Time}
  {expiresAt : Time}

/-- `_now`, for the clock value it reads. -/
def now (clock : Time) : Except LeaseError Time :=
  if clock < 0 then
    .error (.valueError "clock must return a finite non-negative epoch value")
  else .ok clock

/-- `_term`: the clock reading and the end of a term that starts there. -/
def term (clock ttlSeconds : Time) : Except LeaseError (Time × Time) :=
  if ttlSeconds ≤ 0 then
    .error (.valueError "ttl_seconds must be a finite positive number")
  else do
    let now ← now clock
    return (now, now + ttlSeconds)

/-- The `INSERT … ON CONFLICT … DO UPDATE … RETURNING` of `acquire`. -/
def acquireStatement (leases : Leases Time) (key : LeaseKey) (holderId : String)
    (now expiresAt : Time) : Option (LeaseToken Time) × Leases Time :=
  match leases key with
  | none =>
    let row := ⟨holderId, 1, expiresAt, now⟩
    (some (rowToToken key row), Function.update leases key (some row))
  | some old =>
    if old.expiresAt ≤ now then
      let row := ⟨holderId, old.fenceToken + 1, expiresAt, now⟩
      (some (rowToToken key row), Function.update leases key (some row))
    else (none, leases)

/-- The row the `WHERE` clause of `renew`, `release` and `check_owned` selects:
the exact holder and fence of the token, with its term still running at `now`. -/
def selectOwned (leases : Leases Time) (token : LeaseToken Time) (now : Time) :
    Option (LeaseRow Time) :=
  (leases token.toLeaseKey).filter fun row =>
    row.holderId = token.holderId ∧ row.fenceToken = token.fenceToken ∧ now < row.expiresAt

/-- The `UPDATE … RETURNING` of `renew`. -/
def renewStatement (leases : Leases Time) (token : LeaseToken Time) (now expiresAt : Time) :
    Option (LeaseToken Time) × Leases Time :=
  match selectOwned leases token now with
  | none => (none, leases)
  | some old =>
    let row := { old with expiresAt := expiresAt, heartbeatAt := now }
    (some (rowToToken token.toLeaseKey row), Function.update leases token.toLeaseKey (some row))

/-- The `UPDATE` of `release`. -/
def releaseStatement (leases : Leases Time) (token : LeaseToken Time) (now : Time) :
    Bool × Leases Time :=
  match selectOwned leases token now with
  | none => (false, leases)
  | some old =>
    (true, Function.update leases token.toLeaseKey
      (some { old with expiresAt := 0, heartbeatAt := now }))

/-- `acquire`, for the clock value read before its transaction. -/
def acquire (leases : Leases Time) (clock : Time) (key : LeaseKey) (holderId : String)
    (ttlSeconds : Time) : Except LeaseError (Option (LeaseToken Time) × Leases Time) := do
  validateIdentity [key.tenantId, key.ownerId, key.resourceKind, key.resourceId, holderId]
  let (now, expiresAt) ← term clock ttlSeconds
  return acquireStatement leases key holderId now expiresAt

/-- `renew`, for the clock value read before its transaction. -/
def renew (leases : Leases Time) (clock : Time) (token : LeaseToken Time) (ttlSeconds : Time) :
    Except LeaseError (Option (LeaseToken Time) × Leases Time) := do
  let (now, expiresAt) ← term clock ttlSeconds
  return renewStatement leases token now expiresAt

/-- `release`, for the clock value read inside its transaction. -/
def release (leases : Leases Time) (clock : Time) (token : LeaseToken Time) :
    Except LeaseError (Bool × Leases Time) := do
  let now ← now clock
  return releaseStatement leases token now

/-- `check_owned`, for the clock value read with the row. -/
def checkOwned (leases : Leases Time) (clock : Time) (token : LeaseToken Time) :
    Except LeaseError Bool := do
  let now ← now clock
  return (selectOwned leases token now).isSome

/-- `assert_owned`. -/
def assertOwned (leases : Leases Time) (clock : Time) (token : LeaseToken Time) :
    Except LeaseError Unit := do
  if ← checkOwned leases clock token then return ()
  else throw (.leaseOwnershipError
    ("execution lease is absent, expired, released, or superseded: " ++
      token.resourceKind ++ "/" ++ token.resourceId ++ " fence=" ++ toString token.fenceToken))

/-! ## What the statements do -/

variable {clock ttl : Time} {leases : Leases Time} {holderId : String}

theorem now_eq_ok {t : Time} : now clock = .ok t ↔ 0 ≤ clock ∧ t = clock := by
  unfold now
  split
  · rename_i h
    simp [not_le.2 h]
  · rename_i h
    simp [not_lt.1 h, eq_comm]

theorem term_eq_ok {t e : Time} :
    term clock ttl = .ok (t, e) ↔ 0 < ttl ∧ 0 ≤ clock ∧ t = clock ∧ e = clock + ttl := by
  unfold term
  split
  · rename_i h
    simp [not_lt.2 h]
  rename_i h
  by_cases hc : clock < 0
  · simp [now, hc, not_le.2 hc, bind, Except.bind]
  · simp [now, hc, not_lt.1 hc, not_le.1 h, bind, Except.bind, pure, Except.pure, eq_comm]

theorem acquire_eq_ok (h : acquire leases clock key holderId ttl = .ok r) :
    0 ≤ clock ∧ r = acquireStatement leases key holderId clock (clock + ttl) := by
  unfold acquire at h
  rcases hv : validateIdentity [key.tenantId, key.ownerId, key.resourceKind, key.resourceId,
    holderId] with e | u <;> rw [hv] at h
  · cases h
  rcases ht : term clock ttl with e | ⟨t, e⟩ <;>
    simp [ht, bind, Except.bind, pure, Except.pure] at h
  rcases term_eq_ok.1 ht with ⟨_, hc, rfl, rfl⟩
  exact ⟨hc, h.symm⟩

theorem renew_eq_ok (h : renew leases clock token ttl = .ok r) :
    0 ≤ clock ∧ r = renewStatement leases token clock (clock + ttl) := by
  unfold renew at h
  rcases ht : term clock ttl with e | ⟨t, e⟩ <;>
    simp [ht, bind, Except.bind, pure, Except.pure] at h
  rcases term_eq_ok.1 ht with ⟨_, hc, rfl, rfl⟩
  exact ⟨hc, h.symm⟩

theorem release_eq_ok {r : Bool × Leases Time} (h : release leases clock token = .ok r) :
    0 ≤ clock ∧ r = releaseStatement leases token clock := by
  unfold release at h
  rcases hn : now clock with e | t <;> simp [hn, bind, Except.bind, pure, Except.pure] at h
  rcases now_eq_ok.1 hn with ⟨hc, rfl⟩
  exact ⟨hc, h.symm⟩

theorem selectOwned_eq_some {now : Time} {row : LeaseRow Time} :
    selectOwned leases token now = some row ↔
      leases token.toLeaseKey = some row ∧ row.holderId = token.holderId ∧
        row.fenceToken = token.fenceToken ∧ now < row.expiresAt := by
  simp [selectOwned, Option.filter_eq_some_iff]

/-- A token passes the ownership check exactly when its holder and fence are
those of the row and the term of the row is running. -/
theorem checkOwned_eq_true : checkOwned leases clock token = .ok true ↔
      0 ≤ clock ∧ ∃ row, leases token.toLeaseKey = some row ∧ row.holderId = token.holderId ∧
        row.fenceToken = token.fenceToken ∧ clock < row.expiresAt := by
  by_cases hc : clock < 0
  · simp [checkOwned, now, hc, not_le.2 hc, bind, Except.bind]
  · simp [checkOwned, now, hc, not_lt.1 hc, bind, Except.bind, pure, Except.pure,
      Option.isSome_iff_exists, selectOwned_eq_some]

theorem assertOwned_eq_ok :
    assertOwned leases clock token = .ok () ↔ checkOwned leases clock token = .ok true := by
  unfold assertOwned
  rcases checkOwned leases clock token with e | _ | _ <;>
    simp [bind, Except.bind, pure, Except.pure, throw, throwThe, MonadExceptOf.throw]

/-- The row of a resource after `acquire`, when the term was granted. -/
theorem acquireStatement_granted {now : Time}
    (h : acquireStatement leases key holderId now expiresAt = (some token, leases')) :
    (∀ old, leases key = some old → old.expiresAt ≤ now) ∧
      token = rowToToken key ⟨holderId, ((leases key).elim 0 (·.fenceToken)) + 1, expiresAt, now⟩ ∧
      leases' = Function.update leases key
        (some ⟨holderId, ((leases key).elim 0 (·.fenceToken)) + 1, expiresAt, now⟩) := by
  unfold acquireStatement at h
  split at h
  · rename_i hkey
    simp only [Prod.mk.injEq, Option.some.injEq] at h
    simp [hkey, ← h.1, ← h.2]
  rename_i old hkey
  split at h
  · rename_i hle
    simp only [Prod.mk.injEq, Option.some.injEq] at h
    simp [hkey, ← h.1, ← h.2, hle]
  · simp at h

/-- What a renewal writes: a later end of the term, in the row of the token. -/
theorem renewStatement_cases (leases : Leases Time) (token : LeaseToken Time)
    (now expiresAt : Time) :
    (selectOwned leases token now = none ∧
        renewStatement leases token now expiresAt = (none, leases)) ∨
      ∃ old, selectOwned leases token now = some old ∧
        (renewStatement leases token now expiresAt).2 = Function.update leases token.toLeaseKey
          (some { old with expiresAt := expiresAt, heartbeatAt := now }) := by
  unfold renewStatement
  cases selectOwned leases token now with
  | none => exact .inl ⟨rfl, rfl⟩
  | some old => exact .inr ⟨old, rfl, rfl⟩

/-- What a release writes: an end of the term at the epoch. -/
theorem releaseStatement_cases (leases : Leases Time) (token : LeaseToken Time) (now : Time) :
    (selectOwned leases token now = none ∧ releaseStatement leases token now = (false, leases)) ∨
      ∃ old, selectOwned leases token now = some old ∧
        releaseStatement leases token now = (true, Function.update leases token.toLeaseKey
          (some { old with expiresAt := 0, heartbeatAt := now })) := by
  unfold releaseStatement
  cases selectOwned leases token now with
  | none => exact .inl ⟨rfl, rfl⟩
  | some old => exact .inr ⟨old, rfl, rfl⟩

/-- A refused `acquire` writes nothing. -/
theorem acquireStatement_refused {now : Time}
    (h : acquireStatement leases key holderId now expiresAt = (none, leases')) :
    leases' = leases := by
  unfold acquireStatement at h
  split at h
  · simp at h
  split at h
  · simp at h
  · exact (Prod.mk.inj h).2.symm

end Runtime
