import EchoDesk.Foundations.Transition
import EchoDesk.Outbox.Store

/-! # Flushing processes

`flush_outbox`, `prune_outbox` and `aclose` as the processes run them: one step
is one autocommitted `SELECT`, one call of `publish_to` or one transaction, and
the steps of all processes and the appends of all writers interleave freely. A
process may be cancelled, raise or crash between any two of its steps.

`_outbox_lock` is the phase of the process: a call begins only when the process
is idle. The clock reading of a step is a part of its label, and so is the error
of a publish that fails.
-/

namespace Outbox.Delivery

open EchoDesk OrderedLog Transition

variable {π : Type}

/-- The loops `while processed < limit` over the rows of a recovery lane. The
global one runs inside the lease, with what the discovery before it reported. -/
inductive Loop where
  | legacy
  | globalScope (complete : Bool)
  | scope

/-- The locals of `_flush_global_discovery_rows`. -/
structure Discovery (π : Type) where
  through : Nat
  fetched : List (OutboxRow π)
  blocked : Scope → Bool

/-- What became of a discovered row before its transaction. -/
inductive Discovered where
  | skipped
  | published
  | failed (error : String)

/-- Where a flush stands. The rows of a stage are those still to be handled. -/
inductive Stage (π : Type) where
  /-- A loop asks for the next due rows, `budget` at most. -/
  | fetch (loop : Loop) (budget : Nat)
  /-- The first of the rows is published next. -/
  | handle (loop : Loop) (budget : Nat) (rows : List (OutboxRow π))
  /-- The outcome of publishing `row` is recorded next. -/
  | settle (loop : Loop) (budget : Nat) (row : OutboxRow π) (error : Option String)
    (rows : List (OutboxRow π))
  | acquire
  /-- The lease was refused: only the position is read. -/
  | notHeld
  /-- The lease was lost: the position is read, and it is given back all the same. -/
  | lost
  | normalize
  | position
  | discoveryRows (scan through : Nat)
  | blockedScopes (through : Nat) (rows : List (OutboxRow π))
  | discover (d : Discovery π) (rows : List (OutboxRow π))
  | discovered (d : Discovery π) (row : OutboxRow π) (result : Discovered)
    (rows : List (OutboxRow π))
  | discoveryComplete (processed : Nat)
  /-- The lease is given back; `none` raises the exception again. -/
  | release (complete : Option Bool)
  | mainRows
  | mainCheck (rows : List (OutboxRow π))
  | mainQueue (row : OutboxRow π) (existing : Option ScopeRecovery) (rows : List (OutboxRow π))
  | mainPublish (row : OutboxRow π) (rows : List (OutboxRow π))
  | mainSettle (row : OutboxRow π) (error : Option String) (rows : List (OutboxRow π))

inductive Call where
  | flush (limit : Nat)
  | prune
  | aclose

/-- What the process is doing under `_outbox_lock`. -/
inductive Phase (π : Type) where
  | idle
  | selectConsumer (call : Call)
  | selectFloor (call : Call)
  | register (call : Call) (candidate : Option Nat)
  | flush (limit : Nat) (stage : Stage π)
  | prune

/-- The attributes of a `WorkflowService` that delivery uses. -/
structure Proc (π : Type) where
  incarnation : Nat
  cursor : Nat
  registered : Bool
  fence : Option Nat
  phase : Phase π

/-- A service object that was just constructed. -/
def Proc.fresh (incarnation : Nat) : Proc π := ⟨incarnation, 0, false, none, .idle⟩

def Proc.leaseOwner (p : Proc π) (c : ConsumerId) : LeaseOwner := ⟨c, p.incarnation⟩

def Proc.goto (p : Proc π) (limit : Nat) (stage : Stage π) : Proc π :=
  { p with phase := .flush limit stage }

def Proc.done (p : Proc π) : Proc π := { p with phase := .idle }

namespace Loop

/-- The next rows of the loop, none once `processed` reached the limit. -/
def dueRows (loop : Loop) (db : Db π) (c : ConsumerId) (now : Timestamp) (budget : Nat) :
    List (OutboxRow π) :=
  match loop with
  | .legacy => dueLegacyRecoveryRows db c now budget
  | .globalScope _ => globalScopeRecoveryRows db now budget
  | .scope => dueScopeRecoveryRows db c now budget

/-- The transaction after a publish. -/
def record (loop : Loop) (db : Db π) (c : ConsumerId) (p : Proc π) (row : OutboxRow π)
    (error : Option String) (now : Timestamp) : Except DeliveryError (Db π) :=
  match loop, error with
  | .legacy, none => markOutboxPublished db c p.cursor .legacy row now
  | .legacy, some error => markOutboxFailed db c p.cursor .legacy row error now
  | .globalScope _, none =>
    markGlobalOutboxPublished db c (p.leaseOwner c) p.fence row true now
  | .globalScope _, some error =>
    markGlobalOutboxFailed db (p.leaseOwner c) p.fence row error now
  | .scope, none => markOutboxPublished db c p.cursor .scope row now
  | .scope, some error => markOutboxFailed db c p.cursor .scope row error now

/-- What follows the loop in `flush_outbox`. -/
def exit : Loop → Option (Stage π)
  | .legacy => some .acquire
  | .globalScope complete => some (.release (some complete))
  | .scope => none

end Loop

/-- The first part of the transaction of a discovered row. -/
def markDiscovered (db : Db π) (c : ConsumerId) (me : LeaseOwner) (fence : Option Nat)
    (row : OutboxRow π) (now : Timestamp) : Discovered → Except DeliveryError (Db π)
  | .skipped => beginGlobalRecoveryMutation db me fence now
  | .published => markGlobalOutboxPublished db c me fence row false now
  | .failed error => markGlobalOutboxFailed db me fence row error now

/-- The transaction of a discovered row. -/
def recordDiscovered (db : Db π) (c : ConsumerId) (me : LeaseOwner) (fence : Option Nat)
    (row : OutboxRow π) (result : Discovered) (now : Timestamp) : Except DeliveryError (Db π) := do
  let db ← markDiscovered db c me fence row now result
  advanceGlobalScanCursor db me fence row.outboxId now

/-- `blocked_scopes.add` after a failed publish. -/
def Discovery.block (d : Discovery π) (row : OutboxRow π) : Discovered → Discovery π
  | .failed _ => { d with blocked := Function.update d.blocked row.scope true }
  | _ => d

/-- The transaction behind the last row: fewer rows than asked for exhaust the range. -/
def finishDiscovery (db : Db π) (me : LeaseOwner) (fence : Option Nat) (d : Discovery π)
    (limit : Nat) (now : Timestamp) : Except DeliveryError (Db π) :=
  if d.fetched.length < limit then do
    let db ← beginGlobalRecoveryMutation db me fence now
    advanceGlobalScanCursor db me fence d.through now
  else .ok db

/-- `scan_cursor >= recovery_through`. -/
def Db.discoveryComplete (db : Db π) : Bool :=
  db.globalState.recoveryThrough ≤ db.globalState.scanCursor

/-- The stages inside the `try` of `_flush_global_recovery_rows`. -/
def Stage.underLease : Stage π → Bool
  | .fetch (.globalScope _) _ | .handle (.globalScope _) _ _ | .settle (.globalScope _) _ _ _ _ =>
    true
  | .normalize | .position | .discoveryRows _ _ | .blockedScopes _ _ | .discover _ _ => true
  | .discovered _ _ _ _ | .discoveryComplete _ => true
  | _ => false

/-- The transaction of a stage raised and was rolled back: under the lease a lost
lease is caught, and any other exception is raised again. Both give the lease back. -/
def Proc.catch (p : Proc π) (limit : Nat) (stage : Stage π) (e : DeliveryError) : Proc π :=
  if stage.underLease then
    p.goto limit (if e = .leaseLost then .lost else .release none)
  else p.done

/-- `_outbox_cursor` after the body of a main-lane transaction ran. -/
def Proc.advance (p : Proc π) (row : OutboxRow π) : Proc π :=
  { p with cursor := max p.cursor row.outboxId }

/-- A transaction of a stage: when it commits, the process is `p'` and goes to
the next stage. -/
def Proc.attempt (p p' : Proc π) (limit : Nat) (stage : Stage π) (db : Db π)
    (result : Except DeliveryError (Db π)) (next : Stage π) : Proc π × Db π :=
  match result with
  | .ok db' => (p'.goto limit next, db')
  | .error e => (p.catch limit stage e, db)

/-- `publish_to` the bus of the process, which may raise. -/
def publishTo (db : Db π) (c : ConsumerId) (row : OutboxRow π) (error : Option String) : Db π :=
  match error with
  | none => db.published c row
  | some _ => db

/-- The next step of a flush. -/
def Proc.flush (p : Proc π) (c : ConsumerId) (limit : Nat) (now : Timestamp)
    (error : Option String) (db : Db π) (stage : Stage π) : Proc π × Db π :=
  let me := p.leaseOwner c
  match stage with
  | .fetch loop budget =>
    match loop.dueRows db c now budget with
    | [] => (loop.exit.elim p.done (p.goto limit), db)
    | row :: rows =>
      (p.goto limit (.handle loop (budget - (row :: rows).length) (row :: rows)), db)
  | .handle loop budget [] => (p.goto limit (.fetch loop budget), db)
  | .handle loop budget (row :: rows) =>
    (p.goto limit (.settle loop budget row error rows), publishTo db c row error)
  | .settle loop budget row error rows =>
    p.attempt p limit stage db (loop.record db c p row error now) (.handle loop budget rows)
  | .acquire =>
    let (db', fence) := tryAcquireGlobalRecoveryLease db me now
    ({ p with fence := fence }.goto limit (if fence.isSome then .normalize else .notHeld), db')
  | .notHeld => (if db.discoveryComplete then p.goto limit .mainRows else p.done, db)
  | .lost => (p.goto limit (.release (some db.discoveryComplete)), db)
  | .normalize =>
    p.attempt p limit stage db (normalizeGlobalScopeRecovery db me p.fence now) .position
  | .position =>
    let scan := db.globalState.scanCursor
    let through := db.globalState.recoveryThrough
    if through ≤ scan then (p.goto limit (.fetch (.globalScope true) limit), db)
    else (p.goto limit (.discoveryRows scan through), db)
  | .discoveryRows scan through =>
    (p.goto limit (.blockedScopes through (undiscoveredRows db scan through limit)), db)
  | .blockedScopes through rows =>
    let blocked := fun scope => (db.globalLanes scope).isSome
    (p.goto limit (.discover ⟨through, rows, blocked⟩ rows), db)
  | .discover d [] =>
    p.attempt p limit stage db (finishDiscovery db me p.fence d limit now)
      (.discoveryComplete d.fetched.length)
  | .discover d (row :: rows) =>
    if d.blocked row.scope then (p.goto limit (.discovered d row .skipped rows), db)
    else
      let result := error.elim Discovered.published Discovered.failed
      (p.goto limit (.discovered d row result rows), publishTo db c row error)
  | .discovered d row result rows =>
    p.attempt p limit stage db (recordDiscovered db c me p.fence row result now)
      (.discover (d.block row result) rows)
  | .discoveryComplete processed =>
    let complete := db.discoveryComplete
    if processed < limit then
      (p.goto limit (.fetch (.globalScope complete) (limit - processed)), db)
    else (p.goto limit (.release (some complete)), db)
  | .release complete =>
    -- an error of the release is only logged: `error` stands for it here
    let db' := if error.isNone then releaseGlobalRecoveryLease db me p.fence else db
    let p' := { p with fence := none }
    (if complete = some true then p'.goto limit .mainRows else p'.done, db')
  | .mainRows =>
    (p.goto limit (.mainCheck (window (fun row : OutboxRow π => row.outboxId) p.cursor limit
      db.outbox.rows)), db)
  | .mainCheck [] => (p.goto limit (.fetch .scope limit), db)
  | .mainCheck (row :: rows) =>
    if hasEarlierScopeRecovery db c row then
      (p.goto limit (.mainQueue row (db.lanes c row.scope) rows), db)
    else (p.goto limit (.mainPublish row rows), db)
  | .mainQueue row existing rows =>
    p.attempt (p.advance row) limit stage db (queueBehind db c p.cursor row existing now)
      (.mainCheck rows)
  | .mainPublish row rows =>
    (p.goto limit (.mainSettle row error rows), publishTo db c row error)
  | .mainSettle row none rows =>
    p.attempt (p.advance row) limit stage db (markOutboxPublished db c p.cursor .main row now)
      (.mainCheck rows)
  | .mainSettle row (some error) rows =>
    p.attempt (p.advance row) limit stage db (markOutboxFailed db c p.cursor .main row error now)
      (.mainCheck rows)

/-- What a call does once its consumer is registered. -/
def Call.begin : Call → Phase π
  | .flush limit => if 0 < limit then .flush limit (.fetch .legacy limit) else .idle
  | .prune => .prune
  | .aclose => .idle

/-- The next step of the process of consumer `c`. -/
def Proc.next (settings : Settings) (p : Proc π) (c : ConsumerId) (now : Timestamp)
    (error : Option String) (db : Db π) : Proc π × Db π :=
  match p.phase with
  | .idle => (p, db)
  | .selectConsumer call =>
    if (db.consumer? c).isSome then ({ p with phase := .register call none }, db)
    else ({ p with phase := .selectFloor call }, db)
  | .selectFloor call =>
    let floor := outboxReplayFloor db.outbox settings.replayWindowRows
    ({ p with phase := .register call (some floor) }, db)
  | .register call candidate =>
    let (db', cursor) := ensureOutboxConsumer db c candidate now
    ({ p with cursor := cursor, registered := true, phase := call.begin }, db')
  | .flush limit stage => p.flush c limit now error db stage
  | .prune => (p.done, pruneOutbox settings db now)

/-- A call of an idle process; every other call waits for `_outbox_lock`. -/
def Proc.call (p : Proc π) (c : ConsumerId) (db : Db π) : Call → Proc π × Db π
  | .aclose =>
    match p.phase with
    | .idle =>
      if p.registered then ({ p with registered := false }, aclose db c (p.leaseOwner c))
      else (p, db)
    | _ => (p, db)
  | call =>
    match p.phase with
    | .idle => ({ p with phase := .selectConsumer call }, db)
    | _ => (p, db)

/-- The process is cancelled, or a statement raises: the open transaction is
rolled back. `_outbox_cursor` was advanced when the body of a main-lane
transaction had already run. -/
def Proc.abort (p : Proc π) (bodyRan : Bool) : Proc π :=
  match p.phase with
  | .flush limit stage =>
    if stage.underLease then p.goto limit (.release none)
    else
      match stage, bodyRan with
      | .mainQueue row _ _, true | .mainSettle row _ _, true => (p.advance row).done
      | _, _ => p.done
  | _ => p.done

structure St (π : Type) where
  db : Db π
  procs : ConsumerId → Proc π

inductive Lbl (π : Type) where
  /-- A transaction of any writer commits new rows. -/
  | append (rows : List (NewOutboxRow π))
  /-- A call reaches the process of consumer `c`. -/
  | call (c : ConsumerId) (call : Call)
  /-- The process of consumer `c` takes its next step. -/
  | next (c : ConsumerId) (now : Timestamp) (error : Option String)
  /-- The process of consumer `c` is cancelled or raises. -/
  | abort (c : ConsumerId) (bodyRan : Bool)
  /-- The process of consumer `c` dies; its successor knows nothing. -/
  | crash (c : ConsumerId)

def St.set (s : St π) (c : ConsumerId) (r : Proc π × Db π) : St π :=
  ⟨r.2, Function.update s.procs c r.1⟩

def step (settings : Settings) (s : St π) : Lbl π → St π
  | .append rows => { s with db := { s.db with outbox := s.db.outbox.appendAll rows } }
  | .call c call => s.set c ((s.procs c).call c s.db call)
  | .next c now error => s.set c ((s.procs c).next settings c now error s.db)
  | .abort c bodyRan => s.set c ((s.procs c).abort bodyRan, s.db)
  | .crash c => s.set c (Proc.fresh ((s.procs c).incarnation + 1), s.db)

end Outbox.Delivery
