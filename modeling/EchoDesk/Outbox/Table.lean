import EchoDesk.Core.Data
import EchoDesk.Foundations.OrderedLog

/-! # The table `workflow_outbox`

Rows carry an autoincrement id: an id is never given out twice, not even after
its row was deleted. The table keeps its rows in id order, and a row only ever
changes in its delivery columns, so both facts are fields of the table.

Nothing here reads the payload of a row; its type `π` is a parameter.
-/

namespace Outbox

open EchoDesk OrderedLog List

inductive AggregateType where
  | workflow
  | domain
deriving DecidableEq

/-- The columns an `INSERT` into `workflow_outbox` gives. -/
structure NewOutboxRow (π : Type) where
  scope : Scope
  deviceId : String
  aggregateType : AggregateType
  aggregateId : String
  eventType : String
  payload : π
  createdAt : Timestamp

/-- A row of `workflow_outbox`. -/
structure OutboxRow (π : Type) extends NewOutboxRow π where
  outboxId : Nat
  publishedAt : Option Timestamp := none
  attempts : Nat := 0
  lastError : Option String := none

/-- The table: `lastId` is the last id the sequence gave out. -/
structure OutboxTable (π : Type) where
  rows : List (OutboxRow π)
  lastId : Nat
  sorted : Sorted (fun row : OutboxRow π => row.outboxId) rows
  issued : ∀ row ∈ rows, 0 < row.outboxId ∧ row.outboxId ≤ lastId

namespace OutboxTable

variable {π : Type}

def empty : OutboxTable π := ⟨[], 0, List.Pairwise.nil, fun _ h => absurd h List.not_mem_nil⟩

variable (t : OutboxTable π)

theorem maxPos_le_lastId : maxPos (fun row : OutboxRow π => row.outboxId) t.rows ≤ t.lastId :=
  maxPos_le.2 fun row h => (t.issued row h).2

/-- `INSERT INTO workflow_outbox`. -/
def append (t : OutboxTable π) (new : NewOutboxRow π) : OutboxTable π where
  rows := t.rows ++ [{ new with outboxId := t.lastId + 1 }]
  lastId := t.lastId + 1
  sorted := t.sorted.concat (Nat.lt_succ_of_le t.maxPos_le_lastId)
  issued row h := by
    rcases List.mem_append.1 h with h | h
    · have := t.issued row h
      omega
    · rw [List.mem_singleton.1 h]
      exact ⟨Nat.succ_pos _, Nat.le_refl _⟩

/-- Inserts, one after the other. -/
def appendAll (t : OutboxTable π) (new : List (NewOutboxRow π)) : OutboxTable π :=
  new.foldl append t

/-- An `UPDATE` that keeps the ids. -/
def modify (t : OutboxTable π) (f : OutboxRow π → OutboxRow π)
    (hf : ∀ row, (f row).outboxId = row.outboxId) : OutboxTable π where
  rows := t.rows.map f
  lastId := t.lastId
  sorted := by
    rw [Sorted, List.pairwise_map]
    exact t.sorted.imp fun h => by simpa only [hf] using h
  issued row h := by
    rcases List.mem_map.1 h with ⟨old, hold, rfl⟩
    rw [hf]
    exact t.issued old hold

/-- A `DELETE` of the rows that do not satisfy `keep`. -/
def filter (t : OutboxTable π) (keep : OutboxRow π → Bool) : OutboxTable π where
  rows := t.rows.filter keep
  lastId := t.lastId
  sorted := t.sorted.filter keep
  issued row h := t.issued row (List.mem_of_mem_filter h)

@[simp] theorem rows_append (new : NewOutboxRow π) :
    (t.append new).rows = t.rows ++ [{ new with outboxId := t.lastId + 1 }] := rfl

@[simp] theorem lastId_append (new : NewOutboxRow π) : (t.append new).lastId = t.lastId + 1 := rfl

@[simp] theorem appendAll_nil : t.appendAll [] = t := rfl

@[simp] theorem appendAll_cons (new : NewOutboxRow π) (rest : List (NewOutboxRow π)) :
    t.appendAll (new :: rest) = (t.append new).appendAll rest := rfl

theorem appendAll_append (new rest : List (NewOutboxRow π)) :
    t.appendAll (new ++ rest) = (t.appendAll new).appendAll rest := by
  simp [appendAll, foldl_append]

/-- Inserts leave the stored rows as they are and add exactly the new ones, in
order. -/
theorem rows_appendAll (new : List (NewOutboxRow π)) :
    ∃ added : List (OutboxRow π), (t.appendAll new).rows = t.rows ++ added ∧
      added.map (·.toNewOutboxRow) = new ∧
      ∀ row ∈ added, row.publishedAt = none ∧ t.lastId < row.outboxId := by
  induction new generalizing t with
  | nil => exact ⟨[], by simp⟩
  | cons row rest ih =>
    rcases ih (t.append row) with ⟨added, hrows, hnew, hunpub⟩
    refine ⟨{ row with outboxId := t.lastId + 1 } :: added, ?_, ?_, ?_⟩
    · rw [appendAll_cons, hrows, rows_append, append_assoc]
      rfl
    · rw [map_cons, hnew]
    intro r hr
    rcases mem_cons.1 hr with rfl | hr
    · exact ⟨rfl, Nat.lt_succ_self _⟩
    have := hunpub r hr
    rw [lastId_append] at this
    exact ⟨this.1, by omega⟩

end OutboxTable

end Outbox
