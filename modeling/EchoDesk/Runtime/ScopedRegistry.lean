import EchoDesk.Foundations.Keyed
import EchoDesk.Foundations.Transition

/-! # The scoped runtime registry

`app/runtime/scoped_registry.py`: runtimes by scope, with a bound on their number and an
idle TTL. The system interleaves the critical sections of any number of threads; an acquire
has two of them, and other threads run between them. A runtime is named by the number of the
factory call that made it.
-/

namespace ScopedRegistry

open Transition

/-- `_Entry`, under its key. -/
structure Entry (K : Type) where
  key : K
  value : Nat
  lastUsed : Int
  activeLeases : Nat
  terminal : Bool

inductive RegistryError where
  /-- `RuntimeCapacityExceeded`. -/
  | capacityExceeded
  /-- What the factory raises. -/
  | factory
  | keyError

structure Settings where
  maxEntries : Nat
  idleTtl : Int
  bounds : 1 ≤ maxEntries ∧ 0 < idleTtl

/-- `_entries`, the least recently used first, and `_pending_close`. -/
structure Registry (K : Type) where
  entries : Keyed (Entry.key (K := K))
  pendingClose : List Nat

variable {K : Type} [DecidableEq K] (cfg : Settings) (r : Registry K)

/-! ## Critical sections -/

/-- `_pop_entry`, and `_queue_close` of its value. -/
def Registry.pop (key : K) : Registry K :=
  match r.entries.get? key with
  | none => r
  | some e => ⟨r.entries.erase key, r.pendingClose ++ [e.value]⟩

/-- The entry is put at the end. -/
def Registry.store (e : Entry K) : Registry K :=
  ⟨(r.entries.erase e.key).put e, r.pendingClose⟩

def Entry.idle (e : Entry K) : Bool := e.activeLeases = 0

/-- `_evict_one`. -/
def evictOne : Option (Registry K) :=
  (r.entries.rows.find? Entry.idle).map fun e => r.pop e.key

/-- `get_or_create` of a key without an entry. -/
def create (key : K) (now : Int) (factory : Option Nat) : Registry K × Except RegistryError Nat :=
  match if cfg.maxEntries ≤ r.entries.rows.length then evictOne r else some r with
  | none => (r, .error .capacityExceeded)
  | some r =>
    match factory with
    | none => (r, .error .factory)
    | some value => (r.store ⟨key, value, now, 0, false⟩, .ok value)

/-- `get_or_create`. -/
def getOrCreate (key : K) (now : Int) (factory : Option Nat) :
    Registry K × Except RegistryError Nat :=
  match r.entries.get? key with
  | some e => (r.store { e with lastUsed := now }, .ok e.value)
  | none => create cfg r key now factory

/-- The second critical section of `acquire`. -/
def acquire (key : K) (now : Int) : Except RegistryError (Registry K) :=
  match r.entries.get? key with
  | none => .error .keyError
  | some e => .ok { r with
      entries := r.entries.put { e with activeLeases := e.activeLeases + 1, lastUsed := now } }

/-- `release`. -/
def release (key : K) (now : Int) : Registry K :=
  match r.entries.get? key with
  | none => r
  | some e =>
    let r : Registry K := { r with
      entries := r.entries.put { e with activeLeases := e.activeLeases - 1, lastUsed := now } }
    if e.terminal ∧ e.activeLeases - 1 = 0 then r.pop key else r

/-- `mark_terminal`. -/
def markTerminal (key : K) : Registry K :=
  match r.entries.get? key with
  | none => r
  | some e =>
    let r : Registry K := { r with entries := r.entries.put { e with terminal := true } }
    if e.activeLeases = 0 then r.pop key else r

/-- The loop of `sweep`, and how many entries it has removed. -/
def sweepEntries (now : Int) : List (Entry K) → Nat → Registry K → Registry K × Nat
  | [], removed, r => (r, removed)
  | e :: rest, removed, r =>
    if e.activeLeases ≠ 0 ∨ now - e.lastUsed < cfg.idleTtl then sweepEntries now rest removed r
    else sweepEntries now rest (removed + 1) (r.pop e.key)

/-- `sweep`. -/
def sweep (now : Int) : Registry K × Nat := sweepEntries cfg now r.entries.rows 0 r

/-! ## The system -/

/-- An `acquire` between its critical sections. -/
structure Acquire (K : Type) where
  key : K
  value : Nat
  /-- Its `get_or_create` has taken an entry of another key away. -/
  evicted : Bool

/-- A `RuntimeLease` that is not released. -/
structure Lease (K : Type) where
  key : K
  value : Nat
deriving DecidableEq

structure System (K : Type) where
  registry : Registry K
  acquiring : List (Acquire K)
  leases : List (Lease K)
  /-- What `flush_closures` has taken and not closed yet, and what is closed. -/
  closing : List Nat
  closed : List Nat
  drawn : Nat

def System.init : System K := ⟨⟨Keyed.empty, []⟩, [], [], [], [], 0⟩

/-- `get_or_create` of the key takes an entry of another key away. -/
def Registry.evicts (key : K) : Bool :=
  (r.entries.get? key).isNone ∧ cfg.maxEntries ≤ r.entries.rows.length ∧
    (r.entries.rows.find? Entry.idle).isSome

/-- The critical sections of the threads; in the second `acquire` one and in `release`, of the
acquire and the lease at an index. -/
inductive Label (K : Type) where
  | getOrCreate (key : K) (now : Int) (made : Bool)
  | acquire (key : K) (now : Int) (made : Bool)
  | lease (index : Nat) (now : Int)
  | release (index : Nat) (now : Int)
  | markTerminal (key : K)
  | sweep (now : Int)
  | flush
  | close (value : Nat)

/-- `get_or_create` in a state, its factory making the next runtime or raising. -/
def System.getOrCreate (s : System K) (key : K) (now : Int) (made : Bool) :
    Registry K × Except RegistryError Nat :=
  ScopedRegistry.getOrCreate cfg s.registry key now (if made then some s.drawn else none)

def step (s : System K) : Label K → System K
  | .getOrCreate key now made =>
    { s with registry := (s.getOrCreate cfg key now made).1, drawn := s.drawn + 1 }
  | .acquire key now made =>
    let acquiring := match (s.getOrCreate cfg key now made).2 with
      | .ok value => s.acquiring ++ [⟨key, value, s.registry.evicts cfg key⟩]
      | .error _ => s.acquiring
    { s with
      registry := (s.getOrCreate cfg key now made).1, acquiring := acquiring, drawn := s.drawn + 1 }
  | .lease index now =>
    match s.acquiring[index]? with
    | none => s
    | some a =>
      match acquire s.registry a.key now with
      | .error _ => { s with acquiring := s.acquiring.eraseIdx index }
      | .ok r => { s with
          registry := r, acquiring := s.acquiring.eraseIdx index
          leases := s.leases ++ [⟨a.key, a.value⟩] }
  | .release index now =>
    match s.leases[index]? with
    | none => s
    | some l => { s with
        registry := release s.registry l.key now, leases := s.leases.eraseIdx index }
  | .markTerminal key => { s with registry := markTerminal s.registry key }
  | .sweep now => { s with registry := (sweep cfg s.registry now).1 }
  | .flush => { s with
      registry := { s.registry with pendingClose := [] }
      closing := s.closing ++ s.registry.pendingClose }
  | .close value =>
    if value ∈ s.closing then
      { s with closing := s.closing.erase value, closed := s.closed ++ [value] }
    else s

end ScopedRegistry
