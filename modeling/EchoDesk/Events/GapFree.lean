import EchoDesk.Events.Session

/-! # Delivery without gaps

What it means that a renderer was given the events of its stream without a gap, read off
everything its handler did: what it applied, which cursors it saved, and where it asked for the
state of the server instead.
-/

namespace Events

open EchoDesk List

/-- The event of a stream that was applied. -/
def Effect.numbered? : Effect → Option BusEvent
  | .applied event => if 0 < event.seq then some event else none
  | _ => none

/-- The events of streams that were applied, in their order. -/
def numbered (log : List Effect) : List BusEvent := log.filterMap Effect.numbered?

def Effect.saveOver (cursor : Cursor) : Effect → Cursor
  | .saved latest => latest
  | _ => cursor

/-- The cursor that is stored. -/
def lastSaved (log : List Effect) : Cursor := log.foldl Effect.saveOver ⟨none, 0⟩

def Effect.follow (last : Option BusEvent) : Effect → Option BusEvent
  | .rehydrate .. => none
  | .applied event => if 0 < event.seq then some event else last
  | _ => last

/-- The event that was applied last, if nothing was rehydrated after it. -/
def sinceRehydrate (log : List Effect) : Option BusEvent := log.foldl Effect.follow none

/-- The event was applied, or the state was asked for that it is a part of. -/
def Covered (log : List Effect) (epoch : String) (seq : Nat) : Prop :=
  (∃ event ∈ numbered log, event.streamEpoch = epoch ∧ event.seq = seq) ∨
    ∃ fence : Int, .rehydrate (some epoch) fence ∈ log ∧ seq ≤ fence

/-- The event may be applied after what was done. -/
structure Continues (published : List BusEvent) (before : List Effect) (event : BusEvent) :
    Prop where
  published : event ∈ published
  /-- Its place was stored just before, over the place before it. -/
  stored : ∃ log, before = log ++ [.saved ⟨some event.streamEpoch, event.seq⟩] ∧
    lastSaved log = ⟨some event.streamEpoch, event.seq - 1⟩
  /-- It follows the last event that was applied since the last rehydrate. -/
  next : ∀ last ∈ sinceRehydrate before,
    last.streamEpoch = event.streamEpoch ∧ event.seq = last.seq + 1
  /-- Nothing before it is missing. -/
  covered : ∀ seq, 0 < seq → seq < event.seq → Covered before event.streamEpoch seq
  /-- The events of another stream are no longer waited for. -/
  turned : ∀ cursor, .saved cursor ∈ before → cursor.epoch ≠ some event.streamEpoch →
    ∃ fence, .rehydrate (some event.streamEpoch) fence ∈ before

/-- The events of streams are applied once, and each of them where it continues. -/
structure GapFree (published : List BusEvent) (log : List Effect) : Prop where
  once : ((numbered log).map fun event => (event.streamEpoch, event.seq)).Nodup
  continues : ∀ before event after, log = before ++ .applied event :: after → 0 < event.seq →
    Continues published before event

variable {published published' : List BusEvent} {log : List Effect} {x : Effect}
  {event : BusEvent}

/-! ## One more effect -/

theorem numbered_append (log log' : List Effect) :
    numbered (log ++ log') = numbered log ++ numbered log' := filterMap_append

theorem numbered_quiet (hx : x.numbered? = none) : numbered (log ++ [x]) = numbered log := by
  rw [numbered_append]
  simp [numbered, hx]

theorem numbered_applied (h : 0 < event.seq) :
    numbered (log ++ [.applied event]) = numbered log ++ [event] := by
  rw [numbered_append]
  simp [numbered, Effect.numbered?, h]

theorem lastSaved_concat (log : List Effect) (x : Effect) :
    lastSaved (log ++ [x]) = x.saveOver (lastSaved log) := by
  simp [lastSaved, foldl_append]

theorem sinceRehydrate_concat (log : List Effect) (x : Effect) :
    sinceRehydrate (log ++ [x]) = x.follow (sinceRehydrate log) := by
  simp [sinceRehydrate, foldl_append]

/-- What a longer log covers. -/
theorem Covered.mono {log' : List Effect} {epoch : String} {seq : Nat}
    (h : Covered log epoch seq) : Covered (log ++ log') epoch seq := by
  rcases h with ⟨event, hevent, heq⟩ | ⟨fence, hfence, hle⟩
  · left
    refine ⟨event, ?_, heq⟩
    rw [numbered_append]
    exact mem_append_left _ hevent
  · exact .inr ⟨fence, mem_append_left _ hfence, hle⟩

theorem Continues.mono (h : Continues published log event) (hp : published ⊆ published') :
    Continues published' log event :=
  ⟨hp h.published, h.stored, h.next, h.covered, h.turned⟩

theorem GapFree.mono (h : GapFree published log) (hp : published ⊆ published') :
    GapFree published' log :=
  ⟨h.once, fun before event after heq hseq => (h.continues before event after heq hseq).mono hp⟩

/-- An applied event of a longer log is one of the log, or the last effect. -/
theorem eq_concat {before after : List Effect} {y : Effect}
    (h : log ++ [x] = before ++ y :: after) :
    (before = log ∧ y = x) ∨ ∃ after', log = before ++ y :: after' := by
  rcases eq_nil_or_concat after with rfl | ⟨after', z, rfl⟩
  · left
    obtain ⟨hlog, hx⟩ := append_inj' h rfl
    exact ⟨hlog.symm, (cons.inj hx).1.symm⟩
  · right
    have hsplit : log ++ [x] = (before ++ y :: after') ++ [z] := by simpa using h
    exact ⟨after', (append_inj' hsplit rfl).1⟩

theorem GapFree.quiet (h : GapFree published log) (hx : x.numbered? = none) :
    GapFree published (log ++ [x]) := by
  constructor
  · rw [numbered_quiet hx]
    exact h.once
  intro before event after heq hseq
  rcases eq_concat heq with ⟨-, rfl⟩ | ⟨after', heq⟩
  · simp [Effect.numbered?, hseq] at hx
  · exact h.continues before event after' heq hseq

theorem GapFree.applied (h : GapFree published log) (hseq : 0 < event.seq)
    (hcontinues : Continues published log event)
    (hnew : ∀ e ∈ numbered log, e.streamEpoch = event.streamEpoch → e.seq < event.seq) :
    GapFree published (log ++ [.applied event]) := by
  constructor
  · rw [numbered_applied hseq, map_append, nodup_append]
    refine ⟨h.once, nodup_singleton _, ?_⟩
    intro a ha b hb
    obtain ⟨e, he, rfl⟩ := mem_map.1 ha
    rw [map_singleton, mem_singleton] at hb
    intro heq
    obtain ⟨hepoch, hseq⟩ := Prod.mk.inj (heq.trans hb)
    exact absurd hseq (Nat.ne_of_lt (hnew e he hepoch))
  · intro before e after heq hpos
    rcases eq_concat heq with ⟨rfl, he⟩ | ⟨after', heq⟩
    · obtain rfl := Effect.applied.inj he
      exact hcontinues
    · exact h.continues before e after' heq hpos

theorem gapFree_nil : GapFree published [] := by
  constructor
  · exact nodup_nil
  · intro before event after heq
    simp at heq

end Events
