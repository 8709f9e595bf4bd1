import EchoDesk.Events.Bus
import Mathlib.Data.List.Nodup
import Mathlib.Data.List.Perm.Basic
import Mathlib.Logic.Relation

/-! # Where every subscription stands

The invariant of the bus: each stream is numbered without a gap and its ring holds
the last of its events; a queue that is subscribed is at the end of its stream, and
one that is not was cut off, was closed, or outlived its stream.
-/

namespace Events

open EchoDesk Transition OrderedLog ReplayLog List

/-- The events that the stream of an epoch published. -/
def Bus.events (bus : Bus) (epoch : String) : List BusEvent :=
  bus.published.filter fun event => event.streamEpoch = epoch

/-- What the iterator has not returned yet. -/
def Subscription.pending (sub : Subscription) : List BusEvent :=
  sub.replay.drop sub.replayIndex ++ sub.queue

/-- What the subscription was given. -/
def Subscription.given (sub : Subscription) : List BusEvent := sub.delivered ++ sub.pending

/-- What is known of a subscription by itself. -/
structure Subscription.Sound (sub : Subscription) : Prop where
  /-- It starts where the client asked, unless it reports a gap. -/
  requested : sub.gapReason = none → sub.resumeSeq = sub.requestedSeq
  /-- With a gap it starts at the end of the stream. -/
  gap : sub.gapReason ≠ none → sub.resumeSeq = sub.state.maxSeq
  /-- The queue is read after the replay. -/
  waiting : sub.waiting = true → sub.replay.length ≤ sub.replayIndex
  slow : sub.slowConsumerSeen = sub.delivered.any BusEvent.isSlowConsumer

/-- Where the `i`-th subscription stands. -/
inductive Standing (bus : Bus) (i : Nat) (sub : Subscription) : Prop where
  /-- Its queue is a subscriber of a stream. -/
  | subscribed (e : Scope × ScopeStream) (he : e ∈ bus.streams) (hi : i ∈ e.2.subscribers)
  /-- Its queue overflowed. -/
  | overflowed (frame : BusEvent) (hseq : frame.seq = 0) (hslow : frame.isSlowConsumer = true)
      (h : CutOff (bus.events sub.state.epoch) sub.resumeSeq sub.given [frame])
  | closed (hclosed : sub.closed = true)
      (h : CutOff (bus.events sub.state.epoch) sub.resumeSeq sub.given [])
  /-- Its stream is gone, perhaps with a frame that says so. -/
  | ended (given extra : List BusEvent) (hgone : ∀ e ∈ bus.streams, e.2.epoch ≠ sub.state.epoch)
      (hextra : ∀ frame ∈ extra, frame.seq = 0) (hlength : extra.length ≤ 1)
      (h : Follows (bus.events sub.state.epoch) sub.resumeSeq given)
      (hgiven : sub.given = given ++ extra)

/-- An epoch that was drawn. -/
def Bus.Drawn (epochs : EpochSource) (bus : Bus) (epoch : String) : Prop :=
  ∃ n < bus.epochs, epoch = epochs.hex n

/-- The subscription is at the end of the stream. -/
structure AtEnd (bus : Bus) (stream : ScopeStream) (sub : Subscription) : Prop where
  epoch : sub.state.epoch = stream.epoch
  follows : Follows (bus.events stream.epoch) sub.resumeSeq sub.given

/-- The invariant of the bus. -/
structure Inv (bounds : Bounds) (epochs : EpochSource) (bus : Bus) : Prop where
  scopes : (bus.streams.map Prod.fst).Nodup
  distinct : (bus.streams.map fun e => e.2.epoch).Nodup
  drawn : ∀ e ∈ bus.streams, bus.Drawn epochs e.2.epoch
  drawnEvent : ∀ event ∈ bus.published, bus.Drawn epochs event.streamEpoch
  drawnSub : ∀ sub ∈ bus.subscriptions, bus.Drawn epochs sub.state.epoch
  dense : ∀ epoch, Dense BusEvent.seq (bus.events epoch)
  seq : ∀ e ∈ bus.streams, e.2.seq = (bus.events e.2.epoch).length
  history : ∀ e ∈ bus.streams, e.2.history = keepLast bounds.replayBuffer (bus.events e.2.epoch)
  atEnd : ∀ e ∈ bus.streams, ∀ i ∈ e.2.subscribers, ∃ sub ∈ bus.subscriptions[i]?, AtEnd bus e.2 sub
  sound : ∀ sub ∈ bus.subscriptions, sub.Sound
  standing : ∀ i, ∀ sub ∈ bus.subscriptions[i]?, Standing bus i sub

variable {bounds : Bounds} {epochs : EpochSource} {bus bus' : Bus}
variable {scope : Scope}
variable {β : Type} {e' : Scope × ScopeStream}

/-! ## Streams by their scope -/

variable {d : List (Scope × β)} {b : β}

theorem mem_of_lookup (h : d.lookup scope = some b) : (scope, b) ∈ d := by
  induction d with
  | nil => cases h
  | cons e d ih =>
    rw [lookup_cons] at h
    cases heq : scope == e.1 with
    | true =>
      rw [heq] at h
      cases h
      rw [eq_of_beq heq]
      exact mem_cons_self
    | false =>
      rw [heq] at h
      exact mem_cons_of_mem e (ih h)

theorem lookup_eq_none (h : d.lookup scope = none) : scope ∉ d.map Prod.fst := by
  intro hmem
  obtain ⟨e, he, rfl⟩ := mem_map.1 hmem
  have := lookup_eq_none_iff.1 h e he
  simp at this

variable {e : Scope × ScopeStream} {stream : ScopeStream}

/-- Two streams of one scope are the same. -/
theorem Inv.eq_of_scope (h : Inv bounds epochs bus) (he : e ∈ bus.streams) (he' : e' ∈ bus.streams)
    (hscope : e.1 = e'.1) : e = e' :=
  inj_on_of_nodup_map h.scopes he he' hscope

/-- Two streams of one epoch are the same. -/
theorem Inv.eq_of_epoch (h : Inv bounds epochs bus) (he : e ∈ bus.streams) (he' : e' ∈ bus.streams)
    (hepoch : e.2.epoch = e'.2.epoch) : e = e' :=
  inj_on_of_nodup_map h.distinct he he' hepoch

theorem mem_popScope {e : Scope × β} : e ∈ popScope d scope ↔ e ∈ d ∧ e.1 ≠ scope := by
  simp [popScope]

/-- An entry moved to the end. -/
theorem popScope_perm (h : (d.map Prod.fst).Nodup) (hmem : (scope, b) ∈ d)
    : (popScope d scope ++ [(scope, b)]).Perm d := by
  induction d with
  | nil => cases hmem
  | cons e d ih =>
    obtain ⟨hnot, hnodup⟩ := nodup_cons.1 h
    by_cases heq : e.1 = scope
    · have hrest : popScope (e :: d) scope = d := by
        have hd : popScope d scope = d := by
          rw [popScope, filter_eq_self]
          intro e' he'
          apply decide_eq_true
          intro heq'
          exact hnot (mem_map.2 ⟨e', he', heq'.trans heq.symm⟩)
        rw [popScope, filter_cons_of_neg (by simp [heq])]
        exact hd
      rcases mem_cons.1 hmem with rfl | hmem
      · rw [hrest]
        exact perm_append_singleton _ d
      · exact absurd (mem_map.2 ⟨(scope, b), hmem, heq.symm⟩) hnot
    · rcases mem_cons.1 hmem with rfl | hmem
      · exact absurd rfl heq
      · rw [popScope, filter_cons_of_pos (by simp [heq])]
        exact (ih hnodup hmem).cons e

theorem mem_setStream {bus : Bus} : e ∈ (bus.setStream scope stream).streams ↔
      (e ∈ bus.streams ∧ e.1 ≠ scope) ∨
        (e = (scope, stream) ∧ scope ∈ bus.streams.map Prod.fst) := by
  simp only [Bus.setStream, mem_map]
  constructor
  · rintro ⟨e', he', rfl⟩
    by_cases heq : e'.1 = scope
    · rw [if_pos heq]
      exact .inr ⟨rfl, e', he', heq⟩
    · rw [if_neg heq]
      exact .inl ⟨he', heq⟩
  · rintro (⟨he, hne⟩ | ⟨rfl, e', he', heq⟩)
    · exact ⟨e, he, if_neg hne⟩
    · exact ⟨e', he', if_pos heq⟩

/-- Writing back a stream keeps the scopes. -/
theorem scopes_setStream (bus : Bus) (scope : Scope) (stream : ScopeStream) :
    (bus.setStream scope stream).streams.map Prod.fst = bus.streams.map Prod.fst := by
  rw [Bus.setStream, map_map]
  apply map_congr_left
  intro e _
  simp only [Function.comp_apply]
  split
  · rename_i heq
    exact heq.symm
  · rfl

/-- Writing back a stream of the same epoch keeps the epochs. -/
theorem Inv.epochs_setStream (h : Inv bounds epochs bus) {stream' : ScopeStream}
    (hmem : (scope, stream) ∈ bus.streams) (hepoch : stream'.epoch = stream.epoch) :
    ((bus.setStream scope stream').streams.map fun e => e.2.epoch) =
      bus.streams.map fun e => e.2.epoch := by
  rw [Bus.setStream, map_map]
  apply map_congr_left
  intro e he
  simp only [Function.comp_apply]
  split
  · rename_i heq
    rw [h.eq_of_scope he hmem heq]
    exact hepoch
  · rfl

/-! ## The invariant over the streams -/

/-- A standing depends on the streams and the events only. -/
theorem Standing.congr {i : Nat} {sub : Subscription} (h : Standing bus i sub)
    (hkeep : ∀ e ∈ bus.streams, i ∈ e.2.subscribers → e ∈ bus'.streams)
    (hgone : (∀ e ∈ bus.streams, e.2.epoch ≠ sub.state.epoch) →
      ∀ e ∈ bus'.streams, e.2.epoch ≠ sub.state.epoch)
    (hpublished : bus'.published = bus.published) : Standing bus' i sub := by
  have hevents : ∀ epoch, bus'.events epoch = bus.events epoch := by
    intro epoch
    rw [Bus.events, hpublished, Bus.events]
  cases h with
  | subscribed e he hi => exact .subscribed e (hkeep e he hi) hi
  | overflowed frame hseq hslow h => exact .overflowed frame hseq hslow (by rw [hevents]; exact h)
  | closed hclosed h => exact .closed hclosed (by rw [hevents]; exact h)
  | ended given extra hgone' hextra hlength h hgiven =>
    exact .ended given extra (hgone hgone') hextra hlength (by rw [hevents]; exact h) hgiven

/-- The streams are moved around, or lose some that have no subscribers. -/
theorem Inv.subset (h : Inv bounds epochs bus) (hsubs : bus'.subscriptions = bus.subscriptions)
    (hepochs : bus'.epochs = bus.epochs) (hpublished : bus'.published = bus.published)
    (hscopes : (bus'.streams.map Prod.fst).Nodup)
    (hdistinct : (bus'.streams.map fun e => e.2.epoch).Nodup)
    (hsubset : ∀ e ∈ bus'.streams, e ∈ bus.streams)
    (hkeep : ∀ e ∈ bus.streams, e.2.subscribers ≠ [] → e ∈ bus'.streams) :
    Inv bounds epochs bus' := by
  have hevents : ∀ epoch, bus'.events epoch = bus.events epoch := by
    intro epoch
    rw [Bus.events, hpublished, Bus.events]
  have hdrawn : ∀ epoch, bus.Drawn epochs epoch → bus'.Drawn epochs epoch := by
    intro epoch hd
    rw [Bus.Drawn, hepochs]
    exact hd
  constructor
  · exact hscopes
  · exact hdistinct
  · intro e he
    exact hdrawn _ (h.drawn e (hsubset e he))
  · rw [hpublished]
    exact fun event hevent => hdrawn _ (h.drawnEvent event hevent)
  · rw [hsubs]
    exact fun sub hsub => hdrawn _ (h.drawnSub sub hsub)
  · intro epoch
    rw [hevents]
    exact h.dense epoch
  · intro e he
    rw [hevents]
    exact h.seq e (hsubset e he)
  · intro e he
    rw [hevents]
    exact h.history e (hsubset e he)
  · intro e he i hi
    obtain ⟨sub, hsub, hend⟩ := h.atEnd e (hsubset e he) i hi
    exact ⟨sub, hsubs ▸ hsub, hend.epoch, by rw [hevents]; exact hend.follows⟩
  · rw [hsubs]
    exact h.sound
  rw [hsubs]
  intro i sub hsub
  refine (h.standing i sub hsub).congr ?_ ?_ hpublished
  · intro e he hi
    exact hkeep e he (ne_nil_of_mem hi)
  · intro hgone e he
    exact hgone e (hsubset e he)

/-- Only the streams, the subscriptions, the epochs and the events matter. -/
theorem Inv.congr (h : Inv bounds epochs bus) (hstreams : bus'.streams = bus.streams)
    (hsubs : bus'.subscriptions = bus.subscriptions) (hepochs : bus'.epochs = bus.epochs)
    (hpublished : bus'.published = bus.published) : Inv bounds epochs bus' := by
  apply h.subset hsubs hepochs hpublished
  · rw [hstreams]
    exact h.scopes
  · rw [hstreams]
    exact h.distinct
  · rw [hstreams]
    exact fun _ he => he
  · rw [hstreams]
    exact fun _ he _ => he

/-- The stream of a scope is moved to the end. -/
theorem Inv.touch (h : Inv bounds epochs bus) (hmem : (scope, stream) ∈ bus.streams) :
    Inv bounds epochs { bus with streams := popScope bus.streams scope ++ [(scope, stream)] } := by
  have hperm := popScope_perm h.scopes hmem
  refine h.subset rfl rfl rfl ?_ ?_ ?_ ?_
  · exact (hperm.map Prod.fst).nodup_iff.2 h.scopes
  · exact (hperm.map fun e => e.2.epoch).nodup_iff.2 h.distinct
  · exact fun e he => hperm.mem_iff.1 he
  · exact fun e he _ => hperm.mem_iff.2 he

/-- A stream without subscribers is removed. -/
theorem Inv.remove (h : Inv bounds epochs bus) (hfind : bus.streams.find? bus.removable = some e) :
    Inv bounds epochs { bus with streams := popScope bus.streams e.1 } := by
  have hsub : (popScope bus.streams e.1).Sublist bus.streams := filter_sublist
  refine h.subset rfl rfl rfl ?_ ?_ ?_ ?_
  · exact (hsub.map Prod.fst).nodup h.scopes
  · exact (hsub.map fun e => e.2.epoch).nodup h.distinct
  · exact fun e' he' => hsub.subset he'
  intro e' he' hne
  refine mem_popScope.2 ⟨he', fun heq => hne ?_⟩
  have hremovable := find?_some hfind
  rw [h.eq_of_scope he' (mem_of_find?_eq_some hfind) heq]
  simp only [Bus.removable, Bool.and_eq_true, List.isEmpty_iff] at hremovable
  exact hremovable.1

/-- Add a stream of a fresh epoch. -/
def Bus.addStream (epochs : EpochSource) (bus : Bus) (scope : Scope) : Bus :=
  { bus with
    streams := bus.streams ++ [(scope, ⟨epochs.hex bus.epochs, 0, [], []⟩)]
    epochs := bus.epochs + 1 }

theorem mem_addStream : e ∈ (bus.addStream epochs scope).streams ↔
      e ∈ bus.streams ∨ e = (scope, ⟨epochs.hex bus.epochs, 0, [], []⟩) := by
  simp [Bus.addStream]

/-- A stream of a fresh epoch is added. -/
theorem Inv.addStream (h : Inv bounds epochs bus) (hnew : scope ∉ bus.streams.map Prod.fst) :
    Inv bounds epochs (bus.addStream epochs scope) := by
  have hfresh : ∀ epoch, bus.Drawn epochs epoch → epoch ≠ epochs.hex bus.epochs := by
    rintro epoch ⟨n, hn, rfl⟩ heq
    have := epochs.distinct n bus.epochs heq
    omega
  have hdrawn : ∀ epoch, bus.Drawn epochs epoch →
      (bus.addStream epochs scope).Drawn epochs epoch := by
    rintro epoch ⟨n, hn, rfl⟩
    exact ⟨n, Nat.lt_succ_of_lt hn, rfl⟩
  have hnone : bus.events (epochs.hex bus.epochs) = [] := by
    rw [Bus.events, filter_eq_nil_iff]
    intro event hevent
    simpa using hfresh _ (h.drawnEvent event hevent)
  constructor
  · simp only [Bus.addStream, map_append, map_cons, map_nil]
    exact nodup_append.2 ⟨h.scopes, nodup_singleton _, by
      rintro a ha b hb rfl
      exact hnew (mem_singleton.1 hb ▸ ha)⟩
  · simp only [Bus.addStream, map_append, map_cons, map_nil]
    refine nodup_append.2 ⟨h.distinct, nodup_singleton _, ?_⟩
    rintro a ha b hb rfl
    obtain ⟨e, he, rfl⟩ := mem_map.1 ha
    exact hfresh _ (h.drawn e he) (mem_singleton.1 hb)
  · intro e he
    rcases mem_addStream.1 he with he | rfl
    · exact hdrawn _ (h.drawn e he)
    · exact ⟨bus.epochs, Nat.lt_succ_self _, rfl⟩
  · exact fun event hevent => hdrawn _ (h.drawnEvent event hevent)
  · exact fun sub hsub => hdrawn _ (h.drawnSub sub hsub)
  · exact h.dense
  · intro e he
    rcases mem_addStream.1 he with he | rfl
    · exact h.seq e he
    · show 0 = (bus.events (epochs.hex bus.epochs)).length
      rw [hnone, length_nil]
  · intro e he
    rcases mem_addStream.1 he with he | rfl
    · exact h.history e he
    · show [] = keepLast _ (bus.events (epochs.hex bus.epochs))
      rw [hnone, keepLast, drop_nil]
  · intro e he i hi
    rcases mem_addStream.1 he with he | rfl
    · obtain ⟨sub, hsub, hend⟩ := h.atEnd e he i hi
      exact ⟨sub, hsub, hend.epoch, hend.follows⟩
    · cases hi
  · exact h.sound
  intro i sub hsub
  refine (h.standing i sub hsub).congr (fun e he _ => mem_addStream.2 (.inl he)) ?_ rfl
  intro hgone e he
  rcases mem_addStream.1 he with he | rfl
  · exact hgone e he
  · exact (hfresh _ (h.drawnSub sub (mem_of_getElem? hsub))).symm

/-- The same subscriptions and events. -/
structure SameReaders (bus bus' : Bus) : Prop where
  subscriptions : bus'.subscriptions = bus.subscriptions
  published : bus'.published = bus.published

/-- What is arranged without a reader: admissions, and the streams that nobody reads. -/
inductive Arrange (epochs : EpochSource) (bus : Bus) : Bus → Prop where
  | admission (waiters grants : List (Scope × Nat)) (futures : List FutureState) :
    Arrange epochs bus
      { bus with admissionWaiters := waiters, admissionGrants := grants, futures := futures }
  | touch {scope : Scope} {stream : ScopeStream} (hmem : (scope, stream) ∈ bus.streams) :
    Arrange epochs bus { bus with streams := popScope bus.streams scope ++ [(scope, stream)] }
  | remove {e : Scope × ScopeStream} (hfind : bus.streams.find? bus.removable = some e) :
    Arrange epochs bus { bus with streams := popScope bus.streams e.1 }
  | addStream {scope : Scope} (hnew : scope ∉ bus.streams.map Prod.fst) :
    Arrange epochs bus (bus.addStream epochs scope)

abbrev Arranges (epochs : EpochSource) : Bus → Bus → Prop := Relation.ReflTransGen (Arrange epochs)

theorem arranges_streamLocked (hlocked : bus.streamLocked bounds epochs scope = some bus') :
    Arranges epochs bus bus' := by
  unfold Bus.streamLocked at hlocked
  cases hlookup : bus.streams.lookup scope with
  | some stream =>
    rw [hlookup] at hlocked
    cases hlocked
    exact .single (.touch (mem_of_lookup hlookup))
  | none =>
    rw [hlookup] at hlocked
    obtain ⟨room, hroom, rfl⟩ := Option.map_eq_some_iff.1 hlocked
    have hnew := lookup_eq_none hlookup
    unfold Bus.makeRoom at hroom
    split at hroom
    · cases hroom
      exact .single (.addStream hnew)
    · obtain ⟨e, hfind, rfl⟩ := Option.map_eq_some_iff.1 hroom
      refine .tail (.single (.remove hfind)) (.addStream fun hmem => hnew ?_)
      exact (filter_sublist.map Prod.fst).subset hmem

/-- The loop that admits waiters. -/
theorem arranges_grantLoop (waiters : List (Scope × Nat)) (bus : Bus) :
    Arranges epochs bus (grantLoop bounds epochs waiters bus) := by
  induction waiters generalizing bus with
  | nil => exact .single (.admission _ _ _)
  | cons waiter waiters ih =>
    obtain ⟨scope, future⟩ := waiter
    unfold grantLoop
    split
    · exact .single (.admission _ _ _)
    split
    · exact ih bus
    split
    · exact .single (.admission _ _ _)
    · rename_i bus' hlocked
      exact (arranges_streamLocked hlocked).trans (.head (.admission _ _ _) (ih _))

theorem Arranges.same (h : Arranges epochs bus bus') :
    SameReaders bus bus' ∧ bus'.calls = bus.calls := by
  induction h with
  | refl => exact ⟨⟨rfl, rfl⟩, rfl⟩
  | tail _ h ih =>
    obtain ⟨⟨hsubs, hpublished⟩, hcalls⟩ := ih
    cases h <;> exact ⟨⟨hsubs, hpublished⟩, hcalls⟩

theorem same_grant : SameReaders bus (bus.grantAdmissionWaiters bounds epochs) :=
  (arranges_grantLoop _ bus).same.1

theorem Inv.arrange (h : Inv bounds epochs bus) (harrange : Arrange epochs bus bus') :
    Inv bounds epochs bus' := by
  cases harrange with
  | admission waiters grants futures => exact h.congr rfl rfl rfl rfl
  | touch hmem => exact h.touch hmem
  | remove hfind => exact h.remove hfind
  | addStream hnew => exact h.addStream hnew

theorem Inv.arranges (h : Inv bounds epochs bus) (harranges : Arranges epochs bus bus') :
    Inv bounds epochs bus' := by
  induction harranges with
  | refl => exact h
  | tail _ harrange ih => exact ih.arrange harrange

/-- `_stream_locked` keeps the invariant, and the stream of the scope is there. -/
theorem Inv.streamLocked (h : Inv bounds epochs bus)
    (hlocked : bus.streamLocked bounds epochs scope = some bus') :
    Inv bounds epochs bus' ∧ SameReaders bus bus' :=
  have harranges := arranges_streamLocked hlocked
  ⟨h.arranges harranges, harranges.same.1⟩

end Events
