import EchoDesk.Events.Evolution

/-! # Where a subscription starts

A subscription is opened with the state of the stream as it is, and reports no gap exactly when
the ring still holds all the client did not see of it. The epoch a scope had before is never one
of its epochs again.
-/

namespace Events

open EchoDesk Transition OrderedLog ReplayLog List

variable {bounds : Bounds} {epochs : EpochSource} {bus bus' : Bus} {scope : Scope}
  {epoch : String}
variable {call : OpenCall}

/-- The scope had the epoch, or may have had it, and has it no more. -/
def Bus.Left (epochs : EpochSource) (bus : Bus) (scope : Scope) (epoch : String) : Prop :=
  bus.Drawn epochs epoch ∧ ∀ e ∈ bus.streams, e.1 = scope → e.2.epoch ≠ epoch

theorem Evolves.left (h : Evolves epochs bus bus') (hleft : bus.Left epochs scope epoch) :
    bus'.Left epochs scope epoch := by
  refine ⟨h.drawn_of hleft.1, ?_⟩
  rintro e' he' hscope rfl
  rcases h.lineage e' he' with ⟨e, he, hsame, hepoch⟩ | hnew
  · exact hleft.2 e he (hsame.trans hscope) hepoch
  · exact hnew hleft.1

theorem Evolves.events_prefix (h : Evolves epochs bus bus') (epoch : String) :
    bus.events epoch <+: bus'.events epoch := by
  obtain ⟨more, hmore⟩ := h.published
  refine ⟨more.filter fun event => event.streamEpoch = epoch, ?_⟩
  rw [Bus.events, Bus.events, ← hmore, filter_append]

theorem Evolves.events_length (h : Evolves epochs bus bus') (epoch : String) :
    (bus.events epoch).length ≤ (bus'.events epoch).length := (h.events_prefix epoch).length_le

variable {stream : ScopeStream}

/-- Another epoch is left when the scope has this one. -/
theorem Inv.left_of_ne (h : Inv bounds epochs bus) (hmem : (scope, stream) ∈ bus.streams)
    (hdrawn : bus.Drawn epochs epoch) (hne : epoch ≠ stream.epoch) :
    bus.Left epochs scope epoch := by
  refine ⟨hdrawn, ?_⟩
  rintro e he hscope rfl
  exact hne (congrArg (fun e => e.2.epoch) (h.eq_of_scope he hmem hscope))

theorem Drawn.ne_empty (h : bus.Drawn epochs epoch) : epoch ≠ "" := by
  obtain ⟨n, -, rfl⟩ := h
  exact epochs.nonempty n

/-! ## The first event of the ring -/

theorem Inv.oldestSeq (h : Inv bounds epochs bus) (hmem : (scope, stream) ∈ bus.streams) :
    stream.state.oldestSeq = min stream.seq (stream.seq - bounds.replayBuffer + 1) := by
  have hpos := bounds.replayBuffer_pos
  have hseq : stream.seq = (bus.events stream.epoch).length := h.seq _ hmem
  have hhistory : stream.history = keepLast bounds.replayBuffer (bus.events stream.epoch) :=
    h.history _ hmem
  show (stream.history.head?.map BusEvent.seq).getD 0 = _
  rw [hhistory, keepLast, head?_drop, ← hseq]
  cases hget : (bus.events stream.epoch)[stream.seq - bounds.replayBuffer]? with
  | none =>
    have := List.getElem?_eq_none_iff.1 hget
    show 0 = _
    omega
  | some event =>
    have hlt := (List.getElem?_eq_some_iff.1 hget).1
    have heq : event.seq = _ := pos_getElem? (h.dense stream.epoch) hget
    show event.seq = _
    omega

/-- Without a gap the ring holds what the client did not see. -/
theorem Inv.within (h : Inv bounds epochs bus) (hmem : (scope, stream) ∈ bus.streams)
    (hgap : (call.subscription stream).gapReason = none) :
    stream.seq ≤ (call.subscription stream).requestedSeq + bounds.replayBuffer := by
  have hpos := bounds.replayBuffer_pos
  have hold := h.oldestSeq hmem
  have hexpired : stream.state.oldestSeq = 0 ∨
      stream.state.oldestSeq ≤ (call.subscription stream).requestedSeq + 1 :=
    (gapReasonForState_none hgap).2.2
  omega

/-- A gap in the stream of the client: the ring does not hold what comes next. -/
theorem Inv.beyond (h : Inv bounds epochs bus) (hmem : (scope, stream) ∈ bus.streams)
    (hepoch : ∀ epoch ∈ truthy call.streamEpoch, epoch = stream.epoch)
    (hle : (call.subscription stream).requestedSeq ≤ stream.seq)
    (hgap : (call.subscription stream).gapReason ≠ none) :
    (call.subscription stream).requestedSeq + bounds.replayBuffer < stream.seq := by
  have hold := h.oldestSeq hmem
  have hmax : stream.state.maxSeq = stream.seq := rfl
  by_contra hnot
  refine hgap ?_
  show gapReasonForState stream.state (call.subscription stream).requestedSeq call.streamEpoch = none
  unfold gapReasonForState
  rw [if_neg, if_neg, if_neg, if_neg]
  · omega
  · omega
  · omega
  · rintro ⟨epoch, he, hne⟩
    exact hne (hepoch epoch he)

/-! ## The subscription of a call -/

/-- A subscription that a call opened between two states of the bus. -/
structure Joins (bounds : Bounds) (epochs : EpochSource) (call : OpenCall) (bus room bus' : Bus)
    (stream : ScopeStream) : Prop where
  inv : Inv bounds epochs room
  before : Evolves epochs bus room
  after : Evolves epochs room bus'
  mem : (call.scope, stream) ∈ room.streams
  published : room.published = bus.published
  opened : bus'.subscriptions[bus.subscriptions.length]? = some (call.subscription stream)

theorem Inv.joins (h : Inv bounds epochs bus) {i : Nat} (hcall : bus.calls[i]? = some call)
    (hlt : bus.subscriptions.length <
      (busStep bounds epochs bus (.register i)).subscriptions.length) :
    ∃ room stream, Joins bounds epochs call bus room
      (busStep bounds epochs bus (.register i)) stream := by
  obtain ⟨room, stream, hlocked, hlookup, heq⟩ := registered hcall hlt
  obtain ⟨hroom, hsame⟩ := h.streamLocked hlocked
  have hmem := mem_of_lookup hlookup
  have hsubs := (@readers_registered bounds epochs room i call stream).1
  refine ⟨room, stream, hroom, (arranges_streamLocked hlocked).evolves, ?_, hmem, hsame.published, ?_⟩
  · rw [heq]
    exact @Changes.evolves bounds _ _ _ none (.head (.subscribe call hmem) (changes_settled i call))
  · rw [heq, hsubs, hsame.subscriptions, getElem?_append_right (Nat.le_refl _), Nat.sub_self]
    rfl

end Events
