import EchoDesk.Events.Standing

/-! # What the steps of the bus keep

Each body of the bus keeps the invariant, and keeps the fence of every
subscription: the four values it was opened with.
-/

namespace Events

open EchoDesk Transition OrderedLog ReplayLog List Option Subscription

variable {bounds : Bounds} {epochs : EpochSource} {bus bus' : Bus}
variable {stream : ScopeStream}
variable {scope : Scope} {sub' : Subscription} {event : BusEvent}

/-- What a subscription was opened with. -/
structure Fence where
  state : StreamState
  gapReason : Option GapReason
  requestedSeq : Nat
  resumeSeq : Nat

def Subscription.fence (sub : Subscription) : Fence :=
  ⟨sub.state, sub.gapReason, sub.requestedSeq, sub.resumeSeq⟩

/-- The fences of the subscriptions, in the order they were opened. -/
def Bus.fences (bus : Bus) : List Fence := bus.subscriptions.map Subscription.fence

/-! ## Opening a subscription -/

/-- No gap: the position is one the ring can go on from. -/
theorem gapReasonForState_none {state : StreamState} {lastSeq : Nat} {streamEpoch : Option String}
    (h : gapReasonForState state lastSeq streamEpoch = none) :
    (∀ epoch ∈ truthy streamEpoch, epoch = state.epoch) ∧ lastSeq ≤ state.maxSeq ∧
      (state.oldestSeq = 0 ∨ state.oldestSeq ≤ lastSeq + 1) := by
  unfold gapReasonForState at h
  by_cases hepoch : ∃ epoch ∈ truthy streamEpoch, epoch ≠ state.epoch
  · rw [if_pos hepoch] at h
    cases h
  rw [if_neg hepoch] at h
  by_cases hahead : state.maxSeq < lastSeq
  · rw [if_pos hahead] at h
    cases h
  rw [if_neg hahead] at h
  by_cases hexpired : state.oldestSeq ≠ 0 ∧ lastSeq + 1 < state.oldestSeq
  · rw [if_pos hexpired] at h
    cases h
  · refine ⟨fun epoch he => ?_, by omega, by omega⟩
    by_contra hne
    exact hepoch ⟨epoch, he, hne⟩

/-- The subscription starts at the end of its stream. -/
theorem Inv.atEnd_subscription (h : Inv bounds epochs bus) (hmem : (scope, stream) ∈ bus.streams)
    (call : OpenCall) : AtEnd bus stream (call.subscription stream) := by
  have hseq := h.seq _ hmem
  have hhistory := h.history _ hmem
  have hdense := h.dense stream.epoch
  -- the first event of the ring is not past the next one the client needs
  have hresume : (call.subscription stream).resumeSeq ≤ stream.seq ∧
      ∀ a ∈ stream.history.head?, a.seq ≤ (call.subscription stream).resumeSeq + 1 := by
    have hbound : ∀ a ∈ stream.history.head?, a.seq ≤ stream.seq := by
      intro a ha
      have hin : a ∈ bus.events stream.epoch := by
        rw [hhistory] at ha
        exact mem_of_mem_drop (mem_of_mem_head? ha)
      rw [hseq, ← hdense.maxPos_eq]
      exact le_maxPos hin
    cases hgap : (call.subscription stream).gapReason with
    | some reason =>
      have hmax : (call.subscription stream).resumeSeq = stream.seq := by
        simp only [OpenCall.subscription] at hgap ⊢
        rw [hgap]
        rfl
      rw [hmax]
      exact ⟨Nat.le_refl _, fun a ha => Nat.le_succ_of_le (hbound a ha)⟩
    | none =>
      have hrequested : (call.subscription stream).resumeSeq =
          (call.subscription stream).requestedSeq := by
        simp only [OpenCall.subscription] at hgap ⊢
        rw [hgap]
        rfl
      obtain ⟨-, hle, hold⟩ := gapReasonForState_none hgap
      rw [hrequested]
      refine ⟨hle, fun a ha => ?_⟩
      have holdest : stream.state.oldestSeq = a.seq := by
        rw [ScopeStream.state, mem_def.1 ha]
        rfl
      rw [holdest] at hold
      have hpos : 0 < a.seq := by
        rw [hhistory] at ha
        exact hdense.pos_of_mem (mem_of_mem_drop (mem_of_mem_head? ha))
      exact hold.resolve_left (by omega)
  refine ⟨rfl, ?_, ?_⟩
  · rw [← hseq]
    exact hresume.1
  have hring := filter_keepLast hdense bounds.replayBuffer_pos (hhistory ▸ hresume.2)
  rw [← hhistory] at hring
  show [] ++ (stream.history.filter _ ++ []) = _
  rw [nil_append, append_nil]
  exact hring

theorem OpenCall.sound_subscription (call : OpenCall) (stream : ScopeStream) :
    (call.subscription stream).Sound := by
  constructor
  · intro hgap
    simp only [OpenCall.subscription] at hgap ⊢
    rw [hgap]
    rfl
  · intro hgap
    simp only [OpenCall.subscription] at hgap ⊢
    rw [if_pos (isSome_iff_ne_none.2 hgap)]
  · intro hwaiting
    cases hwaiting
  · rfl

/-- An entry of the streams after a queue was added to one of them. -/
theorem Inv.subscribe (h : Inv bounds epochs bus) (call : OpenCall)
    (hmem : (call.scope, stream) ∈ bus.streams) :
    Inv bounds epochs (bus.subscribe call stream) := by
  have hentry : ∀ e ∈ (bus.subscribe call stream).streams, ∃ e₀ ∈ bus.streams,
      e.2.epoch = e₀.2.epoch ∧ e.2.seq = e₀.2.seq ∧ e.2.history = e₀.2.history ∧
        ∀ i ∈ e.2.subscribers, i ∈ e₀.2.subscribers ∨
          (i = bus.subscriptions.length ∧ e₀ = (call.scope, stream)) := by
    intro e he
    rcases mem_setStream.1 he with ⟨he, -⟩ | ⟨rfl, -⟩
    · exact ⟨e, he, rfl, rfl, rfl, fun i hi => .inl hi⟩
    refine ⟨_, hmem, rfl, rfl, rfl, fun i hi => ?_⟩
    rcases mem_append.1 hi with hi | hi
    · exact .inl hi
    · exact .inr ⟨mem_singleton.1 hi, rfl⟩
  have hold : ∀ (i : Nat) (sub : Subscription), sub ∈ bus.subscriptions[i]? →
      sub ∈ (bus.subscribe call stream).subscriptions[i]? := by
    intro i sub hsub
    show (bus.subscriptions ++ [call.subscription stream])[i]? = some sub
    rw [getElem?_append_left (List.getElem?_eq_some_iff.1 hsub).1]
    exact hsub
  constructor
  · rw [show (bus.subscribe call stream).streams.map Prod.fst = bus.streams.map Prod.fst from
      scopes_setStream bus _ _]
    exact h.scopes
  · have hmap : (bus.subscribe call stream).streams.map (fun e => e.2.epoch) =
        bus.streams.map fun e => e.2.epoch := h.epochs_setStream hmem rfl
    rw [hmap]
    exact h.distinct
  · intro e he
    obtain ⟨e₀, he₀, hepoch, -⟩ := hentry e he
    rw [hepoch]
    exact h.drawn e₀ he₀
  · exact h.drawnEvent
  · intro sub hsub
    rcases mem_append.1 hsub with hsub | hsub
    · exact h.drawnSub sub hsub
    · rw [mem_singleton.1 hsub]
      exact h.drawn _ hmem
  · exact h.dense
  · intro e he
    obtain ⟨e₀, he₀, hepoch, hseq, -⟩ := hentry e he
    rw [hepoch, hseq]
    exact h.seq e₀ he₀
  · intro e he
    obtain ⟨e₀, he₀, hepoch, -, hhistory, -⟩ := hentry e he
    rw [hepoch, hhistory]
    exact h.history e₀ he₀
  · intro e he i hi
    obtain ⟨e₀, he₀, hepoch, -, -, hsubscribers⟩ := hentry e he
    rcases hsubscribers i hi with hi | ⟨rfl, rfl⟩
    · obtain ⟨sub, hsub, hend⟩ := h.atEnd e₀ he₀ i hi
      refine ⟨sub, hold i sub hsub, hend.epoch.trans hepoch.symm, ?_⟩
      rw [hepoch]
      exact hend.follows
    have hend := h.atEnd_subscription hmem call
    refine ⟨call.subscription stream, ?_, hend.epoch.trans hepoch.symm, ?_⟩
    · show (bus.subscriptions ++ [call.subscription stream])[_]? = _
      rw [getElem?_append_right (Nat.le_refl _), Nat.sub_self]
      rfl
    · rw [hepoch]
      exact hend.follows
  · intro sub hsub
    rcases mem_append.1 hsub with hsub | hsub
    · exact h.sound sub hsub
    · rw [mem_singleton.1 hsub]
      exact call.sound_subscription stream
  intro i sub hsub
  have hlast : ∀ i, i ∈ stream.subscribers ∨ i = bus.subscriptions.length →
      Standing (bus.subscribe call stream) i sub := by
    intro i hi
    refine .subscribed (call.scope, { stream with
      subscribers := stream.subscribers ++ [bus.subscriptions.length] }) ?_ ?_
    · exact mem_setStream.2 (.inr ⟨rfl, mem_map.2 ⟨_, hmem, rfl⟩⟩)
    rcases hi with hi | rfl
    · exact mem_append_left _ hi
    · exact mem_append_right _ (mem_singleton_self _)
  -- an older subscription, or the new one, which comes last
  by_cases hlt : i < bus.subscriptions.length
  · have hsub' : sub ∈ bus.subscriptions[i]? := by
      have hget : (bus.subscriptions ++ [call.subscription stream])[i]? = some sub := hsub
      rw [getElem?_append_left hlt] at hget
      exact hget
    by_cases hi : i ∈ stream.subscribers
    · exact hlast i (.inl hi)
    refine (h.standing i sub hsub').congr ?_ ?_ rfl
    · intro e he hie
      refine mem_setStream.2 (.inl ⟨he, fun heq => hi ?_⟩)
      rw [h.eq_of_scope he hmem heq] at hie
      exact hie
    · intro hgone e he
      obtain ⟨e₀, he₀, hepoch, -⟩ := hentry e he
      rw [hepoch]
      exact hgone e₀ he₀
  · have hlt' := (List.getElem?_eq_some_iff.1 hsub).1
    have hlen : (bus.subscribe call stream).subscriptions.length =
        bus.subscriptions.length + 1 := length_append
    exact hlast i (.inr (by omega))

/-! ## Publishing -/

/-- The events of the epochs after one more is published. -/
theorem events_concat (bus : Bus) (event : BusEvent) (epoch : String) :
    Bus.events { bus with published := bus.published ++ [event] } epoch =
      if event.streamEpoch = epoch then bus.events epoch ++ [event] else bus.events epoch := by
  simp only [Bus.events, filter_append]
  split
  · rename_i heq
    rw [filter_cons_of_pos (by simpa using heq), filter_nil]
  · rename_i hne
    rw [filter_cons_of_neg (by simpa using hne), filter_nil, append_nil]

variable {sub : Subscription} {i : Nat}

/-- What a subscriber is given by `put` when its queue has room. -/
theorem Subscription.given_put (event frame : BusEvent) (hroom : sub.full bounds = false) :
    (sub.put bounds event frame).given = sub.given ++ [event] := by
  simp [given, pending, put, hroom]

/-- What a subscriber is given by `put` when its queue is full. -/
theorem Subscription.given_put_full (event frame : BusEvent) (hfull : sub.full bounds = true) :
    (sub.put bounds event frame).given =
      (sub.delivered ++ sub.replay.drop sub.replayIndex) ++ [frame] := by
  simp [given, pending, put, hfull]

/-- A reader that was cut off stays so while the log grows. -/
theorem cutOff_grows {bus' : Bus} {epoch : String} {start : Nat} {given extra : List BusEvent}
    (h : CutOff (bus.events epoch) start given extra)
    (hevents : bus'.events epoch = bus.events epoch ++ [event] ∨
      bus'.events epoch = bus.events epoch) : CutOff (bus'.events epoch) start given extra := by
  rcases hevents with heq | heq
  · rw [heq]
    exact h.concat event
  · rw [heq]
    exact h

/-- What a published event changes. -/
structure Appended (bounds : Bounds) (bus bus' : Bus) (scope : Scope) (stream stream' : ScopeStream)
    (committed frame : BusEvent) : Prop where
  mem : (scope, stream) ∈ bus.streams
  streams : bus'.streams = (bus.setStream scope stream').streams
  subscriptions : bus'.subscriptions = bus.subscriptions.mapIdx fun i sub =>
    if i ∈ stream.subscribers then sub.put bounds committed frame else sub
  published : bus'.published = bus.published ++ [committed]
  epochs : bus'.epochs = bus.epochs
  numbered : committed.seq = stream.seq + 1
  epoch : committed.streamEpoch = stream.epoch
  epoch' : stream'.epoch = stream.epoch
  seq' : stream'.seq = stream.seq + 1
  history' : stream'.history = keepLast bounds.replayBuffer (stream.history ++ [committed])
  subscribers' : stream'.subscribers = stream.subscribers.filter fun i =>
    !(bus.subscriptions[i]?.any (Subscription.full bounds))
  frame_seq : frame.seq = 0
  frame_slow : frame.isSlowConsumer = true

theorem appended_append (hmem : (scope, stream) ∈ bus.streams) (event : EchoEvent) :
    ∃ stream' committed frame,
      Appended bounds bus (bus.append bounds scope stream event) scope stream stream' committed
        frame := by
  refine ⟨_, _, _, hmem, rfl, rfl, rfl, rfl, rfl, rfl, rfl, rfl, rfl, rfl, rfl, ?_⟩
  rfl

section Appended

variable {scope : Scope} {stream stream' : ScopeStream} {committed frame : BusEvent}
  (ha : Appended bounds bus bus' scope stream stream' committed frame)

include ha

theorem Appended.events (epoch : String) : bus'.events epoch =
      if stream.epoch = epoch then bus.events epoch ++ [committed] else bus.events epoch := by
  have hconcat := events_concat bus committed epoch
  rw [ha.epoch] at hconcat
  rw [← hconcat, Bus.events, ha.published]
  rfl

theorem Appended.events_self :
    bus'.events stream.epoch = bus.events stream.epoch ++ [committed] := by
  rw [ha.events, if_pos rfl]

/-- The log of an epoch grows, or stays as it is. -/
theorem Appended.grows (epoch : String) : bus'.events epoch = bus.events epoch ++ [committed] ∨
      bus'.events epoch = bus.events epoch := by
  rw [ha.events]
  split
  · exact .inl rfl
  · exact .inr rfl

variable {e : Scope × ScopeStream} {i : Nat} {sub : Subscription}

/-- The other streams are of other epochs. -/
theorem Appended.events_other (h : Inv bounds epochs bus) (he : e ∈ bus.streams)
    (hne : e.1 ≠ scope) : bus'.events e.2.epoch = bus.events e.2.epoch := by
  rw [ha.events, if_neg]
  intro heq
  exact hne (congrArg Prod.fst (h.eq_of_epoch he ha.mem heq.symm))

theorem Appended.entry {e : Scope × ScopeStream} (he : e ∈ bus'.streams) :
    (e ∈ bus.streams ∧ e.1 ≠ scope) ∨ e = (scope, stream') := by
  rw [ha.streams] at he
  rcases mem_setStream.1 he with he | ⟨he, -⟩
  · exact .inl he
  · exact .inr he

theorem Appended.mem_other (he : e ∈ bus.streams) (hne : e.1 ≠ scope) : e ∈ bus'.streams := by
  rw [ha.streams]
  exact mem_setStream.2 (.inl ⟨he, hne⟩)

theorem Appended.mem_self : (scope, stream') ∈ bus'.streams := by
  rw [ha.streams]
  exact mem_setStream.2 (.inr ⟨rfl, mem_map.2 ⟨_, ha.mem, rfl⟩⟩)

/-- A subscriber of another stream is none of this one. -/
theorem Appended.disjoint (h : Inv bounds epochs bus) (he : e ∈ bus.streams) (hne : e.1 ≠ scope)
    (hi : i ∈ e.2.subscribers) : i ∉ stream.subscribers := by
  intro hi'
  obtain ⟨sub, hsub, hend⟩ := h.atEnd e he i hi
  obtain ⟨sub', hsub', hend'⟩ := h.atEnd _ ha.mem i hi'
  cases (mem_def.1 hsub).symm.trans hsub'
  exact hne (congrArg Prod.fst (h.eq_of_epoch he ha.mem (hend.epoch.symm.trans hend'.epoch)))

theorem Appended.subscription : sub ∈ bus'.subscriptions[i]? ↔ ∃ sub₀ ∈ bus.subscriptions[i]?,
      (if i ∈ stream.subscribers then sub₀.put bounds committed frame else sub₀) = sub := by
  rw [ha.subscriptions, mem_def, getElem?_mapIdx, map_eq_some_iff]
  rfl

/-- A subscriber whose queue had room is still one, and was given the event. -/
theorem Appended.atEnd (h : Inv bounds epochs bus) (hi : i ∈ stream'.subscribers) :
    ∃ sub ∈ bus'.subscriptions[i]?, AtEnd bus' stream' sub := by
  rw [ha.subscribers', mem_filter] at hi
  obtain ⟨hi, hroom⟩ := hi
  obtain ⟨sub, hsub, hend⟩ := h.atEnd _ ha.mem i hi
  refine ⟨sub.put bounds committed frame, ?_, hend.epoch.trans ha.epoch'.symm, ?_⟩
  · exact ha.subscription.2 ⟨sub, hsub, if_pos hi⟩
  rw [mem_def.1 hsub] at hroom
  rw [given_put committed frame (by simpa using hroom), ha.epoch', ha.events_self]
  exact hend.follows.concat committed

/-- A subscriber whose queue was full was cut off. -/
theorem Appended.overflowed (hend : AtEnd bus stream sub) (hfull : sub.full bounds = true) :
    Standing bus' i (sub.put bounds committed frame) := by
  refine .overflowed frame ha.frame_seq ha.frame_slow ?_
  have hepoch : (sub.put bounds committed frame).state.epoch = stream.epoch := hend.epoch
  rw [hepoch, given_put_full committed frame hfull, ha.events_self]
  refine CutOff.concat ?_ committed
  exact hend.follows.cutOff (by
    rw [given, pending, append_assoc]) [frame]

theorem Appended.standing (h : Inv bounds epochs bus) (hsub : sub ∈ bus'.subscriptions[i]?) :
    Standing bus' i sub := by
  obtain ⟨sub₀, hsub₀, rfl⟩ := ha.subscription.1 hsub
  by_cases hi : i ∈ stream.subscribers
  · rw [if_pos hi]
    obtain ⟨sub, hsub', hend⟩ := h.atEnd _ ha.mem i hi
    cases (mem_def.1 hsub').symm.trans hsub₀
    cases hfull : sub₀.full bounds with
    | true => exact ha.overflowed hend hfull
    | false =>
      refine .subscribed _ ha.mem_self ?_
      rw [ha.subscribers', mem_filter]
      refine ⟨hi, ?_⟩
      rw [mem_def.1 hsub₀]
      simpa using hfull
  rw [if_neg hi]
  cases h.standing i sub₀ hsub₀ with
  | subscribed e he hie =>
    refine .subscribed e (ha.mem_other he ?_) hie
    intro heq
    rw [h.eq_of_scope he ha.mem heq] at hie
    exact hi hie
  | overflowed f hseq hslow hcut =>
    exact .overflowed f hseq hslow (cutOff_grows hcut (ha.grows _))
  | closed hclosed hcut => exact .closed hclosed (cutOff_grows hcut (ha.grows _))
  | ended given extra hgone hextra hlength hfollows hgiven =>
    have hne : stream.epoch ≠ sub₀.state.epoch := hgone _ ha.mem
    refine .ended given extra ?_ hextra hlength ?_ hgiven
    · intro e he
      rcases ha.entry he with ⟨he, -⟩ | rfl
      · exact hgone e he
      · rw [ha.epoch']
        exact hne
    · rw [ha.events, if_neg hne]
      exact hfollows

/-- A published event keeps the invariant. -/
theorem Appended.inv (h : Inv bounds epochs bus) : Inv bounds epochs bus' := by
  have hdrawn : ∀ epoch, bus.Drawn epochs epoch → bus'.Drawn epochs epoch := by
    intro epoch hd
    rw [Bus.Drawn, ha.epochs]
    exact hd
  have hself : stream.seq = (bus.events stream.epoch).length := h.seq _ ha.mem
  constructor
  · rw [ha.streams, scopes_setStream]
    exact h.scopes
  · rw [ha.streams, h.epochs_setStream ha.mem ha.epoch']
    exact h.distinct
  · intro e he
    rcases ha.entry he with ⟨he, -⟩ | rfl
    · exact hdrawn _ (h.drawn e he)
    · rw [ha.epoch']
      exact hdrawn _ (h.drawn _ ha.mem)
  · intro event hevent
    rw [ha.published] at hevent
    rcases mem_append.1 hevent with hevent | hevent
    · exact hdrawn _ (h.drawnEvent event hevent)
    · rw [mem_singleton.1 hevent, ha.epoch]
      exact hdrawn _ (h.drawn _ ha.mem)
  · intro sub hsub
    obtain ⟨i, hi⟩ := mem_iff_getElem?.1 hsub
    obtain ⟨sub₀, hsub₀, rfl⟩ := ha.subscription.1 hi
    have hd := hdrawn _ (h.drawnSub sub₀ (mem_of_getElem? hsub₀))
    split
    · exact hd
    · exact hd
  · intro epoch
    rw [ha.events]
    split
    · rename_i heq
      refine (h.dense epoch).concat ?_
      rw [ha.numbered, (h.dense epoch).maxPos_eq, ← heq, hself]
    · exact h.dense epoch
  · intro e he
    rcases ha.entry he with ⟨he, hne⟩ | rfl
    · rw [ha.events_other h he hne]
      exact h.seq e he
    · rw [ha.seq', ha.epoch', ha.events_self, length_append, hself]
      rfl
  · intro e he
    rcases ha.entry he with ⟨he, hne⟩ | rfl
    · rw [ha.events_other h he hne]
      exact h.history e he
    · rw [ha.history', ha.epoch', ha.events_self, h.history _ ha.mem, keepLast_concat]
  · intro e he i hi
    rcases ha.entry he with ⟨he, hne⟩ | rfl
    · obtain ⟨sub, hsub, hend⟩ := h.atEnd e he i hi
      refine ⟨sub, ?_, hend.epoch, ?_⟩
      · exact ha.subscription.2 ⟨sub, hsub, if_neg (ha.disjoint h he hne hi)⟩
      · rw [ha.events_other h he hne]
        exact hend.follows
    · exact ha.atEnd h hi
  · intro sub hsub
    obtain ⟨i, hi⟩ := mem_iff_getElem?.1 hsub
    obtain ⟨sub₀, hsub₀, rfl⟩ := ha.subscription.1 hi
    have hsound := h.sound sub₀ (mem_of_getElem? hsub₀)
    split
    · exact ⟨hsound.requested, hsound.gap, hsound.waiting, hsound.slow⟩
    · exact hsound
  · exact fun i sub hsub => ha.standing h hsub

end Appended

/-! ## Reading and closing -/

/-- A standing depends on the sequence a subscription was given, and on whether it is closed. -/
theorem Standing.of_given (h : Standing bus i sub) (hepoch : sub'.state.epoch = sub.state.epoch)
    (hresume : sub'.resumeSeq = sub.resumeSeq) (hgiven : sub'.given = sub.given)
    (hclosed : sub.closed = true → sub'.closed = true) : Standing bus i sub' := by
  cases h with
  | subscribed e he hi => exact .subscribed e he hi
  | overflowed frame hseq hslow h =>
    refine .overflowed frame hseq hslow ?_
    rw [hepoch, hresume, hgiven]
    exact h
  | closed hc h =>
    refine .closed (hclosed hc) ?_
    rw [hepoch, hresume, hgiven]
    exact h
  | ended given extra hgone hextra hlength h hg =>
    refine .ended given extra ?_ hextra hlength ?_ (hgiven.trans hg)
    · rw [hepoch]
      exact hgone
    · rw [hepoch, hresume]
      exact h

/-- One subscription is read from, or closed. -/
theorem Inv.setSubscription (h : Inv bounds epochs bus) (hsub : bus.subscriptions[i]? = some sub)
    (hfence : sub'.fence = sub.fence) (hgiven : sub'.given = sub.given)
    (hclosed : sub.closed = true → sub'.closed = true) (hsound : sub'.Sound) :
    Inv bounds epochs (bus.setSubscription i sub') := by
  have hepoch : sub'.state.epoch = sub.state.epoch := congrArg (fun f => f.state.epoch) hfence
  have hresume : sub'.resumeSeq = sub.resumeSeq := congrArg Fence.resumeSeq hfence
  have hlt := (List.getElem?_eq_some_iff.1 hsub).1
  have hget : ∀ (j : Nat) (s : Subscription), (bus.subscriptions.set i sub')[j]? = some s →
      (j = i ∧ s = sub') ∨ bus.subscriptions[j]? = some s := by
    intro j s hj
    by_cases hji : i = j
    · rw [← hji, getElem?_set_self hlt] at hj
      exact .inl ⟨hji.symm, (some.inj hj).symm⟩
    · rw [getElem?_set_ne hji] at hj
      exact .inr hj
  constructor
  · exact h.scopes
  · exact h.distinct
  · exact h.drawn
  · exact h.drawnEvent
  · intro s hs
    rcases mem_or_eq_of_mem_set hs with hs | rfl
    · exact h.drawnSub s hs
    · rw [hepoch]
      exact h.drawnSub sub (mem_of_getElem? hsub)
  · exact h.dense
  · exact h.seq
  · exact h.history
  · intro e he j hj
    obtain ⟨s, hs, hend⟩ := h.atEnd e he j hj
    by_cases hji : i = j
    · obtain rfl : sub = s := by
        rw [← hji, hsub] at hs
        exact some.inj hs
      refine ⟨sub', ?_, hepoch.trans hend.epoch, ?_⟩
      · show (bus.subscriptions.set i sub')[j]? = some sub'
        rw [← hji, getElem?_set_self hlt]
      · rw [hresume, hgiven]
        exact hend.follows
    · refine ⟨s, ?_, hend.epoch, hend.follows⟩
      show (bus.subscriptions.set i sub')[j]? = some s
      rw [getElem?_set_ne hji]
      exact hs
  · intro s hs
    rcases mem_or_eq_of_mem_set hs with hs | rfl
    · exact h.sound s hs
    · exact hsound
  · intro j s hs
    have hstanding : Standing bus j s := by
      rcases hget j s hs with ⟨rfl, rfl⟩ | hs
      · exact (h.standing j sub hsub).of_given hepoch hresume hgiven hclosed
      · exact h.standing j s hs
    exact hstanding.congr (fun e he _ => he) (fun hgone => hgone) rfl

/-- What `__anext__` returns is what waits for it next. -/
theorem Subscription.anext_cases (sub : Subscription) :
    sub.anext = (sub, .stopAsyncIteration) ∧ sub.closed = true ∨
    sub.anext = (sub, .slowConsumerError) ∧ sub.slowConsumerSeen = true ∨
    (∃ event replayIndex queue rest, sub.pending = event :: rest ∧ sub.anext =
        ({ sub with replayIndex := replayIndex, queue := queue }.deliver event, .event event) ∧
      sub.replay.drop replayIndex ++ queue = rest) ∨
    (sub.pending = [] ∧ sub.anext = ({ sub with waiting := true }, .waits) ∧
      sub.replay.length ≤ sub.replayIndex) := by
  unfold anext
  by_cases hclosed : sub.closed = true
  · exact .inl ⟨if_pos hclosed, hclosed⟩
  rw [if_neg hclosed]
  by_cases hslow : sub.slowConsumerSeen = true
  · exact .inr (.inl ⟨if_pos hslow, hslow⟩)
  rw [if_neg hslow]
  right
  right
  cases hreplay : sub.replay[sub.replayIndex]? with
  | some event =>
    left
    refine ⟨event, sub.replayIndex + 1, sub.queue, _, ?_, rfl, rfl⟩
    obtain ⟨hlt, hget⟩ := List.getElem?_eq_some_iff.1 hreplay
    rw [pending, drop_eq_getElem_cons hlt, hget, cons_append]
  | none =>
    have hlen := List.getElem?_eq_none_iff.1 hreplay
    have hpending : sub.pending = sub.queue := by
      rw [pending, drop_eq_nil_iff.2 hlen, nil_append]
    cases hqueue : sub.queue with
    | cons event queue =>
      left
      refine ⟨event, sub.replayIndex, queue, queue, ?_, rfl, ?_⟩
      · rw [hpending, hqueue]
      · rw [drop_eq_nil_iff.2 hlen, nil_append]
    | nil =>
      right
      exact ⟨hpending.trans hqueue, rfl, hlen⟩

/-- An event that was delivered is an event that waited. -/
theorem Subscription.given_deliver {replayIndex : Nat} {queue : List BusEvent}
    (hpending : sub.pending = event :: (sub.replay.drop replayIndex ++ queue)) :
    ({ sub with replayIndex := replayIndex, queue := queue }.deliver event).given = sub.given := by
  simp only [given, deliver, hpending]
  simp [pending]

theorem Subscription.Sound.deliver (h : sub.Sound) (event : BusEvent) (replayIndex : Nat)
    (queue : List BusEvent) :
    ({ sub with replayIndex := replayIndex, queue := queue }.deliver event).Sound := by
  refine ⟨h.requested, h.gap, ?_, ?_⟩
  · intro hwaiting
    cases hwaiting
  · simp only [Subscription.deliver, any_append, ← h.slow]
    simp

theorem Inv.anext (h : Inv bounds epochs bus) (hsub : bus.subscriptions[i]? = some sub) :
    Inv bounds epochs (bus.setSubscription i sub.anext.1) := by
  have hsound := h.sound sub (mem_of_getElem? hsub)
  rcases sub.anext_cases with ⟨heq, -⟩ | ⟨heq, -⟩ | ⟨event, index, queue, rest, hpending, heq, rfl⟩ |
    ⟨-, heq, hlen⟩
  · rw [heq]
    exact h.setSubscription hsub rfl rfl id hsound
  · rw [heq]
    exact h.setSubscription hsub rfl rfl id hsound
  · rw [heq]
    exact h.setSubscription hsub rfl (given_deliver hpending) id (hsound.deliver event index queue)
  · rw [heq]
    exact h.setSubscription hsub rfl rfl id
      ⟨hsound.requested, hsound.gap, fun _ => hlen, hsound.slow⟩

theorem Inv.wake (h : Inv bounds epochs bus) (hsub : bus.subscriptions[i]? = some sub) :
    Inv bounds epochs (bus.setSubscription i sub.wake.1) := by
  have hsound := h.sound sub (mem_of_getElem? hsub)
  unfold Subscription.wake
  split
  · rename_i event queue hwaiting hqueue
    refine h.setSubscription hsub rfl (Subscription.given_deliver ?_) id
      (hsound.deliver event sub.replayIndex queue)
    rw [Subscription.pending, drop_eq_nil_iff.2 (hsound.waiting hwaiting), hqueue]
    rfl
  · exact h.setSubscription hsub rfl rfl id hsound

/-- A queue is discarded from the stream of a scope, once its subscription is closed. -/
theorem Inv.discard (h : Inv bounds epochs bus) (hmem : (scope, stream) ∈ bus.streams)
    (hclosed : ∀ sub ∈ bus.subscriptions[i]?, sub.closed = true) :
    Inv bounds epochs (bus.setStream scope
      { stream with subscribers := stream.subscribers.filter (· ≠ i) }) := by
  obtain ⟨stream', hstream'⟩ : ∃ s : ScopeStream, s =
      { stream with subscribers := stream.subscribers.filter (· ≠ i) } := ⟨_, rfl⟩
  have hmem' : ∀ j, j ∈ stream'.subscribers ↔ j ∈ stream.subscribers ∧ j ≠ i := by
    intro j
    rw [hstream']
    simp
  have hepoch' : stream'.epoch = stream.epoch := by rw [hstream']
  have hentry : ∀ e ∈ (bus.setStream scope stream').streams,
      (e ∈ bus.streams ∧ e.1 ≠ scope) ∨ e = (scope, stream') := by
    intro e he
    rcases mem_setStream.1 he with he | ⟨he, -⟩
    · exact .inl he
    · exact .inr he
  rw [← hstream']
  constructor
  · rw [scopes_setStream]
    exact h.scopes
  · rw [h.epochs_setStream hmem hepoch']
    exact h.distinct
  · intro e he
    rcases hentry e he with ⟨he, -⟩ | rfl
    · exact h.drawn e he
    · rw [hepoch']
      exact h.drawn _ hmem
  · exact h.drawnEvent
  · exact h.drawnSub
  · exact h.dense
  · intro e he
    rcases hentry e he with ⟨he, -⟩ | rfl
    · exact h.seq e he
    · rw [hstream']
      exact h.seq (scope, stream) hmem
  · intro e he
    rcases hentry e he with ⟨he, -⟩ | rfl
    · exact h.history e he
    · rw [hstream']
      exact h.history (scope, stream) hmem
  · intro e he j hj
    rcases hentry e he with ⟨he, -⟩ | rfl
    · obtain ⟨sub, hsub, hend⟩ := h.atEnd e he j hj
      exact ⟨sub, hsub, hend.epoch, hend.follows⟩
    obtain ⟨sub, hsub, hend⟩ := h.atEnd _ hmem j ((hmem' j).1 hj).1
    refine ⟨sub, hsub, hend.epoch.trans hepoch'.symm, ?_⟩
    rw [hepoch']
    exact hend.follows
  · exact h.sound
  intro j sub hsub
  by_cases hj : j ∈ stream.subscribers
  · by_cases hji : j = i
    · -- the queue that was discarded
      obtain ⟨sub', hsub', hend⟩ := h.atEnd _ hmem j hj
      cases (mem_def.1 hsub').symm.trans hsub
      refine .closed (hclosed sub (hji ▸ hsub)) ?_
      have hleave := hend.follows.leave
      rw [← hend.epoch] at hleave
      exact hleave
    · exact .subscribed (scope, stream')
        (mem_setStream.2 (.inr ⟨rfl, mem_map.2 ⟨_, hmem, rfl⟩⟩)) ((hmem' j).2 ⟨hj, hji⟩)
  refine (h.standing j sub hsub).congr ?_ ?_ rfl
  · intro e he hje
    refine mem_setStream.2 (.inl ⟨he, fun heq => hj ?_⟩)
    rw [h.eq_of_scope he hmem heq] at hje
    exact hje
  · intro hgone e he
    rcases hentry e he with ⟨he, -⟩ | rfl
    · exact hgone e he
    · rw [hepoch']
      exact hgone _ hmem

/-- The queues of the subscribers when the bus is closed. -/
theorem Inv.aclose (h : Inv bounds epochs bus) (ts : Timestamp) :
    Inv bounds epochs (bus.aclose bounds ts) := by
  have hget : ∀ (i : Nat) (sub : Subscription), sub ∈ (bus.aclose bounds ts).subscriptions[i]? →
      ∃ sub₀ ∈ bus.subscriptions[i]?, sub.fence = sub₀.fence ∧ sub.closed = sub₀.closed ∧
        (sub₀.Sound → sub.Sound) ∧
        ((sub.given = sub₀.given ∨ ∃ e ∈ bus.streams, i ∈ e.2.subscribers ∧
          sub.given = sub₀.given ++ [shuttingDownFrame ts e.2])) := by
    intro i sub hsub
    rw [mem_def, Bus.aclose, getElem?_mapIdx, map_eq_some_iff] at hsub
    obtain ⟨sub₀, hsub₀, heq⟩ := hsub
    refine ⟨sub₀, hsub₀, ?_⟩
    split at heq
    · rename_i e hfind
      split at heq
      · subst heq
        exact ⟨rfl, rfl, id, .inl rfl⟩
      subst heq
      refine ⟨rfl, rfl, fun hs => ⟨hs.requested, hs.gap, hs.waiting, hs.slow⟩,
        .inr ⟨e, mem_of_find?_eq_some hfind, ?_, ?_⟩⟩
      · simpa using find?_some hfind
      · simp [given, pending]
    · subst heq
      exact ⟨rfl, rfl, id, .inl rfl⟩
  constructor
  · exact nodup_nil
  · exact nodup_nil
  · intro e he
    cases he
  · exact h.drawnEvent
  · intro sub hsub
    obtain ⟨i, hi⟩ := mem_iff_getElem?.1 hsub
    obtain ⟨sub₀, hsub₀, hfence, -⟩ := hget i sub hi
    have hepoch : sub.state.epoch = sub₀.state.epoch := congrArg (fun f => f.state.epoch) hfence
    rw [hepoch]
    exact h.drawnSub sub₀ (mem_of_getElem? hsub₀)
  · exact h.dense
  · intro e he
    cases he
  · intro e he
    cases he
  · intro e he
    cases he
  · intro sub hsub
    obtain ⟨i, hi⟩ := mem_iff_getElem?.1 hsub
    obtain ⟨sub₀, hsub₀, -, -, hsound, -⟩ := hget i sub hi
    exact hsound (h.sound sub₀ (mem_of_getElem? hsub₀))
  intro i sub hsub
  obtain ⟨sub₀, hsub₀, hfence, hclosed, -, hgiven⟩ := hget i sub hsub
  have hepoch : sub.state.epoch = sub₀.state.epoch := congrArg (fun f => f.state.epoch) hfence
  have hresume : sub.resumeSeq = sub₀.resumeSeq := congrArg Fence.resumeSeq hfence
  have hended : ∀ e ∈ bus.streams, i ∈ e.2.subscribers →
      ∀ extra, (∀ frame ∈ extra, frame.seq = 0) → extra.length ≤ 1 →
        sub.given = sub₀.given ++ extra → Standing (bus.aclose bounds ts) i sub := by
    intro e he hi extra hextra hlength hg
    obtain ⟨sub', hsub', hend⟩ := h.atEnd e he i hi
    cases (mem_def.1 hsub').symm.trans hsub₀
    refine .ended sub₀.given extra (fun e he => by cases he) hextra hlength ?_ hg
    rw [hepoch, hresume, hend.epoch]
    exact hend.follows
  rcases hgiven with hgiven | ⟨e, he, hi, hgiven⟩
  · cases (h.standing i sub₀ hsub₀).of_given hepoch hresume hgiven hclosed.trans with
    | subscribed e he hi =>
      exact hended e he hi [] (by simp) (Nat.zero_le 1) (by rw [hgiven, append_nil])
    | overflowed frame hseq hslow hcut => exact .overflowed frame hseq hslow hcut
    | closed hc hcut => exact .closed hc hcut
    | ended given extra hgone hextra hlength hfollows hg =>
      exact .ended given extra (fun e he => by cases he) hextra hlength hfollows hg
  · exact hended e he hi [shuttingDownFrame ts e.2] (by simp [shuttingDownFrame]) (Nat.le_refl 1)
      hgiven

end Events
