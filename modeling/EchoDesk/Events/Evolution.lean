import EchoDesk.Events.Continuity

/-! # How the bus evolves

Nothing that a client was told is taken back: events stay published, a call keeps what it asked
for, a subscription keeps its fence and what it returned, and an epoch that a scope has left is
never one of its epochs again.
-/

namespace Events

open EchoDesk Transition List Subscription

/-- `protocolHandled` of `ws.ts`: the frames that only the socket of the server makes. -/
def protocolHandled : List String :=
  ["server_hello", "server_ping", "server_resync", "server_sync"]

/-- What is published is none of them. -/
def BusLabel.business : BusLabel → Prop
  | .publish _ event => event.type ∉ protocolHandled
  | _ => True

/-- What a subscription holds are numbered events, and frames of the bus that say an error. -/
def Subscription.Framed (sub : Subscription) : Prop :=
  ∀ event ∈ sub.replay ++ sub.queue ++ sub.delivered, 0 < event.seq ∨ event.type = "error"

/-- All that a subscription has, or returned, is so. -/
def Subscription.Holds (sub : Subscription) (Q : BusEvent → Prop) : Prop :=
  ∀ event ∈ sub.replay ++ sub.queue ++ sub.delivered, Q event

structure Evolves (epochs : EpochSource) (bus bus' : Bus) : Prop where
  published : bus.published <+: bus'.published
  drawn : bus.epochs ≤ bus'.epochs
  /-- A stream was there before, or its epoch is a new one. -/
  lineage : ∀ e' ∈ bus'.streams,
    (∃ e ∈ bus.streams, e.1 = e'.1 ∧ e.2.epoch = e'.2.epoch) ∨ ¬ bus.Drawn epochs e'.2.epoch
  calls : bus.calls.map OpenCall.asks <+: bus'.calls.map OpenCall.asks
  delivered : ∀ (i : Nat) (sub : Subscription), bus.subscriptions[i]? = some sub →
    ∃ sub' : Subscription, bus'.subscriptions[i]? = some sub' ∧ sub'.fence = sub.fence ∧
      sub.delivered <+: sub'.delivered
  business : ∀ event ∈ bus'.published, event ∈ bus.published ∨ event.type ∉ protocolHandled
  framed : (∀ sub ∈ bus.subscriptions, sub.Framed) → ∀ sub ∈ bus'.subscriptions, sub.Framed

variable {bounds : Bounds} {epochs : EpochSource} {bus bus' bus'' : Bus}

theorem Evolves.drawn_of (h : Evolves epochs bus bus') {epoch : String}
    (hd : bus.Drawn epochs epoch) : bus'.Drawn epochs epoch := by
  obtain ⟨n, hn, rfl⟩ := hd
  exact ⟨n, Nat.lt_of_lt_of_le hn h.drawn, rfl⟩

theorem Evolves.trans (h : Evolves epochs bus bus') (h' : Evolves epochs bus' bus'') :
    Evolves epochs bus bus'' := by
  constructor
  · exact h.published.trans h'.published
  · exact Nat.le_trans h.drawn h'.drawn
  · intro e'' he''
    rcases h'.lineage e'' he'' with ⟨e', he', hscope', hepoch'⟩ | hnew
    · rcases h.lineage e' he' with ⟨e, he, hscope, hepoch⟩ | hnew
      · exact .inl ⟨e, he, hscope.trans hscope', hepoch.trans hepoch'⟩
      · exact .inr fun hd => hnew (hepoch' ▸ hd)
    · exact .inr fun hd => hnew (h.drawn_of hd)
  · exact h.calls.trans h'.calls
  · intro i sub hsub
    obtain ⟨sub', hsub', hfence, hprefix⟩ := h.delivered i sub hsub
    obtain ⟨sub'', hsub'', hfence', hprefix'⟩ := h'.delivered i sub' hsub'
    exact ⟨sub'', hsub'', hfence'.trans hfence, hprefix.trans hprefix'⟩
  · intro event hevent
    rcases h'.business event hevent with hevent | hnew
    · exact h.business event hevent
    · exact .inr hnew
  · exact fun hframed => h'.framed (h.framed hframed)

/-- The same events and readers, and no stream of another epoch. -/
theorem Evolves.of_subset (hpublished : bus'.published = bus.published)
    (hepochs : bus'.epochs = bus.epochs)
    (hstreams : ∀ e' ∈ bus'.streams, ∃ e ∈ bus.streams, e.1 = e'.1 ∧ e.2.epoch = e'.2.epoch)
    (hcalls : bus.calls.map OpenCall.asks <+: bus'.calls.map OpenCall.asks)
    (hsubs : bus'.subscriptions = bus.subscriptions) : Evolves epochs bus bus' := by
  constructor
  · exact hpublished ▸ prefix_rfl
  · exact Nat.le_of_eq hepochs.symm
  · exact fun e' he' => .inl (hstreams e' he')
  · exact hcalls
  · intro i sub hsub
    exact ⟨sub, hsubs ▸ hsub, rfl, prefix_rfl⟩
  · exact fun event hevent => .inl (hpublished ▸ hevent)
  · exact fun hframed => hsubs ▸ hframed

theorem Evolves.refl (bus : Bus) : Evolves epochs bus bus :=
  .of_subset rfl rfl (fun e' he' => ⟨e', he', rfl, rfl⟩) prefix_rfl rfl

theorem Arrange.evolves (h : Arrange epochs bus bus') : Evolves epochs bus bus' := by
  cases h with
  | admission waiters grants futures =>
    exact .of_subset rfl rfl (fun e' he' => ⟨e', he', rfl, rfl⟩) prefix_rfl rfl
  | touch hmem =>
    refine .of_subset rfl rfl ?_ prefix_rfl rfl
    intro e' he'
    rcases mem_append.1 he' with he' | he'
    · exact ⟨e', (mem_popScope.1 he').1, rfl, rfl⟩
    · rw [mem_singleton.1 he']
      exact ⟨_, hmem, rfl, rfl⟩
  | remove hfind =>
    exact .of_subset rfl rfl (fun e' he' => ⟨e', (mem_popScope.1 he').1, rfl, rfl⟩) prefix_rfl rfl
  | addStream hnew =>
    constructor
    · exact prefix_rfl
    · exact Nat.le_succ _
    · intro e' he'
      rcases mem_addStream.1 he' with he' | rfl
      · exact .inl ⟨e', he', rfl, rfl⟩
      right
      rintro ⟨n, hn, heq⟩
      -- an epoch is drawn once
      have := epochs.distinct _ _ heq
      omega
    · exact prefix_rfl
    · intro i sub hsub
      exact ⟨sub, hsub, rfl, prefix_rfl⟩
    · exact fun event hevent => .inl hevent
    · exact fun hframed => hframed

/-- A subscription is read or fed. -/
theorem evolves_mapIdx {f : Nat → Subscription → Subscription}
    (hsubs : bus'.subscriptions = bus.subscriptions.mapIdx f)
    (hf : ∀ i sub, (f i sub).fence = sub.fence ∧ sub.delivered <+: (f i sub).delivered)
    (hframed : ∀ i sub, sub.Framed → (f i sub).Framed)
    (hpublished : bus.published <+: bus'.published)
    (hbusiness : ∀ event ∈ bus'.published, event ∈ bus.published ∨ event.type ∉ protocolHandled)
    (hepochs : bus'.epochs = bus.epochs)
    (hstreams : ∀ e' ∈ bus'.streams, ∃ e ∈ bus.streams, e.1 = e'.1 ∧ e.2.epoch = e'.2.epoch)
    (hcalls : bus'.calls = bus.calls) : Evolves epochs bus bus' := by
  constructor
  · exact hpublished
  · exact Nat.le_of_eq hepochs.symm
  · exact fun e' he' => .inl (hstreams e' he')
  · exact hcalls ▸ prefix_rfl
  · intro i sub hsub
    refine ⟨f i sub, ?_, hf i sub⟩
    rw [hsubs, getElem?_mapIdx, hsub]
    rfl
  · exact hbusiness
  · intro hall sub' hsub'
    rw [hsubs] at hsub'
    obtain ⟨i, hi, rfl⟩ := mem_mapIdx.1 hsub'
    exact hframed i _ (hall _ (getElem_mem hi))

variable {sub : Subscription} {stream : ScopeStream}

theorem evolves_setSubscription {i : Nat} {sub' : Subscription}
    (hsub : bus.subscriptions[i]? = some sub) (hfence : sub'.fence = sub.fence)
    (hdelivered : sub.delivered <+: sub'.delivered) (hframed : sub.Framed → sub'.Framed) :
    Evolves epochs bus (bus.setSubscription i sub') := by
  constructor
  · exact prefix_rfl
  · exact Nat.le_refl _
  · exact fun e' he' => .inl ⟨e', he', rfl, rfl⟩
  · exact prefix_rfl
  · intro j s hs
    by_cases hij : i = j
    · subst hij
      cases hsub.symm.trans hs
      exact ⟨sub', getElem?_set_self (List.getElem?_eq_some_iff.1 hsub).1, hfence, hdelivered⟩
    · exact ⟨s, (getElem?_set_ne hij).trans hs, rfl, prefix_rfl⟩
  · exact fun event hevent => .inl hevent
  · intro hall s hs
    rcases mem_or_eq_of_mem_set hs with hs | rfl
    · exact hall s hs
    · exact hframed (hall sub (mem_of_getElem? hsub))

theorem mem_setStream_epoch {scope : Scope} {stream' : ScopeStream}
    (hmem : (scope, stream) ∈ bus.streams) (hepoch : stream'.epoch = stream.epoch) :
    ∀ e' ∈ (bus.setStream scope stream').streams,
      ∃ e ∈ bus.streams, e.1 = e'.1 ∧ e.2.epoch = e'.2.epoch := by
  intro e' he'
  rcases mem_setStream.1 he' with ⟨he', -⟩ | ⟨rfl, -⟩
  · exact ⟨e', he', rfl, rfl⟩
  · exact ⟨_, hmem, rfl, hepoch.symm⟩

variable {Q : BusEvent → Prop}

theorem Subscription.Holds.put (h : sub.Holds Q) {event frame : BusEvent} (hevent : Q event)
    (hframe : Q frame) : (sub.put bounds event frame).Holds Q := by
  intro e he
  have hmem : e ∈ sub.replay ++ sub.queue ++ sub.delivered ∨ e = event ∨ e = frame := by
    simp only [Subscription.put, mem_append] at he ⊢
    split at he
    · simp only [mem_singleton] at he
      tauto
    · simp only [mem_append, mem_singleton] at he
      tauto
  rcases hmem with he | rfl | rfl
  · exact h e he
  · exact hevent
  · exact hframe

theorem evolves_append {scope : Scope} {event : EchoEvent} (hevent : event.type ∉ protocolHandled)
    (hmem : (scope, stream) ∈ bus.streams) :
    Evolves epochs bus (bus.append bounds scope stream event) := by
  refine evolves_mapIdx rfl ?_ ?_ (prefix_append _ _) ?_ rfl (mem_setStream_epoch hmem rfl) rfl
  · intro i sub
    split
    · exact ⟨rfl, prefix_rfl⟩
    · exact ⟨rfl, prefix_rfl⟩
  · intro i sub hframed
    split
    · exact Holds.put hframed (.inl (Nat.succ_pos _)) (.inr rfl)
    · exact hframed
  · intro e he
    rcases mem_append.1 he with he | he
    · exact .inl he
    · rw [mem_singleton.1 he]
      exact .inr hevent

/-- A replay is past the position it goes on from. -/
theorem OpenCall.framed_subscription (call : OpenCall) (stream : ScopeStream) :
    (call.subscription stream).Framed := by
  intro event hevent
  have hreplay : event ∈ (call.subscription stream).replay := by
    simpa [OpenCall.subscription] using hevent
  exact .inl (Nat.zero_lt_of_lt (of_decide_eq_true (mem_filter.1 hreplay).2))

theorem evolves_subscribe (call : OpenCall) (hmem : (call.scope, stream) ∈ bus.streams) :
    Evolves epochs bus (bus.subscribe call stream) := by
  constructor
  · exact prefix_rfl
  · exact Nat.le_refl _
  · intro e' he'
    have hset : e' ∈ (bus.setStream call.scope
        { stream with subscribers := stream.subscribers ++ [bus.subscriptions.length] }).streams :=
      he'
    refine .inl (mem_setStream_epoch hmem ?_ e' hset)
    rfl
  · exact prefix_rfl
  · intro i sub hsub
    refine ⟨sub, ?_, rfl, prefix_rfl⟩
    show (bus.subscriptions ++ [call.subscription stream])[i]? = some sub
    rw [getElem?_append_left (List.getElem?_eq_some_iff.1 hsub).1, hsub]
  · exact fun event hevent => .inl hevent
  · intro hall sub hsub
    rcases mem_append.1 hsub with hsub | hsub
    · exact hall sub hsub
    · rw [mem_singleton.1 hsub]
      exact call.framed_subscription stream

theorem evolves_aclose (ts : Timestamp) : Evolves epochs bus (bus.aclose bounds ts) := by
  refine evolves_mapIdx rfl ?_ ?_ prefix_rfl (fun event hevent => .inl hevent) rfl
    (fun e' he' => by cases he') rfl
  · intro i sub
    split
    · split
      · exact ⟨rfl, prefix_rfl⟩
      · exact ⟨rfl, prefix_rfl⟩
    · exact ⟨rfl, prefix_rfl⟩
  intro i sub hframed
  split
  · split
    · exact hframed
    intro e he
    simp only [mem_append, mem_singleton] at he
    rcases he with (he | he | rfl) | he
    · exact hframed e (by simp [he])
    · exact hframed e (by simp [he])
    · exact .inr rfl
    · exact hframed e (by simp [he])
  · exact hframed

theorem delivered_anext (sub : Subscription) : sub.delivered <+: sub.anext.1.delivered := by
  rcases sub.anext_cases with ⟨heq, -⟩ | ⟨heq, -⟩ | ⟨_, _, _, _, -, heq, -⟩ | ⟨-, heq, -⟩
  · exact ⟨[], by rw [heq, append_nil]⟩
  · exact ⟨[], by rw [heq, append_nil]⟩
  · rw [heq]
    exact prefix_append _ _
  · exact ⟨[], by rw [heq, append_nil]⟩

theorem delivered_wake (sub : Subscription) : sub.delivered <+: sub.wake.1.delivered := by
  unfold wake
  split
  · exact prefix_append _ _
  · exact prefix_rfl

/-- An iteration returns what the subscription holds. -/
theorem Subscription.Holds.anext (h : sub.Holds Q) : sub.anext.1.Holds Q := by
  unfold Subscription.anext
  split
  · exact h
  split
  · exact h
  split
  · rename_i event hreplay
    have hmem := mem_of_getElem? hreplay
    intro e he
    simp only [Subscription.deliver, mem_append, mem_singleton] at he
    rcases he with (he | he) | he | rfl
    · exact h e (by simp [he])
    · exact h e (by simp [he])
    · exact h e (by simp [he])
    · exact h e (by simp [hmem])
  split
  · rename_i event queue hqueue
    intro e he
    simp only [Subscription.deliver, mem_append, mem_singleton] at he
    rcases he with (he | he) | he | rfl
    · exact h e (by simp [he])
    · exact h e (by simp [hqueue, he])
    · exact h e (by simp [he])
    · exact h e (by simp [hqueue])
  · exact h

theorem Subscription.Holds.wake (h : sub.Holds Q) : sub.wake.1.Holds Q := by
  unfold Subscription.wake
  split
  · rename_i event queue hwaiting hqueue
    intro e he
    simp only [Subscription.deliver, mem_append, mem_singleton] at he
    rcases he with (he | he) | he | rfl
    · exact h e (by simp [he])
    · exact h e (by simp [hqueue, he])
    · exact h e (by simp [he])
    · exact h e (by simp [hqueue])
  · exact h

theorem Change.evolves {own : Option Nat}
    (h : Change bounds epochs own (fun event => event.type ∉ protocolHandled) bus bus') :
    Evolves epochs bus bus' := by
  cases h with
  | arrange h => exact h.evolves
  | calls h => exact .of_subset rfl rfl (fun e' he' => ⟨e', he', rfl, rfl⟩) h rfl
  | append hmem hevent => exact evolves_append hevent hmem
  | subscribe call hmem => exact evolves_subscribe call hmem
  | read hown hsub hread =>
    cases hread with
    | anext =>
      exact evolves_setSubscription hsub (fence_anext _) (delivered_anext _) Holds.anext
    | wake =>
      exact evolves_setSubscription hsub (fence_wake _) (delivered_wake _) Holds.wake
    | interrupt | close => exact evolves_setSubscription hsub rfl prefix_rfl id
  | discard hmem hclosed =>
    exact .of_subset rfl rfl (mem_setStream_epoch hmem rfl) prefix_rfl rfl
  | aclose ts => exact evolves_aclose ts

theorem Changes.evolves {own : Option Nat}
    (h : Changes bounds epochs own (fun event => event.type ∉ protocolHandled) bus bus') :
    Evolves epochs bus bus' := by
  induction h with
  | refl => exact .refl bus
  | tail _ h ih => exact ih.trans h.evolves

theorem Arranges.evolves (h : Arranges epochs bus bus') : Evolves epochs bus bus' := by
  induction h with
  | refl => exact .refl bus
  | tail _ h ih => exact ih.trans h.evolves

/-- Every step of the bus. -/
theorem evolves_step {l : BusLabel} (hl : l.business) :
    Evolves epochs bus (busStep bounds epochs bus l) := by
  refine (changes_busStep ?_).evolves
  rintro scope event rfl
  exact hl

end Events
