import EchoDesk.Events.Cleanup
import EchoDesk.Events.Evolution

/-! # Scopes are kept apart

What is published to a scope reaches the ring and the subscribers of that scope only, whatever
else is published, admitted, evicted or closed meanwhile.
-/

namespace Events

open EchoDesk Transition List Option

variable {bounds : Bounds} {epochs : EpochSource} {bus bus' : Bus} {own : Option Nat}
variable {P : EchoEvent → Prop}

/-- The event was published to the scope. -/
def Bus.PublishedTo (bus : Bus) (scope : Scope) (event : BusEvent) : Prop :=
  event ∈ bus.published ∧ event.scope = some scope

/-- What a subscriber of a scope may be given: an event of its scope, or a frame of the bus. -/
def Bus.Own (bus : Bus) (scope : Scope) (event : BusEvent) : Prop :=
  event.scope = none ∨ bus.PublishedTo scope event

structure Isolated (bus : Bus) : Prop where
  routed : ∀ event ∈ bus.published, event.scope ≠ none
  rings : ∀ e ∈ bus.streams, ∀ event ∈ e.2.history, bus.PublishedTo e.1 event
  queues : ∀ e ∈ bus.streams, ∀ q ∈ e.2.subscribers,
    bus.subscriptions[q]?.map Subscription.scope = some e.1
  held : ∀ sub ∈ bus.subscriptions, sub.Holds (bus.Own sub.scope)

theorem Bus.Own.mono {scope : Scope} {event : BusEvent} (h : bus.Own scope event)
    (hpublished : bus.published ⊆ bus'.published) : bus'.Own scope event :=
  h.imp_right fun hto => ⟨hpublished hto.1, hto.2⟩

theorem Isolated.queues_of_unmoved (h : Isolated bus) (hunmoved : Unmoved own bus bus') :
    ∀ e ∈ bus'.streams, ∀ q ∈ e.2.subscribers,
      bus'.subscriptions[q]?.map Subscription.scope = some e.1 := by
  intro e' he' q hq
  rcases hunmoved.registered e' he' q hq with ⟨e, he, hscope, hold⟩ | ⟨-, hnew⟩
  · have hthere := h.queues e he q hold
    obtain ⟨sub, hsub, -⟩ := map_eq_some_iff.1 hthere
    rw [hunmoved.scope q (List.getElem?_eq_some_iff.1 hsub).1, hthere, hscope]
  · exact hnew

/-- Nothing is published, and the rings hold no more than they did. -/
theorem Isolated.of_rings (h : Isolated bus) (hunmoved : Unmoved own bus bus')
    (hpublished : bus'.published = bus.published)
    (hrings : ∀ e' ∈ bus'.streams, e'.2.history = [] ∨
      ∃ e ∈ bus.streams, e.1 = e'.1 ∧ e.2.history = e'.2.history)
    (hheld : ∀ sub ∈ bus'.subscriptions, sub.Holds (bus.Own sub.scope)) : Isolated bus' := by
  refine ⟨hpublished ▸ h.routed, ?_, h.queues_of_unmoved hunmoved, ?_⟩
  · intro e' he' event hevent
    rcases hrings e' he' with hnil | ⟨e, he, hscope, hhistory⟩
    · rw [hnil] at hevent
      cases hevent
    · rw [Bus.PublishedTo, hpublished, ← hscope]
      exact h.rings e he event (hhistory ▸ hevent)
  · intro sub hsub event hevent
    rw [Bus.Own, Bus.PublishedTo, hpublished]
    exact hheld sub hsub event hevent

theorem Isolated.arrange (h : Isolated bus) (harrange : Arrange epochs bus bus') :
    Isolated bus' := by
  have hunmoved := harrange.unmoved none
  obtain ⟨hsubs, hpublished⟩ := (Arranges.same (.single harrange)).1
  refine h.of_rings hunmoved hpublished ?_ (hsubs ▸ h.held)
  intro e he
  cases harrange with
  | admission waiters grants futures => exact .inr ⟨e, he, rfl, rfl⟩
  | touch hmem =>
    rcases mem_append.1 he with he | he
    · exact .inr ⟨e, (mem_popScope.1 he).1, rfl, rfl⟩
    · rw [mem_singleton.1 he]
      exact .inr ⟨_, hmem, rfl, rfl⟩
  | remove hfind => exact .inr ⟨e, (mem_popScope.1 he).1, rfl, rfl⟩
  | addStream hnew =>
    rcases mem_addStream.1 he with he | rfl
    · exact .inr ⟨e, he, rfl, rfl⟩
    · exact .inl rfl

variable {scope : Scope} {stream : ScopeStream}

section

variable (h : Isolated bus)

include h

/-- A published event goes to the ring of its scope, and to the subscribers there. -/
theorem Isolated.append (hmem : (scope, stream) ∈ bus.streams)
    (event : EchoEvent) : Isolated (bus.append bounds scope stream event) := by
  have hpublished : bus.published ⊆ (bus.append bounds scope stream event).published :=
    subset_append_left _ _
  have hcommitted : (bus.append bounds scope stream event).PublishedTo scope
      ⟨event, stream.seq + 1, stream.epoch, some scope⟩ :=
    ⟨mem_append_right _ (mem_singleton_self _), rfl⟩
  refine ⟨?_, ?_, h.queues_of_unmoved (unmoved_append none hmem event), ?_⟩
  · intro a ha
    rcases mem_append.1 ha with ha | ha
    · exact h.routed a ha
    · rw [mem_singleton.1 ha]
      exact some_ne_none scope
  · intro e' he' a ha
    rcases mem_setStream.1 he' with ⟨he', -⟩ | ⟨rfl, -⟩
    · exact ⟨hpublished (h.rings e' he' a ha).1, (h.rings e' he' a ha).2⟩
    rcases mem_append.1 (mem_of_mem_drop ha) with ha | ha
    · exact ⟨hpublished (h.rings _ hmem a ha).1, (h.rings _ hmem a ha).2⟩
    · rw [mem_singleton.1 ha]
      exact hcommitted
  intro sub' hsub'
  obtain ⟨q, hq, rfl⟩ := mem_mapIdx.1 hsub'
  have hheld : bus.subscriptions[q].Holds
      ((bus.append bounds scope stream event).Own bus.subscriptions[q].scope) :=
    fun a ha => (h.held _ (getElem_mem hq) a ha).mono hpublished
  by_cases hsubscribed : q ∈ stream.subscribers
  · have hscope : bus.subscriptions[q].scope = scope := by
      have hthere := h.queues _ hmem q hsubscribed
      rw [getElem?_eq_getElem hq] at hthere
      exact some.inj hthere
    rw [if_pos hsubscribed]
    exact hheld.put (.inr (hscope ▸ hcommitted)) (.inl rfl)
  · rw [if_neg hsubscribed]
    exact hheld

theorem Isolated.subscribe (call : OpenCall)
    (hmem : (call.scope, stream) ∈ bus.streams) : Isolated (bus.subscribe call stream) := by
  refine h.of_rings (unmoved_attach none hmem rfl) rfl ?_ ?_
  · intro e' he'
    rcases mem_setStream.1 he' with ⟨he', -⟩ | ⟨rfl, -⟩
    · exact .inr ⟨e', he', rfl, rfl⟩
    · exact .inr ⟨_, hmem, rfl, rfl⟩
  intro sub hsub
  rcases mem_append.1 hsub with hsub | hsub
  · exact h.held sub hsub
  -- what is replayed to it is a part of the ring
  rw [mem_singleton.1 hsub]
  intro event hevent
  have hreplay : event ∈ (call.subscription stream).replay := by
    simpa [OpenCall.subscription] using hevent
  exact .inr (h.rings _ hmem event (mem_filter.1 hreplay).1)

theorem Isolated.read {i : Nat} {sub sub' : Subscription}
    (hsub : bus.subscriptions[i]? = some sub) (hread : Read sub sub') :
    Isolated (bus.setSubscription i sub') := by
  have hheld := h.held sub (mem_of_getElem? hsub)
  have hsub' : sub'.scope = sub.scope ∧ sub'.Holds (bus.Own sub.scope) := by
    cases hread with
    | anext => exact ⟨sub.scope_anext, hheld.anext⟩
    | wake => exact ⟨sub.scope_wake, hheld.wake⟩
    | interrupt | close => exact ⟨rfl, hheld⟩
  refine h.of_rings (unmoved_setSubscription hsub hsub'.1) rfl ?_ ?_
  · exact fun e he => .inr ⟨e, he, rfl, rfl⟩
  intro s hs
  rcases mem_or_eq_of_mem_set hs with hs | rfl
  · exact h.held s hs
  · rw [hsub'.1]
    exact hsub'.2

theorem Isolated.aclose (ts : Timestamp) : Isolated (bus.aclose bounds ts) := by
  refine h.of_rings (unmoved_aclose none bus ts) rfl nofun ?_
  intro sub' hsub'
  obtain ⟨q, hq, rfl⟩ := mem_mapIdx.1 hsub'
  have hheld := h.held _ (getElem_mem hq)
  split
  · split
    · exact hheld
    intro event hevent
    simp only [mem_append, mem_singleton] at hevent
    rcases hevent with (hevent | hevent | rfl) | hevent
    · exact hheld event (by simp [hevent])
    · exact hheld event (by simp [hevent])
    · exact .inl rfl
    · exact hheld event (by simp [hevent])
  · exact hheld

theorem Isolated.change (hchange : Change bounds epochs own P bus bus') :
    Isolated bus' := by
  cases hchange with
  | arrange harrange => exact h.arrange harrange
  | calls hcalls => exact ⟨h.routed, h.rings, h.queues, h.held⟩
  | append hmem hevent => exact h.append hmem _
  | subscribe call hmem => exact h.subscribe call hmem
  | read hown hsub hread => exact h.read hsub hread
  | discard hmem hclosed =>
    refine h.of_rings (unmoved_setStream none hmem ?_) rfl ?_ h.held
    · exact fun q hq => (mem_filter.1 hq).1
    intro e' he'
    rcases mem_setStream.1 he' with ⟨he', -⟩ | ⟨rfl, -⟩
    · exact .inr ⟨e', he', rfl, rfl⟩
    · exact .inr ⟨_, hmem, rfl, rfl⟩
  | aclose ts => exact h.aclose ts

theorem Isolated.changes (hchanges : Changes bounds epochs own P bus bus') :
    Isolated bus' := by
  induction hchanges with
  | refl => exact h
  | tail _ hchange ih => exact ih.change hchange

end

/-- Every run of the bus keeps the scopes apart: no subscription is given, or will be given, an
event that was published to another scope. -/
theorem scopes_isolated (bounds : Bounds) (epochs : EpochSource) (trace : List BusLabel) :
    Isolated (run (busStep bounds epochs) .init trace) := by
  refine run_invariant ?_ ⟨nofun, nofun, nofun, nofun⟩ trace
  intro bus l h
  exact h.changes (changes_busStep (P := fun _ => True) fun _ _ _ => trivial)

end Events
