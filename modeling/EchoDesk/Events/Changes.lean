import EchoDesk.Events.Standing

/-! # The changes of the bus

Every step of the bus is a chain of a few changes. A relation between two states of the bus is
shown for each of them once, and then holds over every step.
-/

namespace Events

open EchoDesk List

/-- A call by what it asked for. -/
def OpenCall.asks (call : OpenCall) : OpenCall := { call with phase := .admitted }

/-- The subscription that a step of the bus is about. -/
def BusLabel.own : BusLabel → Option Nat
  | .anext i | .wake i | .interrupt i | .close i => some i
  | _ => none

/-- What becomes of a subscription that is read, or closed. -/
inductive Read (sub : Subscription) : Subscription → Prop where
  | anext : Read sub sub.anext.1
  | wake : Read sub sub.wake.1
  | interrupt : Read sub { sub with waiting := false }
  | close : Read sub { sub with closed := true }

/-- One change, of a step that is about the subscription `own` and publishes what `P` allows. -/
inductive Change (bounds : Bounds) (epochs : EpochSource) (own : Option Nat)
    (P : EchoEvent → Prop) (bus : Bus) : Bus → Prop where
  | arrange {bus' : Bus} (h : Arrange epochs bus bus') : Change bounds epochs own P bus bus'
  | calls {calls : List OpenCall} (h : bus.calls.map OpenCall.asks <+: calls.map OpenCall.asks) :
    Change bounds epochs own P bus { bus with calls := calls }
  | append {scope : Scope} {stream : ScopeStream} {event : EchoEvent}
    (hmem : (scope, stream) ∈ bus.streams) (hevent : P event) :
    Change bounds epochs own P bus (bus.append bounds scope stream event)
  | subscribe {stream : ScopeStream} (call : OpenCall) (hmem : (call.scope, stream) ∈ bus.streams) :
    Change bounds epochs own P bus (bus.subscribe call stream)
  | read {i : Nat} {sub sub' : Subscription} (hown : own = some i)
    (hsub : bus.subscriptions[i]? = some sub) (hread : Read sub sub') :
    Change bounds epochs own P bus (bus.setSubscription i sub')
  /-- A stream loses the queue of a subscription that is closed. -/
  | discard {scope : Scope} {stream : ScopeStream} {i : Nat} (hmem : (scope, stream) ∈ bus.streams)
    (hclosed : ∀ sub ∈ bus.subscriptions[i]?, sub.closed = true) :
    Change bounds epochs own P bus (bus.setStream scope
      { stream with subscribers := stream.subscribers.filter (· ≠ i) })
  | aclose (ts : Timestamp) : Change bounds epochs own P bus (bus.aclose bounds ts)

abbrev Changes (bounds : Bounds) (epochs : EpochSource) (own : Option Nat)
    (P : EchoEvent → Prop) : Bus → Bus → Prop := Relation.ReflTransGen (Change bounds epochs own P)

variable {bounds : Bounds} {epochs : EpochSource} {own : Option Nat} {P : EchoEvent → Prop}
variable {bus bus' : Bus}

theorem Arranges.changes (h : Arranges epochs bus bus') : Changes bounds epochs own P bus bus' :=
  Relation.ReflTransGen.mono (fun _ _ => Change.arrange) _ _ h

theorem changes_grant : Changes bounds epochs own P bus (bus.grantAdmissionWaiters bounds epochs) :=
  (arranges_grantLoop _ bus).changes

theorem map_asks_setPhase (bus : Bus) (i : Nat) (phase : CallPhase) :
    (bus.setPhase i phase).calls.map OpenCall.asks = bus.calls.map OpenCall.asks := by
  apply ext_getElem?
  intro j
  rw [getElem?_map, getElem?_map]
  show ((bus.calls.modify i fun call => { call with phase := phase })[j]?).map _ = _
  rw [getElem?_modify]
  cases bus.calls[j]? with
  | none => rfl
  | some call => by_cases hij : i = j <;> simp [hij, OpenCall.asks]

theorem change_setPhase (i : Nat) (phase : CallPhase) :
    Change bounds epochs own P bus (bus.setPhase i phase) :=
  .calls (map_asks_setPhase bus i phase ▸ prefix_rfl)

theorem changes_cancel (i : Nat) (scope : Scope) (future : Nat) : Changes bounds epochs own P bus
    ((bus.setPhase i .raised).cancelScopeAdmission bounds epochs scope future) :=
  .head (change_setPhase i .raised) (.head (.arrange (.admission _ _ _)) changes_grant)

theorem changes_publishTo (scope : Scope) {event : EchoEvent} (hevent : P event) :
    Changes bounds epochs own P bus (bus.publishTo bounds epochs scope event) := by
  unfold Bus.publishTo
  refine changes_grant.trans ?_
  generalize bus.grantAdmissionWaiters bounds epochs = bus
  dsimp only
  cases hlocked : bus.streamLocked bounds epochs scope with
  | none => exact .refl
  | some bus' =>
    refine (arranges_streamLocked hlocked).changes.trans ?_
    dsimp only
    cases hlookup : bus'.streams.lookup scope with
    | none => exact .refl
    | some stream => exact .single (.append (mem_of_lookup hlookup) hevent)

theorem changes_open (scope : Scope) (lastSeq : Int) (streamEpoch : Option String)
    (startAtLatest : Bool) : Changes bounds epochs own P bus
      (bus.awaitScopeAdmission bounds epochs scope lastSeq streamEpoch startAtLatest) := by
  have hadd : ∀ call, Change bounds epochs own P bus { bus with calls := bus.calls ++ [call] } := by
    intro call
    exact .calls (map_append ▸ prefix_append _ _)
  unfold Bus.awaitScopeAdmission
  split
  · exact .single (hadd _)
  split
  · exact .single (hadd _)
  · exact .head (hadd _) (.head (.arrange (.admission _ _ _)) changes_grant)

/-- A grant that is used up touches the grants only. -/
theorem completeScopeAdmission_eq (bus : Bus) (scope : Scope) (future : Option Nat) :
    ∃ grants, bus.completeScopeAdmission scope future = { bus with admissionGrants := grants } := by
  unfold Bus.completeScopeAdmission
  split
  · split
    · exact ⟨_, rfl⟩
    · exact ⟨bus.admissionGrants, rfl⟩
  · exact ⟨bus.admissionGrants, rfl⟩

/-- What follows on the queue of a call. -/
theorem changes_settled (i : Nat) (call : OpenCall) : Changes bounds epochs own P bus
    (((bus.completeScopeAdmission call.scope call.admission).setPhase i
      .opened).grantAdmissionWaiters bounds epochs) := by
  obtain ⟨grants, hgrants⟩ := completeScopeAdmission_eq bus call.scope call.admission
  rw [hgrants]
  exact .head (.arrange (.admission _ grants _)) (.head (change_setPhase i .opened) changes_grant)

theorem changes_register (i : Nat) (call : OpenCall) :
    Changes bounds epochs own P bus (bus.register bounds epochs i call) := by
  unfold Bus.register
  cases hlocked : bus.streamLocked bounds epochs call.scope with
  | none =>
    cases call.admission with
    | none => exact .single (change_setPhase i .raised)
    | some future => exact changes_cancel i call.scope future
  | some room =>
    refine (arranges_streamLocked hlocked).changes.trans ?_
    dsimp only
    cases hlookup : room.streams.lookup call.scope with
    | none => exact .refl
    | some stream =>
      exact .head (.subscribe call (mem_of_lookup hlookup)) (changes_settled i call)

theorem changes_closeFenced (scope : Scope) {i : Nat}
    (hclosed : ∀ sub ∈ bus.subscriptions[i]?, sub.closed = true) : Changes bounds epochs own P bus
      (bus.closeFencedSubscription bounds epochs scope i) := by
  unfold Bus.closeFencedSubscription
  cases hlookup : bus.streams.lookup scope with
  | none => exact changes_grant
  | some stream => exact .head (.discard (mem_of_lookup hlookup) hclosed) changes_grant

/-- Every step of the bus. -/
theorem changes_busStep {l : BusLabel} (hl : ∀ scope event, l = .publish scope event → P event) :
    Changes bounds epochs l.own P bus (busStep bounds epochs bus l) := by
  cases l with
  | publish scope event => exact changes_publishTo scope (hl scope event rfl)
  | openFenced scope lastSeq streamEpoch startAtLatest =>
    exact changes_open scope lastSeq streamEpoch startAtLatest
  | register i =>
    dsimp only [busStep]
    split
    · split
      · exact changes_register i _
      · exact .refl
    · exact .refl
  | abandon i =>
    dsimp only [busStep]
    split
    · split
      · exact changes_cancel i _ _
      · exact .single (change_setPhase i .raised)
      · exact .refl
    · exact .refl
  | anext i =>
    dsimp only [busStep]
    split
    · rename_i sub hsub
      split
      · exact .refl
      · exact .single (.read rfl hsub .anext)
    · exact .refl
  | wake i =>
    dsimp only [busStep]
    split
    · rename_i sub hsub
      exact .single (.read rfl hsub .wake)
    · exact .refl
  | interrupt i =>
    dsimp only [busStep]
    split
    · rename_i sub hsub
      exact .single (.read rfl hsub .interrupt)
    · exact .refl
  | close i =>
    dsimp only [busStep]
    split
    · rename_i sub hsub
      split
      · exact .refl
      refine .head (.read rfl hsub .close) (changes_closeFenced sub.scope ?_)
      intro s hs
      have hget : (bus.subscriptions.set i { sub with closed := true })[i]? = some s := hs
      rw [getElem?_set_self (List.getElem?_eq_some_iff.1 hsub).1] at hget
      rw [← Option.some.inj hget]
    · exact .refl
  | inspect scope =>
    dsimp only [busStep]
    split
    · exact .refl
    cases hlocked : bus.streamLocked bounds epochs scope with
    | none => exact .refl
    | some bus' => exact (arranges_streamLocked hlocked).changes
  | aclose ts => exact .single (.aclose ts)

end Events
