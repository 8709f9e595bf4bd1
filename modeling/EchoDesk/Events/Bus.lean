import EchoDesk.Core.Data
import EchoDesk.Foundations.ReplayLog
import EchoDesk.Foundations.Transition

/-! # The event bus

`app/adapters/event_bus/inmemory.py`: each scope has a stream with an epoch, a
sequence and a ring of its last events; subscribers of the stream have a bounded
queue each. A client comes back with the last position it saw and is either told
of a gap or given what followed.

No body under the bus lock awaits anything, so each of them is one step. A call
that opens a subscription takes two of them, with the wait for admission between.
-/

namespace Events

open EchoDesk Transition

/-- An event with its place in a stream. -/
structure BusEvent extends EchoEvent where
  seq : Nat
  streamEpoch : String
  /-- The scope it is routed by: control frames have none. -/
  scope : Option Scope

/-- The bounds of a bus, which the constructor checks. -/
structure Bounds where
  perSubscriberQueue : Nat
  replayBuffer : Nat
  maxScopeStreams : Nat
  maxAdmissionWaiters : Nat
  perSubscriberQueue_pos : 0 < perSubscriberQueue
  replayBuffer_pos : 0 < replayBuffer
  maxScopeStreams_pos : 0 < maxScopeStreams
  maxAdmissionWaiters_pos : 0 < maxAdmissionWaiters

/-- The epochs of the streams, as they are drawn: none is empty, and none is drawn twice. -/
structure EpochSource where
  hex : Nat → String
  nonempty : ∀ n, hex n ≠ ""
  distinct : ∀ m n, hex m = hex n → m = n

/-- `StreamState`. -/
structure StreamState where
  epoch : String
  maxSeq : Nat
  oldestSeq : Nat

/-- What `_gap_reason_for_state` returns, but for `None`. -/
inductive GapReason where
  | streamEpochChanged | clientAheadOfStream | historyExpired | historyUnavailable

/-- `FencedEventSubscription` and its queue, with what the iterator returned so far. -/
structure Subscription where
  scope : Scope
  state : StreamState
  gapReason : Option GapReason
  requestedSeq : Nat
  resumeSeq : Nat
  queue : List BusEvent
  replay : List BusEvent
  replayIndex : Nat
  closed : Bool
  slowConsumerSeen : Bool
  /-- An iteration waits on the queue. -/
  waiting : Bool
  delivered : List BusEvent

/-- `_ScopeStream`. A subscriber is the index of its subscription. -/
structure ScopeStream where
  epoch : String
  seq : Nat
  history : List BusEvent
  subscribers : List Nat

/-- The future a call waits on for admission. -/
inductive FutureState where
  | pending | done | cancelled
deriving DecidableEq

/-- How far a call of `open_fenced_subscription` is. -/
inductive CallPhase where
  /-- The scope has a stream already. -/
  | admitted
  | waiting (future : Nat)
  | opened
  /-- `EventStreamCapacityExceeded`, or the call was cancelled. -/
  | raised
deriving DecidableEq

/-- A call of `open_fenced_subscription`. -/
structure OpenCall where
  scope : Scope
  lastSeq : Int
  streamEpoch : Option String
  startAtLatest : Bool
  phase : CallPhase
deriving DecidableEq

/-- The bus. The events that were published are kept for reference. -/
structure Bus where
  streams : List (Scope × ScopeStream)
  admissionWaiters : List (Scope × Nat)
  admissionGrants : List (Scope × Nat)
  futures : List FutureState
  calls : List OpenCall
  subscriptions : List Subscription
  /-- How many epochs were drawn. -/
  epochs : Nat
  published : List BusEvent

/-- A fresh bus. -/
def Bus.init : Bus := ⟨[], [], [], [], [], [], 0, []⟩

/-- `d.pop(key, None)` of a dictionary keyed by scope. -/
def popScope {β : Type} (d : List (Scope × β)) (scope : Scope) : List (Scope × β) :=
  d.filter fun entry => entry.1 ≠ scope

/-- `_state`. -/
def ScopeStream.state (stream : ScopeStream) : StreamState :=
  ⟨stream.epoch, stream.seq, (stream.history.head?.map BusEvent.seq).getD 0⟩

/-! ## Room for streams -/

/-- A stream that may be removed: it has no subscribers and was not granted. -/
def Bus.removable (bus : Bus) (entry : Scope × ScopeStream) : Bool :=
  entry.2.subscribers.isEmpty && (bus.admissionGrants.lookup entry.1).isNone

/-- `_make_room_locked`, or `none` when it raises. -/
def Bus.makeRoom (bounds : Bounds) (bus : Bus) : Option Bus :=
  if bus.streams.length < bounds.maxScopeStreams then some bus
  else
    (bus.streams.find? bus.removable).map fun entry =>
      { bus with streams := popScope bus.streams entry.1 }

/-- `_stream_locked`: the stream of the scope is the last used one from now on. -/
def Bus.streamLocked (bounds : Bounds) (epochs : EpochSource) (bus : Bus) (scope : Scope) :
    Option Bus :=
  match bus.streams.lookup scope with
  | some stream => some { bus with streams := popScope bus.streams scope ++ [(scope, stream)] }
  | none =>
    (bus.makeRoom bounds).map fun bus =>
      { bus with
        streams := bus.streams ++ [(scope, ⟨epochs.hex bus.epochs, 0, [], []⟩)]
        epochs := bus.epochs + 1 }

/-- Write back the stream of a scope. -/
def Bus.setStream (bus : Bus) (scope : Scope) (stream : ScopeStream) : Bus :=
  { bus with
    streams := bus.streams.map fun entry => if entry.1 = scope then (scope, stream) else entry }

/-! ## Admission -/

/-- `_has_scope_slot_locked`. -/
def Bus.hasScopeSlot (bounds : Bounds) (bus : Bus) : Bool :=
  decide (bus.streams.length < bounds.maxScopeStreams) || bus.streams.any bus.removable

/-- `self._admission_grants[scope] = future`. -/
def setGrant (grants : List (Scope × Nat)) (scope : Scope) (future : Nat) : List (Scope × Nat) :=
  popScope grants scope ++ [(scope, future)]

/-- The loop of `_grant_admission_waiters_locked` over the waiters, in their order. -/
def grantLoop (bounds : Bounds) (epochs : EpochSource) : List (Scope × Nat) → Bus → Bus
  | [], bus => { bus with admissionWaiters := [] }
  | (scope, future) :: waiters, bus =>
    if (bus.streams.lookup scope).isNone && !bus.hasScopeSlot bounds then
      { bus with admissionWaiters := (scope, future) :: waiters }
    else if bus.futures[future]? = some .cancelled then grantLoop bounds epochs waiters bus
    else
      match bus.streamLocked bounds epochs scope with
      | none => { bus with admissionWaiters := waiters }
      | some bus =>
        grantLoop bounds epochs waiters { bus with
            admissionGrants := setGrant bus.admissionGrants scope future
            futures := bus.futures.set future .done }

/-- `_grant_admission_waiters_locked`. -/
def Bus.grantAdmissionWaiters (bounds : Bounds) (epochs : EpochSource) (bus : Bus) : Bus :=
  grantLoop bounds epochs bus.admissionWaiters bus

/-- The first body of `_await_scope_admission`, for a new call. -/
def Bus.awaitScopeAdmission (bounds : Bounds) (epochs : EpochSource) (bus : Bus) (scope : Scope)
    (lastSeq : Int) (streamEpoch : Option String) (startAtLatest : Bool) : Bus :=
  let call := OpenCall.mk scope lastSeq streamEpoch startAtLatest
  if (bus.streams.lookup scope).isSome then
    { bus with calls := bus.calls ++ [call .admitted] }
  else if (bus.admissionWaiters.lookup scope).isSome ||
      decide (bounds.maxAdmissionWaiters ≤ bus.admissionWaiters.length) then
    { bus with calls := bus.calls ++ [call .raised] }
  else
    let future := bus.futures.length
    let bus : Bus := { bus with
      calls := bus.calls ++ [call (.waiting future)]
      futures := bus.futures ++ [FutureState.pending]
      admissionWaiters := bus.admissionWaiters ++ [(scope, future)] }
    bus.grantAdmissionWaiters bounds epochs

/-- A call no longer waits for admission, nor holds a grant. -/
def Bus.dropAdmission (bus : Bus) (scope : Scope) (future : Nat) : Bus :=
  { bus with
    admissionWaiters :=
      if bus.admissionWaiters.lookup scope = some future then popScope bus.admissionWaiters scope
      else bus.admissionWaiters
    admissionGrants :=
      if bus.admissionGrants.lookup scope = some future then popScope bus.admissionGrants scope
      else bus.admissionGrants }

/-- `_cancel_scope_admission`. -/
def Bus.cancelScopeAdmission (bounds : Bounds) (epochs : EpochSource) (bus : Bus) (scope : Scope)
    (future : Nat) : Bus :=
  (bus.dropAdmission scope future).grantAdmissionWaiters bounds epochs

/-- `_complete_scope_admission_locked`. -/
def Bus.completeScopeAdmission (bus : Bus) (scope : Scope) (future : Option Nat) : Bus :=
  match future with
  | some future =>
    if bus.admissionGrants.lookup scope = some future then
      { bus with admissionGrants := popScope bus.admissionGrants scope }
    else bus
  | none => bus

/-- Move a call on. -/
def Bus.setPhase (bus : Bus) (i : Nat) (phase : CallPhase) : Bus :=
  { bus with calls := bus.calls.modify i fun call => { call with phase := phase } }

/-! ## Publishing -/

/-- `_slow_consumer_frame`. -/
def slowConsumerFrame (ts : Timestamp) (stream : ScopeStream) : BusEvent where
  type := "error"
  ts := ts
  meetingId := none
  payload := [("reason", .str "slow_consumer"), ("reconnect", .bool true),
    ("close_code", .int 4409), ("fence_seq", .int stream.seq)]
  seq := 0
  streamEpoch := stream.epoch
  scope := none

/-- The frame of `aclose`. -/
def shuttingDownFrame (ts : Timestamp) (stream : ScopeStream) : BusEvent where
  type := "error"
  ts := ts
  meetingId := none
  payload := [("reason", .str "server_shutting_down")]
  seq := 0
  streamEpoch := stream.epoch
  scope := none

/-- The event says that the consumer was too slow. -/
def BusEvent.isSlowConsumer (event : BusEvent) : Bool :=
  event.type == "error" && match Dict.get? event.payload "reason" with
    | some (.str reason) => reason == "slow_consumer"
    | _ => false

/-- The queue of the subscription is full. -/
def Subscription.full (bounds : Bounds) (sub : Subscription) : Bool :=
  decide (bounds.perSubscriberQueue ≤ sub.queue.length)

/-- `queue.put_nowait(event)`; a full queue is emptied and closed with a frame. -/
def Subscription.put (bounds : Bounds) (sub : Subscription) (event frame : BusEvent) :
    Subscription :=
  { sub with queue := if sub.full bounds then [frame] else sub.queue ++ [event] }

/-- `_fan_out_locked`, with the stale queues discarded. -/
def Bus.fanOut (bounds : Bounds) (bus : Bus) (scope : Scope) (stream : ScopeStream)
    (event frame : BusEvent) : Bus :=
  { bus.setStream scope { stream with
      subscribers := stream.subscribers.filter fun i =>
        !(bus.subscriptions[i]?.any (Subscription.full bounds)) } with
    subscriptions := bus.subscriptions.mapIdx fun i sub =>
      if i ∈ stream.subscribers then sub.put bounds event frame else sub }

/-- `publish_to` after its waiters were granted, for the stream of the scope. -/
def Bus.append (bounds : Bounds) (bus : Bus) (scope : Scope) (stream : ScopeStream)
    (event : EchoEvent) : Bus :=
  let committed : BusEvent := ⟨event, stream.seq + 1, stream.epoch, some scope⟩
  let stream := { stream with
    seq := stream.seq + 1
    history := ReplayLog.keepLast bounds.replayBuffer (stream.history ++ [committed]) }
  let bus : Bus := { bus with published := bus.published ++ [committed] }
  bus.fanOut bounds scope stream committed (slowConsumerFrame event.ts stream)

/-- `publish_to`. -/
def Bus.publishTo (bounds : Bounds) (epochs : EpochSource) (bus : Bus) (scope : Scope)
    (event : EchoEvent) : Bus :=
  let bus := bus.grantAdmissionWaiters bounds epochs
  match bus.streamLocked bounds epochs scope with
  | none => bus
  | some bus =>
    match bus.streams.lookup scope with
    | some stream => bus.append bounds scope stream event
    | none => bus

/-! ## Subscriptions -/

/-- `_gap_reason_for_state`. -/
def gapReasonForState (state : StreamState) (lastSeq : Nat) (streamEpoch : Option String) :
    Option GapReason :=
  if ∃ epoch ∈ truthy streamEpoch, epoch ≠ state.epoch then some .streamEpochChanged
  else if state.maxSeq < lastSeq then some .clientAheadOfStream
  else if state.oldestSeq ≠ 0 ∧ lastSeq + 1 < state.oldestSeq then some .historyExpired
  else if lastSeq < state.maxSeq ∧ state.oldestSeq = 0 then some .historyUnavailable
  else none

/-- The subscription that `open_fenced_subscription` makes of a stream. -/
def OpenCall.subscription (call : OpenCall) (stream : ScopeStream) : Subscription :=
  let state := stream.state
  let requestedSeq := if call.startAtLatest then state.maxSeq else call.lastSeq.toNat
  let gapReason := gapReasonForState state requestedSeq call.streamEpoch
  let resumeSeq := if gapReason.isSome then state.maxSeq else requestedSeq
  { scope := call.scope
    state := state
    gapReason := gapReason
    requestedSeq := requestedSeq
    resumeSeq := resumeSeq
    queue := []
    replay := stream.history.filter fun event => resumeSeq < event.seq
    replayIndex := 0
    closed := false
    slowConsumerSeen := false
    waiting := false
    delivered := [] }

/-- The future of a call that has one. -/
def OpenCall.admission (call : OpenCall) : Option Nat :=
  match call.phase with
  | .waiting future => some future
  | _ => none

/-- The call is past its wait for admission. -/
def OpenCall.ready (futures : List FutureState) (call : OpenCall) : Bool :=
  match call.phase with
  | .admitted => true
  | .waiting future => futures[future]? == some .done
  | _ => false

/-- The second body of `open_fenced_subscription`, for a stream of the scope. -/
def Bus.subscribe (bus : Bus) (call : OpenCall) (stream : ScopeStream) : Bus :=
  { bus.setStream call.scope
      { stream with subscribers := stream.subscribers ++ [bus.subscriptions.length] } with
    subscriptions := bus.subscriptions ++ [call.subscription stream] }

/-- `open_fenced_subscription` after the wait for admission. -/
def Bus.register (bounds : Bounds) (epochs : EpochSource) (bus : Bus) (i : Nat)
    (call : OpenCall) : Bus :=
  match bus.streamLocked bounds epochs call.scope with
  | none =>
    match call.admission with
    | some future => (bus.setPhase i .raised).cancelScopeAdmission bounds epochs call.scope future
    | none => bus.setPhase i .raised
  | some bus =>
    match bus.streams.lookup call.scope with
    | none => bus
    | some stream =>
      (((bus.subscribe call stream).completeScopeAdmission call.scope call.admission).setPhase i
        .opened).grantAdmissionWaiters bounds epochs

/-- An event leaves the iterator. -/
def Subscription.deliver (sub : Subscription) (event : BusEvent) : Subscription :=
  { sub with
    waiting := false
    slowConsumerSeen := sub.slowConsumerSeen || event.isSlowConsumer
    delivered := sub.delivered ++ [event] }

/-- What `__anext__` does. -/
inductive Outcome where
  | stopAsyncIteration | slowConsumerError
  | event (event : BusEvent)
  /-- It waits on the queue. -/
  | waits

/-- `__anext__` up to its wait on the queue, if it has to wait. -/
def Subscription.anext (sub : Subscription) : Subscription × Outcome :=
  if sub.closed then (sub, .stopAsyncIteration)
  else if sub.slowConsumerSeen then (sub, .slowConsumerError)
  else
    match sub.replay[sub.replayIndex]? with
    | some event =>
      ({ sub with replayIndex := sub.replayIndex + 1 }.deliver event, .event event)
    | none =>
      match sub.queue with
      | event :: queue => ({ sub with queue := queue }.deliver event, .event event)
      | [] => ({ sub with waiting := true }, .waits)

/-- An iteration that waits on the queue goes on. -/
def Subscription.wake (sub : Subscription) : Subscription × Outcome :=
  match sub.waiting, sub.queue with
  | true, event :: queue => ({ sub with queue := queue }.deliver event, .event event)
  | _, _ => (sub, .waits)

/-- `_close_fenced_subscription`. -/
def Bus.closeFencedSubscription (bounds : Bounds) (epochs : EpochSource) (bus : Bus)
    (scope : Scope) (i : Nat) : Bus :=
  let bus :=
    match bus.streams.lookup scope with
    | some stream =>
      bus.setStream scope { stream with subscribers := stream.subscribers.filter (· ≠ i) }
    | none => bus
  bus.grantAdmissionWaiters bounds epochs

/-- `aclose` of the bus. -/
def Bus.aclose (bounds : Bounds) (bus : Bus) (ts : Timestamp) : Bus :=
  { bus with
    futures := bus.futures.mapIdx fun i future =>
      if i ∈ bus.admissionWaiters.map Prod.snd then .cancelled else future
    admissionWaiters := []
    admissionGrants := []
    subscriptions := bus.subscriptions.mapIdx fun i sub =>
      match bus.streams.find? fun entry => entry.2.subscribers.contains i with
      | some entry =>
        if sub.full bounds then sub
        else { sub with queue := sub.queue ++ [shuttingDownFrame ts entry.2] }
      | none => sub
    streams := [] }

/-! ## Steps -/

inductive BusLabel where
  | publish (scope : Scope) (event : EchoEvent)
  /-- A call of `open_fenced_subscription` up to its wait for admission. -/
  | openFenced (scope : Scope) (lastSeq : Int) (streamEpoch : Option String) (startAtLatest : Bool)
  /-- The `i`-th call goes on after its wait. -/
  | register (i : Nat)
  /-- The wait of the `i`-th call times out, or the call is cancelled. -/
  | abandon (i : Nat)
  | anext (i : Nat)
  | wake (i : Nat)
  /-- The iteration that waits on the queue is cancelled. -/
  | interrupt (i : Nat)
  | close (i : Nat)
  /-- `stream_state_for_current_scope`. -/
  | inspect (scope : Scope)
  | aclose (ts : Timestamp)

/-- Replace the `i`-th subscription. -/
def Bus.setSubscription (bus : Bus) (i : Nat) (sub : Subscription) : Bus :=
  { bus with subscriptions := bus.subscriptions.set i sub }

def busStep (bounds : Bounds) (epochs : EpochSource) (bus : Bus) : BusLabel → Bus
  | .publish scope event => bus.publishTo bounds epochs scope event
  | .openFenced scope lastSeq streamEpoch startAtLatest =>
    bus.awaitScopeAdmission bounds epochs scope lastSeq streamEpoch startAtLatest
  | .register i =>
    match bus.calls[i]? with
    | some call => if call.ready bus.futures then bus.register bounds epochs i call else bus
    | none => bus
  | .abandon i =>
    match bus.calls[i]? with
    | some call =>
      match call.phase with
      | .waiting future =>
        (bus.setPhase i .raised).cancelScopeAdmission bounds epochs call.scope future
      | .admitted => bus.setPhase i .raised
      | _ => bus
    | none => bus
  | .anext i =>
    match bus.subscriptions[i]? with
    | some sub => if sub.waiting then bus else bus.setSubscription i sub.anext.1
    | none => bus
  | .wake i =>
    match bus.subscriptions[i]? with
    | some sub => bus.setSubscription i sub.wake.1
    | none => bus
  | .interrupt i =>
    match bus.subscriptions[i]? with
    | some sub => bus.setSubscription i { sub with waiting := false }
    | none => bus
  | .close i =>
    match bus.subscriptions[i]? with
    | some sub =>
      if sub.closed then bus
      else (bus.setSubscription i { sub with closed := true }).closeFencedSubscription bounds epochs
        sub.scope i
    | none => bus
  | .inspect scope =>
    match bus.streams.lookup scope with
    | some _ => bus
    | none => (bus.streamLocked bounds epochs scope).getD bus
  | .aclose ts => bus.aclose bounds ts

end Events
