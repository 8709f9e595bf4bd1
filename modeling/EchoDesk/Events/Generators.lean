import EchoDesk.Events.Bus

/-! # The generators of `subscribe`

`subscribe` of `app/adapters/event_bus/inmemory.py` is an asynchronous generator. It waits for
admission and registers its queue as `open_fenced_subscription` does, yields what it replays,
and yields what comes from its queue. Only the last part of its body is in the `try` that takes
the queue out of the stream again.
-/

namespace Events

open EchoDesk Transition

/-- How far a generator is. -/
inductive GeneratorPhase where
  /-- It was not iterated yet. -/
  | created
  /-- It is in a call for admission, or about to register. -/
  | admitting (call : Nat)
  /-- It is suspended at a `yield` of the replay. -/
  | replaying (scope : Scope) (queue : Nat)
  /-- It is in the `try`: suspended at the `yield` there, or waiting on its queue. -/
  | live (scope : Scope) (queue : Nat)
  /-- It is done; its queue, if it came to have one. -/
  | ended (queue : Option Nat)
deriving DecidableEq

/-- A generator of `subscribe`. -/
structure Generator where
  sinceSeq : Int
  phase : GeneratorPhase
deriving DecidableEq

/-- The queue that a generator registered. -/
def GeneratorPhase.queue? : GeneratorPhase → Option Nat
  | .replaying _ queue => some queue
  | .live _ queue => some queue
  | .ended queue => queue
  | _ => none

/-- The consumer may still close the generator. -/
def GeneratorPhase.isOpen : GeneratorPhase → Bool
  | .ended _ => false
  | _ => true

/-- The bus with the generators of its subscribers. A queue is the index of its subscription. -/
structure GeneratorBus where
  bus : Bus
  generators : List Generator

def GeneratorBus.init : GeneratorBus := ⟨.init, []⟩

/-- Move a generator on. -/
def GeneratorBus.setPhase (s : GeneratorBus) (g : Nat) (phase : GeneratorPhase) : GeneratorBus :=
  { s with generators := s.generators.modify g fun generator =>
      { generator with phase := phase } }

/-! ## Registering -/

/-- The queue of a generator, with what it replays. -/
def generatorSubscription (scope : Scope) (sinceSeq : Int) (stream : ScopeStream) : Subscription where
  scope := scope
  state := stream.state
  gapReason := none
  requestedSeq := sinceSeq.toNat
  resumeSeq := sinceSeq.toNat
  queue := []
  replay := stream.history.filter fun event => sinceSeq < event.seq
  replayIndex := 0
  closed := false
  slowConsumerSeen := false
  waiting := false
  delivered := []

/-- `stream.subscribers.add(queue)`. -/
def Bus.attach (bus : Bus) (scope : Scope) (stream : ScopeStream) (sub : Subscription) : Bus :=
  { bus.setStream scope
      { stream with subscribers := stream.subscribers ++ [bus.subscriptions.length] } with
    subscriptions := bus.subscriptions ++ [sub] }

/-- The generator waits for an event of its queue, or has one already. -/
def Bus.getLive (bus : Bus) (queue : Nat) : Bus :=
  match bus.subscriptions[queue]? with
  | some sub =>
    match sub.queue with
    | event :: rest => bus.setSubscription queue ({ sub with queue := rest }.deliver event)
    | [] => bus.setSubscription queue { sub with waiting := true }
  | none => bus

/-- The generator goes on in the loop over the replay, and behind it. -/
def GeneratorBus.replay (s : GeneratorBus) (g : Nat) (scope : Scope) (queue : Nat) : GeneratorBus :=
  match s.bus.subscriptions[queue]? with
  | some sub =>
    match sub.replay[sub.replayIndex]? with
    | some event =>
      { s.setPhase g (.replaying scope queue) with
        bus := s.bus.setSubscription queue { sub with
          replayIndex := sub.replayIndex + 1
          delivered := sub.delivered ++ [event] } }
    | none => { s.setPhase g (.live scope queue) with bus := s.bus.getLive queue }
  | none => s

/-- `subscribe` after the wait for admission, up to its first `yield` or its wait on the queue. -/
def GeneratorBus.register (bounds : Bounds) (epochs : EpochSource) (s : GeneratorBus) (g i : Nat)
    (generator : Generator) (call : OpenCall) : GeneratorBus :=
  match s.bus.streamLocked bounds epochs call.scope with
  | none =>
    let bus := s.bus.setPhase i .raised
    { s.setPhase g (.ended none) with
      bus := match call.admission with
        | some future => bus.cancelScopeAdmission bounds epochs call.scope future
        | none => bus }
  | some bus =>
    match bus.streams.lookup call.scope with
    | none => s
    | some stream =>
      let queue := bus.subscriptions.length
      let bus := bus.attach call.scope stream
        (generatorSubscription call.scope generator.sinceSeq stream)
      let bus := ((bus.completeScopeAdmission call.scope call.admission).setPhase i
        .opened).grantAdmissionWaiters bounds epochs
      GeneratorBus.replay { s with bus := bus } g call.scope queue

/-! ## Closing -/

/-- The wait for admission is cancelled. -/
def Bus.abandonCall (bounds : Bounds) (epochs : EpochSource) (bus : Bus) (i : Nat) : Bus :=
  match bus.calls[i]? with
  | some call =>
    match call.phase with
    | .waiting future =>
      (bus.setPhase i .raised).cancelScopeAdmission bounds epochs call.scope future
    | .admitted => bus.setPhase i .raised
    | _ => bus
  | none => bus

/-- `aclose` of a suspended generator, or the cancellation of one that waits: the exception is
raised where the generator is. -/
def GeneratorBus.close (bounds : Bounds) (epochs : EpochSource) (s : GeneratorBus) (g : Nat)
    (generator : Generator) : GeneratorBus :=
  match generator.phase with
  | .created => s.setPhase g (.ended none)
  | .admitting i =>
    { s.setPhase g (.ended none) with bus := s.bus.abandonCall bounds epochs i }
  -- the replay is not in the `try`
  | .replaying _ queue => s.setPhase g (.ended (some queue))
  | .live scope queue =>
    { s.setPhase g (.ended (some queue)) with
      bus := s.bus.closeFencedSubscription bounds epochs scope queue }
  | .ended _ => s

/-! ## Steps -/

inductive GeneratorLabel where
  /-- A step of the bus that is not one of a generator. -/
  | bus (l : BusLabel)
  /-- `subscribe(since_seq=…)` is called. -/
  | subscribe (sinceSeq : Int)
  /-- The first iteration, in a scope, up to its wait for admission. -/
  | start (g : Nat) (scope : Scope)
  /-- The first iteration goes on after its wait. -/
  | enter (g : Nat)
  /-- An iteration of a generator that is suspended at a `yield`. -/
  | next (g : Nat)
  /-- A generator that waits on its queue goes on. -/
  | wake (g : Nat)
  /-- The consumer closes the generator, the iteration that waits is cancelled, or its wait for
  admission times out. -/
  | close (g : Nat)

/-- A call or a queue of a generator is not moved by others. -/
def GeneratorBus.foreign (s : GeneratorBus) : BusLabel → Bool
  | .register i | .abandon i => s.generators.all fun generator =>
    generator.phase ≠ .admitting i
  | .anext i | .wake i | .interrupt i | .close i => s.generators.all fun generator =>
    generator.phase.queue? ≠ some i
  | _ => true

def generatorStep (bounds : Bounds) (epochs : EpochSource) (s : GeneratorBus) : GeneratorLabel → GeneratorBus
  | .bus l => if s.foreign l then { s with bus := busStep bounds epochs s.bus l } else s
  | .subscribe sinceSeq => { s with generators := s.generators ++ [⟨sinceSeq, .created⟩] }
  | .start g scope =>
    match s.generators[g]? with
    | some ⟨sinceSeq, .created⟩ =>
      { s.setPhase g (.admitting s.bus.calls.length) with
        bus := s.bus.awaitScopeAdmission bounds epochs scope sinceSeq none false }
    | _ => s
  | .enter g =>
    match s.generators[g]? with
    | some ⟨sinceSeq, .admitting i⟩ =>
      match s.bus.calls[i]? with
      | some call =>
        if call.ready s.bus.futures then
          s.register bounds epochs g i ⟨sinceSeq, .admitting i⟩ call
        else if call.phase = .raised then s.setPhase g (.ended none)
        else s
      | none => s
    | _ => s
  | .next g =>
    match s.generators[g]? with
    | some ⟨_, .replaying scope queue⟩ => s.replay g scope queue
    | some ⟨sinceSeq, .live scope queue⟩ =>
      match s.bus.subscriptions[queue]? with
      | some sub =>
        if sub.waiting then s
        else if sub.slowConsumerSeen then
          s.close bounds epochs g ⟨sinceSeq, .live scope queue⟩
        else { s with bus := s.bus.getLive queue }
      | none => s
    | _ => s
  | .wake g =>
    match s.generators[g]? with
    | some ⟨_, .live _ queue⟩ =>
      match s.bus.subscriptions[queue]? with
      | some sub => { s with bus := s.bus.setSubscription queue sub.wake.1 }
      | none => s
    | _ => s
  | .close g =>
    match s.generators[g]? with
    | some generator => s.close bounds epochs g generator
    | none => s

end Events
