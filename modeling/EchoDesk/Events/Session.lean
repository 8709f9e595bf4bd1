import EchoDesk.Events.Client

/-! # A renderer and its bus

The bus, one renderer of a scope, and the connection between them, if there is one. Every other
client is a part of the bus. A connection is lost at any point, the page is loaded anew at any
point between two frames, and a server that starts again is one whose streams are all gone.
-/

namespace Events

open EchoDesk Transition

/-- The server took the connection: the handshake it goes by, and the call that opens the
subscription. -/
structure Accepted where
  handshake : Handshake
  ts : Timestamp
  call : Nat

/-- A connection: the hello of the client, what the server made of it, and how many frames the
client has read. -/
structure Link where
  hello : ClientHello
  accepted : Option Accepted
  sub : Option Nat
  read : Nat

structure World where
  bus : Bus
  renderer : Renderer
  link : Option Link

def World.init : World := ⟨.init, .init, none⟩

inductive SessionLabel where
  /-- A body of the bus runs. -/
  | server (label : BusLabel) (business : label.business)
  | connect
  /-- `_wait_client_hello` returns, with the hello of the client or with none, and
  `open_fenced_subscription` is called. -/
  | accept (ts : Timestamp) (inTime : Bool)
  /-- The next frame is read. -/
  | receive
  /-- `_send_ping`, and its frame is read. -/
  | ping (ts : Timestamp)
  | disconnect
  | reload

/-- The subscription that the call of the connection opened, if the body of the bus did that. -/
def Link.opened (link : Link) (bus bus' : Bus) : BusLabel → Link
  | .register i =>
    if link.sub = none ∧ link.accepted.map Accepted.call = some i ∧
        bus.subscriptions.length < bus'.subscriptions.length then
      { link with sub := some bus.subscriptions.length }
    else link
  | _ => link

/-- What the server sends on the connection, as far as it got. -/
def Link.frames (link : Link) (bus : Bus) : List BusEvent :=
  match link.accepted, link.sub.bind fun i => bus.subscriptions[i]? with
  | some accepted, some sub =>
    handshakeFrames accepted.ts sub accepted.handshake ++ sub.delivered
  | _, _ => []

/-- The handshake that the server goes by. -/
def Link.handshake (link : Link) (inTime : Bool) : Handshake :=
  ⟨if inTime then link.hello else .default, false⟩

/-- A frame is read; the handler may close the socket. -/
def World.read (w : World) (link : Link) (frame : BusEvent) : World :=
  { w with
    renderer := (w.renderer.onmessage frame).1
    link :=
      if (w.renderer.onmessage frame).2 then some { link with read := link.read + 1 } else none }

def sessionStep (bounds : Bounds) (epochs : EpochSource) (scope : Scope) (w : World) :
    SessionLabel → World
  | .server label _ =>
    let bus := busStep bounds epochs w.bus label
    { w with bus := bus, link := w.link.map fun link => link.opened w.bus bus label }
  | .connect =>
    match w.link with
    | some _ => w
    | none =>
      { w with
        renderer := w.renderer.load
        link := some ⟨w.renderer.load.clientHello, none, none, 0⟩ }
  | .accept ts inTime =>
    match w.link with
    | some link =>
      if link.accepted.isSome then w
      else
        let handshake := link.handshake inTime
        { w with
          bus := busStep bounds epochs w.bus (.openFenced scope handshake.hello.lastSeq
            handshake.hello.streamEpoch handshake.hello.startAtLatest)
          link := some { link with accepted := some ⟨handshake, ts, w.bus.calls.length⟩ } }
    | none => w
  | .receive =>
    match w.link with
    | some link => ((link.frames w.bus)[link.read]?).elim w fun frame => w.read link frame
    | none => w
  | .ping ts =>
    match w.link.bind Link.sub with
    | some _ =>
      let bus := busStep bounds epochs w.bus (.inspect scope)
      (bus.streams.lookup scope).elim { w with bus := bus } fun stream =>
        { w with bus := bus, renderer := (w.renderer.onmessage (pingFrame ts stream.state)).1 }
    | none => w
  | .disconnect => { w with link := none }
  | .reload => { w with renderer := w.renderer.reload, link := none }

end Events
