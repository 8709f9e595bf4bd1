import EchoDesk.Core.Json

/-! # The worker manager

`WorkerManager` of `agent-runtime/pool/worker-manager.ts`. A call is cut at its awaits, and whatever
can run in between may do so. The handlers of a worker's events are closures over the manager: the
events of every worker the manager has created arrive at the same fields.

A request promise and a turn stream are entries of `requests`. The map `pending` is the entries
without an outcome that are no turn, and the stream of the active turn is the one that is open.
Workers and requests are named by their place in the order in which they were created.
-/

namespace AgentRuntime

open EchoDesk

inductive WorkerManagerState where
  | new
  | starting
  | ready
  | open
  | crashed
  | closed
deriving DecidableEq

inductive RuntimeFrameType where
  | ready | open | opened | turn | event | turnEnd | checkpoint | checkpointed | cancel
  | cancelled | close | closed | error
deriving DecidableEq

structure RuntimeFrame where
  type : RuntimeFrameType
  requestId : Nat
  payload : Dict := []
  buildIdentity : Option Json := none

structure OpenSessionInput where
  taskId : String
  operationKey : String
  fields : Dict := []

/-- `WorkerManagerOptions`: the manifest, what `assertRuntimeManifestMatches` says of the identity
of a frame, and whether the frame of a request passes `validateRuntimeFrame`. -/
structure Options where
  manifestId : String
  matchesIdentity : Json → Bool
  sendable : RuntimeFrameType → OpenSessionInput → Dict → Bool

/-! ## Promises -/

/-- The deferred that `start` creates along with a worker. -/
inductive Deferred where
  | pending
  | resolved (frame : RuntimeFrame)
  | rejected (code : String)

/-- A promise keeps what it was settled with first. -/
def Deferred.settle (d value : Deferred) : Deferred :=
  match d with
  | .pending => value
  | settled => settled

inductive Outcome where
  | frame (frame : RuntimeFrame)
  | ended
  | failed (code : String)

structure Request where
  type : RuntimeFrameType
  /-- The worker it was sent to. -/
  worker : Option Nat
  /-- What the queue of a turn was given. -/
  events : List Dict := []
  outcome : Option Outcome := none

def Request.settle (r : Request) (outcome : Outcome) : Request :=
  { r with outcome := r.outcome.or (some outcome) }

/-! ## The manager -/

structure Worker where
  exited : Bool := false
  /-- Its channel is not closed; closing it also terminates the worker. -/
  connected : Bool := true
  ready : Deferred := .pending

/-- What a call goes on with after `stopWorker`. -/
inductive AfterStop where
  | startFailed (worker : Nat)
  | restart (input : OpenSessionInput)
  | close

/-- A call at an await; `next` is the session that an `open` is about to open. -/
inductive Call where
  | starting (worker : Nat) (next : Option OpenSessionInput)
  | started (next : OpenSessionInput)
  | terminating (worker : Nat) (after : AfterStop)
  | stopped (after : AfterStop)
  | opening (request : Nat)
  | cancelling (request : Nat)
  | closing (request : Nat)

structure St where
  state : WorkerManagerState := .new
  workers : List Worker := []
  worker : Option Nat := none
  channel : Option Nat := none
  ready : Option Nat := none
  requests : List Request := []
  activeTurn : Option Nat := none
  openInput : Option OpenSessionInput := none
  closing : Bool := false
  calls : List Call := []
  /-- The startup timeouts that are set. -/
  timers : List Nat := []

namespace St

def running (s : St) (i : Nat) : Bool := s.workers[i]?.any fun w => !w.exited

def settle (s : St) (id : Nat) (outcome : Outcome) : St :=
  { s with requests := s.requests.modify id (·.settle outcome) }

/-- `this.pending.has(id)`. -/
def isPending (s : St) (id : Nat) : Bool :=
  s.requests[id]?.any fun r => r.type ≠ .turn ∧ r.outcome.isNone

/-- `this.ready?.resolve` and `this.ready?.reject`. -/
def settleReady (s : St) (value : Deferred) : St :=
  match s.ready with
  | none => s
  | some i =>
    { s with workers := s.workers.modify i fun w => { w with ready := w.ready.settle value } }

def endTurn (s : St) (outcome : Outcome) : St :=
  match s.activeTurn with
  | none => s
  | some id => { s.settle id outcome with activeTurn := none }

def rejectPending (s : St) (code : String) : St :=
  { s with requests := s.requests.map fun r =>
      if r.type = .turn then r else r.settle (.failed code) }

def handleCrash (s : St) (code : String) : St :=
  if s.closing ∨ s.state = .closed then s
  else (({ s with state := .crashed }.endTurn (.failed code)).settleReady
    (.rejected code)).rejectPending code

def isText : Option Json → Bool
  | some (.str _) => true
  | _ => false

def isKernelEvent (event : Dict) : Bool :=
  event.get? "schemaVersion" = some (.int 1) ∧ isText (event.get? "taskId") ∧
    isText (event.get? "operationKey") ∧ isText (event.get? "runtimeEventId") ∧
    isText (event.get? "type")

def errorCode (frame : RuntimeFrame) : String :=
  match frame.payload.get? "code" with
  | some (.str code) => code
  | _ => "RUNTIME_WORKER_REQUEST_FAILED"

def handleFrame (s : St) (frame : RuntimeFrame) : St :=
  match frame.type with
  | .ready => s.settleReady (.resolved frame)
  | .event =>
    if s.activeTurn ≠ some frame.requestId then s
    else if isKernelEvent frame.payload then
      { s with requests := s.requests.modify frame.requestId fun r =>
          { r with events := r.events ++ [frame.payload] } }
    else s.endTurn (.failed "RUNTIME_INVALID_FRAME")
  | .turnEnd => if s.activeTurn = some frame.requestId then s.endTurn .ended else s
  | .error =>
    let code := errorCode frame
    let s := if s.activeTurn = some frame.requestId then s.endTurn (.failed code) else s
    if s.isPending frame.requestId then s.settle frame.requestId (.failed code)
    else if s.state = .starting then s.settleReady (.rejected code)
    else s
  | _ => if s.isPending frame.requestId then s.settle frame.requestId (.frame frame) else s

/-! ## The calls -/

def await (s : St) (call : Call) : St := { s with calls := s.calls ++ [call] }

def drop (s : St) (k : Nat) : St := { s with calls := s.calls.eraseIdx k }

/-- `this.channel?.close()`. -/
def closeChannel (s : St) : St :=
  match s.channel with
  | none => s
  | some i =>
    { s with
      workers := s.workers.modify i fun w => { w with connected := false }
      channel := none }

/-- `stopWorker`, up to its await. -/
def stopWorker (s : St) (after : AfterStop) : St :=
  let stopped := ({ s.closeChannel with closing := true, worker := none, ready := none }.endTurn
    (.failed "RUNTIME_WORKER_CRASHED")).rejectPending "RUNTIME_WORKER_CRASHED"
  match s.worker with
  | some i => stopped.await (.terminating i after)
  | none => { stopped with closing := false }.await (.stopped after)

/-- The body of `start` that creates a worker. -/
def createWorker (s : St) (next : Option OpenSessionInput) : St :=
  let i := s.workers.length
  let worker : Worker := {}
  { s with
    state := .starting
    workers := s.workers ++ [worker]
    worker := some i
    channel := some i
    ready := some i
    timers := s.timers ++ [i] }.await (.starting i next)

/-- `start`, and what an `open` around it waits for. -/
def start (s : St) (next : Option OpenSessionInput) : St :=
  match s.state with
  | .ready | .open =>
    match next with
    | none => s
    | some input => s.await (.started input)
  | .closed => s
  | _ => s.createWorker next

variable (o : Options)

/-- `request`, and the first half of `runTurnStream`: without a channel `send` throws. -/
def request (s : St) (type : RuntimeFrameType) (input : OpenSessionInput) (payload : Dict) : St :=
  let sent := s.channel.isSome ∧ o.sendable type input payload
  { s with requests := s.requests ++ [{
      type
      worker := s.channel
      outcome := if sent then none else some (.failed "RUNTIME_INVALID_FRAME") }] }

def runTurnStream (s : St) (input : OpenSessionInput) (payload : Dict) : St :=
  match s.openInput with
  | none => s
  | some session =>
    if s.state ≠ .open ∨ s.activeTurn.isSome ∨ input.taskId ≠ session.taskId ∨
        input.operationKey ≠ session.operationKey then s
    else
      let id := s.requests.length
      let s := s.request o .turn input payload
      { s with activeTurn := if (s.requests[id]?.any fun r => r.outcome.isNone) then some id else none }

/-- A request about the open session. -/
def requestOpen (s : St) (type : RuntimeFrameType) (payload : Dict) : St :=
  match s.openInput with
  | none => s
  | some input => s.request o type input payload

def cancel (s : St) (reason : String) : St :=
  if s.activeTurn.isNone then s else s.requestOpen o .cancel [("reason", .str reason)]

/-- A call that sends a request about the open session and waits for it. -/
def awaitRequest (s : St) (type : RuntimeFrameType) (payload : Dict) (call : Nat → Call) : St :=
  if s.openInput.isNone then s
  else (s.requestOpen o type payload).await (call s.requests.length)

def closeSession (s : St) : St :=
  if s.state ≠ .open then s
  else if s.activeTurn.isSome then
    s.awaitRequest o .cancel [("reason", .str "user")] .cancelling
  else s.awaitRequest o .close [("close", .bool true)] .closing

/-- `open`, after its `start`. -/
def openStarted (s : St) (input : OpenSessionInput) : St :=
  if s.state ≠ .ready then s
  else ({ s with openInput := some input }.request o .open input [("open", .obj input.fields)]).await
    (.opening s.requests.length)

def startAccepts (frame : RuntimeFrame) : Bool :=
  frame.payload.get? "manifestId" = some (.str o.manifestId) ∧
    frame.buildIdentity.any o.matchesIdentity

/-- The call at that place goes on, when what it waits for is settled. -/
def resume (s : St) (k : Nat) : St :=
  match s.calls[k]? with
  | none => s
  | some (.starting i next) =>
    match s.workers[i]?.map Worker.ready with
    | some (.resolved frame) =>
      if startAccepts o frame then
        let s := { s.drop k with state := .ready, timers := s.timers.erase i }
        match next with
        | none => s
        | some input => s.await (.started input)
      else (s.drop k).stopWorker (.startFailed i)
    | some (.rejected _) => (s.drop k).stopWorker (.startFailed i)
    | _ => s
  | some (.started input) => (s.drop k).openStarted o input
  | some (.terminating i after) =>
    if s.running i then s else { s.drop k with closing := false }.await (.stopped after)
  | some (.stopped (.startFailed i)) =>
    { s.drop k with state := .crashed, timers := s.timers.erase i }
  | some (.stopped (.restart input)) => { s.drop k with state := .new }.start (some input)
  | some (.stopped .close) => s.drop k
  | some (.opening id) =>
    match s.requests[id]?.bind Request.outcome with
    | none => s
    | some (.frame frame) =>
      if frame.type = .opened ∧ frame.buildIdentity.any o.matchesIdentity then
        { s.drop k with state := .open }
      else s.drop k
    | some _ => { s.drop k with openInput := none }
  | some (.cancelling id) =>
    match s.requests[id]?.bind Request.outcome with
    | none => s
    | some (.frame _) => (s.drop k).awaitRequest o .close [("close", .bool true)] .closing
    | some _ => s.drop k
  | some (.closing id) =>
    match s.requests[id]?.bind Request.outcome with
    | none => s
    | some (.frame _) => { s.drop k with state := .ready, openInput := none }
    | some _ => s.drop k

end St

/-! ## Steps -/

inductive Lbl where
  | start
  | open (input : OpenSessionInput)
  | restart (input : Option OpenSessionInput)
  | close
  | turn (input : OpenSessionInput) (payload : Dict)
  | checkpoint
  | cancel (reason : String)
  | closeSession
  | resume (k : Nat)
  /-- The startup timeout of the `start` that created the worker. -/
  | timeout (i : Nat)
  /-- A frame that passes `validateRuntimeFrame`. -/
  | frame (i : Nat) (frame : RuntimeFrame)
  /-- Any other message of the worker, a `messageerror`, or its `error` event. -/
  | fault (i : Nat) (code : String)
  /-- A malformed message on the host port of the worker, or a response to it that cannot be
  posted. The port does not end with the worker. -/
  | hostFault (i : Nat) (code : String)
  | exit (i : Nat) (code : Int)

/-- The worker an event comes from. -/
def Lbl.source : Lbl → Option Nat
  | .frame i _ => some i
  | .fault i _ => some i
  | .hostFault i _ => some i
  | .exit i _ => some i
  | _ => none

variable (o : Options)

def step (s : St) : Lbl → St
  | .start => s.start none
  | .open input => s.start (some input)
  | .restart input =>
    match input.or s.openInput with
    | none => s
    | some input => s.stopWorker (.restart input)
  | .close => { s with state := .closed }.stopWorker .close
  | .turn input payload => s.runTurnStream o input payload
  | .checkpoint => s.requestOpen o .checkpoint [("request", .str "checkpoint")]
  | .cancel reason => s.cancel o reason
  | .closeSession => s.closeSession o
  | .resume k => s.resume o k
  | .timeout i =>
    if i ∈ s.timers then
      { s with timers := s.timers.erase i }.settleReady (.rejected "RUNTIME_UNAVAILABLE")
    else s
  | .frame i frame => if s.running i then s.handleFrame frame else s
  | .fault i code => if s.running i then s.handleCrash code else s
  | .hostFault i code => if i < s.workers.length then s.handleCrash code else s
  | .exit i code =>
    if s.running i then
      let exited := { s with workers := s.workers.modify i fun w => { w with exited := true } }
      if s.closing = false ∧ code ≠ 0 then exited.handleCrash "RUNTIME_WORKER_CRASHED" else exited
    else s

end AgentRuntime
