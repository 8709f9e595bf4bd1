import EchoDesk.AgentKernel.Messages
import EchoDesk.Foundations.Keyed

/-! # A turn of the agent kernel

`executeTurn` is a long generator that awaits the model, the tools, the event sink and its own
consumer. It is cut here at its awaits: `Await` is where the generator stands, with the local
variables that live there, and what runs from one await to the next is one function. A `yield`
is merged with the publication before it, since nothing happens between the two.

`Turn.log` is what the turn has done so far that others can see, in order. No step reads it.
-/

namespace AgentKernel

open EchoDesk

/-! ## Errors and reasons -/

inductive KernelErrorCode where
  | runtimeUnavailable | runtimeProtocolMismatch | runtimeBuildMismatch | runtimeWorkerCrashed
  | runtimeFrameTooLarge | runtimeInvalidFrame
  | modelConfigInvalid | modelConfigRevisionMissing | modelCredentialMissing
  | modelCredentialRevoked | modelProtocolUnsupported | modelCapabilityProbeFailed
  | modelToolArgumentsInvalid | modelToolCorrelationMismatch | modelRequestIdMismatch
  | modelEventUnknown | modelContextExceeded | modelTimeout | modelUpstreamError | modelCancelled
  | grantMissing | grantExpired | grantRevoked | grantRevisionMismatch
  | toolNotRegistered | toolCapabilityDenied | toolPathOutsideWorkspace
  | toolPathIdentityChanged | toolCommandDenied | toolNetworkDenied | toolTimeout
  | toolOutputLimit | toolCancelled | toolExecutionFailed
  | checkpointCorrupt | checkpointTaskMismatch | checkpointOperationMismatch
  | checkpointModelRevisionMissing | checkpointEventSeqAhead
  | kernelSessionClosed | kernelTurnAlreadyActive | kernelInputInvalid
deriving DecidableEq

/-- What a promise is rejected with: a `KernelError`, an object whose name is `AbortError`, or
anything else. The message is that of an `Error`. -/
inductive Thrown where
  | kernelError (code : KernelErrorCode) (message : String) (details : JsonObject)
  | abortError (message : Option String)
  | other (message : Option String)

def TERMINAL_CODES : List KernelErrorCode := [.modelCancelled, .toolCancelled, .grantRevoked]

def Thrown.isAbortError : Thrown → Bool
  | .abortError _ => true
  | _ => false

def Thrown.isTerminalCode : Thrown → Bool
  | .kernelError code _ _ => code ∈ TERMINAL_CODES
  | _ => false

/-- The code and the details of `normalizeKernelError`. -/
def normalizeKernelError (error : Thrown) (fallback : KernelErrorCode) :
    KernelErrorCode × JsonObject :=
  match error with
  | .kernelError code _ details => (code, details)
  | _ => (fallback, [])

def Thrown.message : Thrown → Option String
  | .kernelError _ message _ => some message
  | .abortError message => message
  | .other message => message

inductive CancelReason where
  | user
  | timeout
  | providerError
  | grantRevoked
deriving DecidableEq

def cancelCode : CancelReason → KernelErrorCode
  | .grantRevoked => .grantRevoked
  | _ => .modelCancelled

/-! ## What a turn shows -/

inductive TerminalState where
  | succeeded
  | failed
  | cancelled
deriving DecidableEq

inductive ReasonCode where
  | endTurn
  | code (code : KernelErrorCode)

structure TerminalRecord where
  state : TerminalState
  reasonCode : ReasonCode

/-- The terminal events: `agent.turn.completed`, `agent.turn.failed` and
`agent.turn.cancelled` with their payloads. -/
inductive TerminalEvent where
  | completed
  | failed (errorCode : KernelErrorCode) (details : JsonObject)
  | cancelled (cancelReason : CancelReason)
deriving DecidableEq

def TerminalEvent.record : TerminalEvent → TerminalRecord
  | .completed => ⟨.succeeded, .endTurn⟩
  | .failed errorCode _ => ⟨.failed, .code errorCode⟩
  | .cancelled cancelReason => ⟨.cancelled, .code (cancelCode cancelReason)⟩

inductive CompactStrategy where
  | none
  | microcompact
deriving DecidableEq

structure CompactState where
  strategy : CompactStrategy := .none
  summaryHash : Option String := .none
  messageCountAtBoundary : Nat := 0
  clearedToolUseIds : List String := []

structure SummaryPayload where
  summary : String
  summaryHash : String
  recentMessagesPreserved : Bool
deriving DecidableEq

inductive KernelEvent where
  | turnStarted (turnId : String)
  | messageDelta (text : String)
  | messageCompleted (text : String)
  | summaryUpdated (summary : SummaryPayload)
  | compactionStarted (messageCount : Nat)
  | compactionCompleted (strategy : CompactStrategy) (clearedToolUseIds : List String)
      (summaryHash : Option String)
  | compactionFailed (reason : String)
  | toolRequested (toolUseId name : String)
  | toolStarted (toolUseId name : String)
  | toolCompleted (toolUseId : String) (isError : Bool) (output : String)
      (receipt : Option JsonObject)
  | toolDenied (toolUseId : String) (reasonCode : KernelErrorCode)
  | toolFailed (toolUseId : String) (reasonCode : KernelErrorCode)
  | terminal (event : TerminalEvent)
deriving DecidableEq

inductive Happening where
  | published (event : KernelEvent)
  | lateModelStop
  | lateTerminal (event : TerminalEvent) (firstState : TerminalState)
  /-- `tool.invoke` is called. -/
  | invoked (toolUseId : String)
  /-- `cancel`, `close` or a revoked grant reaches the turn. -/
  | cancelled (reason : CancelReason)
deriving DecidableEq

/-! ## The model and the tools -/

inductive AgentModelEventBody where
  | messageStart
  | textDelta (text : String)
  | toolStart (index : Int) (id name : String)
  | toolArgumentsDelta (index : Int) (json : String)
  | toolStop (index : Int)
  | usage (inputTokens outputTokens : Nat)
  | messageStop
  | error (code : String) (retryable : Bool)
  /-- A type that the switch has no case for. -/
  | unknown

structure AgentModelEvent where
  schemaVersion : Nat
  requestId : String
  body : AgentModelEventBody

structure ToolValidation where
  allowed : Bool
  reasonCode : Option KernelErrorCode := none
  message : Option String := none

/-- `JSON.parse` (`none` when it throws) and the names that the tool registry resolves. -/
structure Ports where
  parse : String → Option Json
  resolves : String → Bool

/-- The bounds of the resource budget that a turn checks. -/
structure AgentResourceBudget where
  maxTurns : Nat
  maxToolCalls : Nat
  maxModelInputTokens : Nat
  maxToolOutputBytes : Nat

def parseJsonObject (ports : Ports) (json : String) : Except Thrown JsonObject :=
  match ports.parse json with
  | none =>
    .error (.kernelError .modelToolArgumentsInvalid "tool arguments are not valid JSON" [])
  | some (.obj fields) => .ok fields
  | some _ =>
    .error (.kernelError .modelToolArgumentsInvalid "tool arguments must be a JSON object" [])

/-! ## The state of a turn -/

inductive CanonicalUserContent where
  | text (text : String)
  | blocks (blocks : List CanonicalContentBlock)

structure AgentTurnInput where
  messageId : Option String := none
  userMessage : CanonicalUserContent

def userContentBlocks (input : AgentTurnInput) : List CanonicalContentBlock :=
  match input.userMessage with
  | .text text => [.text text]
  | .blocks blocks => blocks

structure BudgetState where
  turnsUsed : Nat := 0
  toolCallsUsed : Nat := 0
  modelInputTokens : Nat := 0
  modelOutputTokens : Nat := 0

structure ToolState where
  index : Int
  toolUseId : String
  name : String
  argumentJson : String
  completed : Bool

/-- The locals of one request: what has been read of the reply so far. -/
structure ModelReply where
  requestId : String
  context : List CanonicalMessage
  pending : Keyed ToolState.index := Keyed.empty
  toolResults : List (String × CanonicalToolResult) := []
  assistantBlocks : List CanonicalContentBlock := []
  text : String := ""
  sawStop : Bool := false
  completedToolCount : Nat := 0

/-- Where the generator waits, and with which locals. -/
inductive Await where
  | created
  | turnStarted
  | buildModelContext
  | countTokens (requestId : String) (context : List CanonicalMessage)
  | stream (reply : ModelReply)
  /-- A publication after which the stream is read on. -/
  | relayed (reply : ModelReply)
  | toolStarted (reply : ModelReply) (toolUseId : String)
  | validate (reply : ModelReply) (toolUseId : String)
  | invoke (reply : ModelReply) (toolUseId : String)
  | toolCompleted (reply : ModelReply) (toolUseId : String)
  | lateModelStop (reason : CancelReason)
  | messageCompleted (reply : ModelReply)
  | compactionStarted (reply : ModelReply)
  | runContextTurn (reply : ModelReply) (messages : List CanonicalMessage)
  | compactionCompleted (reply : ModelReply) (summary : SummaryPayload)
  | summaryUpdated (reply : ModelReply)
  | compactionFailed (error : Thrown)
  /-- The events of the compaction are handed to the consumer. -/
  | compacted (reply : ModelReply)
  /-- The terminal event is published; `inCatch` when the `catch` block does it. -/
  | terminal (inCatch : Bool)
  | lateTerminal (inCatch : Bool)
  | finished
  /-- The consumer has left the generator at a `yield`. -/
  | abandoned

structure Turn where
  turnId : String
  input : AgentTurnInput
  cancelReason : Option CancelReason := none
  terminal : Option TerminalRecord := none
  budget : BudgetState := {}
  await : Await := .created
  log : List Happening := []

namespace Turn

/-- The turn is the session's `activeTurn`. -/
def active (t : Turn) : Bool :=
  match t.await with
  | .finished => false
  | .abandoned => false
  | _ => true

def publish (t : Turn) (event : KernelEvent) (await : Await) : Turn :=
  { t with log := t.log ++ [.published event], await }

def terminalEvent (t : Turn) (event : TerminalEvent) (inCatch : Bool) : Turn :=
  match t.terminal with
  | some first =>
    { t with log := t.log ++ [.lateTerminal event first.state], await := .lateTerminal inCatch }
  | none =>
    { t with
      terminal := some event.record
      log := t.log ++ [.published (.terminal event)]
      await := .terminal inCatch }

/-- The `catch` block of `executeTurn`. -/
def caught (t : Turn) (error : Thrown) : Turn :=
  if t.cancelReason.isSome ∨ error.isAbortError ∨ error.isTerminalCode then
    t.terminalEvent (.cancelled (t.cancelReason.getD .user)) true
  else
    let (code, details) := normalizeKernelError error .modelUpstreamError
    t.terminalEvent (.failed code details) true

/-- The inner `catch` around `tool.invoke` and the publication of its result. -/
def invokeFailed (t : Turn) (reply : ModelReply) (toolUseId : String) (error : Thrown) : Turn :=
  if t.cancelReason.isSome ∨ error.isAbortError then t.caught error
  else
    let (code, _) := normalizeKernelError error .toolExecutionFailed
    let result := { content := "tool execution failed", isError := true }
    let reply := { reply with
      toolResults := reply.toolResults ++ [(toolUseId, result)]
      completedToolCount := reply.completedToolCount + 1 }
    t.publish (.toolFailed toolUseId code) (.relayed reply)

/-- The answer of `tool.invoke`, after `toModelResult`. -/
def invoked (t : Turn) (limits : AgentResourceBudget) (reply : ModelReply) (toolUseId : String)
    (result : CanonicalToolResult) : Turn :=
  if limits.maxToolOutputBytes < result.content.utf8ByteSize then
    t.invokeFailed reply toolUseId (.kernelError .toolOutputLimit "tool output budget exceeded" [])
  else
    let reply := { reply with toolResults := reply.toolResults ++ [(toolUseId, result)] }
    t.publish (.toolCompleted toolUseId result.isError result.content result.receipt)
      (.toolCompleted reply toolUseId)

/-- The answer of `tool.validate`. -/
def validated (t : Turn) (reply : ModelReply) (toolUseId : String)
    (validation : ToolValidation) : Turn :=
  if validation.allowed then
    { t with log := t.log ++ [.invoked toolUseId], await := .invoke reply toolUseId }
  else
    let reasonCode := validation.reasonCode.getD .toolCapabilityDenied
    if reasonCode = .grantRevoked then
      caught { t with
        cancelReason := some .grantRevoked
        log := t.log ++ [.cancelled .grantRevoked] }
        (.kernelError .grantRevoked "grant was revoked during tool validation" [])
    else
      let result := { content := validation.message.getD "tool capability denied", isError := true }
      let reply := { reply with toolResults := reply.toolResults ++ [(toolUseId, result)] }
      t.publish (.toolDenied toolUseId reasonCode) (.relayed reply)

/-- The `tool_stop` case of the stream's loop, up to the publication before the validation. -/
def toolStop (t : Turn) (ports : Ports) (limits : AgentResourceBudget) (reply : ModelReply)
    (tool : ToolState) : Turn :=
  if limits.maxToolCalls ≤ t.budget.toolCallsUsed then
    t.caught (.kernelError .modelUpstreamError "tool call budget exceeded" [])
  else
    match parseJsonObject ports tool.argumentJson with
    | .error error => t.caught error
    | .ok input =>
      if ports.resolves tool.name then
        let reply := { reply with
          pending := reply.pending.put { tool with completed := true }
          assistantBlocks := reply.assistantBlocks ++ [.toolUse tool.toolUseId tool.name input] }
        let budget := { t.budget with toolCallsUsed := t.budget.toolCallsUsed + 1 }
        publish { t with budget } (.toolStarted tool.toolUseId tool.name)
          (.toolStarted reply tool.toolUseId)
      else t.caught (.kernelError .toolNotRegistered "requested tool is not registered" [])

def readOn (t : Turn) (reply : ModelReply) : Turn := { t with await := .stream reply }

/-- The `switch` over the model's events. -/
def receive (t : Turn) (ports : Ports) (limits : AgentResourceBudget) (reply : ModelReply)
    (event : AgentModelEventBody) : Turn :=
  match event with
  | .messageStart | .unknown => t.readOn reply
  | .textDelta text =>
    t.publish (.messageDelta text) (.relayed { reply with text := reply.text ++ text })
  | .toolStart index id name =>
    if (reply.pending.get? index).isSome ∨ id = "" ∨ name = "" then
      t.caught
        (.kernelError .modelToolCorrelationMismatch "duplicate or incomplete tool request" [])
    else
      let tool :=
        { index, toolUseId := id, name, argumentJson := "", completed := false }
      t.publish (.toolRequested id name) (.relayed { reply with pending := reply.pending.put tool })
  | .toolArgumentsDelta index json =>
    match reply.pending.get? index with
    | some tool =>
      if tool.completed then
        t.caught (.kernelError .modelToolCorrelationMismatch
          "tool arguments do not correlate to an active tool" [])
      else
        let tool := { tool with argumentJson := tool.argumentJson ++ json }
        t.readOn { reply with pending := reply.pending.put tool }
    | none =>
      t.caught (.kernelError .modelToolCorrelationMismatch
        "tool arguments do not correlate to an active tool" [])
  | .toolStop index =>
    match reply.pending.get? index with
    | some tool =>
      if tool.completed then
        t.caught (.kernelError .modelToolCorrelationMismatch
          "tool stop does not correlate to an active tool" [])
      else t.toolStop ports limits reply tool
    | none =>
      t.caught (.kernelError .modelToolCorrelationMismatch
        "tool stop does not correlate to an active tool" [])
  | .usage inputTokens outputTokens =>
    let budget := { t.budget with
      modelInputTokens := t.budget.modelInputTokens + inputTokens
      modelOutputTokens := t.budget.modelOutputTokens + outputTokens }
    readOn { t with budget } reply
  | .messageStop => t.readOn { reply with sawStop := true }
  | .error code retryable =>
    t.caught (.kernelError .modelUpstreamError "model stream returned an error"
      [("providerCode", .str code), ("retryable", .bool retryable)])

/-- One event of the model's stream. A turn that is cancelled takes none. -/
def streamed (t : Turn) (ports : Ports) (limits : AgentResourceBudget) (reply : ModelReply)
    (event : AgentModelEvent) : Turn :=
  match t.cancelReason with
  | some reason =>
    match event.body with
    | .messageStop =>
      { t with log := t.log ++ [.lateModelStop], await := .lateModelStop reason }
    | _ => t.terminalEvent (.cancelled reason) false
  | none =>
    if event.schemaVersion ≠ 1 then
      t.caught (.kernelError .modelEventUnknown "model event schema version is unsupported" [])
    else if event.requestId ≠ reply.requestId then
      t.caught (.kernelError .modelRequestIdMismatch
        "model event request id does not match active request" [])
    else t.receive ports limits reply event.body

end Turn

end AgentKernel
