import EchoDesk.AgentKernel.Turn
import EchoDesk.Foundations.Transition

/-! # An agent session

The session keeps the history that every request of the model is built from. One label is one
thing that the world does: it calls the session, answers what the turn awaits, or stops
reading the turn's events. A label that does not fit the state leaves it as it is.

The context port hands the history on as it is, and the id factory puts a random uuid in every
id, so that what it draws is not in use.
-/

namespace AgentKernel

open EchoDesk

structure KernelCheckpoint where
  checkpointId : String
  lastDurableEventSeq : Nat
  messages : List CanonicalMessage
  compactState : CompactState
  budgetState : BudgetState
  /-- No turn was active when the messages were copied. -/
  betweenTurns : Bool

structure Session where
  closed : Bool := false
  history : List CanonicalMessage := []
  compactState : CompactState := {}
  /-- The turn that was begun last; it is the `activeTurn` while it is active. -/
  turn : Option Turn := none
  /-- The calls of `checkpoint` that wait for the durable sequence. -/
  checkpointing : Nat := 0
  /-- The checkpoints taken so far. -/
  checkpoints : List KernelCheckpoint := []
  /-- The histories that a model context was built from. -/
  requests : List (List CanonicalMessage) := []

/-- The answer to what a turn awaits. -/
inductive Answer where
  /-- A publication or an audit is done, and the consumer has asked for the next event. -/
  | done
  | thrown (error : Thrown)
  | context (requestId : String)
  | counted (inputTokens : Nat)
  | event (event : AgentModelEvent)
  /-- The stream has ended; the ids are those drawn for the messages that follow. -/
  | streamEnd (ids : List String)
  | validated (validation : ToolValidation)
  | output (result : CanonicalToolResult)
  | summarised (summary : SummaryPayload)

inductive Label where
  | openSession
  | resume (checkpoint : KernelCheckpoint)
  | runTurn (turnId : String) (input : AgentTurnInput)
  /-- The consumer asks for the first event. -/
  | begin (messageId : String)
  | answer (answer : Answer)
  /-- The consumer leaves at the event that has just been published. -/
  | abandon
  | cancel (reason : CancelReason)
  | close
  | checkpoint
  | takeCheckpoint (checkpointId : String) (lastDurableEventSeq : Nat)

namespace Session

def withTurn (s : Session) (t : Turn) : Session := { s with turn := some t }

def caught (s : Session) (t : Turn) (error : Thrown) : Session := s.withTurn (t.caught error)

def activeTurn (s : Session) : Option Turn := s.turn.filter Turn.active

/-! ## The request loop -/

/-- The head of the `while` loop. -/
def nextRequest (s : Session) (limits : AgentResourceBudget) (t : Turn) : Session :=
  if t.terminal.isSome then s.withTurn { t with await := .finished }
  else
    match t.cancelReason with
    | some reason => s.withTurn (t.terminalEvent (.cancelled reason) false)
    | none =>
      if limits.maxTurns ≤ t.budget.turnsUsed then
        s.caught t (.kernelError .modelUpstreamError "turn budget exceeded" [])
      else
        { s with
          requests := s.requests ++ [s.history]
          turn := some { t with await := .buildModelContext } }

def counted (s : Session) (limits : AgentResourceBudget) (t : Turn) (requestId : String)
    (context : List CanonicalMessage) (inputTokens : Nat) : Session :=
  if limits.maxModelInputTokens < inputTokens then
    s.caught t (.kernelError .modelContextExceeded "model input budget exceeded" [])
  else
    let budget :=
      { t.budget with modelInputTokens := t.budget.modelInputTokens + inputTokens }
    s.withTurn { t with budget, await := .stream { requestId, context } }

/-- The blocks of the reply, its text first. -/
def replyBlocks (reply : ModelReply) : List CanonicalContentBlock :=
  if reply.text = "" then reply.assistantBlocks else .text reply.text :: reply.assistantBlocks

def resultMessage (messageId : String) (toolResult : String × CanonicalToolResult) :
    CanonicalMessage where
  messageId := messageId
  role := .user
  content := [.toolResult toolResult.1 toolResult.2]

/-- The results are added only when a tool was invoked. -/
def resultMessages (reply : ModelReply) (ids : List String) : List CanonicalMessage :=
  if 0 < reply.completedToolCount then ids.zipWith resultMessage reply.toolResults else []

/-- What the end of a reply adds to the history. -/
def replyMessages (reply : ModelReply) (ids : List String) : List CanonicalMessage :=
  if replyBlocks reply = [] then resultMessages reply ids
  else
    { messageId := ids.headD "", role := .assistant, content := replyBlocks reply } ::
      resultMessages reply ids.tail

/-- Ids for all the messages of a reply, none of them in use. -/
def Drawn (s : Session) (reply : ModelReply) (ids : List String) : Prop :=
  ids.length = reply.toolResults.length + 1 ∧ ids.Nodup ∧
    ∀ id ∈ ids, id ∉ s.history.map CanonicalMessage.messageId

instance (s : Session) (reply : ModelReply) (ids : List String) : Decidable (s.Drawn reply ids) :=
  inferInstanceAs (Decidable (_ ∧ _ ∧ _))

def startCompaction (s : Session) (t : Turn) (reply : ModelReply) : Session :=
  s.withTurn (t.publish (.compactionStarted reply.context.length) (.compactionStarted reply))

/-- After the stream's loop. -/
def streamEnded (s : Session) (t : Turn) (reply : ModelReply) (ids : List String) : Session :=
  if reply.sawStop then
    let budget := { t.budget with turnsUsed := t.budget.turnsUsed + 1 }
    let t := { t with budget }
    let s := { s with history := s.history ++ replyMessages reply ids }
    if reply.text = "" then s.startCompaction t reply
    else s.withTurn (t.publish (.messageCompleted reply.text) (.messageCompleted reply))
  else
    s.caught t (.kernelError .modelUpstreamError "model stream ended without a terminal stop" [])

/-! ## The context pipeline -/

/-- The context of the request, then what the history has gained since. -/
def pipelineMessages (history context : List CanonicalMessage) : List CanonicalMessage :=
  let knownMessageIds := context.map CanonicalMessage.messageId
  context ++ history.filter fun m => m.messageId ∉ knownMessageIds

def pipelineFailed (s : Session) (t : Turn) (error : Thrown) : Session :=
  s.withTurn (t.publish (.compactionFailed (error.message.getD "context pipeline failed"))
    (.compactionFailed error))

def compacted (s : Session) (t : Turn) (reply : ModelReply) (messages : List CanonicalMessage)
    (summary : SummaryPayload) : Session :=
  let result := microCompactMessages messages { keepRecent := 1 }
  let compactState : CompactState := {
    strategy := if result.changed then .microcompact else .none
    summaryHash := some summary.summaryHash
    messageCountAtBoundary := result.messages.length
    clearedToolUseIds := result.clearedToolUseIds }
  let s := { s with history := result.messages, compactState }
  s.withTurn (t.publish (.compactionCompleted compactState.strategy compactState.clearedToolUseIds
      compactState.summaryHash)
    (.compactionCompleted reply summary))

/-- The end of one round of the request loop. -/
def requestDone (s : Session) (limits : AgentResourceBudget) (t : Turn) (reply : ModelReply) :
    Session :=
  if 0 < reply.completedToolCount then s.nextRequest limits t
  else s.withTurn (t.terminalEvent .completed false)

/-! ## Answers -/

/-- An await without a value goes on, or throws. -/
def settle (s : Session) (answer : Answer) (next : Session) (failed : Thrown → Session) :
    Session :=
  match answer with
  | .done => next
  | .thrown error => failed error
  | _ => s

def finish (s : Session) (t : Turn) : Session := s.withTurn { t with await := .finished }

def resumed (s : Session) (ports : Ports) (limits : AgentResourceBudget) (t : Turn)
    (answer : Answer) : Session :=
  match t.await with
  | .turnStarted => s.settle answer (s.nextRequest limits t) (s.caught t)
  | .buildModelContext =>
    match answer with
    | .context requestId => s.withTurn { t with await := .countTokens requestId s.history }
    | .thrown error => s.caught t error
    | _ => s
  | .countTokens requestId context =>
    match answer with
    | .counted inputTokens => s.counted limits t requestId context inputTokens
    | .thrown error => s.caught t error
    | _ => s
  | .stream reply =>
    match answer with
    | .event event => s.withTurn (t.streamed ports limits reply event)
    | .streamEnd ids => if s.Drawn reply ids then s.streamEnded t reply ids else s
    | .thrown error => s.caught t error
    | _ => s
  | .relayed reply => s.settle answer (s.withTurn (t.readOn reply)) (s.caught t)
  | .toolStarted reply toolUseId =>
    s.settle answer (s.withTurn { t with await := .validate reply toolUseId }) (s.caught t)
  | .validate reply toolUseId =>
    match answer with
    | .validated validation => s.withTurn (t.validated reply toolUseId validation)
    | .thrown error => s.caught t error
    | _ => s
  | .invoke reply toolUseId =>
    match answer with
    | .output result => s.withTurn (t.invoked limits reply toolUseId result)
    | .thrown error => s.withTurn (t.invokeFailed reply toolUseId error)
    | _ => s
  | .toolCompleted reply toolUseId =>
    s.settle answer (s.withTurn
        (t.readOn { reply with completedToolCount := reply.completedToolCount + 1 }))
      fun error => s.withTurn (t.invokeFailed reply toolUseId error)
  | .lateModelStop reason =>
    s.settle answer
      (s.withTurn (t.terminalEvent (.cancelled (t.cancelReason.getD reason)) false)) (s.caught t)
  | .messageCompleted reply => s.settle answer (s.startCompaction t reply) (s.caught t)
  | .compactionStarted reply =>
    s.settle answer (s.withTurn
        { t with await := .runContextTurn reply (pipelineMessages s.history reply.context) })
      (s.caught t)
  | .runContextTurn reply messages =>
    match answer with
    | .summarised summary => s.compacted t reply messages summary
    | .thrown error => s.pipelineFailed t error
    | _ => s
  | .compactionCompleted reply summary =>
    s.settle answer (s.withTurn (t.publish (.summaryUpdated summary) (.summaryUpdated reply)))
      (s.pipelineFailed t)
  | .summaryUpdated reply =>
    s.settle answer (s.withTurn { t with await := .compacted reply }) (s.pipelineFailed t)
  | .compactionFailed error => s.settle answer (s.caught t error) (s.caught t)
  | .compacted reply => s.settle answer (s.requestDone limits t reply) (s.caught t)
  | .terminal inCatch =>
    s.settle answer (s.finish t) fun error => if inCatch then s.finish t else s.caught t error
  | .lateTerminal inCatch =>
    s.settle answer (s.finish t) fun error => if inCatch then s.finish t else s.caught t error
  | .created => s
  | .finished => s
  | .abandoned => s

end Session

/-- The generator stands at a `yield` once its publication is done. -/
def Await.yields : Await → Bool
  | .turnStarted => true
  | .relayed _ => true
  | .toolStarted _ _ => true
  | .toolCompleted _ _ => true
  | .messageCompleted _ => true
  | .compacted _ => true
  | .terminal _ => true
  | _ => false

namespace Session

/-! ## Calls -/

/-- The first segment of the generator: the user's message is added. -/
def began (s : Session) (t : Turn) (messageId : String) : Session :=
  let userMessage : CanonicalMessage := {
    messageId := t.input.messageId.getD messageId
    role := .user
    content := userContentBlocks t.input }
  let s := { s with history := s.history ++ [userMessage] }
  s.withTurn (t.publish (.turnStarted t.turnId) .turnStarted)

/-- A cancellation is kept by a turn that has no terminal event yet; the first reason stays. -/
def cancelled (s : Session) (reason : CancelReason) : Session :=
  match s.activeTurn with
  | some t =>
    if t.terminal.isSome then s
    else
      s.withTurn { t with
        cancelReason := some (t.cancelReason.getD reason)
        log := t.log ++ [.cancelled reason] }
  | none => s

def takenCheckpoint (s : Session) (checkpointId : String) (lastDurableEventSeq : Nat) :
    KernelCheckpoint where
  checkpointId := checkpointId
  lastDurableEventSeq := lastDurableEventSeq
  messages := s.history
  compactState := { s.compactState with messageCountAtBoundary := s.history.length }
  budgetState := (s.activeTurn.map Turn.budget).getD {}
  betweenTurns := s.activeTurn.isNone

def step (ports : Ports) (limits : AgentResourceBudget) (s : Session) : Label → Session
  | .openSession =>
    { s with closed := false, history := [], compactState := {}, turn := none, checkpointing := 0 }
  | .resume checkpoint =>
    { s with
      closed := false
      history := checkpoint.messages
      compactState := checkpoint.compactState
      turn := none
      checkpointing := 0 }
  | .runTurn turnId input =>
    if s.closed ∨ s.activeTurn.isSome then s else s.withTurn { turnId, input }
  | .begin messageId =>
    match s.turn with
    | some t =>
      match t.await with
      | .created => s.began t messageId
      | _ => s
    | none => s
  | .answer answer =>
    match s.turn with
    | some t => s.resumed ports limits t answer
    | none => s
  | .abandon =>
    match s.turn with
    | some t => if t.await.yields then s.withTurn { t with await := .abandoned } else s
    | none => s
  | .cancel reason => if s.closed then s else s.cancelled reason
  | .close => if s.closed then s else { s.cancelled .user with closed := true }
  | .checkpoint => if s.closed then s else { s with checkpointing := s.checkpointing + 1 }
  | .takeCheckpoint checkpointId lastDurableEventSeq =>
    if s.checkpointing = 0 then s
    else
      { s with
        checkpointing := s.checkpointing - 1
        checkpoints := s.checkpoints ++ [s.takenCheckpoint checkpointId lastDurableEventSeq] }

end Session

end AgentKernel
