import EchoDesk.Core.JsonSyntax
import EchoDesk.Foundations.Keyed
import EchoDesk.Foundations.Transaction
import EchoDesk.ModelRuntime.Adapters
import Mathlib.Data.List.Infix
import Mathlib.Data.List.Sort

/-! # The stream normalisers

`_sse_chunks` … `_normalize_stream` of `model_runtime/protocols/adapters.py`: the chunks of a
provider become the events of the common contract. A handler may raise after it has emitted; what
was emitted stays, and the error becomes the last event. A float of a chunk is its `repr`.
-/

namespace ModelRuntime

open EchoDesk Transaction JsonSyntax

inductive StreamEvent where
  | messageStart
  | textBlockStart (index : Int)
  | textDelta (text : String)
  | toolStart (index : Int) (id name : String)
  | toolArgumentsDelta (index : Int) (json : String)
  | toolStop (index : Int) (toolUseId name : String) (input : Dict)
  | usage (inputTokens outputTokens cacheReadTokens : Int) (estimated : Bool)
  | messageStop (stopReason : String)
  | error (code message : String) (retryable : Bool)

def StreamEvent.isError : StreamEvent → Bool
  | .error _ _ _ => true
  | _ => false

inductive Provider where
  | anthropic
  | openai
deriving DecidableEq

structure RequestIdentity where
  requestId : String
  taskId : String
  operationKey : String
  configRevision : Int
  routeId : String

/-- `_ToolState`. -/
structure ToolState where
  index : Int
  toolUseId : String
  name : String
  argumentFragments : List String := []
  closed : Bool := false

/-- `_StreamState`. -/
structure StreamState where
  events : List StreamEvent := []
  started : Bool := false
  terminal : Bool := false
  stopReason : Option String := none
  tools : Keyed ToolState.index := Keyed.empty
  toolIds : List String := []
  inputTokens : Option Int := none
  usageEmitted : Bool := false
  doneMarker : Bool := false

abbrev StreamTx (α : Type) : Type := Tx StreamState RequestError α

namespace StreamState

/-- `failed` is set together with the error event. -/
def failed (s : StreamState) : Bool := s.events.any StreamEvent.isError

def emit (s : StreamState) (event : StreamEvent) : StreamState :=
  if s.failed then s else { s with events := s.events ++ [event] }

def fail (s : StreamState) (code message : String) (retryable : Bool) : StreamState :=
  if s.failed then s
  else { s with
    terminal := true
    events := s.events ++ [.error code message retryable] }

def ensureStarted (s : StreamState) : StreamState :=
  if s.started then s else { s with started := true }.emit .messageStart

end StreamState

def update (f : StreamState → StreamState) : StreamTx Unit := do
  let s ← get
  set (f s)

def raiseMismatch (message : String) : StreamTx Unit := throw (schemaMismatch message)

/-! ## Tools -/

/-- The name of the entry a text block of Anthropic has among the tools. -/
def textName : String := "__text__"

/-- `_new_tool`. -/
def newTool (index : Int) (toolUseId name : Json) : StreamTx ToolState := do
  let toolId ← fromExcept (nonEmpty toolUseId "toolUseId")
  let toolName ← fromExcept (nonEmpty name "tool name")
  let s ← get
  if (s.tools.get? index).isSome ∨ toolId ∈ s.toolIds then
    throw (correlationMismatch "duplicate parallel tool call")
  else
    let tool : ToolState := { index, toolUseId := toolId, name := toolName }
    set ({ s with
      tools := s.tools.put tool
      toolIds := s.toolIds ++ [toolId] }.emit (.toolStart index toolId toolName))
    return tool

/-- A fragment of the arguments of a tool. -/
def addFragment (tool : ToolState) (fragment : String) : StreamTx Unit :=
  update fun s => { s with
    tools := s.tools.put { tool with
      argumentFragments := tool.argumentFragments ++ [fragment] } }.emit
    (.toolArgumentsDelta tool.index fragment)

/-- `"".join(tool.argument_fragments)`. -/
def ToolState.arguments (tool : ToolState) : String := String.join tool.argumentFragments

variable (floats : Floats)

/-- `json_object`. -/
def jsonObject (text : String) : Except RequestError Dict :=
  match jsonLoads floats text with
  | some (.obj fields) => .ok fields
  | some _ =>
    .error (.protocolAdapterError "MODEL_TOOL_ARGUMENTS_INVALID" "tool input must be a JSON object")
  | none =>
    .error (.protocolAdapterError "MODEL_TOOL_ARGUMENTS_INVALID" "tool input is not valid JSON")

/-- `close_tool`. -/
def closeTool (tool : ToolState) : StreamTx Unit := do
  if tool.closed then throw (correlationMismatch "duplicate tool stop")
  else
    let rawInput := if tool.arguments = "" then "{}" else tool.arguments
    let input ← fromExcept (jsonObject floats rawInput)
    update fun s => { s with tools := s.tools.put { tool with closed := true } }.emit
      (.toolStop tool.index tool.toolUseId tool.name input)

/-- `close_message`. -/
def closeMessage : StreamTx Unit := do
  let s ← get
  match s.stopReason with
  | none => raiseMismatch "stream has no finish reason"
  | some stopReason =>
    if ∃ tool ∈ s.tools.rows, tool.closed = false then
      throw (correlationMismatch "stream stopped with open tool call")
    else set { s.emit (.messageStop stopReason) with terminal := true }

/-! ## What both providers send -/

/-- `value == n` of Python, for an integer `n`. -/
def equalsInt (value : Json) (n : Int) : Bool :=
  match value with
  | .int m => m = n
  | .bool b => (if b then 1 else 0) = n
  | .float text => floats.number text = .int n
  | _ => false

/-- The fields of an identity, with the two names a chunk may give them. -/
def identityFields (identity : RequestIdentity) : List (String × String × (Json → Bool)) :=
  [("requestId", "request_id", fun v => v = .str identity.requestId),
    ("taskId", "task_id", fun v => v = .str identity.taskId),
    ("operationKey", "operation_key", fun v => v = .str identity.operationKey),
    ("configRevision", "config_revision", fun v => equalsInt floats v identity.configRevision),
    ("routeId", "route_id", fun v => v = .str identity.routeId)]

/-- The first field of a candidate that is not the one of the identity. -/
def mismatchedField (identity : RequestIdentity) (candidate : Dict) : Option String :=
  ((identityFields floats identity).find? fun field =>
    ((candidate.get? field.1).or (candidate.get? field.2.1)).any fun v => !field.2.2 v).map Prod.fst

def readObject : Json → Option Dict
  | .obj fields => some fields
  | _ => none

/-- `_check_identity`. -/
def checkIdentity (identity : RequestIdentity) (chunk : Dict) : StreamTx Unit :=
  if (chunk.get? "schemaVersion").all (equalsInt floats · 1) = false then
    raiseMismatch "provider chunk schemaVersion is unsupported"
  else
    let nested := ["identity", "requestIdentity", "echoIdentity"].filterMap fun key =>
      readObject (chunk.read key)
    match (chunk :: nested).findSome? (mismatchedField floats identity) with
    | none => pure ()
    | some field => throw (.protocolAdapterError "MODEL_REQUEST_IDENTITY_MISMATCH"
        ("stream " ++ field ++ " does not match active request"))

def anthropicStopReasons : List String :=
  ["end_turn", "max_tokens", "stop_sequence", "tool_use", "pause_turn", "refusal"]

def openaiStopReasons : List (String × String) :=
  [("stop", "end_turn"), ("length", "max_tokens"), ("tool_calls", "tool_use"),
    ("function_call", "tool_use"), ("content_filter", "content_filter")]

def stopReason (provider : Provider) (value : Json) : Except RequestError String :=
  match provider, value with
  | .anthropic, .str reason =>
    if reason ∈ anthropicStopReasons then .ok reason
    else .error (schemaMismatch "unknown Anthropic stop reason")
  | .openai, .str reason =>
    match openaiStopReasons.lookup reason with
    | some stopReason => .ok stopReason
    | none => .error (schemaMismatch "unknown OpenAI finish reason")
  | _, _ => .error (schemaMismatch "finish reason must be text")

/-- `_usage`, as the event it becomes. -/
def usageEvent (provider : Provider) (raw : Json) (inputDefault : Option Int) :
    Except RequestError StreamEvent := do
  let usage ← mapping raw "usage"
  let (inputTokens, outputTokens, cacheRead) : Json × Json × Json :=
    match provider with
    | .anthropic =>
      ((usage.get? "input_tokens").getD ((inputDefault.map Json.int).getD .null),
        usage.read "output_tokens", (usage.get? "cache_read_input_tokens").getD (.int 0))
    | .openai =>
      let cached :=
        match usage.read "prompt_tokens_details" with
        | .obj details => (Dict.get? details "cached_tokens").getD (.int 0)
        | _ => .int 0
      (usage.read "prompt_tokens", usage.read "completion_tokens",
        (usage.get? "cache_read_tokens").getD cached)
  if inputTokens = .null ∨ outputTokens = .null then
    throw (schemaMismatch "usage lacks input/output token counts")
  else
    let inputTokens ← nonNegativeInt inputTokens "usage.input_tokens"
    let outputTokens ← nonNegativeInt outputTokens "usage.output_tokens"
    let cacheRead ← nonNegativeInt cacheRead "usage.cache_read_tokens"
    -- an input count that is missing has raised above
    return .usage inputTokens outputTokens cacheRead false

/-- `str(value).lower()`, compared with ASCII texts only. -/
def lower (s : String) : String := s.map Char.toLower

/-- The code, the message and the retryability of `_provider_error`. -/
def providerError (py : Python) (chunk : Dict) : String × String × Bool :=
  let outer := getOr chunk "status" "status_code" .null
  let (status, errorType) : Json × String :=
    match chunk.read "error" with
    | .obj error =>
      (if outer = .null then getOr error "status" "status_code" .null else outer,
        lower (py.str ((Dict.get? error "type").getD (.str ""))))
    | _ => (outer, "")
  let statusInt := (py.int status).toOption
  if statusInt = some 401 then
    ("MODEL_CREDENTIAL_MISSING", "model credential is missing or rejected", false)
  else if statusInt = some 403 then
    ("MODEL_CREDENTIAL_REVOKED", "model credential was revoked", false)
  else if statusInt = some 408 ∨ statusInt = some 504 ∨
      errorType ∈ ["timeout", "timed_out", "deadline_exceeded"] then
    ("MODEL_TIMEOUT", "model provider timed out", true)
  else
    ("MODEL_UPSTREAM_ERROR", "model provider returned an error",
      statusInt = some 429 ∨ statusInt.any (500 ≤ ·) ∨
        (status ≠ .null ∧ lower (py.str status) ∈ ["rate_limit", "overloaded", "timeout"]))

def failWith (error : String × String × Bool) : StreamTx Unit :=
  update fun s => s.fail error.1 error.2.1 error.2.2

def emitUsage (provider : Provider) (raw : Json) (inputDefault : Option Int) : StreamTx Unit := do
  let usage ← fromExcept (usageEvent provider raw inputDefault)
  update fun s => { s.emit usage with usageEmitted := true }

/-! ## Anthropic -/

/-- The input tokens that a `message_start` names. -/
def startTokens (message : Dict) (before : Option Int) : Except RequestError (Option Int) :=
  if message.read "usage" = .null then .ok before
  else do
    let usage ← mapping (message.read "usage") "message_start.message.usage"
    match usage.get? "input_tokens" with
    | none => return before
    | some tokens => do
      let tokens ← nonNegativeInt tokens "usage.input_tokens"
      return some tokens

def anthropicMessageStart (chunk : Dict) : StreamTx Unit := do
  let s ← get
  if s.started then raiseMismatch "duplicate message_start"
  else
    let message ← fromExcept (mapping (chunk.read "message") "message_start.message")
    let inputTokens ← fromExcept (startTokens message s.inputTokens)
    update fun s => { s with inputTokens := inputTokens, started := true }.emit .messageStart

/-- The entry of a text block. -/
def textEntry (index : Int) : ToolState where
  index := index
  toolUseId := "text-" ++ toString index
  name := textName

def contentBlockStart (chunk : Dict) : StreamTx Unit := do
  let index ← fromExcept (nonNegativeInt (chunk.read "index") "content block index")
  let block ← fromExcept (mapping (chunk.read "content_block") "content_block_start.content_block")
  if block.read "type" = .str "text" then
    let s ← get
    if (s.tools.get? index).isSome then
      throw (correlationMismatch "content block index reused")
    else
      set ({ s with tools := s.tools.put (textEntry index) }.emit (.textBlockStart index))
  else if block.read "type" = .str "tool_use" then
    let _ ← newTool index (block.read "id") (block.read "name")
  else raiseMismatch "unknown Anthropic content block type"

def contentBlockDelta (chunk : Dict) : StreamTx Unit := do
  let index ← fromExcept (nonNegativeInt (chunk.read "index") "content block index")
  let s ← get
  match s.tools.get? index with
  | none => throw (correlationMismatch "delta references unknown content block")
  | some block =>
    if block.closed then throw (correlationMismatch "delta references unknown content block")
    else
      let delta ← fromExcept (mapping (chunk.read "delta") "content_block_delta.delta")
      if delta.read "type" = .str "text_delta" then
        match delta.read "text" with
        | .str text => update fun s => s.emit (.textDelta text)
        | _ => raiseMismatch "text_delta.text must be text"
      else if delta.read "type" = .str "input_json_delta" then
        if block.name = textName then raiseMismatch "tool input delta targets text block"
        else
          match delta.read "partial_json" with
          | .str partialJson => addFragment block partialJson
          | _ => raiseMismatch "partial_json must be text"
      else raiseMismatch "unknown Anthropic content delta type"

def contentBlockStop (chunk : Dict) : StreamTx Unit := do
  let index ← fromExcept (nonNegativeInt (chunk.read "index") "content block index")
  let s ← get
  match s.tools.get? index with
  | none => throw (correlationMismatch "duplicate or unknown content block stop")
  | some block =>
    if block.closed then throw (correlationMismatch "duplicate or unknown content block stop")
    else if block.name = textName then
      set { s with tools := s.tools.put { block with closed := true } }
    else closeTool floats block

/-- The usage of a `message_delta`, where it has one. -/
def deltaUsage : Json → StreamTx Unit
  | .null => pure ()
  | raw => do
    let s ← get
    emitUsage .anthropic raw s.inputTokens

def messageDelta (chunk : Dict) : StreamTx Unit := do
  let delta ← fromExcept (mapping (chunk.read "delta") "message_delta.delta")
  match delta.read "stop_reason" with
  | .null => pure ()
  | raw => do
    let reason ← fromExcept (stopReason .anthropic raw)
    update fun s => { s with stopReason := some reason }
  deltaUsage (chunk.read "usage")

/-- `_anthropic_chunk`. -/
def anthropicChunk (py : Python) (identity : RequestIdentity) (chunk : Dict) : StreamTx Unit := do
  checkIdentity floats identity chunk
  let type := chunk.read "type"
  if type = .str "ping" then pure ()
  else if type = .str "error" then failWith (providerError py chunk)
  else if type = .str "message_start" then anthropicMessageStart chunk
  else
    let s ← get
    if s.started = false then raiseMismatch "stream did not start with message_start"
    else if type = .str "content_block_start" then contentBlockStart chunk
    else if type = .str "content_block_delta" then contentBlockDelta chunk
    else if type = .str "content_block_stop" then contentBlockStop floats chunk
    else if type = .str "message_delta" then messageDelta chunk
    else if type = .str "message_stop" then closeMessage
    else raiseMismatch "unknown Anthropic stream chunk type"

/-! ## OpenAI -/

/-- The arguments of a tool delta, where it has some. -/
def toolArguments (tool : ToolState) : Json → StreamTx Unit
  | .null => pure ()
  | .str arguments => addFragment tool arguments
  | _ => raiseMismatch "tool arguments delta must be text"

/-- `_openai_tool_delta`. -/
def openaiToolDelta (rawTool : Dict) (fallbackIndex : Nat) : StreamTx Unit := do
  let index ← fromExcept
    (nonNegativeInt ((rawTool.get? "index").getD (.int fallbackIndex)) "tool_calls.index")
  let function ← fromExcept (mapping (rawTool.read "function") "tool_calls.function")
  let s ← get
  let tool ← match s.tools.get? index with
    | none => newTool index (rawTool.read "id") (function.read "name")
    | some tool =>
      if rawTool.read "id" ≠ .null ∧ rawTool.read "id" ≠ .str tool.toolUseId then
        throw (correlationMismatch "toolUseId changed within parallel call")
      else if function.read "name" ≠ .null ∧ function.read "name" ≠ .str tool.name then
        throw (correlationMismatch "tool name changed within parallel call")
      else if tool.closed then
        throw (correlationMismatch "tool delta arrived after tool stop")
      else pure tool
  toolArguments tool (function.read "arguments")

def openaiToolDeltas (index : Nat) : List Json → StreamTx Unit
  | [] => pure ()
  | raw :: rest => do
    let rawTool ← fromExcept (mapping raw "delta.tool_calls[]")
    openaiToolDelta rawTool index
    openaiToolDeltas (index + 1) rest

/-- The open tools, sorted by index. -/
def StreamState.openTools (s : StreamState) : List ToolState :=
  (s.tools.rows.mergeSort fun a b => a.index ≤ b.index).filter fun tool =>
    tool.name ≠ textName ∧ tool.closed = false

def closeTools : List ToolState → StreamTx Unit
  | [] => pure ()
  | tool :: tools => do
    closeTool floats tool
    closeTools tools

def openaiContent : Json → StreamTx Unit
  | .null => pure ()
  | .str content => update fun s => s.emit (.textDelta content)
  | _ => raiseMismatch "delta.content must be text"

def openaiToolCalls : Json → StreamTx Unit
  | .null => pure ()
  | .arr toolCalls => openaiToolDeltas 0 toolCalls
  | _ => raiseMismatch "delta.tool_calls must be a list"

def openaiFinish : Json → StreamTx Unit
  | .null => pure ()
  | raw => do
    let reason ← fromExcept (stopReason .openai raw)
    update fun s => { s with stopReason := some reason }
    if reason = "tool_use" then
      let s ← get
      closeTools floats s.openTools
    else pure ()

/-- A choice of a chunk. -/
def openaiChoice (choice : Json) : StreamTx Unit := do
  let item ← fromExcept (mapping choice "choices[]")
  let delta ← fromExcept (mapping (item.read "delta") "choices[].delta")
  openaiContent (delta.read "content")
  openaiToolCalls (delta.read "tool_calls")
  openaiFinish floats (item.read "finish_reason")

def openaiChoices : List Json → StreamTx Unit
  | [] => pure ()
  | choice :: choices => do
    openaiChoice floats choice
    openaiChoices choices

def openaiUsage (usage : Json) : StreamTx Unit := do
  update StreamState.ensureStarted
  emitUsage .openai usage none

/-- `_openai_chunk`. -/
def openaiChunk (py : Python) (identity : RequestIdentity) (chunk : Dict) : StreamTx Unit := do
  checkIdentity floats identity chunk
  if (chunk.get? "error").isSome then failWith (providerError py chunk)
  else if chunk.read "object" ≠ .null ∧ chunk.read "object" ≠ .str "chat.completion.chunk" then
    raiseMismatch "unknown OpenAI stream object"
  else
    let usage := chunk.read "usage"
    match chunk.read "choices" with
    | .null =>
      if usage = .null then raiseMismatch "OpenAI chunk lacks choices" else openaiUsage usage
    | .arr [] =>
      if usage = .null then raiseMismatch "empty OpenAI choices without usage"
      else openaiUsage usage
    | .arr choices => do
      update StreamState.ensureStarted
      openaiChoices floats choices
      if usage = .null then pure () else emitUsage .openai usage none
    | _ => raiseMismatch "OpenAI choices must be a list"

/-! ## The chunks of a stream -/

/-- What a provider stream is made of: a decoded object, a text, or something else. -/
inductive RawChunk where
  | mapping (chunk : Dict)
  | text (text : String)
  | other

inductive Chunk where
  | done
  | mapping (chunk : Dict)

/-- The characters `str.splitlines` splits at. -/
def isLineEnd (c : Char) : Bool :=
  c ∈ ['\n', '\r', '\x0b', '\x0c', '\x1c', '\x1d', '\x1e'] ∨ c.toNat ∈ [0x85, 0x2028, 0x2029]

/-- The payload of a line that starts with `data:`. -/
def dataLine (line : List Char) : Option (List Char) :=
  let line := stripChars isSpace line
  if "data:".toList.isPrefixOf line then some ((line.drop 5).dropWhile isSpace) else none

/-- A text that is not `[DONE]`. -/
def decodeData (data : String) : Except RequestError Chunk :=
  match jsonLoads floats data with
  | some (.obj chunk) => .ok (.mapping chunk)
  | some _ => .error (schemaMismatch "SSE data must be an object")
  | none => .error (schemaMismatch "SSE data is not JSON")

/-- `_sse_chunks` on one chunk; `none` when it yields nothing. -/
def sseChunk : RawChunk → Except RequestError (Option Chunk)
  | .mapping chunk => .ok (some (.mapping chunk))
  | .other => .error (schemaMismatch "stream chunk must be an object or SSE text")
  | .text raw =>
    let text := strip raw
    if text = "" then .ok none
    else if text = "[DONE]" then .ok (some .done)
    else if "data:".toList <:+: text.toList then
      match (text.toList.splitOnP isLineEnd).filterMap dataLine with
      | [] => .error (schemaMismatch "SSE record has no data")
      | dataLines =>
        let data := strip (String.ofList ("\n".toList.intercalate dataLines))
        if data = "[DONE]" then .ok (some .done) else (decodeData floats data).map some
    else (decodeData floats text).map some

variable (py : Python) (identity : RequestIdentity) (provider : Provider)

/-- A round of the loop of `_normalize_stream`. -/
def streamChunk (raw : RawChunk) : StreamTx Unit := do
  let chunk ← fromExcept (sseChunk floats raw)
  match chunk with
  | none => pure ()
  | some .done =>
    let s ← get
    if provider ≠ .openai then raiseMismatch "[DONE] is not Anthropic syntax"
    else if s.stopReason = none then raiseMismatch "[DONE] arrived before finish reason"
    else set { s with doneMarker := true }
  | some (.mapping chunk) =>
    let s ← get
    if s.terminal then raiseMismatch "chunk arrived after terminal event"
    else
      match provider with
      | .anthropic => anthropicChunk floats py identity chunk
      | .openai => openaiChunk floats py identity chunk

def streamChunks : List RawChunk → StreamTx Unit
  | [] => pure ()
  | raw :: rest => do
    streamChunk floats py identity provider raw
    let s ← get
    if s.failed then pure () else streamChunks rest

def endStream : StreamTx Unit := do
  let s ← get
  if s.terminal ∨ s.failed then pure ()
  else if provider = .openai ∧ s.stopReason.isSome then closeMessage
  else throw (.protocolAdapterError "MODEL_STREAM_INCOMPLETE"
    "stream ended without a terminal event")

/-- The code and the message of an exception. -/
def RequestError.event : RequestError → String × String
  | .protocolAdapterError code message => (code, message)
  | .bindingError code message => (code, message)
  | .typeError => ("", "")

/-- `_normalize_stream`. -/
def normalizeStream (chunks : List RawChunk) : List StreamEvent :=
  let body : StreamTx Unit := do
    streamChunks floats py identity provider chunks
    endStream provider
  match body.run.run {} with
  | (.ok _, s) => s.events
  | (.error e, s) => (s.fail e.event.1 e.event.2 false).events

end ModelRuntime
