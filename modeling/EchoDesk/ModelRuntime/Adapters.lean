import EchoDesk.Core.Python

/-! # The request builders of the two protocols

`_content_blocks` … `build_openai_compatible_request` of `model_runtime/protocols/adapters.py`. A
request arrives as the values of a JSON object; the builders check them and write the body for
the provider. `json.dumps` of a tool input is a parameter.
-/

namespace ModelRuntime

open EchoDesk

/-- What the conversion of a request raises. -/
inductive RequestError where
  | protocolAdapterError (code message : String)
  | bindingError (code message : String)
  | typeError

def schemaMismatch (message : String) : RequestError :=
  .protocolAdapterError "MODEL_SCHEMA_VERSION_MISMATCH" message

def correlationMismatch (message : String) : RequestError :=
  .protocolAdapterError "MODEL_TOOL_CORRELATION_MISMATCH" message

/-! ## Single values -/

def mapping (value : Json) (fieldName : String) : Except RequestError Dict :=
  match value with
  | .obj fields => .ok fields
  | _ => .error (schemaMismatch (fieldName ++ " must be an object"))

def nonEmpty (value : Json) (fieldName : String) : Except RequestError String :=
  match value with
  | .str s =>
    if strip s = "" then .error (schemaMismatch (fieldName ++ " must be non-empty")) else .ok s
  | _ => .error (schemaMismatch (fieldName ++ " must be non-empty"))

def nonNegativeInt (value : Json) (fieldName : String) : Except RequestError Int :=
  match value with
  | .int n =>
    if 0 ≤ n then .ok n
    else .error (schemaMismatch (fieldName ++ " must be a non-negative integer"))
  | _ => .error (schemaMismatch (fieldName ++ " must be a non-negative integer"))

/-- `d.get(key, d.get(other, default))`. -/
def getOr (d : Dict) (key other : String) (default : Json) : Json :=
  (d.get? key).getD ((d.get? other).getD default)

def indexed (fieldName : String) (index : Nat) : String :=
  fieldName ++ "[" ++ toString index ++ "]"

/-! ## Messages -/

/-- A block of `_content_blocks`. -/
inductive Block where
  | text (text : String)
  | toolUse (id name : String) (input : Dict)
  | toolResult (toolUseId : String) (content : Json) (isError : Bool)

inductive Role where
  | user
  | assistant
  | tool
deriving DecidableEq

def Role.value : Role → String
  | .user => "user"
  | .assistant => "assistant"
  | .tool => "tool"

structure CanonicalMessage where
  role : Role
  content : List Block

/-- A round of the loop of `_content_blocks`. -/
def contentBlock (value : Json) (fieldName : String) : Except RequestError Block := do
  let block ← mapping value fieldName
  let blockType ← nonEmpty (block.read "type") (fieldName ++ ".type")
  if blockType = "text" then
    match block.read "text" with
    | .str text => return .text text
    | _ => throw (schemaMismatch "text block requires text")
  else if blockType = "tool_use" then
    let id ← nonEmpty (getOr block "id" "toolUseId" .null) "tool_use.id"
    let name ← nonEmpty (block.read "name") "tool_use.name"
    let input ← mapping (block.read "input") "tool_use.input"
    return .toolUse id name input
  else if blockType = "tool_result" then
    let toolUseId ← nonEmpty (getOr block "tool_use_id" "toolUseId" .null) "tool_result.tool_use_id"
    let isError := (getOr block "is_error" "isError" (.bool false)).truthy
    match (block.get? "content").getD (.str "") with
    | .str content => return .toolResult toolUseId (.str content) isError
    | .arr content => return .toolResult toolUseId (.arr content) isError
    | _ => throw (schemaMismatch "tool_result.content is invalid")
  else throw (schemaMismatch ("unknown content block type: " ++ blockType))

def contentBlocksFrom (fieldName : String) (index : Nat) :
    List Json → Except RequestError (List Block)
  | [] => .ok []
  | value :: values => do
    let block ← contentBlock value (indexed fieldName index)
    let blocks ← contentBlocksFrom fieldName (index + 1) values
    return block :: blocks

def contentBlocks (content : Json) (fieldName : String) : Except RequestError (List Block) :=
  match content with
  | .str text => .ok [.text text]
  | .arr values => contentBlocksFrom fieldName 0 values
  | _ => .error (schemaMismatch (fieldName ++ " must be text or a block list"))

def readRole (role : String) : Except RequestError Role :=
  if role = "user" then .ok .user
  else if role = "assistant" then .ok .assistant
  else if role = "tool" then .ok .tool
  else .error (schemaMismatch ("unsupported message role: " ++ role))

/-- The tool ids that are known after the blocks of a message. -/
def correlate (role : Role) (known : List String) : List Block → Except RequestError (List String)
  | [] => .ok known
  | .text _ :: blocks => correlate role known blocks
  | .toolUse id _ _ :: blocks =>
    if role ≠ .assistant then .error (correlationMismatch "tool_use must be assistant content")
    else if id ∈ known then .error (correlationMismatch "duplicate toolUseId")
    else correlate role (id :: known) blocks
  | .toolResult toolUseId _ _ :: blocks =>
    if toolUseId ∈ known then correlate role known blocks
    else .error (correlationMismatch "unknown toolUseId in result")

def canonicalMessagesFrom (index : Nat) (known : List String) :
    List Json → Except RequestError (List CanonicalMessage)
  | [] => .ok []
  | value :: values => do
    let message ← mapping value (indexed "messages" index)
    let roleText ← nonEmpty (message.read "role") (indexed "messages" index ++ ".role")
    let content ← contentBlocks (message.read "content") (indexed "messages" index ++ ".content")
    let role ← readRole roleText
    let known ← correlate role known content
    let messages ← canonicalMessagesFrom (index + 1) known values
    return ⟨role, content⟩ :: messages

def canonicalMessages (messages : Json) : Except RequestError (List CanonicalMessage) :=
  match messages with
  | .arr values => canonicalMessagesFrom 0 [] values
  | _ => .error (schemaMismatch "messages must be an ordered list")

/-! ## Tools -/

structure CanonicalToolDefinition where
  name : String
  description : Option String
  inputSchema : Dict

def canonicalTool (value : Json) (index : Nat) (names : List String) :
    Except RequestError CanonicalToolDefinition := do
  let raw ← mapping value (indexed "tools" index)
  let name ← nonEmpty (raw.read "name") (indexed "tools" index ++ ".name")
  let inputSchema ← mapping (getOr raw "input_schema" "parameters" .null)
    (indexed "tools" index ++ ".input_schema")
  if name ∈ names then throw (schemaMismatch "duplicate tool name")
  if inputSchema.read "type" ≠ .str "object" then
    throw (schemaMismatch "tool schema must be an object schema")
  match raw.read "description" with
  | .null => return ⟨name, none, inputSchema⟩
  | .str description => return ⟨name, some description, inputSchema⟩
  | _ => throw (schemaMismatch "tool description must be text")

def canonicalToolsFrom (index : Nat) (names : List String) :
    List Json → Except RequestError (List CanonicalToolDefinition)
  | [] => .ok []
  | value :: values => do
    let tool ← canonicalTool value index names
    let tools ← canonicalToolsFrom (index + 1) (tool.name :: names) values
    return tool :: tools

def canonicalTools (tools : Json) : Except RequestError (List CanonicalToolDefinition) :=
  match tools with
  | .arr values => canonicalToolsFrom 0 [] values
  | _ => .error (schemaMismatch "tools must be an ordered list")

/-! ## The rest of a request -/

/-- A round of the loop of `_system_blocks`. -/
def systemBlock (value : Json) (index : Nat) : Except RequestError String :=
  match value with
  | .str text => .ok text
  | .obj block =>
    match Dict.read block "type", Dict.read block "text" with
    | .str "text", .str text => .ok text
    | _, _ => .error (schemaMismatch "system blocks must be text blocks")
  | _ => .error (schemaMismatch (indexed "system" index ++ " must be an object"))

def systemBlocksFrom (index : Nat) : List Json → Except RequestError (List String)
  | [] => .ok []
  | value :: values => do
    let text ← systemBlock value index
    let texts ← systemBlocksFrom (index + 1) values
    return text :: texts

def systemBlocks (system : Json) : Except RequestError (List String) :=
  match system with
  | .null => .ok []
  | .str text => .ok [text]
  | .arr values => systemBlocksFrom 0 values
  | _ => .error (schemaMismatch "system must be text or an ordered list")

def anthropicToolChoice (value : Json) : Except RequestError (Option Json) :=
  match value with
  | .null => .ok none
  | .str "auto" | .str "any" | .str "none" => .ok (some value)
  | _ => do
    let choice ← mapping value "tool_choice"
    let choiceType ← nonEmpty (choice.read "type") "tool_choice.type"
    if choiceType ≠ "tool" then
      throw (schemaMismatch "Anthropic tool_choice.type is invalid")
    let name ← nonEmpty (choice.read "name") "tool_choice.name"
    return some (.obj [("type", .str "tool"), ("name", .str name)])

def openaiToolChoice (value : Json) : Except RequestError (Option Json) :=
  match value with
  | .null => .ok none
  | .str "auto" | .str "required" | .str "none" => .ok (some value)
  | _ => do
    let choice ← mapping value "tool_choice"
    let name :=
      match choice.read "name", choice.read "function" with
      | .null, .obj function => Dict.read function "name"
      | name, _ => name
    let name ← nonEmpty name "tool_choice.name"
    return some (.obj [("type", .str "function"), ("function", .obj [("name", .str name)])])

/-- `list(value)`. -/
def listOf (value : Json) : Except RequestError Json :=
  match value with
  | .arr values => .ok (.arr values)
  | .str s => .ok (.arr (s.toList.map fun c => .str (String.singleton c)))
  | .obj fields => .ok (.arr (fields.map fun entry => .str entry.1))
  | _ => .error .typeError

/-! ## The bodies -/

def Block.anthropic : Block → Json
  | .text s => .obj [("type", .str "text"), ("text", .str s)]
  | .toolUse id name input =>
    .obj [("type", .str "tool_use"), ("id", .str id), ("name", .str name), ("input", .obj input)]
  | .toolResult toolUseId content isError =>
    .obj [("type", .str "tool_result"), ("tool_use_id", .str toolUseId), ("content", content),
      ("is_error", .bool isError)]

def anthropicMessages (messages : List CanonicalMessage) : List Json :=
  messages.map fun message => .obj [("role", .str message.role.value),
    ("content", .arr (message.content.map Block.anthropic))]

def Block.text? : Block → Option String
  | .text s => some s
  | _ => none

section OpenAI

variable (dumps : Json → String)

def Block.toolCall? : Block → Option Json
  | .toolUse id name input => some (.obj [("id", .str id), ("type", .str "function"),
      ("function", .obj [("name", .str name), ("arguments", .str (dumps (.obj input)))])])
  | _ => none

/-- The content of a `tool` message. -/
def resultText : Json → String
  | .str content => content
  | content => dumps content

def Block.resultMessage? : Block → Option Json
  | .toolResult toolUseId content _ => some (.obj [("role", .str "tool"),
      ("tool_call_id", .str toolUseId), ("content", .str (resultText dumps content))])
  | _ => none

def joinLines (texts : List String) : String := "\n".intercalate texts

/-- A round of the loop of `_openai_messages`. -/
def CanonicalMessage.openai (message : CanonicalMessage) : List Json :=
  let texts := message.content.filterMap Block.text?
  let toolCalls := message.content.filterMap (Block.toolCall? dumps)
  match message.role with
  | .assistant =>
    let content := if joinLines texts = "" then .null else .str (joinLines texts)
    [.obj ([("role", .str "assistant"), ("content", content)] ++
      if toolCalls.isEmpty then [] else [("tool_calls", .arr toolCalls)])]
  | _ =>
    (if texts.isEmpty then []
      else [.obj [("role", .str "user"), ("content", .str (joinLines texts))]]) ++
      message.content.filterMap (Block.resultMessage? dumps)

def openaiMessages (messages : List CanonicalMessage) : List Json :=
  messages.flatMap (CanonicalMessage.openai dumps)

end OpenAI

def descriptionJson (tool : CanonicalToolDefinition) : Json :=
  (tool.description.map Json.str).getD .null

def anthropicTools (tools : List CanonicalToolDefinition) : List Json :=
  tools.map fun tool => .obj [("name", .str tool.name), ("description", descriptionJson tool),
    ("input_schema", .obj tool.inputSchema)]

def openaiTools (tools : List CanonicalToolDefinition) : List Json :=
  tools.map fun tool => .obj [("type", .str "function"), ("function", .obj [
    ("name", .str tool.name), ("description", descriptionJson tool),
    ("parameters", .obj tool.inputSchema)])]

/-- The fields of `AgentModelRequest`, with its defaults. -/
structure AgentModelRequest where
  requestId : Json
  taskId : Json
  operationKey : Json
  purpose : Json
  configRevision : Json
  routeId : Json
  model : Json
  system : Json
  messages : Json
  tools : Json := .arr []
  toolChoice : Json := .null
  maxOutputTokens : Json := .int 256
  temperature : Json := .null
  stopSequences : Json := .arr []

/-- The part of a body both builders end with. -/
def closing (r : AgentModelRequest) (tools : List Json) (choice : Option Json)
    (stopKey : String) : Except RequestError Dict := do
  let stop ← if r.stopSequences.truthy then
      (listOf r.stopSequences).map fun stop => [(stopKey, stop)]
    else .ok []
  return (if tools.isEmpty then [] else [("tools", .arr tools)]) ++
    (choice.map fun choice => ("tool_choice", choice)).toList ++
    (if r.temperature = .null then [] else [("temperature", r.temperature)]) ++ stop

def buildAnthropicRequest (r : AgentModelRequest) : Except RequestError Dict := do
  let model ← nonEmpty r.model "model"
  let maxTokens ← nonNegativeInt r.maxOutputTokens "max_output_tokens"
  let messages ← canonicalMessages r.messages
  let system ← systemBlocks r.system
  let tools ← canonicalTools r.tools
  let choice ← anthropicToolChoice r.toolChoice
  let rest ← closing r (anthropicTools tools) choice "stop_sequences"
  return [("model", .str model), ("max_tokens", .int maxTokens), ("stream", .bool true),
    ("messages", .arr (anthropicMessages messages))] ++
    (if system.isEmpty then [] else [("system", .arr (system.map fun text =>
      .obj [("type", .str "text"), ("text", .str text)]))]) ++ rest

def buildOpenaiCompatibleRequest (dumps : Json → String) (r : AgentModelRequest) :
    Except RequestError Dict := do
  let tools ← canonicalTools r.tools
  let system ← systemBlocks r.system
  let messages ← canonicalMessages r.messages
  let model ← nonEmpty r.model "model"
  let maxTokens ← nonNegativeInt r.maxOutputTokens "max_output_tokens"
  let choice ← openaiToolChoice r.toolChoice
  let rest ← closing r (openaiTools tools) choice "stop"
  return [("model", .str model), ("max_tokens", .int maxTokens), ("stream", .bool true),
    ("stream_options", .obj [("include_usage", .bool true)]),
    ("messages", .arr ((if system.isEmpty then [] else [.obj [("role", .str "system"),
      ("content", .str (joinLines system))]]) ++ openaiMessages dumps messages))] ++ rest

end ModelRuntime
