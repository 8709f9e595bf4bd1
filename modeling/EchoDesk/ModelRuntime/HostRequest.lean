import EchoDesk.AgentKernel.Messages
import EchoDesk.Foundations.Transaction
import EchoDesk.ModelRuntime.Adapters

/-! # A model request of the kernel at the host

`executeTurn` builds a request, the bridge hands it over as JSON, and `_model_request` of
`b13_host_ipc.py` makes an `AgentModelRequest` of it for the request builders. The kernel names no
`operationKey` in a request, and the host requires one; a tool result is nested on one side and
flat on the other; a tool has its schema under another name.
-/

namespace AgentKernel

open EchoDesk

inductive ModelPurpose where
  | agentMain
  | agentCompact
  | agentSummary
  | agentQuality
  | chat
  | minutes
  | memory

def ModelPurpose.value : ModelPurpose → String
  | .agentMain => "agent_main"
  | .agentCompact => "agent_compact"
  | .agentSummary => "agent_summary"
  | .agentQuality => "agent_quality"
  | .chat => "chat"
  | .minutes => "minutes"
  | .memory => "memory"

structure CanonicalToolDefinition where
  name : String
  description : Option String
  inputSchema : JsonObject

inductive CanonicalToolChoice where
  | auto
  | none
  | tool (name : String)

/-- The request that `executeTurn` makes. -/
structure AgentModelRequest where
  requestId : String
  taskId : String
  purpose : ModelPurpose
  configRevision : Nat
  routeId : String
  model : String
  system : List String
  messages : List CanonicalMessage
  tools : List CanonicalToolDefinition
  toolChoice : Option CanonicalToolChoice
  maxOutputTokens : Nat

/-! ## As JSON -/

def CanonicalContentBlock.json : CanonicalContentBlock → Json
  | .text s => .obj [("type", .str "text"), ("text", .str s)]
  | .toolUse toolUseId name input => .obj [("type", .str "tool_use"),
      ("toolUseId", .str toolUseId), ("name", .str name), ("input", .obj input)]
  | .toolResult toolUseId result => .obj [("type", .str "tool_result"),
      ("toolUseId", .str toolUseId), ("result", .obj ([("content", .str result.content),
        ("isError", .bool result.isError)] ++
          (result.receipt.map fun receipt => ("receipt", Json.obj receipt)).toList))]

def MessageRole.value : MessageRole → String
  | .user => "user"
  | .assistant => "assistant"

def CanonicalMessage.json (message : CanonicalMessage) : Json :=
  .obj [("messageId", .str message.messageId), ("role", .str message.role.value),
    ("content", .arr (message.content.map CanonicalContentBlock.json))]

def CanonicalToolDefinition.json (tool : CanonicalToolDefinition) : Json :=
  .obj ([("name", .str tool.name)] ++
    (tool.description.map fun description => ("description", Json.str description)).toList ++
    [("inputSchema", .obj tool.inputSchema)])

def CanonicalToolChoice.json : CanonicalToolChoice → Json
  | .auto => .str "auto"
  | .none => .str "none"
  | .tool name => .obj [("type", .str "tool"), ("name", .str name)]

def AgentModelRequest.fields (request : AgentModelRequest) : Dict :=
  [("requestId", .str request.requestId), ("taskId", .str request.taskId),
    ("purpose", .str request.purpose.value), ("configRevision", .int request.configRevision),
    ("routeId", .str request.routeId), ("model", .str request.model),
    ("system", .arr (request.system.map fun s => .obj [("type", .str "text"), ("text", .str s)])),
    ("messages", .arr (request.messages.map CanonicalMessage.json)),
    ("tools", .arr (request.tools.map CanonicalToolDefinition.json))] ++
    (request.toolChoice.map fun choice => ("toolChoice", choice.json)).toList ++
    [("maxOutputTokens", .int request.maxOutputTokens)]

/-- The payload of `model.stream` and of `model.count_tokens`. -/
def AgentModelRequest.payload (request : AgentModelRequest) : Dict :=
  [("request", .obj request.fields)]

end AgentKernel

namespace ModelRuntime

open EchoDesk AgentKernel Transaction

/-! ## `_model_request` -/

/-- The field a key of the request is passed as. -/
def fieldName (key : String) : String :=
  (([("requestId", "request_id"), ("taskId", "task_id"), ("operationKey", "operation_key"),
    ("configRevision", "config_revision"), ("routeId", "route_id"), ("toolChoice", "tool_choice"),
    ("maxOutputTokens", "max_output_tokens"), ("stopSequences", "stop_sequences")] :
      List (String × String)).lookup key).getD key

/-- `{names.get(key, key): value for key, value in raw.items()}`. -/
def normalized (raw : Dict) : Dict := raw.foldl (fun d entry => d.set (fieldName entry.1) entry.2) []

def requiredFields : List String :=
  ["request_id", "task_id", "operation_key", "purpose", "config_revision", "route_id", "model",
    "system", "messages"]

def defaultedFields : List String :=
  ["tools", "tool_choice", "max_output_tokens", "temperature", "stop_sequences"]

/-- `AgentModelRequest(**normalized)`. -/
def ofKeywords (d : Dict) : Except RequestError ModelRuntime.AgentModelRequest :=
  if (∀ key ∈ d.map Prod.fst, key ∈ requiredFields ++ defaultedFields) ∧
      ∀ key ∈ requiredFields, (d.get? key).isSome then
    .ok {
      requestId := d.read "request_id"
      taskId := d.read "task_id"
      operationKey := d.read "operation_key"
      purpose := d.read "purpose"
      configRevision := d.read "config_revision"
      routeId := d.read "route_id"
      model := d.read "model"
      system := d.read "system"
      messages := d.read "messages"
      tools := (d.get? "tools").getD (.arr [])
      toolChoice := d.read "tool_choice"
      maxOutputTokens := (d.get? "max_output_tokens").getD (.int 256)
      temperature := d.read "temperature"
      stopSequences := (d.get? "stop_sequences").getD (.arr []) }
  else .error .typeError

def modelRequest (payload : Dict) : Except RequestError ModelRuntime.AgentModelRequest :=
  match payload.read "request" with
  | .obj raw => ofKeywords (normalized raw)
  | _ => .error (.bindingError "B13_HOST_SCHEMA_INVALID" "request must be an object")

/-! ## What a body carries -/

/-- What a provider reads: a text, a call and a result, in the order of the body. -/
inductive Item where
  | text (s : String)
  | call (id name : String) (input : Json)
  | result (id : String) (content : Json) (isError : Option Bool)

def readText : Json → Option String
  | .str s => some s
  | _ => none

def readList : Json → List Json
  | .arr values => values
  | _ => []

def property (value : Json) (key : String) : Json :=
  match value with
  | .obj fields => Dict.read fields key
  | _ => .null

def anthropicItem (block : Json) : Option Item := do
  match ← readText (property block "type") with
  | "text" => return .text (← readText (property block "text"))
  | "tool_use" =>
    return .call (← readText (property block "id")) (← readText (property block "name"))
      (property block "input")
  | "tool_result" =>
    return .result (← readText (property block "tool_use_id")) (property block "content")
      (match property block "is_error" with
        | .bool isError => some isError
        | _ => none)
  | _ => none

def anthropicItems (body : Dict) : List Item :=
  (readList (body.read "messages")).flatMap fun message =>
    (readList (property message "content")).filterMap anthropicItem

def openaiItems (message : Json) : List Item :=
  match property message "role", property message "content" with
  | .str "system", _ => []
  | .str "tool", content =>
    (((readText (property message "tool_call_id")).map fun id => .result id content none)).toList
  | _, content =>
    (((readText content).filter fun s => s ≠ "").map Item.text).toList ++
      (readList (property message "tool_calls")).filterMap fun call => do
        let function := property call "function"
        return .call (← readText (property call "id")) (← readText (property function "name"))
          (property function "arguments")

/-- A tool of a body: its name and its schema. -/
def bodyTools (nameOf schemaOf : Json → Json) (body : Dict) : List (Json × Json) :=
  (readList (body.read "tools")).map fun tool => (nameOf tool, schemaOf tool)

def kernelItem : CanonicalContentBlock → Item
  | .text s => .text s
  | .toolUse toolUseId name input => .call toolUseId name (.obj input)
  | .toolResult toolUseId result => .result toolUseId (.str result.content) (some result.isError)

/-- The items of the history; the second protocol has one text a message, arguments as a text and
no error flag. -/
def kernelItems (messages : List AgentKernel.CanonicalMessage) : List Item :=
  messages.flatMap fun message => message.content.map kernelItem

def kernelTexts (message : AgentKernel.CanonicalMessage) : List String :=
  message.content.filterMap fun
    | .text s => some s
    | _ => none

def openaiKernelItems (dumps : Json → String) (messages : List AgentKernel.CanonicalMessage) :
    List Item :=
  messages.flatMap fun message =>
    (if joinLines (kernelTexts message) = "" then [] else [.text (joinLines (kernelTexts message))]) ++
      message.content.filterMap fun
        | .text _ => none
        | .toolUse toolUseId name input => some (.call toolUseId name (.str (dumps (.obj input))))
        | .toolResult toolUseId result => some (.result toolUseId (.str result.content) none)

def kernelTools (tools : List AgentKernel.CanonicalToolDefinition) : List (Json × Json) :=
  tools.map fun tool => (.str tool.name, .obj tool.inputSchema)

/-- Both builders succeed on what the host makes of the payload, and their bodies hold every item
and every tool of the request, each once and in order. -/
def Survives (dumps : Json → String) (request : AgentKernel.AgentModelRequest) (payload : Dict) :
    Prop :=
  ∃ r, modelRequest payload = .ok r ∧ (∃ body, buildAnthropicRequest r = .ok body ∧
      anthropicItems body = kernelItems request.messages ∧
      bodyTools (property · "name") (property · "input_schema") body = kernelTools request.tools) ∧
    ∃ body, buildOpenaiCompatibleRequest dumps r = .ok body ∧
      (readList (body.read "messages")).flatMap openaiItems =
        openaiKernelItems dumps request.messages ∧
      bodyTools (fun tool => property (property tool "function") "name")
        (fun tool => property (property tool "function") "parameters") body =
        kernelTools request.tools

/-! ## What the host makes of a request -/

theorem get?_normalized {raw : Dict} {key : String}
    (hkey : ∀ name ∈ raw.map Prod.fst, fieldName name ≠ key) : (normalized raw).get? key = none := by
  have hfold : ∀ d : Dict, d.get? key = none →
      (raw.foldl (fun d entry => d.set (fieldName entry.1) entry.2) d).get? key = none := by
    induction raw with
    | nil => exact fun d hd => hd
    | cons entry raw ih =>
      intro d hd
      refine ih (fun name hname => hkey name (List.mem_cons_of_mem _ hname)) _ ?_
      rw [Dict.get?_set, if_neg (hkey entry.1 List.mem_cons_self).symm]
      exact hd
  exact hfold [] rfl

/-- The names of the fields that `executeTurn` sets. -/
def sentFields (toolChoice : Bool) : List String :=
  ["requestId", "taskId", "purpose", "configRevision", "routeId", "model", "system", "messages",
    "tools"] ++ (if toolChoice then ["toolChoice"] else []) ++ ["maxOutputTokens"]

theorem map_fst_fields (request : AgentKernel.AgentModelRequest) :
    request.fields.map Prod.fst = sentFields request.toolChoice.isSome := by
  unfold AgentKernel.AgentModelRequest.fields
  cases request.toolChoice <;> rfl

/-- A dataclass is not made without its required field. -/
theorem ofKeywords_of_missing {d : Dict} (h : d.get? "operation_key" = none) :
    ofKeywords d = .error .typeError := by
  unfold ofKeywords
  rw [if_neg]
  rintro ⟨-, hrequired⟩
  have hpresent := hrequired "operation_key" (by decide)
  rw [h] at hpresent
  cases hpresent

/-- The host makes no request of what the kernel sends. -/
theorem modelRequest_payload (request : AgentKernel.AgentModelRequest) :
    modelRequest request.payload = .error .typeError := by
  have hraw : modelRequest request.payload = ofKeywords (normalized request.fields) := rfl
  have hnone : ∀ toolChoice, ∀ name ∈ sentFields toolChoice, fieldName name ≠ "operation_key" := by
    decide
  rw [hraw]
  refine ofKeywords_of_missing (get?_normalized ?_)
  rw [map_fst_fields]
  exact hnone _

theorem not_survives (dumps : Json → String) (request : AgentKernel.AgentModelRequest) :
    ¬ Survives dumps request request.payload := by
  rintro ⟨r, hr, -⟩
  rw [modelRequest_payload] at hr
  cases hr

/-! ## With an operation key -/

variable {request : AgentKernel.AgentModelRequest} {operationKey : Json} {dumps : Json → String}

/-- The payload with the field that is missing. -/
def keyedPayload (operationKey : Json) (request : AgentKernel.AgentModelRequest) : Dict :=
  [("request", .obj (request.fields ++ [("operationKey", operationKey)]))]

theorem tools_of_keyed {r : AgentModelRequest}
    (h : modelRequest (keyedPayload operationKey request) = .ok r) :
    r.tools = .arr (request.tools.map (·.json)) := by
  have hraw : modelRequest (keyedPayload operationKey request) =
      ofKeywords (normalized (request.fields ++ [("operationKey", operationKey)])) := rfl
  have htools : (normalized (request.fields ++ [("operationKey", operationKey)])).get? "tools" =
      some (.arr (request.tools.map (·.json))) := by
    unfold AgentKernel.AgentModelRequest.fields
    cases request.toolChoice <;> rfl
  rw [hraw, ofKeywords] at h
  split at h
  · cases h
    rw [htools]
    rfl
  · cases h

/-- The schema of a kernel's tool is under neither of the names that are read. -/
theorem canonicalTools_kernel {tools : List AgentKernel.CanonicalToolDefinition} (hne : tools ≠ [])
    (result : List CanonicalToolDefinition) :
    canonicalTools (.arr (tools.map (·.json))) ≠ .ok result := by
  cases tools with
  | nil => exact absurd rfl hne
  | cons tool tools =>
    intro h
    obtain ⟨_, htool, -⟩ := bind_eq_ok.1 h
    obtain ⟨raw, hraw, htool⟩ := bind_eq_ok.1 htool
    obtain ⟨_, -, htool⟩ := bind_eq_ok.1 htool
    obtain ⟨_, hschema, -⟩ := bind_eq_ok.1 htool
    cases hraw
    have hnone : getOr ([("name", .str tool.name)] ++
        (tool.description.map fun description => ("description", Json.str description)).toList ++
        [("inputSchema", .obj tool.inputSchema)]) "input_schema" "parameters" .null = .null := by
      cases tool.description <;> rfl
    rw [hnone] at hschema
    cases hschema

/-- So no request that offers a tool survives, whatever its operation key. -/
theorem not_survives_tools (hne : request.tools ≠ []) :
    ¬ Survives dumps request (keyedPayload operationKey request) := by
  rintro ⟨r, hr, ⟨body, hbody, -⟩, -⟩
  unfold buildAnthropicRequest at hbody
  simp only [bind_eq_ok, tools_of_keyed hr] at hbody
  obtain ⟨_, -, _, -, _, -, _, -, tools, htools, -⟩ := hbody
  exact canonicalTools_kernel hne tools htools

theorem nonEmpty_str {s fieldName : String} (h : strip s ≠ "") :
    nonEmpty (.str s) fieldName = .ok s := if_neg h

/-- The result of a tool is read beside its content and its error flag, which are nested. -/
theorem contentBlock_toolResult {toolUseId fieldName : String} (hid : strip toolUseId ≠ "")
    (result : CanonicalToolResult) :
    contentBlock (CanonicalContentBlock.toolResult toolUseId result).json fieldName =
      .ok (.toolResult toolUseId (.str "") false) := by
  have hkind : strip "tool_result" ≠ "" := by decide +kernel
  refine bind_eq_ok.2 ⟨_, rfl, bind_eq_ok.2 ⟨_, nonEmpty_str hkind, ?_⟩⟩
  exact bind_eq_ok.2 ⟨_, nonEmpty_str hid, rfl⟩

/-- The second request of a turn that reads a file, with the tool the host advertises. -/
def afterRead : AgentKernel.AgentModelRequest where
  requestId := "request-2"
  taskId := "task-1"
  purpose := .agentMain
  configRevision := 7
  routeId := "main"
  model := "model"
  system := ["You are EchoDesk."]
  messages := [⟨"m1", .user, [.text "read notes.txt"]⟩,
    ⟨"m2", .assistant, [.toolUse "t1" "path.read" [("path", .str "notes.txt"),
      ("rootId", .str "root")]]⟩,
    ⟨"m3", .user, [.toolResult "t1" { content := "hello", isError := false }]⟩]
  tools := [⟨"path.read", some "Read a file through the B06P verified file host.",
    [("type", .str "object"), ("properties", .obj [("path", .obj [("type", .str "string")]),
      ("rootId", .obj [("type", .str "string")])]), ("required", .arr [.str "path", .str "rootId"]),
      ("additionalProperties", .bool false)]⟩]
  toolChoice := some .auto
  maxOutputTokens := 4096

theorem not_survives_afterRead :
    ¬ Survives (fun value => String.ofList (JsonText.write value)) afterRead afterRead.payload := by
  rintro ⟨r, hr, -⟩
  rw [modelRequest_payload] at hr
  cases hr

end ModelRuntime
