import EchoDesk.AgentKernel.Reply
import EchoDesk.ModelRuntime.StreamCalls

/-! # What the kernel decodes of a stream

The adapter puts the input of a call in the event that stops it; the kernel does not look at that
and parses the fragments again. On a stream without an error both hold the same calls at every
event, so the kernel raises at nothing but a text it cannot parse. That is shown of the locals of
its loop first, and then of a session that is fed the events.
-/

namespace ModelRuntime

open EchoDesk Transaction JsonSyntax Transition List Function
open AgentKernel (ModelReply AgentModelEvent AgentModelEventBody Ports parseJsonObject Session InLoop
  ToolAnswer feed AgentResourceBudget)

/-- The event as the switch of the kernel reads it; it has no case for the start of a text. -/
def StreamEvent.kernel : StreamEvent → AgentModelEventBody
  | .messageStart => .messageStart
  | .textBlockStart _ => .unknown
  | .textDelta text => .textDelta text
  | .toolStart index id name => .toolStart index id name
  | .toolArgumentsDelta index json => .toolArgumentsDelta index json
  | .toolStop index _ _ _ => .toolStop index
  | .usage inputTokens outputTokens _ _ => .usage inputTokens.toNat outputTokens.toNat
  | .messageStop _ => .messageStop
  | .error code _ retryable => .error code retryable

def MODEL_SCHEMA_VERSION : Nat := 1

/-- `event(identity, …).as_dict()`, as far as the kernel looks at it. -/
def StreamEvent.envelope (identity : RequestIdentity) (event : StreamEvent) : AgentModelEvent :=
  ⟨MODEL_SCHEMA_VERSION, identity.requestId, event.kernel⟩

def StreamEvent.input : StreamEvent → Option Dict
  | .toolStop _ _ _ input => some input
  | _ => none

/-- The texts of the open calls, and those of the calls that have stopped, in order. -/
structure Scan where
  texts : Int → String := fun _ => ""
  stopped : List String := []

def Scan.next (scan : Scan) : StreamEvent → Scan
  | .toolStart index _ _ => { scan with texts := Function.update scan.texts index "" }
  | .toolArgumentsDelta index json =>
    { scan with texts := Function.update scan.texts index (scan.texts index ++ json) }
  | .toolStop index _ _ _ => { scan with stopped := scan.stopped ++ [scan.texts index] }
  | _ => scan

def scanEvents (events : List StreamEvent) : Scan := events.foldl Scan.next {}

/-- The fragments of every call that stops, joined. -/
def argumentTexts (events : List StreamEvent) : List String := (scanEvents events).stopped

theorem scanEvents_append (events : List StreamEvent) (event : StreamEvent) :
    scanEvents (events ++ [event]) = (scanEvents events).next event := by
  unfold scanEvents
  rw [foldl_append, foldl_cons, foldl_nil]

variable (floats : Floats)
variable {call : Call} {text : String} {index : Int}

/-- The kernel of a desktop; the registry does not matter here. -/
def kernelPorts : Ports where
  parse := jsonParse floats
  resolves _ := true

/-- What the kernel has read once the events are through. -/
def kernelReads (events : List StreamEvent) : Except AgentKernel.KernelErrorCode ModelReply :=
  ModelReply.readAll (kernelPorts floats) { requestId := "", context := [] }
    (events.map StreamEvent.kernel)

/-- The inputs that the kernel has parsed are those of the adapter, each number as the double it
is there. -/
def SameInputs (events : List StreamEvent) (reply : ModelReply) : Prop :=
  reply.toolInputs.map Json.obj =
    (events.filterMap StreamEvent.input).map fun input => floats.numeric (.obj input)

/-- The locals of the loop can be read through to the end, with the same inputs. -/
def ReadsSame (events : List StreamEvent) : Prop :=
  ∃ reply, kernelReads floats events = .ok reply ∧ SameInputs floats events reply

/-- A session whose turn waits for the reply to the request, and may still make as many calls as
the events hold, is fed these, whatever its tools answer: it raises nothing, waits for the next
event at the end, and has parsed the same inputs. -/
def DecodesSame (identity : RequestIdentity) (events : List StreamEvent) : Prop :=
  ∀ (limits : AgentResourceBudget) (s : Session)
    (context : List AgentKernel.CanonicalMessage) (tools : Int → ToolAnswer)
    (toolCallsUsed : Nat),
    InLoop s { requestId := identity.requestId, context } toolCallsUsed →
    toolCallsUsed + (events.filterMap StreamEvent.input).length ≤ limits.maxToolCalls →
    (∀ index, (tools index).Harmless) →
    ∃ t reply, (run (Session.step (kernelPorts floats) limits) s
        (feed tools (events.map (StreamEvent.envelope identity)))).turn = some t ∧
      t.await = .stream reply ∧ SameInputs floats events reply

variable {floats} {events : List StreamEvent} {calls : Keyed Call.index} {event : StreamEvent}

theorem kernelReads_append (events : List StreamEvent) (event : StreamEvent) :
    kernelReads floats (events ++ [event]) = match kernelReads floats events with
      | .ok reply => reply.read (kernelPorts floats) event.kernel
      | .error code => .error code := by
  unfold kernelReads
  rw [map_append]
  exact ModelReply.readAll_append ..

/-- The pending tools of the kernel are the calls. -/
def Mirrors (reply : ModelReply) (calls : Keyed Call.index) : Prop :=
  ∀ index, reply.pending.get? index = (calls.get? index).map fun call =>
    ⟨call.index, call.id, call.name, call.text, call.closed⟩

variable {reply : ModelReply}

theorem Mirrors.put (h : Mirrors reply calls) {tool : AgentKernel.ToolState}
    {blocks : List AgentKernel.CanonicalContentBlock}
    (htool : tool = ⟨call.index, call.id, call.name, call.text, call.closed⟩) :
    Mirrors { reply with pending := reply.pending.put tool, assistantBlocks := blocks }
      (calls.put call) := by
  subst htool
  intro index
  rw [Keyed.get?_put, Keyed.get?_put]
  by_cases hindex : index = call.index
  · rw [if_pos hindex, if_pos hindex]
    rfl
  · rw [if_neg hindex, if_neg hindex]
    exact h index

theorem scanEvents_texts (h : Coherent floats events calls) (hcall : calls.get? index = some call) :
    (scanEvents events).texts index = call.text := by
  induction h generalizing index call with
  | nil => cases hcall
  | @other _ _ event _ hcallEvent _ ih =>
    rw [scanEvents_append]
    cases event <;> first | exact ih hcall | cases hcallEvent
  | @start _ calls started id name _ _ _ _ ih =>
    rw [scanEvents_append]
    show Function.update (scanEvents _).texts started "" index = call.text
    rw [Keyed.get?_put] at hcall
    by_cases heq : index = started
    · rw [if_pos heq] at hcall
      cases hcall
      rw [heq, update_self]
    · rw [if_neg heq] at hcall
      rw [update_of_ne heq]
      exact ih hcall
  | @fragment _ calls old _ hold _ json ih =>
    rw [scanEvents_append]
    show Function.update (scanEvents _).texts old.index (_ ++ json) index = call.text
    rw [Keyed.get?_put] at hcall
    by_cases heq : index = old.index
    · rw [if_pos heq] at hcall
      cases hcall
      rw [heq, update_self, ih hold]
    · rw [if_neg heq] at hcall
      rw [update_of_ne heq]
      exact ih hcall
  | @stop _ calls old _ _ hold _ _ ih =>
    rw [scanEvents_append]
    show (scanEvents _).texts index = call.text
    rw [Keyed.get?_put] at hcall
    by_cases heq : index = old.index
    · rw [if_pos heq] at hcall
      rw [heq, ih hold, ← Option.some.inj hcall]
    · rw [if_neg heq] at hcall
      exact ih hcall

/-! ## One event -/

/-- What the kernel does with an event that stops no call: it reads on, and keeps its inputs. -/
theorem read_other (hm : Mirrors reply calls) (hcall : event.isCallEvent = false)
    (herror : event.isError = false) :
    ∃ reply', reply.read (kernelPorts floats) event.kernel = .ok reply' ∧ Mirrors reply' calls ∧
      reply'.toolInputs = reply.toolInputs := by
  cases event with
  | toolStart | toolArgumentsDelta | toolStop => cases hcall
  | error => cases herror
  | _ => exact ⟨_, rfl, hm, rfl⟩

theorem read_toolStart (hm : Mirrors reply calls) {id name : String}
    (hnone : calls.get? index = none) (hid : id ≠ "") (hname : name ≠ "") :
    ∃ reply', reply.read (kernelPorts floats) (.toolStart index id name) = .ok reply' ∧
      Mirrors reply' (calls.put ⟨index, id, name, "", false⟩) ∧
      reply'.toolInputs = reply.toolInputs := by
  have hpending : reply.pending.get? index = none := by
    rw [hm index, hnone]
    rfl
  refine ⟨_, ?_, hm.put rfl, rfl⟩
  unfold ModelReply.read
  dsimp only
  rw [hpending]
  exact if_neg (by simp [hid, hname])

theorem read_fragment (hm : Mirrors reply calls) (hcall : calls.get? call.index = some call)
    (hopen : call.closed = false) (json : String) :
    ∃ reply', reply.read (kernelPorts floats) (.toolArgumentsDelta call.index json) = .ok reply' ∧
      Mirrors reply' (calls.put { call with text := call.text ++ json }) ∧
      reply'.toolInputs = reply.toolInputs := by
  refine ⟨_, ?_, hm.put rfl, rfl⟩
  unfold ModelReply.read
  dsimp only
  rw [hm call.index, hcall]
  exact if_neg (by simp [hopen])

/-- At a stop the kernel parses the fragments. -/
theorem read_toolStop (hm : Mirrors reply calls) (hcall : calls.get? call.index = some call)
    (hopen : call.closed = false) :
    reply.read (kernelPorts floats) (.toolStop call.index) =
      match parseJsonObject (kernelPorts floats) call.text with
      | .error _ => .error .modelToolArgumentsInvalid
      | .ok input => .ok { reply with
          pending := reply.pending.put ⟨call.index, call.id, call.name, call.text, true⟩
          assistantBlocks := reply.assistantBlocks ++ [.toolUse call.id call.name input] } := by
  unfold ModelReply.read
  dsimp only
  rw [hm call.index, hcall]
  dsimp only [Option.map_some]
  rw [hopen]
  refine (if_neg Bool.false_ne_true).trans ?_
  cases parseJsonObject (kernelPorts floats) call.text <;> rfl

theorem parseJsonObject_kernel {input : AgentKernel.JsonObject} :
    parseJsonObject (kernelPorts floats) text = .ok input ↔
      jsonParse floats text = some (.obj input) := by
  unfold parseJsonObject kernelPorts
  dsimp only
  constructor
  · intro h
    split at h
    · cases h
    · rename_i fields hfields
      rw [hfields, Except.ok.inj h]
    · cases h
  · intro h
    rw [h]

/-- Where the adapter has read an object, the kernel parses it from the same text. -/
theorem jsonParse_input_iff {input : Dict}
    (h : jsonLoads floats (inputText text) = some (.obj input)) :
    jsonParse floats text = some (floats.numeric (.obj input)) ↔
      text ≠ "" ∧ Portable floats text := by
  by_cases hempty : text = ""
  · -- the adapter reads an empty text as `{}`, which `JSON.parse` does not
    subst hempty
    have hnone : jsonParse floats "" = none := rfl
    rw [hnone]
    constructor
    · intro hfalse
      cases hfalse
    · rintro ⟨hne, -⟩
      exact absurd rfl hne
  · rw [inputText, if_neg hempty] at h
    rw [jsonParse_eq_iff h]
    exact (and_iff_right hempty).symm

/-! ## All events -/

variable (floats) in
structure Decoding (events : List StreamEvent) (calls : Keyed Call.index) : Prop where
  mirrors : ∀ reply, kernelReads floats events = .ok reply → Mirrors reply calls
  same_iff : ReadsSame floats events ↔
    ∀ text ∈ argumentTexts events, text ≠ "" ∧ Portable floats text

theorem argumentTexts_append (hstopped : ∀ scan : Scan, (scan.next event).stopped = scan.stopped) :
    argumentTexts (events ++ [event]) = argumentTexts events := by
  unfold argumentTexts
  rw [scanEvents_append]
  exact hstopped _

theorem inputs_append (hinput : event.input = none) :
    (events ++ [event]).filterMap StreamEvent.input = events.filterMap StreamEvent.input := by
  rw [filterMap_append, filterMap_cons_none hinput, filterMap_nil, append_nil]

/-- An event that the kernel reads in every state, and that stops no call. -/
theorem Decoding.snoc (h : Decoding floats events calls) {calls' : Keyed Call.index}
    (hread : ∀ reply, Mirrors reply calls → ∃ reply',
      reply.read (kernelPorts floats) event.kernel = .ok reply' ∧ Mirrors reply' calls' ∧
        reply'.toolInputs = reply.toolInputs) (hinput : event.input = none)
    (hstopped : ∀ scan : Scan, (scan.next event).stopped = scan.stopped) :
    Decoding floats (events ++ [event]) calls' := by
  have hnext : ∀ reply, kernelReads floats events = .ok reply → ∃ reply',
      kernelReads floats (events ++ [event]) = .ok reply' ∧ Mirrors reply' calls' ∧
        reply'.toolInputs = reply.toolInputs := by
    intro reply hreply
    rw [kernelReads_append, hreply]
    exact hread reply (h.mirrors reply hreply)
  have hbefore : ∀ reply', kernelReads floats (events ++ [event]) = .ok reply' →
      ∃ reply, kernelReads floats events = .ok reply := by
    intro reply' hreply'
    rw [kernelReads_append] at hreply'
    cases hreply : kernelReads floats events with
    | ok reply => exact ⟨reply, rfl⟩
    | error code =>
      rw [hreply] at hreply'
      cases hreply'
  constructor
  · intro reply' hreply'
    obtain ⟨reply, hreply⟩ := hbefore reply' hreply'
    obtain ⟨reply'', hreply'', hm, -⟩ := hnext reply hreply
    cases hreply'.symm.trans hreply''
    exact hm
  rw [argumentTexts_append hstopped, ← h.same_iff]
  unfold ReadsSame SameInputs
  rw [inputs_append hinput]
  constructor
  · rintro ⟨reply', hreply', hsame⟩
    obtain ⟨reply, hreply⟩ := hbefore reply' hreply'
    obtain ⟨reply'', hreply'', -, heq⟩ := hnext reply hreply
    cases hreply'.symm.trans hreply''
    exact ⟨reply, hreply, heq ▸ hsame⟩
  · rintro ⟨reply, hreply, hsame⟩
    obtain ⟨reply', hreply', -, heq⟩ := hnext reply hreply
    exact ⟨reply', hreply', heq.symm ▸ hsame⟩

theorem toolInputs_push (reply : ModelReply) (pending : Keyed AgentKernel.ToolState.index)
    (id name : String) (input : AgentKernel.JsonObject) :
    ModelReply.toolInputs { reply with
      pending := pending
      assistantBlocks := reply.assistantBlocks ++ [.toolUse id name input] } =
      reply.toolInputs ++ [input] := by
  unfold ModelReply.toolInputs
  rw [filterMap_append]
  rfl

theorem Decoding.stop (h : Decoding floats events calls) (hcoherent : Coherent floats events calls)
    {call : Call} {input : Dict} (hcall : calls.get? call.index = some call)
    (hopen : call.closed = false)
    (hloads : jsonLoads floats (inputText call.text) = some (.obj input)) :
    Decoding floats (events ++ [.toolStop call.index call.id call.name input])
      (calls.put { call with closed := true }) := by
  have htexts : argumentTexts (events ++ [.toolStop call.index call.id call.name input]) =
      argumentTexts events ++ [call.text] := by
    unfold argumentTexts
    rw [scanEvents_append]
    show (scanEvents events).stopped ++ [(scanEvents events).texts call.index] = _
    rw [scanEvents_texts hcoherent hcall]
  have hreads : ∀ reply', kernelReads floats
        (events ++ [.toolStop call.index call.id call.name input]) = .ok reply' ↔
      ∃ reply parsed, kernelReads floats events = .ok reply ∧
        jsonParse floats call.text = some (.obj parsed) ∧ reply' = { reply with
          pending := reply.pending.put ⟨call.index, call.id, call.name, call.text, true⟩
          assistantBlocks := reply.assistantBlocks ++ [.toolUse call.id call.name parsed] } := by
    intro reply'
    rw [kernelReads_append]
    dsimp only [StreamEvent.kernel]
    cases hreply : kernelReads floats events with
    | error code => simp
    | ok reply =>
      dsimp only
      rw [read_toolStop (h.mirrors reply hreply) hcall hopen]
      cases hparse : parseJsonObject (kernelPorts floats) call.text with
      | error thrown =>
        constructor
        · intro hfalse
          cases hfalse
        · rintro ⟨_, parsed, -, hparsed, -⟩
          rw [parseJsonObject_kernel.2 hparsed] at hparse
          cases hparse
      | ok parsed =>
        constructor
        · intro hreply'
          exact ⟨reply, parsed, rfl, parseJsonObject_kernel.1 hparse, (Except.ok.inj hreply').symm⟩
        rintro ⟨_, parsed', hsame, hparsed', rfl⟩
        cases hsame
        cases hparse.symm.trans (parseJsonObject_kernel.2 hparsed')
        rfl
  have hinputs : (events ++ [StreamEvent.toolStop call.index call.id call.name input]).filterMap
      StreamEvent.input = events.filterMap StreamEvent.input ++ [input] := by
    rw [filterMap_append]
    rfl
  have hsplit : ReadsSame floats (events ++ [.toolStop call.index call.id call.name input]) ↔
      ReadsSame floats events ∧
        jsonParse floats call.text = some (floats.numeric (.obj input)) := by
    unfold ReadsSame SameInputs
    rw [hinputs]
    constructor
    · rintro ⟨reply', hreply', hsame⟩
      obtain ⟨reply, parsed, hreply, hparsed, rfl⟩ := (hreads reply').1 hreply'
      rw [toolInputs_push, map_append, map_append] at hsame
      obtain ⟨hbefore, hlast⟩ := append_inj' hsame rfl
      have hvalue : Json.obj parsed = floats.numeric (.obj input) := (cons.inj hlast).1
      exact ⟨⟨reply, hreply, hbefore⟩, hvalue ▸ hparsed⟩
    · rintro ⟨⟨reply, hreply, hsame⟩, hparsed⟩
      refine ⟨_, (hreads _).2 ⟨reply, _, hreply, hparsed, rfl⟩, ?_⟩
      rw [toolInputs_push, map_append, map_append, hsame]
      rfl
  constructor
  · intro reply' hreply'
    obtain ⟨reply, parsed, hreply, -, rfl⟩ := (hreads reply').1 hreply'
    exact (h.mirrors reply hreply).put rfl
  · rw [hsplit, h.same_iff, jsonParse_input_iff hloads, htexts, forall_mem_append,
      forall_mem_singleton]

theorem decoding_of_coherent (h : Coherent floats events calls) :
    Decoding floats events calls := by
  induction h with
  | nil =>
    constructor
    · intro reply hreply
      cases hreply
      intro index
      rfl
    · refine iff_of_true ⟨_, rfl, rfl⟩ ?_
      intro text htext
      cases htext
  | @other events calls event _ hcall herror ih =>
    refine ih.snoc (fun reply hm => read_other hm hcall herror) ?_ ?_
    · cases event <;> first | rfl | cases hcall
    · intro scan
      cases event <;> first | rfl | cases hcall
  | start _ hnone hid hname ih =>
    exact ih.snoc (fun reply hm => read_toolStart hm hnone hid hname) rfl fun _ => rfl
  | fragment _ hcall hopen json ih =>
    exact ih.snoc (fun reply hm => read_fragment hm hcall hopen json) rfl fun _ => rfl
  | stop hcoherent hcall hopen hloads ih => exact ih.stop hcoherent hcall hopen hloads

/-! ## A session that is fed the events -/

theorem sum_stops (events : List StreamEvent) :
    ((events.map StreamEvent.kernel).map AgentModelEventBody.stops).sum =
      (events.filterMap StreamEvent.input).length := by
  induction events with
  | nil => rfl
  | cons event events ih =>
    rw [map_cons, map_cons, sum_cons, ih]
    cases event with
    | toolStop => exact Nat.add_comm ..
    | _ => exact Nat.zero_add _

/-- The session reads what its locals are read to be, or has failed where they cannot be read. -/
theorem run_envelopes (floats : Floats) {identity : RequestIdentity}
    {limits : AgentResourceBudget} {s : Session} {context : List AgentKernel.CanonicalMessage}
    {tools : Int → ToolAnswer} {toolCallsUsed : Nat}
    (hloop : InLoop s { requestId := identity.requestId, context } toolCallsUsed)
    (hleft : toolCallsUsed + (events.filterMap StreamEvent.input).length ≤ limits.maxToolCalls)
    (htools : ∀ index, (tools index).Harmless) :
    let s' := run (Session.step (kernelPorts floats) limits) s
      (feed tools (events.map (StreamEvent.envelope identity)))
    match kernelReads floats events with
    | .ok reply => ∃ t reply', s'.turn = some t ∧ t.await = .stream reply' ∧
        reply'.toolInputs = reply.toolInputs
    | .error _ => AgentKernel.Failed s' := by
  rw [← sum_stops] at hleft
  have hreads : AgentKernel.Reads s { requestId := identity.requestId, context } toolCallsUsed :=
    ⟨[], 0, hloop⟩
  have hresolves : ∀ name, (kernelPorts floats).resolves name = true := fun _ => rfl
  have hfed := AgentKernel.run_feed hresolves htools (events.map StreamEvent.kernel) hreads hleft
  have hothers := AgentKernel.readAll_others (kernelPorts floats)
    { requestId := "", context := [] } identity.requestId context [] 0
    (events.map StreamEvent.kernel)
  dsimp only at hfed hothers ⊢
  rw [hothers, map_map] at hfed
  unfold kernelReads
  cases hread : ModelReply.readAll (kernelPorts floats) { requestId := "", context := [] }
      (events.map StreamEvent.kernel) with
  | error code =>
    rw [hread] at hfed
    exact hfed
  | ok reply =>
    rw [hread] at hfed
    obtain ⟨_, _, t, hturn, hawait, -⟩ := hfed
    exact ⟨t, _, hturn, hawait, rfl⟩

theorem decodesSame_iff_readsSame (identity : RequestIdentity) :
    DecodesSame floats identity events ↔ ReadsSame floats events := by
  constructor
  · intro h
    -- a turn at its first reply, and tools that return nothing
    have hloop : InLoop
        { turn := some { turnId := "", input := { userMessage := .text "" },
                         await := .stream { requestId := identity.requestId, context := [] } } }
        { requestId := identity.requestId, context := [] } 0 := ⟨_, rfl, rfl, rfl, rfl⟩
    have htools : ∀ _ : Int, ToolAnswer.Harmless
        ⟨{ allowed := true }, .ok { content := "", isError := false }⟩ := fun _ => ⟨nofun, nofun⟩
    have hleft : 0 + (events.filterMap StreamEvent.input).length ≤ AgentResourceBudget.maxToolCalls
          ⟨0, (events.filterMap StreamEvent.input).length, 0, 0⟩ := Nat.le_of_eq (Nat.zero_add _)
    obtain ⟨t, reply, hturn, hawait, hsame⟩ := h _ _ _ _ _ hloop hleft htools
    have hfed := run_envelopes floats hloop hleft htools
    cases hreads : kernelReads floats events with
    | error code =>
      rw [hreads] at hfed
      obtain ⟨t', hturn', hfailed⟩ := hfed
      cases hturn.symm.trans hturn'
      rw [hawait] at hfailed
      rcases hfailed with hfailed | hfailed | hfailed <;> cases hfailed
    | ok reply' =>
      rw [hreads] at hfed
      obtain ⟨t', reply'', hturn', hawait', hinputs⟩ := hfed
      cases hturn.symm.trans hturn'
      cases hawait.symm.trans hawait'
      refine ⟨reply', hreads, ?_⟩
      unfold SameInputs at hsame ⊢
      rw [← hinputs]
      exact hsame
  · rintro ⟨reply, hreads, hsame⟩ limits s context tools toolCallsUsed hloop hleft htools
    have hfed := run_envelopes floats hloop hleft htools
    rw [hreads] at hfed
    obtain ⟨t, reply', hturn, hawait, hinputs⟩ := hfed
    refine ⟨t, reply', hturn, hawait, ?_⟩
    unfold SameInputs at hsame ⊢
    rw [hinputs]
    exact hsame

/-- A message of Anthropic with one call, whose arguments come in these fragments. -/
def callChunks (fragments : List String) : List RawChunk :=
  [.mapping [("type", .str "message_start"), ("message", .obj [])],
    .mapping [("type", .str "content_block_start"), ("index", .int 0), ("content_block", .obj
        [("type", .str "tool_use"), ("id", .str "toolu_1"), ("name", .str "list_files")])]] ++
  (fragments.map fun fragment => .mapping [("type", .str "content_block_delta"), ("index", .int 0),
    ("delta", .obj [("type", .str "input_json_delta"), ("partial_json", .str fragment)])]) ++
  [.mapping [("type", .str "content_block_stop"), ("index", .int 0)],
    .mapping [("type", .str "message_delta"), ("delta", .obj [("stop_reason", .str "tool_use")])],
    .mapping [("type", .str "message_stop")]]

/-- Floats that are written as they are read. -/
def plainFloats : Floats where
  nearest text := text
  number text := .float text

def anyIdentity : RequestIdentity := ⟨"r", "t", "k", 1, "chat"⟩

end ModelRuntime
