import EchoDesk.AgentKernel.Session

/-! # What a turn makes of a reply

The stream loop of `executeTurn` keeps what it has read in its locals. `ModelReply.read` is what
one event does to them; what the tools return changes nothing of it. A session that is fed the
events, with nothing failing in between, reads just that (`run_feed`).
-/

namespace AgentKernel

open EchoDesk Transition List Session Turn

/-- What one event does to the locals, or the code of the error it raises. -/
def ModelReply.read (ports : Ports) (reply : ModelReply) :
    AgentModelEventBody → Except KernelErrorCode ModelReply
  | .messageStart | .unknown => .ok reply
  | .textDelta text => .ok { reply with text := reply.text ++ text }
  | .toolStart index id name =>
    if (reply.pending.get? index).isSome ∨ id = "" ∨ name = "" then
      .error .modelToolCorrelationMismatch
    else
      let tool := { index, toolUseId := id, name, argumentJson := "", completed := false }
      .ok { reply with pending := reply.pending.put tool }
  | .toolArgumentsDelta index json =>
    match reply.pending.get? index with
    | some tool =>
      if tool.completed then .error .modelToolCorrelationMismatch
      else
        let tool := { tool with argumentJson := tool.argumentJson ++ json }
        .ok { reply with pending := reply.pending.put tool }
    | none => .error .modelToolCorrelationMismatch
  | .toolStop index =>
    match reply.pending.get? index with
    | some tool =>
      if tool.completed then .error .modelToolCorrelationMismatch
      else
        match parseJsonObject ports tool.argumentJson with
        | .error _ => .error .modelToolArgumentsInvalid
        | .ok input => .ok { reply with
            pending := reply.pending.put { tool with completed := true }
            assistantBlocks := reply.assistantBlocks ++ [.toolUse tool.toolUseId tool.name input] }
    | none => .error .modelToolCorrelationMismatch
  | .usage _ _ => .ok reply
  | .messageStop => .ok { reply with sawStop := true }
  | .error _ _ => .error .modelUpstreamError

/-- The events one after the other. -/
def ModelReply.readAll (ports : Ports) (reply : ModelReply) :
    List AgentModelEventBody → Except KernelErrorCode ModelReply
  | [] => .ok reply
  | event :: events =>
    match reply.read ports event with
    | .ok reply => reply.readAll ports events
    | .error code => .error code

/-- The inputs of the calls that were read, in order. -/
def ModelReply.toolInputs (reply : ModelReply) : List JsonObject :=
  reply.assistantBlocks.filterMap fun
    | .toolUse _ _ input => some input
    | _ => none

theorem ModelReply.readAll_append (ports : Ports) (reply : ModelReply)
    (events : List AgentModelEventBody) (event : AgentModelEventBody) :
    reply.readAll ports (events ++ [event]) = match reply.readAll ports events with
      | .ok reply => reply.read ports event
      | .error code => .error code := by
  induction events generalizing reply with
  | nil =>
    show reply.readAll ports [event] = reply.read ports event
    unfold readAll
    cases reply.read ports event <;> rfl
  | cons first events ih =>
    rw [cons_append, readAll, readAll]
    cases reply.read ports first with
    | ok reply' => exact ih reply'
    | error code => rfl

/-! ## The loop of a session -/

/-- What a tool answers: its validation, and what its invocation gives or throws. -/
structure ToolAnswer where
  validation : ToolValidation
  result : Except Thrown CanonicalToolResult

namespace ToolAnswer

/-- It does not revoke the grant, and throws no `AbortError`. -/
def Harmless (tool : ToolAnswer) : Prop :=
  tool.validation.reasonCode ≠ some .grantRevoked ∧
    ∀ error, tool.result = .error error → error.isAbortError = false

def outcome (tool : ToolAnswer) : Answer :=
  match tool.result with
  | .ok result => .output result
  | .error error => .thrown error

/-- The answers from the start of a call to the publication of its result. -/
def answers (tool : ToolAnswer) : List Answer :=
  if tool.validation.allowed then [.done, .validated tool.validation, tool.outcome, .done]
  else [.done, .validated tool.validation, .done]

end ToolAnswer

/-- What the loop is answered after an event, before it takes the next one. -/
def AgentModelEventBody.answers (tools : Int → ToolAnswer) : AgentModelEventBody → List Answer
  | .textDelta _ | .toolStart _ _ _ => [.done]
  | .toolStop index => (tools index).answers
  | _ => []

/-- The model sends the events, what is published is handed on, and the tools answer. -/
def feed (tools : Int → ToolAnswer) (events : List AgentModelEvent) : List Label :=
  (events.flatMap fun event => .event event :: event.body.answers tools).map Label.answer

/-- The calls that an event completes. -/
def AgentModelEventBody.stops : AgentModelEventBody → Nat
  | .toolStop _ => 1
  | _ => 0

/-- The turn waits for the next event, with these locals. -/
structure InLoop (s : Session) (reply : ModelReply) (toolCallsUsed : Nat) : Prop where
  turn : ∃ t, s.turn = some t ∧ t.await = .stream reply ∧ t.cancelReason = none ∧
    t.budget.toolCallsUsed = toolCallsUsed

/-- It does so, whatever the tools have returned. -/
def Reads (s : Session) (reply : ModelReply) (toolCallsUsed : Nat) : Prop :=
  ∃ toolResults completedToolCount,
    InLoop s { reply with toolResults, completedToolCount } toolCallsUsed

/-- An error has ended the turn. -/
def Failed (s : Session) : Prop :=
  ∃ t, s.turn = some t ∧
    (t.await = .terminal true ∨ t.await = .lateTerminal true ∨ t.await = .finished)

variable {ports : Ports} {limits : AgentResourceBudget} {s : Session} {t : Turn}
  {reply reply' : ModelReply} {body : AgentModelEventBody} {code : KernelErrorCode}
  {tools : Int → ToolAnswer} {toolCallsUsed : Nat}

theorem failed_caught (s : Session) (t : Turn) (error : Thrown) :
    Failed (s.withTurn (t.caught error)) := by
  have hawait : ∀ event, (t.terminalEvent event true).await = .terminal true ∨
      (t.terminalEvent event true).await = .lateTerminal true ∨
      (t.terminalEvent event true).await = .finished := by
    intro event
    unfold Turn.terminalEvent
    split
    · exact .inr (.inl rfl)
    · exact .inl rfl
  refine ⟨_, rfl, ?_⟩
  unfold Turn.caught
  split
  · exact hawait _
  · exact hawait _

theorem step_answer (hturn : s.turn = some t) (answer : Answer) :
    step ports limits s (.answer answer) = s.resumed ports limits t answer := by
  unfold step
  dsimp only
  rw [hturn]

/-- An ended turn stays so. -/
theorem Failed.run (h : Failed s) (answers : List Answer) :
    Failed (run (step ports limits) s (answers.map Label.answer)) := by
  induction answers generalizing s with
  | nil => exact h
  | cons answer answers ih =>
    refine ih ?_
    obtain ⟨t, hturn, hawait⟩ := h
    rw [step_answer hturn]
    dsimp only [resumed]
    rcases hawait with hawait | hawait | hawait
    · rw [hawait]
      cases answer <;> first | exact ⟨_, rfl, .inr (.inr rfl)⟩ | exact ⟨t, hturn, .inl hawait⟩
    · rw [hawait]
      cases answer <;> first | exact ⟨_, rfl, .inr (.inr rfl)⟩ | exact ⟨t, hturn, .inr (.inl hawait)⟩
    · rw [hawait]
      exact ⟨t, hturn, .inr (.inr hawait)⟩

/-- A failed invocation is noted and the stream read on. -/
theorem reads_invokeFailed (hcancel : t.cancelReason = none) {error : Thrown}
    (herror : error.isAbortError = false) (toolUseId : String) :
    Reads (step ports limits (s.withTurn (t.invokeFailed reply toolUseId error))
      (.answer .done)) reply t.budget.toolCallsUsed := by
  rw [invokeFailed, if_neg (by simp [hcancel, herror])]
  exact ⟨_, _, _, rfl, rfl, hcancel, rfl⟩

/-- A started call ends with a result, whatever the tool answers. -/
theorem reads_answers (s : Session) (t : Turn) (toolUseId : String)
    (hawait : t.await = .toolStarted reply toolUseId) (hcancel : t.cancelReason = none)
    {tool : ToolAnswer} (hharmless : tool.Harmless) :
    Reads (run (step ports limits) (s.withTurn t) (tool.answers.map Label.answer)) reply
      t.budget.toolCallsUsed := by
  have hdone : step ports limits (s.withTurn t) (.answer .done) =
      s.withTurn { t with await := .validate reply toolUseId } := by
    rw [step_answer rfl]
    unfold resumed
    rw [hawait]
    rfl
  unfold ToolAnswer.answers
  split
  · rename_i hallowed
    have hvalidated : step ports limits (s.withTurn { t with
          await := .validate reply toolUseId }) (.answer (.validated tool.validation)) =
        s.withTurn { t with
          log := t.log ++ [.invoked toolUseId]
          await := .invoke reply toolUseId } :=
      congrArg s.withTurn (if_pos hallowed)
    simp only [map_cons, map_nil, run_cons, run_nil, hdone, hvalidated]
    unfold ToolAnswer.outcome
    cases hresult : tool.result with
    | error error =>
      refine reads_invokeFailed ?_ (hharmless.2 error hresult) toolUseId
      exact hcancel
    | ok result =>
      show Reads (step ports limits (s.withTurn (invoked _ limits reply toolUseId
        result)) (.answer .done)) reply _
      unfold invoked
      split
      · refine reads_invokeFailed ?_ rfl toolUseId
        exact hcancel
      · exact ⟨_, _, _, rfl, rfl, hcancel, rfl⟩
  · rename_i hdenied
    have hcode : tool.validation.reasonCode.getD .toolCapabilityDenied ≠ .grantRevoked := by
      have hnot := hharmless.1
      cases hreason : tool.validation.reasonCode with
      | none => simp
      | some code =>
        rw [hreason] at hnot
        simpa using hnot
    simp only [map_cons, map_nil, run_cons, run_nil, hdone]
    show Reads (step ports limits (s.withTurn (validated _ reply toolUseId _))
      (.answer .done)) reply _
    rw [validated, if_neg hdenied]
    dsimp only
    rw [if_neg hcode]
    exact ⟨_, _, _, rfl, rfl, hcancel, rfl⟩

/-- The request and what the tools have returned are neither read nor changed. -/
theorem read_others (requestId : String) (context : List CanonicalMessage)
    (toolResults : List (String × CanonicalToolResult)) (completedToolCount : Nat) :
    ModelReply.read ports { reply with requestId, context, toolResults, completedToolCount } body =
      (reply.read ports body).map fun reply' =>
        { reply' with requestId, context, toolResults, completedToolCount } := by
  cases body with
  | toolStart index id name =>
    unfold ModelReply.read
    dsimp only
    split <;> rfl
  | toolArgumentsDelta index json =>
    unfold ModelReply.read
    dsimp only
    split
    · split <;> rfl
    · rfl
  | toolStop index =>
    unfold ModelReply.read
    dsimp only
    split
    · split
      · rfl
      · split <;> rfl
    · rfl
  | _ => rfl

theorem readAll_others (ports : Ports) (reply : ModelReply) (requestId : String)
    (context : List CanonicalMessage) (toolResults : List (String × CanonicalToolResult))
    (completedToolCount : Nat) (bodies : List AgentModelEventBody) :
    ModelReply.readAll ports
        { reply with requestId, context, toolResults, completedToolCount } bodies =
      (reply.readAll ports bodies).map fun reply' =>
        { reply' with requestId, context, toolResults, completedToolCount } := by
  induction bodies generalizing reply with
  | nil => rfl
  | cons body bodies ih =>
    rw [ModelReply.readAll, ModelReply.readAll, read_others]
    cases reply.read ports body with
    | ok reply' => exact ih reply'
    | error code => rfl

theorem request_read (h : reply.read ports body = .ok reply') :
    reply'.requestId = reply.requestId ∧ reply'.context = reply.context := by
  have hsame := h.symm.trans (read_others reply.requestId reply.context reply.toolResults
    reply.completedToolCount)
  rw [h] at hsame
  injection hsame with hsame
  rw [hsame]
  exact ⟨rfl, rfl⟩

section Feed

variable (hresolves : ∀ name, ports.resolves name = true)
  (htools : ∀ index, (tools index).Harmless)
include hresolves htools

/-- The loop does with an event what `read` says: the schema check lets it pass, and every await up
to the next event is answered. -/
theorem run_event (h : InLoop s reply toolCallsUsed)
    (hleft : toolCallsUsed + body.stops ≤ limits.maxToolCalls) :
    let s' := run (step ports limits) s (feed tools [⟨1, reply.requestId, body⟩])
    match reply.read ports body with
    | .ok reply' => Reads s' reply' (toolCallsUsed + body.stops)
    | .error _ => Failed s' := by
  obtain ⟨t, hturn, hawait, hcancel, rfl⟩ := h
  have hstep : step ports limits s (.answer (.event ⟨1, reply.requestId, body⟩)) =
      s.withTurn (t.receive ports limits reply body) := by
    rw [step_answer hturn]
    unfold resumed
    rw [hawait]
    dsimp only
    rw [streamed, hcancel]
    dsimp only
    rw [if_neg (not_not_intro rfl), if_neg (not_not_intro rfl)]
  have hfeed : feed tools [⟨1, reply.requestId, body⟩] =
      .answer (.event ⟨1, reply.requestId, body⟩) :: (body.answers tools).map Label.answer := by
    simp [feed]
  have hcaught : ∀ error, Failed (run (step ports limits) (s.withTurn (t.caught error))
      ((body.answers tools).map Label.answer)) := fun error => (failed_caught s t error).run _
  rw [hfeed, run_cons, hstep]
  cases body with
  | error code retryable => exact hcaught _
  | toolStart index id name =>
    unfold ModelReply.read receive
    dsimp only
    by_cases hbad : (reply.pending.get? index).isSome ∨ id = "" ∨ name = ""
    · rw [if_pos hbad, if_pos hbad]
      exact hcaught _
    · rw [if_neg hbad, if_neg hbad]
      exact ⟨_, _, _, rfl, rfl, hcancel, rfl⟩
  | toolArgumentsDelta index json =>
    unfold ModelReply.read receive
    dsimp only
    cases reply.pending.get? index with
    | none => exact hcaught _
    | some tool =>
      dsimp only
      by_cases hcompleted : tool.completed = true
      · rw [if_pos hcompleted, if_pos hcompleted]
        exact hcaught _
      · rw [if_neg hcompleted, if_neg hcompleted]
        exact ⟨_, _, _, rfl, rfl, hcancel, rfl⟩
  | toolStop index =>
    unfold ModelReply.read receive
    dsimp only
    cases reply.pending.get? index with
    | none => exact hcaught _
    | some tool =>
      dsimp only
      by_cases hcompleted : tool.completed = true
      · rw [if_pos hcompleted, if_pos hcompleted]
        exact hcaught _
      rw [if_neg hcompleted, if_neg hcompleted, toolStop, if_neg (Nat.not_le.2 hleft)]
      cases parseJsonObject ports tool.argumentJson with
      | error thrown => exact hcaught _
      | ok input =>
        dsimp only
        rw [if_pos (hresolves tool.name)]
        -- the call is counted, and the tool answers
        refine reads_answers s _ tool.toolUseId rfl ?_ (htools index)
        exact hcancel
  | _ =>
    exact ⟨_, _, _, rfl, rfl, hcancel, rfl⟩

/-- A session that is fed the events reads what `readAll` says. -/
theorem run_feed (bodies : List AgentModelEventBody) (h : Reads s reply toolCallsUsed)
    (hleft : toolCallsUsed + (bodies.map AgentModelEventBody.stops).sum ≤ limits.maxToolCalls) :
    let s' := run (step ports limits) s
      (feed tools (bodies.map fun body => ⟨1, reply.requestId, body⟩))
    match reply.readAll ports bodies with
    | .ok reply' => Reads s' reply' (toolCallsUsed + (bodies.map AgentModelEventBody.stops).sum)
    | .error _ => Failed s' := by
  induction bodies generalizing s reply toolCallsUsed with
  | nil => exact h
  | cons body bodies ih =>
    obtain ⟨toolResults, completedToolCount, hloop⟩ := h
    have hsum : toolCallsUsed + ((body :: bodies).map AgentModelEventBody.stops).sum =
        toolCallsUsed + body.stops + (bodies.map AgentModelEventBody.stops).sum := by
      rw [map_cons, sum_cons, Nat.add_assoc]
    have hsplit : feed tools ((body :: bodies).map fun body => ⟨1, reply.requestId, body⟩) =
        feed tools [⟨1, reply.requestId, body⟩] ++
          feed tools (bodies.map fun body => ⟨1, reply.requestId, body⟩) := by
      simp [feed]
    rw [hsum] at hleft ⊢
    have hevent := run_event hresolves htools hloop (Nat.le_trans (Nat.le_add_right _ _) hleft)
    dsimp only at hevent ⊢
    rw [read_others] at hevent
    rw [hsplit, run_append, ModelReply.readAll]
    cases hread : reply.read ports body with
    | error code =>
      rw [hread] at hevent
      exact Failed.run hevent _
    | ok reply' =>
      rw [hread] at hevent
      obtain ⟨hrequestId, hcontext⟩ := request_read hread
      rw [← hrequestId, ← hcontext] at hevent
      rw [← hrequestId]
      exact ih hevent hleft

end Feed

end AgentKernel
