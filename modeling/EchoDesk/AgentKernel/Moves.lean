import EchoDesk.AgentKernel.Session

/-! # The moves of a session

What a step of a session can do, for every law over its runs: which await leads to which, what is
logged and spent on the way, and what the history gains. A move keeps the answer it was made on,
where a law has a condition on that answer.
-/

namespace AgentKernel

open Option

open Session (pipelineMessages)

/-- Neither a cancellation, nor a terminal event, nor an invocation. -/
def Happening.isQuiet : Happening → Bool
  | .published (.terminal _) => false
  | .invoked _ => false
  | .cancelled _ => false
  | _ => true

/-- The same calls and results, read from the same context. -/
structure ModelReply.SameCalls (reply reply' : ModelReply) : Prop where
  blocks : reply'.assistantBlocks = reply.assistantBlocks
  results : reply'.toolResults = reply.toolResults
  context : reply'.context = reply.context

/-- The reply with the result of a call. -/
def ModelReply.resulted (reply : ModelReply) (id : String) (result : CanonicalToolResult)
    (count : Nat) : ModelReply :=
  { reply with toolResults := reply.toolResults ++ [(id, result)], completedToolCount := count }

/-- The next await, where nothing is thrown and no tool is called. -/
inductive Await.Leads (history : List CanonicalMessage) : Await → Await → Prop
  | counting (id) : Leads history .buildModelContext (.countTokens id history)
  | streaming (requestId context) :
    Leads history (.countTokens requestId context) (.stream { requestId, context })
  | read {reply reply'} (h : reply.SameCalls reply') : Leads history (.stream reply) (.stream reply')
  | relay {reply reply'} (h : reply.SameCalls reply') :
    Leads history (.stream reply) (.relayed reply')
  | late (reply reason) : Leads history (.stream reply) (.lateModelStop reason)
  | readOn (reply) : Leads history (.relayed reply) (.stream reply)
  | validate (reply id) : Leads history (.toolStarted reply id) (.validate reply id)
  | denied (reply id result count) :
    Leads history (.validate reply id) (.relayed (reply.resulted id result count))
  | failed (reply id result count) :
    Leads history (.invoke reply id) (.relayed (reply.resulted id result count))
  | output (reply id result count) :
    Leads history (.invoke reply id) (.toolCompleted (reply.resulted id result count) id)
  | completed {reply reply'} (id) (h : reply.SameCalls reply') :
    Leads history (.toolCompleted reply id) (.stream reply')
  | compact (reply) : Leads history (.messageCompleted reply) (.compactionStarted reply)
  | pipeline (reply) : Leads history (.compactionStarted reply)
      (.runContextTurn reply (pipelineMessages history reply.context))
  | pipelineFailed (reply messages error) :
    Leads history (.runContextTurn reply messages) (.compactionFailed error)
  | summarise (reply summary) :
    Leads history (.compactionCompleted reply summary) (.summaryUpdated reply)
  | summaryFailed (reply summary error) :
    Leads history (.compactionCompleted reply summary) (.compactionFailed error)
  | hand (reply) : Leads history (.summaryUpdated reply) (.compacted reply)
  | handFailed (reply error) : Leads history (.summaryUpdated reply) (.compactionFailed error)

/-- What an answer makes of a turn while the rest of the session stays. -/
inductive Turn.Moves (limits : AgentResourceBudget) (history : List CanonicalMessage) (t : Turn)
    (answer : Answer) : Turn → Prop
  | go (more : Option Happening) (budget await) (hleads : t.await.Leads history await)
      (hquiet : ∀ h ∈ more, h.isQuiet) (hturns : budget.turnsUsed = t.budget.turnsUsed)
      (hcalls : budget.toolCallsUsed = t.budget.toolCallsUsed) :
    Moves limits history t answer { t with budget, await, log := t.log ++ more.toList }
  /-- A call is counted. -/
  | call {reply tool} {version requestId index} (pending input) (hawait : t.await = .stream reply)
      (hanswer : answer = .event ⟨version, requestId, .toolStop index⟩)
      (htool : reply.pending.get? index = some tool)
      (hleft : t.budget.toolCallsUsed < limits.maxToolCalls) :
    Moves limits history t answer
      (Turn.publish { t with budget.toolCallsUsed := t.budget.toolCallsUsed + 1 }
        (.toolStarted tool.toolUseId tool.name)
        (.toolStarted { reply with
          pending
          assistantBlocks := reply.assistantBlocks ++ [.toolUse tool.toolUseId tool.name input] }
          tool.toolUseId))
  | invoke {reply id validation} (hawait : t.await = .validate reply id)
      (hanswer : answer = .validated validation) (hallowed : validation.allowed) :
    Moves limits history t answer
      { t with log := t.log ++ [.invoked id], await := .invoke reply id }
  | revoked {reply id validation} (error) (hawait : t.await = .validate reply id)
      (hanswer : answer = .validated validation) (hdenied : ¬ validation.allowed)
      (hcode : validation.reasonCode = some .grantRevoked) :
    Moves limits history t answer (Turn.caught
      { t with cancelReason := some .grantRevoked, log := t.log ++ [.cancelled .grantRevoked] } error)
  /-- A result that was noted is not published, and is noted again. -/
  | again {reply id error} (code result count) (hawait : t.await = .toolCompleted reply id)
      (hanswer : answer = .thrown error) (hnot : ¬ (t.cancelReason.isSome ∨ error.isAbortError)) :
    Moves limits history t answer
      (t.publish (.toolFailed id code) (.relayed (reply.resulted id result count)))
  | caught (error) (hbegun : t.await ≠ .created) : Moves limits history t answer (t.caught error)
  | cancelled (reason) (hbegun : t.await ≠ .created) (hreason : t.cancelReason.getD reason = reason) :
    Moves limits history t answer (t.terminalEvent (.cancelled reason) false)
  | completed {reply} (hawait : t.await = .compacted reply) (hanswer : answer = .done)
      (hnone : reply.completedToolCount = 0) :
    Moves limits history t answer (t.terminalEvent .completed false)
  | finish (hbegun : t.await ≠ .created) (hended : t.terminal.isSome ∨
      ∃ inCatch, t.await = .terminal inCatch ∨ t.await = .lateTerminal inCatch) :
    Moves limits history t answer { t with await := .finished }

/-- What a label makes of a session. -/
inductive Session.Moves (limits : AgentResourceBudget) (s : Session) : Label → Session → Prop
  | same {l s'} (hturn : s'.turn = s.turn) (hhistory : s'.history = s.history)
      (hrequests : s'.requests = s.requests) (hcheckpoints : s'.checkpoints = s.checkpoints ∨
        ∃ c, c.messages = s.history ∧ s'.checkpoints = s.checkpoints ++ [c]) : Moves limits s l s'
  | opened {l s'} (hturn : s'.turn = none) (hhistory : s'.history = [] ∨
        ∃ checkpoint, l = .resume checkpoint ∧ s'.history = checkpoint.messages)
      (hrequests : s'.requests = s.requests) (hcheckpoints : s'.checkpoints = s.checkpoints) :
    Moves limits s l s'
  | begins {turnId input} (hfree : ¬ (s.closed ∨ s.activeTurn.isSome)) :
    Moves limits s (.runTurn turnId input) (s.withTurn { turnId, input })
  | began {t} (messageId) (hturn : s.turn = some t) (hawait : t.await = .created) :
    Moves limits s (.begin messageId) (s.began t messageId)
  | turn {t t' answer} (hturn : s.turn = some t) (hmoves : t.Moves limits s.history answer t') :
    Moves limits s (.answer answer) (s.withTurn t')
  | request {t answer} (hturn : s.turn = some t)
      (hawait : t.await = .turnStarted ∨ ∃ reply, t.await = .compacted reply)
      (hleft : t.budget.turnsUsed < limits.maxTurns) :
    Moves limits s (.answer answer) { s with
        requests := s.requests ++ [s.history]
        turn := some { t with await := .buildModelContext } }
  | replied {t reply ids event await} (hturn : s.turn = some t) (hawait : t.await = .stream reply)
      (hdrawn : s.Drawn reply ids) (hevent : (Happening.published event).isQuiet)
      (hnext : await = .messageCompleted reply ∨ await = .compactionStarted reply) :
    Moves limits s (.answer (.streamEnd ids))
      (Session.withTurn { s with history := s.history ++ replyMessages reply ids }
        (Turn.publish { t with budget.turnsUsed := t.budget.turnsUsed + 1 } event await))
  | compacted {t reply messages summary} (hturn : s.turn = some t)
      (hawait : t.await = .runContextTurn reply messages) :
    Moves limits s (.answer (.summarised summary)) (s.compacted t reply messages summary)
  | abandoned {t} (hturn : s.turn = some t) (hyields : t.await.yields) :
    Moves limits s .abandon (s.withTurn { t with await := .abandoned })
  | cancelled {l t s'} (reason) (hturn : s.turn = some t) (hopen : t.terminal = none)
      (hcancelled : s'.turn = some { t with
        cancelReason := some (t.cancelReason.getD reason)
        log := t.log ++ [.cancelled reason] })
      (hhistory : s'.history = s.history) (hrequests : s'.requests = s.requests)
      (hcheckpoints : s'.checkpoints = s.checkpoints) : Moves limits s l s'

variable {t : Turn} {s : Session} {ports : Ports} {limits : AgentResourceBudget}
  {reply : ModelReply} {id : String} {answer : Answer} {history : List CanonicalMessage}

/-! ## Segments of a turn -/

namespace Turn

theorem Moves.wait {await : Await} (h : t.await.Leads history await) {budget : BudgetState}
    (hturns : budget.turnsUsed = t.budget.turnsUsed)
    (hcalls : budget.toolCallsUsed = t.budget.toolCallsUsed) :
    t.Moves limits history answer { t with budget, await } := by
  have hgo : t.Moves limits history answer
      { t with budget, log := t.log ++ Option.toList none, await } :=
    .go none budget await h (fun h hh => by cases hh) hturns hcalls
  rwa [toList_none, List.append_nil] at hgo

theorem Moves.note {await : Await} (h : t.await.Leads history await) {happening : Happening}
    (hquiet : happening.isQuiet) :
    t.Moves limits history answer { t with log := t.log ++ [happening], await } :=
  .go (some happening) t.budget await h (by rintro _ ⟨⟩; exact hquiet) rfl rfl

theorem moves_invokeFailed (hbegun : t.await ≠ .created) (error : Thrown)
    (hfailed : ¬ (t.cancelReason.isSome ∨ error.isAbortError) → ∀ code result count,
      t.Moves limits history answer
        (t.publish (.toolFailed id code) (.relayed (reply.resulted id result count)))) :
    t.Moves limits history answer (t.invokeFailed reply id error) := by
  unfold invokeFailed
  split
  · exact .caught error hbegun
  · exact hfailed ‹_› _ _ _

theorem moves_invoked (hawait : t.await = .invoke reply id) (result : CanonicalToolResult) :
    t.Moves limits history answer (t.invoked limits reply id result) := by
  unfold invoked
  split
  · refine moves_invokeFailed (by simp [hawait]) _ fun _ code result count => ?_
    exact .note (hawait ▸ .failed reply id result count) rfl
  · exact .note (hawait ▸ .output reply id result reply.completedToolCount) rfl

theorem moves_validated (hawait : t.await = .validate reply id) (validation : ToolValidation) :
    t.Moves limits history (.validated validation) (t.validated reply id validation) := by
  unfold validated
  split
  · exact .invoke hawait rfl ‹_›
  dsimp only
  split
  · rename_i hdenied hcode
    refine .revoked _ hawait rfl hdenied ?_
    cases hreason : validation.reasonCode with
    | none => simp [hreason] at hcode
    | some code => simpa [hreason] using hcode
  · exact .note (hawait ▸ .denied reply id _ reply.completedToolCount) rfl

theorem moves_receive (hawait : t.await = .stream reply) (event : AgentModelEvent) :
    t.Moves limits history (.event event) (t.receive ports limits reply event.body) := by
  have hcaught : ∀ error, t.Moves limits history (.event event) (t.caught error) :=
    fun error => .caught error (by simp [hawait])
  have hread : ∀ reply', reply.SameCalls reply' →
      t.Moves limits history (.event event) (t.readOn reply') := fun reply' h =>
    .wait (hawait ▸ .read h) rfl rfl
  have hrelay : ∀ (published : KernelEvent) reply', (Happening.published published).isQuiet →
      reply.SameCalls reply' →
        t.Moves limits history (.event event) (t.publish published (.relayed reply')) :=
    fun _ _ hquiet h => .note (hawait ▸ .relay h) hquiet
  obtain ⟨version, requestId, body⟩ := event
  cases body with
  | messageStart | unknown => exact hread reply ⟨rfl, rfl, rfl⟩
  | textDelta text => exact hrelay _ _ rfl ⟨rfl, rfl, rfl⟩
  | toolStart index id name =>
    unfold receive
    dsimp only
    split
    · exact hcaught _
    · exact hrelay _ _ rfl ⟨rfl, rfl, rfl⟩
  | toolArgumentsDelta index json =>
    unfold receive
    dsimp only
    split
    · split
      · exact hcaught _
      · exact hread _ ⟨rfl, rfl, rfl⟩
    · exact hcaught _
  | toolStop index =>
    unfold receive toolStop
    dsimp only
    split
    · rename_i tool htool
      split
      · exact hcaught _
      split
      · exact hcaught _
      rename_i hleft
      split
      · exact hcaught _
      split
      · exact .call _ _ hawait rfl htool (Nat.lt_of_not_le hleft)
      · exact hcaught _
    · exact hcaught _
  | usage inputTokens outputTokens =>
    have hleads : t.await.Leads history (.stream reply) := by
      rw [hawait]
      exact .read ⟨rfl, rfl, rfl⟩
    exact .wait hleads rfl rfl
  | messageStop => exact hread _ ⟨rfl, rfl, rfl⟩
  | error code retryable => exact hcaught _

theorem moves_streamed (hawait : t.await = .stream reply) (event : AgentModelEvent) :
    t.Moves limits history (.event event) (t.streamed ports limits reply event) := by
  have hbegun : t.await ≠ .created := by simp [hawait]
  unfold streamed
  split
  · rename_i reason hreason
    split
    · exact .note (hawait ▸ .late reply reason) rfl
    · exact .cancelled reason hbegun (by rw [hreason, getD_some])
  · split
    · exact .caught _ hbegun
    split
    · exact .caught _ hbegun
    · exact moves_receive hawait event

end Turn

/-! ## Steps of a session -/

namespace Session

theorem moves_settle {next : Session} {failed : Thrown → Session}
    (hnext : answer = .done → s.Moves limits (.answer answer) next)
    (hfailed : ∀ error, answer = .thrown error → s.Moves limits (.answer answer) (failed error)) :
    s.Moves limits (.answer answer) (s.settle answer next failed) := by
  unfold settle
  split
  · exact hnext rfl
  · exact hfailed _ rfl
  · exact .same rfl rfl rfl (.inl rfl)

theorem moves_nextRequest (hturn : s.turn = some t)
    (hawait : t.await = .turnStarted ∨ ∃ reply, t.await = .compacted reply) :
    s.Moves limits (.answer answer) (s.nextRequest limits t) := by
  have hbegun : t.await ≠ .created := by rcases hawait with h | ⟨_, h⟩ <;> simp [h]
  unfold nextRequest
  split
  · exact .turn hturn (.finish hbegun (.inl ‹_›))
  split
  · rename_i reason hreason
    exact .turn hturn (.cancelled reason hbegun (by rw [hreason, getD_some]))
  · split
    · exact .turn hturn (.caught _ hbegun)
    · exact .request hturn hawait (Nat.lt_of_not_le ‹_›)

theorem moves_resumed (hturn : s.turn = some t) (answer : Answer) :
    s.Moves limits (.answer answer) (s.resumed ports limits t answer) := by
  have hsame : s.Moves limits (.answer answer) s := .same rfl rfl rfl (.inl rfl)
  by_cases hbegun : t.await = .created
  · unfold resumed
    rw [hbegun]
    exact hsame
  have hcaught : ∀ error, s.Moves limits (.answer answer) (s.caught t error) :=
    fun error => .turn hturn (.caught error hbegun)
  have hsettle : ∀ {next}, s.Moves limits (.answer answer) next →
      s.Moves limits (.answer answer) (s.settle answer next (s.caught t)) :=
    fun hnext => moves_settle (fun _ => hnext) fun error _ => hcaught error
  have hwait : ∀ {await}, t.await.Leads s.history await →
      s.Moves limits (.answer answer) (s.withTurn { t with await }) :=
    fun hleads => .turn hturn (.wait hleads rfl rfl)
  have hpublish : ∀ {await} {event : KernelEvent}, t.await.Leads s.history await →
      (Happening.published event).isQuiet →
        s.Moves limits (.answer answer) (s.withTurn (t.publish event await)) :=
    fun hleads hquiet => .turn hturn (.note hleads hquiet)
  have hclosing : ∀ inCatch, t.await = .terminal inCatch ∨ t.await = .lateTerminal inCatch →
      s.Moves limits (.answer answer) (s.settle answer (s.finish t)
        fun error => if inCatch then s.finish t else s.caught t error) := by
    intro inCatch hend
    have hfinish : s.Moves limits (.answer answer) (s.finish t) :=
      .turn hturn (.finish hbegun (.inr ⟨inCatch, hend⟩))
    refine moves_settle (fun _ => hfinish) fun error _ => ?_
    split
    · exact hfinish
    · exact hcaught error
  -- each `await` of the source, with what may answer it
  unfold resumed
  cases hawait : t.await with
  | terminal inCatch => exact hclosing inCatch (.inl hawait)
  | lateTerminal inCatch => exact hclosing inCatch (.inr hawait)
  | turnStarted =>
    exact hsettle (moves_nextRequest hturn (.inl hawait))
  | buildModelContext =>
    cases answer with
    | context requestId => exact hwait (hawait ▸ .counting requestId)
    | thrown error => exact hcaught error
    | _ => exact hsame
  | countTokens requestId context =>
    cases answer with
    | counted inputTokens =>
      dsimp only
      unfold counted
      split
      · exact hcaught _
      have hleads : Await.Leads s.history (.countTokens requestId context) _ :=
        .streaming requestId context
      exact .turn hturn (.wait (hawait ▸ hleads) rfl rfl)
    | thrown error => exact hcaught error
    | _ => exact hsame
  | stream reply =>
    cases answer with
    | event event => exact .turn hturn (Turn.moves_streamed hawait event)
    | streamEnd ids =>
      dsimp only
      split
      · rename_i hdrawn
        unfold streamEnded
        split
        · dsimp only
          split
          · exact .replied hturn hawait hdrawn rfl (.inr rfl)
          · exact .replied hturn hawait hdrawn rfl (.inl rfl)
        · exact hcaught _
      · exact hsame
    | thrown error => exact hcaught error
    | _ => exact hsame
  | relayed reply =>
    exact hsettle (hwait (hawait ▸ .readOn reply))
  | toolStarted reply id =>
    exact hsettle (hwait (hawait ▸ .validate reply id))
  | validate reply id =>
    cases answer with
    | validated validation => exact .turn hturn (Turn.moves_validated hawait validation)
    | thrown error => exact hcaught error
    | _ => exact hsame
  | invoke reply id =>
    cases answer with
    | output result => exact .turn hturn (Turn.moves_invoked hawait result)
    | thrown error =>
      refine .turn hturn (Turn.moves_invokeFailed hbegun error ?_)
      exact fun _ code result count => .note (hawait ▸ .failed reply id result count) rfl
    | _ => exact hsame
  | toolCompleted reply id =>
    -- a publish that fails is caught as a failure of the tool
    refine moves_settle (fun _ => hwait (hawait ▸ .completed id ⟨rfl, rfl, rfl⟩)) ?_
    intro error herror
    refine .turn hturn (Turn.moves_invokeFailed hbegun error ?_)
    exact fun hnot code result count => .again code result count hawait herror hnot
  | lateModelStop reason =>
    refine hsettle (.turn hturn (.cancelled _ hbegun ?_))
    cases t.cancelReason <;> rfl
  | messageCompleted reply =>
    exact hsettle (hpublish (hawait ▸ .compact reply) rfl)
  | compactionStarted reply =>
    exact hsettle (hwait (hawait ▸ .pipeline reply))
  | runContextTurn reply messages =>
    cases answer with
    | summarised summary => exact .compacted hturn hawait
    | thrown error => exact hpublish (hawait ▸ .pipelineFailed reply messages error) rfl
    | _ => exact hsame
  | compactionCompleted reply summary =>
    exact moves_settle (fun _ => hpublish (hawait ▸ .summarise reply summary) rfl)
      fun error _ => hpublish (hawait ▸ .summaryFailed reply summary error) rfl
  | summaryUpdated reply =>
    exact moves_settle (fun _ => hwait (hawait ▸ .hand reply))
      fun error _ => hpublish (hawait ▸ .handFailed reply error) rfl
  | compactionFailed error =>
    exact hsettle (hcaught error)
  | compacted reply =>
    refine moves_settle (fun hdone => ?_) fun error _ => hcaught error
    -- a reply with tool results asks for another request
    unfold requestDone
    split
    · exact moves_nextRequest hturn (.inr ⟨reply, hawait⟩)
    · exact .turn hturn (.completed hawait hdone (by omega))
  | _ => exact hsame

theorem moves_cancelled (l : Label) (reason : CancelReason) {closed : Bool} :
    s.Moves limits l { s.cancelled reason with closed } := by
  unfold cancelled
  split
  · rename_i t hactive
    have hturn : s.turn = some t := (filter_eq_some_iff.1 hactive).1
    split
    · exact .same rfl rfl rfl (.inl rfl)
    · rename_i hopen
      exact .cancelled reason hturn (not_isSome_iff_eq_none.1 hopen) rfl rfl rfl rfl
  · exact .same rfl rfl rfl (.inl rfl)

theorem moves_step (l : Label) : s.Moves limits l (s.step ports limits l) := by
  have hsame : s.Moves limits l s := .same rfl rfl rfl (.inl rfl)
  cases l with
  | openSession => exact .opened rfl (.inl rfl) rfl rfl
  | resume checkpoint => exact .opened rfl (.inr ⟨checkpoint, rfl, rfl⟩) rfl rfl
  | runTurn turnId input =>
    simp only [step]
    split
    · exact hsame
    · exact .begins ‹_›
  | begin messageId =>
    simp only [step]
    split
    · split
      · exact .began messageId ‹_› ‹_›
      · exact hsame
    · exact hsame
  | answer answer =>
    simp only [step]
    split
    · exact moves_resumed ‹_› answer
    · exact hsame
  | abandon =>
    simp only [step]
    split
    · split
      · exact .abandoned ‹_› ‹_›
      · exact hsame
    · exact hsame
  | cancel reason =>
    simp only [step]
    split
    · exact hsame
    · exact moves_cancelled _ reason
  | close =>
    simp only [step]
    split
    · exact hsame
    · exact moves_cancelled _ .user
  | checkpoint =>
    simp only [step]
    split <;> exact .same rfl rfl rfl (.inl rfl)
  | takeCheckpoint checkpointId lastDurableEventSeq =>
    simp only [step]
    split
    · exact hsame
    · exact .same rfl rfl rfl (.inr ⟨_, rfl, rfl⟩)

end Session

end AgentKernel
