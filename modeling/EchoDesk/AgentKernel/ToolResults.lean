import EchoDesk.AgentKernel.Moves

/-! # Tool calls and their results in the history

The calls of a reply and their results are collected while the stream is read and added to the
history after it, so that each call of a round has its result. This fails when every call of a
reply is denied, since the results are then left out; when a reply uses an id twice; when the
publication of a result throws, since the result is then noted a second time; and when the
user's own message holds tool blocks.
-/

namespace AgentKernel

open EchoDesk Pairing Transition List Session ModelReply CanonicalContentBlock

variable {t : Turn} {s : Session} {ports : Ports} {limits : AgentResourceBudget}
  {reply : ModelReply} {ids : List String}

/-! ## The law -/

/-- Each `tool_use` of the messages is followed by exactly one `tool_result` of its id before
the next assistant message, and each `tool_result` has its `tool_use`. -/
def PairedMessages (messages : List CanonicalMessage) : Prop := Paired (marks messages)

instance (messages : List CanonicalMessage) : Decidable (PairedMessages messages) :=
  inferInstanceAs (Decidable (Paired (marks messages)))

/-- The law: what a model context is built from is paired, and so is every checkpoint that is
taken between two turns. -/
structure Session.ResultsPaired (s : Session) : Prop where
  requests : ∀ messages ∈ s.requests, PairedMessages messages
  checkpoints : ∀ c ∈ s.checkpoints, c.betweenTurns → PairedMessages c.messages

def ModelReply.resultIds (reply : ModelReply) : List String := reply.toolResults.map Prod.fst

/-- No answer loses a result or notes one twice: a reply uses no id twice and does not consist
of denied calls alone, and a result that is noted is also published. -/
def Turn.Orderly (t : Turn) (answer : Answer) : Prop :=
  match t.await, answer with
  | .stream reply, .event ⟨_, _, .toolStop index⟩ =>
    ∀ tool ∈ reply.pending.get? index, tool.toolUseId ∉ reply.resultIds
  | .stream reply, .streamEnd _ => reply.toolResults ≠ [] → 0 < reply.completedToolCount
  | .toolCompleted _ _, .thrown error => t.cancelReason.isSome ∨ error.isAbortError
  | _, _ => True

/-- The same, and a user's message has no tool blocks and a session is resumed from paired
messages. -/
def Orderly (s : Session) : Label → Prop
  | .resume checkpoint => PairedMessages checkpoint.messages
  | .begin _ =>
    ∀ t ∈ s.turn, (userContentBlocks t.input).filterMap CanonicalContentBlock.mark = []
  | .answer answer => ∀ t ∈ s.turn, t.Orderly answer
  | _ => True

instance (t : Turn) (answer : Answer) : Decidable (t.Orderly answer) := by
  unfold Turn.Orderly
  split <;> infer_instance

instance (s : Session) (l : Label) : Decidable (Orderly s l) := by
  unfold Orderly
  split <;> infer_instance

/-! ## Where a reply stands -/

/-- The reply has its results, but for the calls that are under way. -/
structure ModelReply.Sound (reply : ModelReply) (underway : List String) : Prop where
  blocks : reply.assistantBlocks.filterMap CanonicalContentBlock.mark =
    (reply.resultIds ++ underway).map Mark.call
  nodup : (reply.resultIds ++ underway).Nodup

/-- What a turn that waits there needs of the history. -/
def Await.InOrder (history : List CanonicalMessage) : Await → Prop
  | .countTokens _ context => context = history
  | .stream reply => reply.Sound [] ∧ reply.context = history
  | .relayed reply => reply.Sound [] ∧ reply.context = history
  | .toolStarted reply toolUseId => reply.Sound [toolUseId] ∧ reply.context = history
  | .validate reply toolUseId => reply.Sound [toolUseId] ∧ reply.context = history
  | .invoke reply toolUseId => reply.Sound [toolUseId] ∧ reply.context = history
  | .toolCompleted reply _ => reply.Sound [] ∧ reply.context = history
  | .messageCompleted reply => Session.pipelineMessages history reply.context = history
  | .compactionStarted reply => Session.pipelineMessages history reply.context = history
  | .runContextTurn _ messages => messages = history
  | _ => True

structure Session.InOrder (s : Session) : Prop where
  history : PairedMessages s.history
  requests : ∀ messages ∈ s.requests, PairedMessages messages
  checkpoints : ∀ c ∈ s.checkpoints, PairedMessages c.messages
  turn : ∀ t, s.turn = some t → t.await.InOrder s.history

theorem ModelReply.Sound.resulted {toolUseId : String} (h : reply.Sound [toolUseId])
    {result : CanonicalToolResult} {count : Nat} : Sound { reply with
      toolResults := reply.toolResults ++ [(toolUseId, result)]
      completedToolCount := count } [] := by
  have hids : reply.resultIds ++ [toolUseId] =
      (reply.toolResults ++ [(toolUseId, result)]).map Prod.fst := by
    simp [resultIds]
  constructor
  · have hblocks := h.blocks
    rw [hids] at hblocks
    simpa [resultIds] using hblocks
  · have hnodup := h.nodup
    rw [hids] at hnodup
    simpa [resultIds] using hnodup

/-- The call of a `tool_stop`. -/
theorem ModelReply.Sound.called (h : reply.Sound []) {toolUseId name : String}
    {input : JsonObject} {pending : Keyed ToolState.index} (hnew : toolUseId ∉ reply.resultIds) :
    Sound { reply with
      pending := pending
      assistantBlocks := reply.assistantBlocks ++ [.toolUse toolUseId name input] }
      [toolUseId] := by
  have hblocks := h.blocks
  have hnodup := h.nodup
  rw [append_nil] at hblocks hnodup
  constructor
  · rw [filterMap_append, hblocks, map_append]
    rfl
  rw [nodup_append]
  refine ⟨hnodup, nodup_singleton _, ?_⟩
  intro id hid id' hid' heq
  rw [mem_singleton.1 hid'] at heq
  exact hnew (heq ▸ hid)

/-! ## The messages of a reply -/

theorem marks_resultMessages (h0 : ids.length = reply.toolResults.length)
    (hcount : reply.toolResults ≠ [] → 0 < reply.completedToolCount) :
    marks (resultMessages reply ids) = reply.resultIds.map Mark.ret := by
  have hzip : ∀ (results : List (String × CanonicalToolResult)) (ids : List String),
      ids.length = results.length → marks (ids.zipWith resultMessage results) =
          (results.map Prod.fst).map Mark.ret := by
    intro results
    induction results with
    | nil =>
      intro ids _
      rw [zipWith_nil_right]
      rfl
    | cons result results ih =>
      intro ids hlength
      cases ids with
      | nil => exact absurd hlength (by simp)
      | cons id ids =>
        rw [zipWith_cons_cons, marks_cons, ih ids (by simpa using hlength)]
        rfl
  unfold resultMessages
  split
  · exact hzip reply.toolResults ids h0
  rename_i hnone
  have hnil : reply.toolResults = [] := by
    by_contra hne
    exact hnone (hcount hne)
  rw [resultIds, hnil]
  rfl

/-- What a reply adds to the history is one paired round, or nothing. -/
theorem paired_replyMessages (h : reply.Sound [])
    (hcount : reply.toolResults ≠ [] → 0 < reply.completedToolCount)
    (hlength : ids.length = reply.toolResults.length + 1)
    {messages : List CanonicalMessage} (hmessages : PairedMessages messages) :
    PairedMessages (messages ++ replyMessages reply ids) := by
  have hblocks := h.blocks
  have hnodup := h.nodup
  rw [append_nil] at hblocks hnodup
  unfold PairedMessages replyMessages
  rw [marks_append]
  split
  · rename_i hnil
    have hassistant : reply.assistantBlocks = [] := by
      unfold replyBlocks at hnil
      split at hnil
      · exact hnil
      · exact absurd hnil (by simp)
    rw [hassistant] at hblocks
    have hresults : reply.toolResults = [] := by
      simpa [resultIds] using hblocks.symm
    have hnone : resultMessages reply ids = [] := by
      unfold resultMessages
      rw [hresults, zipWith_nil_right]
      split <;> rfl
    rw [hnone, marks_nil, append_nil]
    exact hmessages
  · have htail : ids.tail.length = reply.toolResults.length := by
      rw [length_tail, hlength]
      rfl
    have hround : (replyBlocks reply).filterMap mark = reply.resultIds.map Mark.call := by
      unfold replyBlocks
      split
      · exact hblocks
      · exact hblocks
    rw [marks_cons, marks_resultMessages htail hcount]
    show Paired (marks messages ++ Mark.round :: ((replyBlocks reply).filterMap mark ++ _))
    rw [hround, paired_append_round]
    exact ⟨hmessages, paired_calls_rets hnodup⟩

theorem mem_replyMessages {m : CanonicalMessage} (hlength : ids ≠ [])
    (hm : m ∈ replyMessages reply ids) : m.messageId ∈ ids := by
  have hresult : ∀ ids' : List String, m ∈ resultMessages reply ids' → m.messageId ∈ ids' := by
    intro ids' hm
    unfold resultMessages at hm
    split at hm
    · obtain ⟨i, hi, heq⟩ := mem_iff_getElem.1 hm
      rw [← heq, getElem_zipWith]
      exact getElem_mem _
    · exact absurd hm not_mem_nil
  unfold replyMessages at hm
  split at hm
  · exact hresult ids hm
  rcases mem_cons.1 hm with rfl | hm
  · cases ids with
    | nil => exact absurd rfl hlength
    | cons id ids => exact mem_cons_self
  · exact mem_of_mem_tail (hresult _ hm)

/-- The new messages are not known, so the pipeline takes them after the context. -/
theorem pipelineMessages_append {history added : List CanonicalMessage}
    (hnew : ∀ m ∈ added, m.messageId ∉ history.map CanonicalMessage.messageId) :
    pipelineMessages (history ++ added) history = history ++ added := by
  unfold pipelineMessages
  have hold : history.filter (fun m => m.messageId ∉ history.map CanonicalMessage.messageId) =
      [] := by
    rw [filter_eq_nil_iff]
    intro m hm
    simpa using ⟨m, hm, rfl⟩
  have hadded : added.filter (fun m => m.messageId ∉ history.map CanonicalMessage.messageId) =
      added := by
    rw [filter_eq_self]
    intro m hm
    simpa using hnew m hm
  dsimp only
  rw [filter_append, hold, hadded, nil_append]

/-! ## What the segments keep -/

namespace Turn

variable {history : List CanonicalMessage}

theorem inOrder_terminalEvent (event : TerminalEvent) (inCatch : Bool) :
    (t.terminalEvent event inCatch).await.InOrder history := by
  unfold terminalEvent
  split <;> trivial

theorem inOrder_caught (error : Thrown) : (t.caught error).await.InOrder history := by
  unfold caught
  split
  · exact inOrder_terminalEvent _ _
  · exact inOrder_terminalEvent _ _

/-- A reply without a new call or result. -/
theorem sound_of_same {reply' : ModelReply} (h : reply.Sound []) (hsame : reply.SameCalls reply') :
    reply'.Sound [] := by
  have hids : reply'.resultIds = reply.resultIds := by
    rw [resultIds, resultIds, hsame.results]
  constructor
  · rw [hsame.blocks, hids]
    exact h.blocks
  · rw [hids]
    exact h.nodup

theorem inOrder_leads {a b : Await} (hleads : a.Leads history b) (ha : a.InOrder history) :
    b.InOrder history := by
  cases hleads with
  | counting => rfl
  | streaming => exact ⟨⟨rfl, nodup_nil⟩, ha⟩
  | read hsame | relay hsame | completed _ hsame =>
    exact ⟨sound_of_same ha.1 hsame, hsame.context.trans ha.2⟩
  | denied | failed | output => exact ⟨ha.1.resulted, ha.2⟩
  | readOn | validate | compact | pipeline => exact ha
  | _ => trivial

theorem inOrder_moves {answer : Answer} {t' : Turn} (hmoves : t.Moves limits history answer t')
    (ht : t.await.InOrder history) (hguard : t.Orderly answer) : t'.await.InOrder history := by
  unfold Turn.Orderly at hguard
  cases hmoves with
  | go more budget await hleads => exact inOrder_leads hleads ht
  | call pending input hawait hanswer htool =>
    rw [hawait] at ht hguard
    rw [hanswer] at hguard
    exact ⟨ht.1.called (hguard _ htool), ht.2⟩
  | invoke hawait =>
    rw [hawait] at ht
    exact ht
  | revoked error => exact inOrder_caught error
  | again code result count hawait hanswer hnot =>
    rw [hawait, hanswer] at hguard
    exact absurd hguard hnot
  | caught error => exact inOrder_caught error
  | cancelled reason | completed => exact inOrder_terminalEvent _ _
  | finish => trivial

end Turn

/-! ## What a step keeps -/

namespace Session

/-- A turn in order, in a session whose history has gained paired messages. -/
theorem InOrder.withTurn (hs : s.InOrder) {s' : Session} (hturn : s'.turn = some t)
    (ht : t.await.InOrder s'.history) (hhistory : PairedMessages s'.history)
    (hrequests : s'.requests = s.requests) (hcheckpoints : s'.checkpoints = s.checkpoints) :
    s'.InOrder := by
  constructor
  · exact hhistory
  · rw [hrequests]
    exact hs.requests
  · rw [hcheckpoints]
    exact hs.checkpoints
  · intro t' heq
    cases hturn.symm.trans heq
    exact ht

theorem InOrder.replied (hs : s.InOrder) (h : reply.Sound []) (hcontext : reply.context = s.history)
    (hdrawn : s.Drawn reply ids) (hcount : reply.toolResults ≠ [] → 0 < reply.completedToolCount) :
    PairedMessages (s.history ++ replyMessages reply ids) ∧
      pipelineMessages (s.history ++ replyMessages reply ids) reply.context =
        s.history ++ replyMessages reply ids := by
  obtain ⟨hlength, _, hfresh⟩ := hdrawn
  have hne : ids ≠ [] := by
    rintro rfl
    exact absurd hlength (by simp)
  refine ⟨paired_replyMessages h hcount hlength hs.history, ?_⟩
  rw [hcontext]
  apply pipelineMessages_append
  intro m hm
  exact hfresh _ (mem_replyMessages hne hm)

theorem InOrder.step (hs : s.InOrder) {l : Label} (horderly : Orderly s l) :
    (s.step ports limits l).InOrder := by
  have hmoves : s.Moves limits l (s.step ports limits l) := moves_step l
  revert hmoves
  generalize s.step ports limits l = s'
  intro hmoves
  cases hmoves with
  | same hturn hhistory hrequests hcheckpoints =>
    constructor
    · rw [hhistory]
      exact hs.history
    · rw [hrequests]
      exact hs.requests
    · intro c hc
      -- a checkpoint that is taken holds the history
      rcases hcheckpoints with hsame | ⟨taken, htaken, hmore⟩
      · exact hs.checkpoints c (hsame ▸ hc)
      rw [hmore] at hc
      rcases mem_append.1 hc with hold | hnew
      · exact hs.checkpoints c hold
      · rw [mem_singleton.1 hnew, htaken]
        exact hs.history
    · rw [hturn, hhistory]
      exact hs.turn
  | opened hturn hhistory hrequests hcheckpoints =>
    constructor
    -- the history starts empty, or is a checkpoint's
    · rcases hhistory with hnil | ⟨checkpoint, rfl, heq⟩
      · rw [hnil]
        exact paired_nil
      · rw [heq]
        exact horderly
    · rw [hrequests]
      exact hs.requests
    · rw [hcheckpoints]
      exact hs.checkpoints
    · intro t ht
      exact absurd (hturn.symm.trans ht) (by simp)
  | begins => exact hs.withTurn rfl trivial hs.history rfl rfl
  | began messageId hturn =>
    refine hs.withTurn rfl trivial ?_ rfl rfl
    -- the user's message has no tool blocks
    show Paired (marks (s.history ++ [_]))
    rw [marks_append, marks_cons, marks_nil, append_nil]
    show Paired (marks s.history ++ (userContentBlocks _).filterMap mark)
    rw [horderly _ hturn, append_nil]
    exact hs.history
  | turn hturn hmoves =>
    exact hs.withTurn rfl (Turn.inOrder_moves hmoves (hs.turn _ hturn) (horderly _ hturn))
      hs.history rfl rfl
  | request hturn =>
    constructor
    · exact hs.history
    -- a request sends the history
    · intro messages hmessages
      rcases mem_append.1 hmessages with hold | hnew
      · exact hs.requests messages hold
      · rw [mem_singleton.1 hnew]
        exact hs.history
    · exact hs.checkpoints
    · rintro t' ⟨⟩
      trivial
  | @replied t _ _ _ _ hturn hawait hdrawn _ hnext =>
    have ht := hs.turn t hturn
    have hguard : t.Orderly _ := horderly t hturn
    unfold Turn.Orderly at hguard
    rw [hawait] at ht hguard
    -- every call of the reply comes with its result
    obtain ⟨hpaired, hpipeline⟩ := hs.replied ht.1 ht.2 hdrawn hguard
    refine hs.withTurn rfl ?_ hpaired rfl rfl
    rcases hnext with rfl | rfl <;> exact hpipeline
  | @compacted t _ _ _ hturn hawait =>
    have ht := hs.turn t hturn
    rw [hawait] at ht
    refine hs.withTurn rfl trivial ?_ rfl rfl
    -- compaction keeps the marks of the history
    show Paired (marks (microCompactMessages _ { keepRecent := 1 }).messages)
    rw [marks_microCompactMessages, show _ = s.history from ht]
    exact hs.history
  | abandoned hturn => exact hs.withTurn rfl trivial hs.history rfl rfl
  | @cancelled _ t _ _ hturn _ hcancelled hhistory hrequests hcheckpoints =>
    refine hs.withTurn hcancelled ?_ ?_ hrequests hcheckpoints
    · rw [hhistory]
      exact hs.turn t hturn
    · rw [hhistory]
      exact hs.history

end Session

/-- Along a run whose steps lose no result, every request and every checkpoint is paired. -/
theorem resultsPaired_of_orderly (ports : Ports) (limits : AgentResourceBudget)
    (trace : List Label) (h : Meets (Session.step ports limits) Orderly {} trace) :
    (run (Session.step ports limits) {} trace).ResultsPaired := by
  have hinit : Session.InOrder {} := by
    constructor
    · exact paired_nil
    · exact fun _ h => absurd h List.not_mem_nil
    · exact fun _ h => absurd h List.not_mem_nil
    · exact fun _ h => absurd h (by simp)
  have hend := run_invariant_of_meets (fun s l ho hs => Session.InOrder.step hs ho) h hinit
  exact ⟨hend.requests, fun c hc _ => hend.checkpoints c hc⟩

/-! ## A reply of denied calls -/

private def bashOnly : Ports where
  parse json := if json = "{}" then some (.obj []) else none
  resolves name := name = "Bash"

private def twoTurns : AgentResourceBudget where
  maxTurns := 2
  maxToolCalls := 2
  maxModelInputTokens := 1000
  maxToolOutputBytes := 1000

/-- A request whose model asks for one tool, up to the validation of the call. -/
private def untilValidation : List Label :=
  [.runTurn "turn" { userMessage := .text "hello" }, .begin "user", .answer .done,
    .answer (.context "request"), .answer (.counted 1),
    .answer (.event ⟨1, "request", .toolStart 0 "call" "Bash"⟩), .answer .done,
    .answer (.event ⟨1, "request", .toolArgumentsDelta 0 "{}"⟩),
    .answer (.event ⟨1, "request", .toolStop 0⟩), .answer .done]

/-- The end of the reply, the compaction and the next event that the consumer asks for. -/
private def untilCompacted : List Label :=
  [.answer .done, .answer (.event ⟨1, "request", .messageStop⟩),
    .answer (.streamEnd ["assistant", "result"]), .answer .done,
    .answer (.summarised ⟨"", "", true⟩), .answer .done, .answer .done, .answer .done]

theorem resultsPaired_after_output : (run (Session.step bashOnly twoTurns) {} (untilValidation ++
      [.answer (.validated { allowed := true }), .answer (.output ⟨"done", false, none⟩)] ++
      untilCompacted)).ResultsPaired := by
  apply resultsPaired_of_orderly
  decide +kernel

/-- A turn whose only call is denied ends as succeeded, and the checkpoint that is taken after
it holds the call without a result. -/
theorem denied_call_unanswered : ¬ (run (Session.step bashOnly twoTurns) {} (untilValidation ++
    [.answer (.validated { allowed := false })] ++ untilCompacted ++
    [.answer .done, .checkpoint, .takeCheckpoint "checkpoint" 1])).ResultsPaired := by
  intro hpaired
  have hrun : (run (Session.step bashOnly twoTurns) {} (untilValidation ++
      [.answer (.validated { allowed := false })] ++ untilCompacted ++
      [.answer .done, .checkpoint, .takeCheckpoint "checkpoint" 1])).checkpoints.map
        (fun c => (c.betweenTurns, decide (PairedMessages c.messages))) = [(true, false)] := by
    decide +kernel
  obtain ⟨c, hc, hpair⟩ := List.mem_map.1 (hrun ▸ List.mem_singleton_self (true, false))
  obtain ⟨hbetween, hnot⟩ := Prod.mk.inj hpair
  exact of_decide_eq_false hnot (hpaired.checkpoints c hc hbetween)

end AgentKernel
