import EchoDesk.ModelRuntime.Stream

/-! # The calls of a stream

Whatever the chunks are, the events of a normaliser open a call once, add fragments to open calls
only, and close a call with the object its fragments are read as. Both providers keep that with
the same four operations on the state.
-/

namespace ModelRuntime

open EchoDesk Transaction JsonSyntax List Option

/-- A tool call as the events tell it. -/
structure Call where
  index : Int
  id : String
  name : String
  text : String
  closed : Bool

/-- The text that is read as the input of a call. -/
def inputText (text : String) : String := if text = "" then "{}" else text

def StreamEvent.isCallEvent : StreamEvent → Bool
  | .toolStart _ _ _ => true
  | .toolArgumentsDelta _ _ => true
  | .toolStop _ _ _ _ => true
  | _ => false

variable (floats : Floats)
variable {tool : ToolState} {event : StreamEvent}
variable {f : StreamState → StreamState} {index : Int} {provider : Provider} {text : String}

/-- Events that follow the protocol of calls, and the calls they leave. -/
inductive Coherent : List StreamEvent → Keyed Call.index → Prop where
  | nil : Coherent [] Keyed.empty
  | other {events calls event} : Coherent events calls → StreamEvent.isCallEvent event = false →
      StreamEvent.isError event = false → Coherent (events ++ [event]) calls
  | start {events calls index id name} : Coherent events calls → calls.get? index = none →
      id ≠ "" → name ≠ "" →
      Coherent (events ++ [.toolStart index id name]) (calls.put ⟨index, id, name, "", false⟩)
  | fragment {events calls call} : Coherent events calls →
      calls.get? call.index = some call → call.closed = false → ∀ json,
      Coherent (events ++ [.toolArgumentsDelta call.index json])
        (calls.put { call with text := call.text ++ json })
  | stop {events calls call input} : Coherent events calls →
      calls.get? call.index = some call → call.closed = false →
      jsonLoads floats (inputText call.text) = some (.obj input) →
      Coherent (events ++ [.toolStop call.index call.id call.name input])
        (calls.put { call with closed := true })

/-- The events so far are coherent, and the tools are their calls; `texts` tells whether text
blocks stand among the tools. -/
structure Tracked (texts : Bool) (s : StreamState) (calls : Keyed Call.index) : Prop where
  alive : s.failed = false
  coherent : Coherent floats s.events calls
  untracked : ∀ index tool, s.tools.get? index = some tool → calls.get? index = none →
    texts = true ∧ tool.name = textName
  tracked : ∀ index call, calls.get? index = some call → ∃ tool, s.tools.get? index = some tool ∧
    tool.toolUseId = call.id ∧ tool.name = call.name ∧ tool.arguments = call.text ∧
    (tool.closed = false → call.closed = false)

def Tracks (texts : Bool) (s : StreamState) : Prop := ∃ calls, Tracked floats texts s calls

variable {floats} {texts : Bool} {s s' : StreamState} {calls : Keyed Call.index}

/-! ## The four operations -/

/-- What is not an event or a tool does not matter. -/
theorem Tracked.congr (h : Tracked floats texts s calls) (hevents : s'.events = s.events)
    (htools : s'.tools = s.tools) : Tracked floats texts s' calls where
  alive := by
    unfold StreamState.failed
    rw [hevents]
    exact h.alive
  coherent := hevents ▸ h.coherent
  untracked := htools ▸ h.untracked
  tracked := htools ▸ h.tracked

theorem emit_of_alive (halive : s.failed = false) (event : StreamEvent) :
    s.emit event = { s with events := s.events ++ [event] } := by
  unfold StreamState.emit
  rw [halive]
  rfl

theorem tools_emit (s : StreamState) (event : StreamEvent) : (s.emit event).tools = s.tools := by
  unfold StreamState.emit
  split <;> rfl

theorem failed_append (halive : s.failed = false) (hevent : event.isError = false) :
    (s.events ++ [event]).any StreamEvent.isError = false := by
  rw [any_append, any_cons, hevent, any_nil]
  exact Bool.or_eq_false_iff.2 ⟨halive, rfl⟩

section

variable (h : Tracked floats texts s calls)

include h

/-- An event that is neither of a call nor an error. -/
theorem Tracked.emit (hcall : event.isCallEvent = false) (herror : event.isError = false) :
    Tracked floats texts (s.emit event) calls := by
  rw [emit_of_alive h.alive]
  exact ⟨failed_append h.alive herror, .other h.coherent hcall herror, h.untracked, h.tracked⟩

/-- A tool that no call event tells of: a text block, or an entry closed without an event. -/
theorem Tracked.put
    (huntracked : calls.get? tool.index = none → texts = true ∧ tool.name = textName)
    (htracked : ∀ call, calls.get? tool.index = some call → tool.toolUseId = call.id ∧
      tool.name = call.name ∧ tool.arguments = call.text ∧ tool.closed = true) :
    Tracked floats texts { s with tools := s.tools.put tool } calls where
  __ := h
  untracked index other hother hnone := by
    rw [Keyed.get?_put] at hother
    split at hother
    · rename_i heq
      cases hother
      exact huntracked (heq ▸ hnone)
    · exact h.untracked index other hother hnone
  tracked index call hcall := by
    rw [Keyed.get?_put]
    by_cases heq : index = tool.index
    · rw [if_pos heq]
      obtain ⟨hid, hname, htext, hclosed⟩ := htracked call (heq ▸ hcall)
      refine ⟨tool, rfl, hid, hname, htext, ?_⟩
      intro hopen
      rw [hclosed] at hopen
      cases hopen
    · rw [if_neg heq]
      exact h.tracked index call hcall

/-- A call changes along with its tool. -/
theorem Tracked.putBoth (tool : ToolState) (call : Call) (herror : event.isError = false)
    (hindex : call.index = tool.index)
    (hcoherent : Coherent floats (s.events ++ [event]) (calls.put call))
    (hid : tool.toolUseId = call.id) (hname : tool.name = call.name)
    (htext : tool.arguments = call.text) (hclosed : tool.closed = false → call.closed = false) :
    Tracked floats texts ({ s with tools := s.tools.put tool }.emit event) (calls.put call) := by
  have halive : StreamState.failed { s with tools := s.tools.put tool } = false := h.alive
  rw [emit_of_alive halive]
  refine ⟨failed_append h.alive herror, hcoherent, ?_, ?_⟩
  · intro index other hother hnone
    rw [Keyed.get?_put] at hnone
    split at hnone
    · cases hnone
    rename_i hne
    have hother' : s.tools.get? index = some other := by
      rw [Keyed.get?_put, if_neg (hindex ▸ hne)] at hother
      exact hother
    exact h.untracked index other hother' hnone
  intro index other hother
  rw [Keyed.get?_put] at hother ⊢
  by_cases heq : index = call.index
  · rw [if_pos heq] at hother
    rw [if_pos (heq.trans hindex)]
    cases hother
    exact ⟨tool, rfl, hid, hname, htext, hclosed⟩
  · rw [if_neg heq] at hother
    rw [if_neg (hindex ▸ heq)]
    exact h.tracked index other hother

/-- A tool stands in the state, is open, and a call tells of it. -/
structure Open (s : StreamState) (calls : Keyed Call.index) (tool : ToolState) : Prop where
  mem : s.tools.get? tool.index = some tool
  opened : tool.closed = false
  called : (calls.get? tool.index).isSome

/-- The call of an open tool. -/
theorem Open.call (ho : Open s calls tool) :
    ∃ call, calls.get? call.index = some call ∧ call.index = tool.index ∧
      tool.toolUseId = call.id ∧ tool.name = call.name ∧ tool.arguments = call.text ∧
      call.closed = false := by
  obtain ⟨call, hcall⟩ := isSome_iff_exists.1 ho.called
  have hindex : call.index = tool.index := (Keyed.mem_get?.1 hcall).2
  obtain ⟨tool', htool', hid, hname, htext, hclosed⟩ := h.tracked _ call hcall
  cases ho.mem.symm.trans htool'
  exact ⟨call, hindex ▸ hcall, hindex, hid, hname, htext, hclosed ho.opened⟩

/-- An entry that is no text block is a call. -/
theorem Tracked.isSome_of_ne (hmem : s.tools.get? index = some tool)
    (hne : texts = false ∨ tool.name ≠ textName) : (calls.get? index).isSome := by
  cases hcall : calls.get? index with
  | some call => rfl
  | none =>
    obtain ⟨htexts, hname⟩ := h.untracked index tool hmem hcall
    rcases hne with hfalse | hne
    · rw [hfalse] at htexts
      cases htexts
    · exact absurd hname hne

theorem Tracked.open_of_get (hmem : s.tools.get? index = some tool) (hopen : tool.closed = false)
    (hne : texts = false ∨ tool.name ≠ textName) : Open s calls tool := by
  have hindex : tool.index = index := (Keyed.mem_get?.1 hmem).2
  subst hindex
  exact ⟨hmem, hopen, h.isSome_of_ne hmem hne⟩

end

theorem ne_empty_of_nonEmpty {value : Json} {fieldName : String}
    (h : nonEmpty value fieldName = .ok text) : text ≠ "" := by
  unfold nonEmpty at h
  split at h
  · split at h
    · cases h
    rename_i s hne
    cases h
    rintro rfl
    exact hne (by decide)
  · cases h

theorem returns_update {a : Unit} : Returns (update f) s a s' ↔ f s = s' := by
  unfold update
  simp [eq_comm]

theorem newTool_spec {toolUseId name : Json} (h : Returns (newTool index toolUseId name) s tool s')
    (ht : Tracked floats texts s calls) :
    ∃ calls', Tracked floats texts s' calls' ∧ Open s' calls' tool := by
  unfold newTool at h
  simp only [returns_bind, returns_fromExcept, returns_get] at h
  obtain ⟨id, _, ⟨hid, rfl⟩, toolName, _, ⟨hname, rfl⟩, _, _, ⟨rfl, rfl⟩, h⟩ := h
  obtain ⟨hfresh, h⟩ := returns_guard.1 h
  obtain ⟨_, _, rfl, rfl, rfl⟩ := h
  rw [not_or] at hfresh
  have hnone : s.tools.get? index = none := by
    cases hget : s.tools.get? index with
    | none => rfl
    | some old =>
      rw [hget] at hfresh
      exact absurd rfl hfresh.1
  have hcall : calls.get? index = none := by
    cases hget : calls.get? index with
    | none => rfl
    | some call =>
      obtain ⟨old, hold, -⟩ := ht.tracked index call hget
      rw [hnone] at hold
      cases hold
  have hids : Tracked floats texts { s with toolIds := s.toolIds ++ [id] } calls :=
    ht.congr rfl rfl
  have hcoherent := Coherent.start ht.coherent hcall (ne_empty_of_nonEmpty hid)
    (ne_empty_of_nonEmpty hname)
  have hnew := hids.putBoth { index, toolUseId := id, name := toolName }
    ⟨index, id, toolName, "", false⟩ rfl rfl hcoherent rfl rfl rfl fun _ => rfl
  refine ⟨_, hnew, ?_, rfl, ?_⟩
  · rw [tools_emit]
    exact (Keyed.get?_put ..).trans (if_pos rfl)
  · rw [Keyed.get?_put, if_pos rfl]
    rfl

theorem addFragment_spec {fragment : String} (h : Returns (addFragment tool fragment) s () s')
    (ht : Tracked floats texts s calls) (ho : Open s calls tool) : Tracks floats texts s' := by
  obtain ⟨call, hcall, hindex, hid, hname, htext, hopen⟩ := ho.call ht
  obtain rfl := returns_update.1 h
  have hcoherent := ht.coherent.fragment hcall hopen fragment
  have hargs : String.join (tool.argumentFragments ++ [fragment]) = call.text ++ fragment := by
    rw [← htext, ToolState.arguments, String.join_append, String.join_cons, String.join_nil,
      String.append_empty]
  refine ⟨_, ht.putBoth { tool with argumentFragments := tool.argumentFragments ++ [fragment] }
    { call with text := call.text ++ fragment } rfl hindex ?_ hid hname hargs fun _ => hopen⟩
  exact hindex ▸ hcoherent

theorem jsonObject_ok {input : Dict} (h : jsonObject floats text = .ok input) :
    jsonLoads floats text = some (.obj input) := by
  unfold jsonObject at h
  split at h
  · rename_i fields htext
    cases h
    exact htext
  · cases h
  · cases h

theorem closeTool_spec (h : Returns (closeTool floats tool) s () s')
    (ht : Tracked floats texts s calls) (ho : Open s calls tool) :
    ∃ calls', Tracked floats texts s' calls' ∧
      ∀ other, Open s calls other → other.index ≠ tool.index → Open s' calls' other := by
  obtain ⟨call, hcall, hindex, hid, hname, htext, hopen⟩ := ho.call ht
  rcases returns_ite.1 h with ⟨hclosed, -⟩ | ⟨-, h⟩
  · rw [ho.opened] at hclosed
    cases hclosed
  simp only [returns_bind, returns_fromExcept] at h
  obtain ⟨input, _, ⟨hinput, rfl⟩, h⟩ := h
  obtain rfl := returns_update.1 h
  have hloads : jsonLoads floats (inputText call.text) = some (.obj input) := by
    rw [← htext]
    exact jsonObject_ok hinput
  have hcoherent := ht.coherent.stop hcall hopen hloads
  refine ⟨_, ht.putBoth { tool with closed := true } { call with closed := true } rfl hindex ?_
    hid hname htext (fun hfalse => Bool.noConfusion hfalse), ?_⟩
  · rw [← hindex, hid, hname]
    exact hcoherent
  intro other hother hne
  refine ⟨?_, hother.opened, ?_⟩
  · rw [tools_emit]
    exact (Keyed.get?_put ..).trans ((if_neg hne).trans hother.mem)
  · rw [Keyed.get?_put, if_neg (hindex ▸ hne)]
    exact hother.called

/-! ## The handlers -/

variable {α β : Type}

variable (floats texts) in
/-- A handler that returns leaves a state that is tracked. -/
def Keeps (m : StreamTx α) : Prop :=
  ∀ s a s', Returns m s a s' → Tracks floats texts s → Tracks floats texts s'

theorem Keeps.bind {m : StreamTx α} {f : α → StreamTx β} (hm : Keeps floats texts m)
    (hf : ∀ a, Keeps floats texts (f a)) : Keeps floats texts (m >>= f) := by
  intro s b s' h ht
  obtain ⟨a, s₁, hma, hfb⟩ := returns_bind.1 h
  exact hf a s₁ b s' hfb (hm s a s₁ hma ht)

theorem not_returns_throw_bind {e : RequestError} {f : α → StreamTx β} {b : β} :
    ¬ Returns (throw e >>= f) s b s' := by
  intro h
  obtain ⟨a, s₁, hthrow, -⟩ := returns_bind.1 h
  exact returns_throw.1 hthrow

theorem keeps_pure (a : α) : Keeps floats texts (pure a) := by
  intro s b s' h ht
  obtain ⟨-, rfl⟩ := returns_pure.1 h
  exact ht

theorem keeps_throw (e : RequestError) : Keeps floats texts (throw e : StreamTx α) := by
  intro s b s' h
  exact (returns_throw.1 h).elim

theorem keeps_fromExcept (x : Except RequestError α) : Keeps floats texts (fromExcept x) := by
  cases x with
  | ok a => exact keeps_pure a
  | error e => exact keeps_throw e

theorem keeps_get : Keeps floats texts (get : StreamTx StreamState) := by
  intro s b s' h ht
  obtain ⟨-, rfl⟩ := returns_get.1 h
  exact ht

theorem keeps_update
    (hf : ∀ s calls, Tracked floats texts s calls → Tracked floats texts (f s) calls) :
    Keeps floats texts (update f) := by
  rintro s a s' h ⟨calls, ht⟩
  obtain rfl := returns_update.1 h
  exact ⟨calls, hf s calls ht⟩

theorem keeps_ensureStarted : Keeps floats texts (update StreamState.ensureStarted) := by
  refine keeps_update fun s calls ht => ?_
  unfold StreamState.ensureStarted
  split
  · exact ht
  · have hstarted : Tracked floats texts { s with started := true } calls := ht.congr rfl rfl
    exact hstarted.emit rfl rfl

theorem usageEvent_ok {raw : Json} {inputDefault : Option Int}
    (h : usageEvent provider raw inputDefault = .ok event) :
    ∃ input output cached, event = .usage input output cached false := by
  obtain ⟨usage, -, h⟩ := bind_eq_ok.1 h
  split at h
  split at h
  · cases h
  simp only [bind_eq_ok] at h
  obtain ⟨input, -, output, -, cached, -, h⟩ := h
  exact ⟨input, output, cached, (Except.ok.inj h).symm⟩

theorem keeps_emitUsage (provider : Provider) (raw : Json) (inputDefault : Option Int) :
    Keeps floats texts (emitUsage provider raw inputDefault) := by
  rintro s a s' h ⟨calls, ht⟩
  unfold emitUsage at h
  simp only [returns_bind, returns_fromExcept] at h
  obtain ⟨usage, _, ⟨husage, rfl⟩, h⟩ := h
  obtain rfl := returns_update.1 h
  -- the event of a usage is a usage
  have hkind : usage.isCallEvent = false ∧ usage.isError = false := by
    obtain ⟨input, output, cached, rfl⟩ := usageEvent_ok husage
    exact ⟨rfl, rfl⟩
  exact ⟨calls, (ht.emit hkind.1 hkind.2).congr rfl rfl⟩

theorem keeps_closeMessage : Keeps floats texts closeMessage := by
  rintro s a s' h ⟨calls, ht⟩
  replace h := returns_get_bind.1 h
  split at h
  · exact (returns_throw.1 h).elim
  obtain ⟨-, h⟩ := returns_guard.1 h
  obtain rfl := returns_set.1 h
  exact ⟨calls, (ht.emit rfl rfl).congr rfl rfl⟩

theorem keeps_anthropicMessageStart (chunk : Dict) :
    Keeps floats texts (anthropicMessageStart chunk) := by
  refine Keeps.bind keeps_get fun s => ?_
  split
  · exact keeps_throw _
  refine Keeps.bind (keeps_fromExcept _) fun message => ?_
  refine Keeps.bind (keeps_fromExcept _) fun inputTokens => ?_
  refine keeps_update fun s calls ht => ?_
  have hstarted : Tracked floats texts { s with inputTokens, started := true } calls :=
    ht.congr rfl rfl
  exact hstarted.emit rfl rfl

theorem keeps_contentBlockStart (chunk : Dict) : Keeps floats true (contentBlockStart chunk) := by
  refine Keeps.bind (keeps_fromExcept _) fun index => ?_
  refine Keeps.bind (keeps_fromExcept _) fun block => ?_
  split
  · rintro s a s' h ⟨calls, ht⟩
    replace h := returns_get_bind.1 h
    obtain ⟨hfresh, h⟩ := returns_guard.1 h
    obtain rfl := returns_set.1 h
    refine ⟨calls, Tracked.emit (ht.put (fun _ => ⟨rfl, rfl⟩) ?_) rfl rfl⟩
    intro call hcall
    obtain ⟨tool, htool, -⟩ := ht.tracked _ call hcall
    exact absurd (isSome_of_eq_some htool) hfresh
  · split
    · rintro s a s' h ⟨calls, ht⟩
      simp only [returns_bind, returns_pure] at h
      obtain ⟨tool, _, hnew, -, rfl⟩ := h
      obtain ⟨calls', ht', -⟩ := newTool_spec hnew ht
      exact ⟨calls', ht'⟩
    · exact keeps_throw _

theorem keeps_contentBlockDelta (chunk : Dict) : Keeps floats true (contentBlockDelta chunk) := by
  refine Keeps.bind (keeps_fromExcept _) fun index => ?_
  rintro s a s' h ⟨calls, ht⟩
  replace h := returns_get_bind.1 h
  cases hblock : s.tools.get? index with
  | none =>
    rw [hblock] at h
    exact (returns_throw.1 h).elim
  | some block =>
    rw [hblock] at h
    obtain ⟨hopen, h⟩ := returns_guard.1 h
    obtain ⟨delta, _, hdelta, h⟩ := returns_bind.1 h
    obtain ⟨-, rfl⟩ := returns_fromExcept.1 hdelta
    rcases returns_ite.1 h with ⟨-, h⟩ | ⟨-, h⟩
    · split at h
      · obtain rfl := returns_update.1 h
        exact ⟨calls, ht.emit rfl rfl⟩
      · exact (returns_throw.1 h).elim
    rcases returns_ite.1 h with ⟨-, h⟩ | ⟨-, h⟩
    · obtain ⟨hname, h⟩ := returns_guard.1 h
      split at h
      · exact addFragment_spec h ht (ht.open_of_get hblock (Bool.eq_false_of_not_eq_true hopen)
          (.inr hname))
      · exact (returns_throw.1 h).elim
    · exact (returns_throw.1 h).elim

theorem keeps_contentBlockStop (chunk : Dict) :
    Keeps floats true (contentBlockStop floats chunk) := by
  refine Keeps.bind (keeps_fromExcept _) fun index => ?_
  rintro s a s' h ⟨calls, ht⟩
  replace h := returns_get_bind.1 h
  cases hblock : s.tools.get? index with
  | none =>
    rw [hblock] at h
    exact (returns_throw.1 h).elim
  | some block =>
    rw [hblock] at h
    have hindex : block.index = index := (Keyed.mem_get?.1 hblock).2
    obtain ⟨hopen, h⟩ := returns_guard.1 h
    rcases returns_ite.1 h with ⟨hname, h⟩ | ⟨hname, h⟩
    · obtain rfl := returns_set.1 h
      refine ⟨calls, ht.put (fun _ => ⟨rfl, hname⟩) ?_⟩
      -- a call that has the name of the text blocks is closed without an event
      intro call hcall
      obtain ⟨tool, htool, hid, hname', htext, -⟩ := ht.tracked _ call hcall
      cases hblock.symm.trans (hindex ▸ htool)
      exact ⟨hid, hname', htext, rfl⟩
    · obtain ⟨calls', ht', -⟩ := closeTool_spec h ht
        (ht.open_of_get hblock (Bool.eq_false_of_not_eq_true hopen) (.inr hname))
      exact ⟨calls', ht'⟩

theorem keeps_deltaUsage (usage : Json) : Keeps floats texts (deltaUsage usage) := by
  cases usage with
  | null => exact keeps_pure ()
  | _ => exact Keeps.bind keeps_get fun s => keeps_emitUsage _ _ _

theorem keeps_messageDelta (chunk : Dict) : Keeps floats texts (messageDelta chunk) := by
  have husage : Keeps floats texts (deltaUsage (chunk.read "usage")) := keeps_deltaUsage _
  refine Keeps.bind (keeps_fromExcept _) fun delta => ?_
  cases delta.read "stop_reason" with
  | null => exact husage
  | _ =>
    refine Keeps.bind (keeps_fromExcept _) fun reason => ?_
    exact Keeps.bind (keeps_update fun s calls ht => ht.congr rfl rfl) fun _ => husage

theorem keeps_checkIdentity (identity : RequestIdentity) (chunk : Dict) :
    Keeps floats texts (checkIdentity floats identity chunk) := by
  unfold checkIdentity
  split
  · exact keeps_throw _
  dsimp only
  split
  · exact keeps_pure ()
  · exact keeps_throw _

variable (floats texts) in
/-- A handler that returns leaves a state that is tracked, or an error event. -/
def KeepsOrFails (m : StreamTx α) : Prop :=
  ∀ s a s', Returns m s a s' → Tracks floats texts s → Tracks floats texts s' ∨ s'.failed = true

theorem Keeps.orFails {m : StreamTx α} (hm : Keeps floats texts m) :
    KeepsOrFails floats texts m := by
  intro s a s' h ht
  exact .inl (hm s a s' h ht)

theorem Keeps.bindOrFails {m : StreamTx α} {f : α → StreamTx β} (hm : Keeps floats texts m)
    (hf : ∀ a, KeepsOrFails floats texts (f a)) : KeepsOrFails floats texts (m >>= f) := by
  intro s b s' h ht
  obtain ⟨a, s₁, hma, hfb⟩ := returns_bind.1 h
  exact hf a s₁ b s' hfb (hm s a s₁ hma ht)

theorem failWith_fails (error : String × String × Bool) :
    KeepsOrFails floats texts (failWith error) := by
  intro s a s' h ht
  obtain rfl := returns_update.1 h
  right
  unfold StreamState.fail
  split
  · assumption
  show List.any (s.events ++ _) _ = true
  rw [any_append, Bool.or_eq_true]
  exact .inr rfl

theorem anthropicChunk_keeps (py : Python) (identity : RequestIdentity) (chunk : Dict) :
    KeepsOrFails floats true (anthropicChunk floats py identity chunk) := by
  refine (keeps_checkIdentity identity chunk).bindOrFails fun _ => ?_
  dsimp only
  split
  · exact (keeps_pure ()).orFails
  split
  · exact failWith_fails _
  refine Keeps.orFails ?_
  split
  · exact keeps_anthropicMessageStart chunk
  refine keeps_get.bind fun s => ?_
  split
  · exact keeps_throw _
  split
  · exact keeps_contentBlockStart chunk
  split
  · exact keeps_contentBlockDelta chunk
  split
  · exact keeps_contentBlockStop chunk
  split
  · exact keeps_messageDelta chunk
  split
  · exact keeps_closeMessage
  · exact keeps_throw _

/-! ## OpenAI -/

theorem toolArguments_spec {arguments : Json} (h : Returns (toolArguments tool arguments) s () s')
    (ht : Tracked floats false s calls) (hopen : Open s calls tool) : Tracks floats false s' := by
  unfold toolArguments at h
  split at h
  · obtain ⟨-, rfl⟩ := returns_pure.1 h
    exact ⟨calls, ht⟩
  · exact addFragment_spec h ht hopen
  · exact (returns_throw.1 h).elim

theorem keeps_openaiToolDelta (rawTool : Dict) (fallbackIndex : Nat) :
    Keeps floats false (openaiToolDelta rawTool fallbackIndex) := by
  refine Keeps.bind (keeps_fromExcept _) fun index => ?_
  refine Keeps.bind (keeps_fromExcept _) fun function => ?_
  rintro s a s' h ⟨calls, ht⟩
  replace h := returns_get_bind.1 h
  cases hold : s.tools.get? index with
  | none =>
    rw [hold] at h
    obtain ⟨tool, _, hnew, h⟩ := returns_bind.1 h
    obtain ⟨calls', ht', ho⟩ := newTool_spec hnew ht
    exact toolArguments_spec h ht' ho
  | some tool =>
    rw [hold] at h
    rcases returns_ite.1 h with ⟨-, h⟩ | ⟨-, h⟩
    · exact (not_returns_throw_bind h).elim
    rcases returns_ite.1 h with ⟨-, h⟩ | ⟨-, h⟩
    · exact (not_returns_throw_bind h).elim
    rcases returns_ite.1 h with ⟨-, h⟩ | ⟨hopen, h⟩
    · exact (not_returns_throw_bind h).elim
    obtain ⟨_, _, hpure, h⟩ := returns_bind.1 h
    obtain ⟨rfl, rfl⟩ := returns_pure.1 hpure
    exact toolArguments_spec h ht
      (ht.open_of_get hold (Bool.eq_false_of_not_eq_true hopen) (.inl rfl))

theorem keeps_openaiToolDeltas (index : Nat) (toolCalls : List Json) :
    Keeps floats false (openaiToolDeltas index toolCalls) := by
  induction toolCalls generalizing index with
  | nil => exact keeps_pure ()
  | cons raw rest ih =>
    refine Keeps.bind (keeps_fromExcept _) fun rawTool => ?_
    exact Keeps.bind (keeps_openaiToolDelta rawTool index) fun _ => ih (index + 1)

/-- Tools with distinct indexes that are all open are closed one after the other. -/
theorem closeTools_spec {tools : List ToolState} (h : Returns (closeTools floats tools) s () s')
    (ht : Tracked floats texts s calls) (hopen : ∀ tool ∈ tools, Open s calls tool)
    (hnodup : (tools.map ToolState.index).Nodup) : Tracks floats texts s' := by
  induction tools generalizing s calls with
  | nil =>
    obtain ⟨-, rfl⟩ := returns_pure.1 h
    exact ⟨calls, ht⟩
  | cons tool tools ih =>
    obtain ⟨_, s₁, hclose, hrest⟩ := returns_bind.1 h
    obtain ⟨calls', ht', hkept⟩ := closeTool_spec hclose ht (hopen tool (mem_cons_self ..))
    rw [map_cons, nodup_cons] at hnodup
    refine ih hrest ht' ?_ hnodup.2
    intro other hother
    refine hkept other (hopen other (mem_cons_of_mem _ hother)) ?_
    -- the indexes are distinct, so closing the first leaves the others open
    intro heq
    exact hnodup.1 (heq ▸ mem_map_of_mem hother)

theorem openTools_open (ht : Tracked floats false s calls) (h : tool ∈ s.openTools) :
    Open s calls tool := by
  unfold StreamState.openTools at h
  rw [mem_filter, mem_mergeSort] at h
  obtain ⟨hmem, hopen⟩ := h
  have hget : s.tools.get? tool.index = some tool := Keyed.mem_get?.2 ⟨hmem, rfl⟩
  exact ht.open_of_get hget (of_decide_eq_true hopen).2 (.inl rfl)

theorem openTools_nodup (s : StreamState) : (s.openTools.map ToolState.index).Nodup := by
  have hperm := mergeSort_perm s.tools.rows fun a b => a.index ≤ b.index
  have hsorted := (hperm.map ToolState.index).nodup_iff.2 s.tools.nodup
  exact hsorted.sublist (filter_sublist.map _)

theorem keeps_openaiFinish (finish : Json) : Keeps floats false (openaiFinish floats finish) := by
  cases finish with
  | null => exact keeps_pure ()
  | _ =>
    refine Keeps.bind (keeps_fromExcept _) fun reason => ?_
    refine Keeps.bind (keeps_update fun s calls ht => ht.congr rfl rfl) fun _ => ?_
    split
    · rintro s a s' h ⟨calls, ht⟩
      replace h := returns_get_bind.1 h
      exact closeTools_spec h ht (fun _ => openTools_open ht) (openTools_nodup _)
    · exact keeps_pure ()

theorem keeps_openaiChoice (choice : Json) : Keeps floats false (openaiChoice floats choice) := by
  refine Keeps.bind (keeps_fromExcept _) fun item => ?_
  refine Keeps.bind (keeps_fromExcept _) fun delta => ?_
  have hcontent : Keeps floats false (openaiContent (delta.read "content")) := by
    unfold openaiContent
    split
    · exact keeps_pure ()
    · exact keeps_update fun s calls ht => ht.emit rfl rfl
    · exact keeps_throw _
  have hcalls : Keeps floats false (openaiToolCalls (delta.read "tool_calls")) := by
    unfold openaiToolCalls
    split
    · exact keeps_pure ()
    · exact keeps_openaiToolDeltas 0 _
    · exact keeps_throw _
  exact hcontent.bind fun _ => hcalls.bind fun _ => keeps_openaiFinish _

theorem keeps_openaiChoices (choices : List Json) :
    Keeps floats false (openaiChoices floats choices) := by
  induction choices with
  | nil => exact keeps_pure ()
  | cons choice choices ih => exact (keeps_openaiChoice choice).bind fun _ => ih

theorem keeps_openaiUsage (usage : Json) : Keeps floats texts (openaiUsage usage) :=
  keeps_ensureStarted.bind fun _ => keeps_emitUsage _ _ _

theorem openaiChunk_keeps (py : Python) (identity : RequestIdentity) (chunk : Dict) :
    KeepsOrFails floats false (openaiChunk floats py identity chunk) := by
  refine (keeps_checkIdentity identity chunk).bindOrFails fun _ => ?_
  dsimp only
  split
  · exact failWith_fails _
  refine Keeps.orFails ?_
  split
  · exact keeps_throw _
  split
  · split
    · exact keeps_throw _
    · exact keeps_openaiUsage _
  · split
    · exact keeps_throw _
    · exact keeps_openaiUsage _
  · refine keeps_ensureStarted.bind fun _ => ?_
    refine (keeps_openaiChoices _).bind fun _ => ?_
    split
    · exact keeps_pure ()
    · exact keeps_emitUsage _ _ _
  · exact keeps_throw _

/-! ## Whole streams -/

/-- Only Anthropic has text blocks among its tools. -/
def Provider.hasTexts (provider : Provider) : Bool := provider = .anthropic

theorem streamChunk_keeps (py : Python) (identity : RequestIdentity) (provider : Provider)
    (raw : RawChunk) :
    KeepsOrFails floats provider.hasTexts (streamChunk floats py identity provider raw) := by
  refine (keeps_fromExcept _).bindOrFails fun chunk => ?_
  split
  · exact (keeps_pure ()).orFails
  · refine Keeps.orFails ?_
    rintro s a s' h ⟨calls, ht⟩
    replace h := returns_get_bind.1 h
    obtain ⟨-, h⟩ := returns_guard.1 h
    obtain ⟨-, h⟩ := returns_guard.1 h
    obtain rfl := returns_set.1 h
    exact ⟨calls, ht.congr rfl rfl⟩
  · refine keeps_get.bindOrFails fun s => ?_
    split
    · exact (keeps_throw _).orFails
    cases provider with
    | anthropic => exact anthropicChunk_keeps py identity _
    | openai => exact openaiChunk_keeps py identity _

theorem streamChunks_keeps (py : Python) (identity : RequestIdentity) (provider : Provider)
    (chunks : List RawChunk) :
    KeepsOrFails floats provider.hasTexts (streamChunks floats py identity provider chunks) := by
  induction chunks with
  | nil => exact (keeps_pure ()).orFails
  | cons raw rest ih =>
    intro s a s' h ht
    obtain ⟨_, s₁, hchunk, h⟩ := returns_bind.1 h
    replace h := returns_get_bind.1 h
    rcases returns_ite.1 h with ⟨hfailed, h⟩ | ⟨halive, h⟩
    · obtain ⟨-, rfl⟩ := returns_pure.1 h
      exact .inr hfailed
    · rcases streamChunk_keeps py identity provider raw s () s₁ hchunk ht with ht₁ | hfailed
      · exact ih s₁ a s' h ht₁
      · exact absurd hfailed halive

theorem endStream_keeps (provider : Provider) : Keeps floats texts (endStream provider) := by
  refine keeps_get.bind fun s => ?_
  split
  · exact keeps_pure ()
  split
  · exact keeps_closeMessage
  · exact keeps_throw _

theorem endStream_failed {a : Unit} (hfailed : s.failed = true)
    (h : Returns (endStream provider) s a s') : s' = s := by
  replace h := returns_get_bind.1 h
  rcases returns_ite.1 h with ⟨-, h⟩ | ⟨hnot, -⟩
  · exact (returns_pure.1 h).2.symm
  · exact absurd (.inr hfailed) hnot

theorem tracked_empty : Tracked floats texts {} Keyed.empty where
  alive := rfl
  coherent := .nil
  untracked _ _ h := by cases h
  tracked _ _ h := by cases h

theorem fail_isError (s : StreamState) (code message : String) (retryable : Bool) :
    ∃ event ∈ (s.fail code message retryable).events, event.isError = true := by
  unfold StreamState.fail
  split
  · rename_i hfailed
    exact any_eq_true.1 hfailed
  · exact ⟨_, mem_append_right _ (mem_cons_self ..), rfl⟩

/-- The events of a stream without an error follow the protocol of calls. -/
theorem normalizeStream_coherent (py : Python) (identity : RequestIdentity) (provider : Provider)
    (chunks : List RawChunk)
    (h : ∀ event ∈ normalizeStream floats py identity provider chunks, event.isError = false) :
    ∃ calls, Coherent floats (normalizeStream floats py identity provider chunks) calls := by
  unfold normalizeStream at h ⊢
  dsimp only at h ⊢
  split
  · rename_i s hrun
    rw [hrun] at h
    obtain ⟨_, s₁, hchunks, hend⟩ := returns_bind.1 hrun
    rcases streamChunks_keeps py identity provider chunks _ _ _ hchunks ⟨_, tracked_empty⟩ with
      ht | hfailed
    · obtain ⟨calls, ht'⟩ := endStream_keeps provider s₁ _ s hend ht
      exact ⟨calls, ht'.coherent⟩
    obtain rfl := endStream_failed hfailed hend
    obtain ⟨event, hmem, herror⟩ := any_eq_true.1 hfailed
    rw [h event hmem] at herror
    cases herror
  · rename_i e s hrun
    rw [hrun] at h
    obtain ⟨event, hmem, herror⟩ := fail_isError s e.event.1 e.event.2 false
    rw [h event hmem] at herror
    cases herror

end ModelRuntime
