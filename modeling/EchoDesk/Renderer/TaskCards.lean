import EchoDesk.Core.Json
import Mathlib.Data.List.Induction
import Mathlib.Logic.Function.Basic

/-! # The cards of the agent tasks

`upsertAgentTask` and `applyAgentTaskEvent` of `store.ts`: a card is replaced by what arrives, in
the order it arrives in. The numbers on the events are stored and never compared.
-/

namespace Renderer

open EchoDesk List Function

inductive Visibility where
  | user
  | debug
  | hidden
deriving DecidableEq

structure AgentTaskEvent where
  taskId : String
  runnerTaskId : Option String := none
  conversationId : Option String := none
  messageId : Option String := none
  seq : Nat
  event : String
  state : String
  visibility : Visibility := .user
  title : Option String := none
  message : Option String := none
  artifacts : List Json := []
  snapshot : Dict := []
  ts : String

structure AgentTaskCard where
  taskId : String
  runnerTaskId : Option String
  deviceId : String
  conversationId : Option String
  messageId : Option String
  title : String
  intentText : String
  route : String
  taskKind : Option String
  state : String
  progressText : String
  finalText : Option String
  error : Option String
  artifacts : List Json
  snapshot : Dict
  workflowRunId : Option String
  lastSeq : Nat
  submittedAt : String
  finishedAt : Option String
  timeoutS : Nat

def terminalStates : List String := ["succeeded", "failed", "cancelled", "cancel_failed", "timeout"]

namespace AgentTaskEvent

def finalText (event : AgentTaskEvent) : Option String :=
  match event.snapshot.read "final_text" with
  | .str text => some text
  | _ => event.message

def error (event : AgentTaskEvent) : Option String :=
  match event.snapshot.read "error" with
  | .str text => some text
  | _ => if event.event.toList.tails.any "failed".toList.isPrefixOf then event.message else none

def artifacts? (event : AgentTaskEvent) : Option (List Json) :=
  match event.snapshot.read "artifacts" with
  | .arr artifacts => some artifacts
  | _ => if event.artifacts = [] then none else some event.artifacts

/-- A text of the snapshot; `text` is `String(value)`. -/
def snapshotText (text : Json → String) (event : AgentTaskEvent) (key : String) : Option String :=
  match event.snapshot.read key with
  | .null => none
  | value => some (text value)

/-- The card after the event: what the event does not say is kept. -/
def card (text : Json → String) (event : AgentTaskEvent) (prev : Option AgentTaskCard) :
    AgentTaskCard where
  taskId := event.taskId
  runnerTaskId := event.runnerTaskId <|> prev.bind (·.runnerTaskId)
  deviceId := (prev.map (·.deviceId)).getD "desktop"
  conversationId := event.conversationId <|> prev.bind (·.conversationId)
  messageId := event.messageId <|> prev.bind (·.messageId)
  title := (event.snapshotText text "title" <|> event.title <|> prev.map (·.title)).getD
    "EchoDesk 正在执行"
  intentText := (prev.map (·.intentText)).getD
    ((event.snapshotText text "title" <|> event.title).getD "")
  route := (prev.map (·.route)).getD "agent"
  taskKind := prev.bind (·.taskKind) <|> some "agent_task"
  state := event.state
  progressText := (event.snapshotText text "progress_text" <|> event.message <|>
    prev.map (·.progressText)).getD ""
  finalText := event.finalText <|> prev.bind (·.finalText)
  error := event.error <|> prev.bind (·.error)
  artifacts := (event.artifacts? <|> prev.map (·.artifacts)).getD []
  snapshot := event.snapshot
  workflowRunId := none
  lastSeq := event.seq
  submittedAt := (prev.map (·.submittedAt)).getD event.ts
  finishedAt := if event.state ∈ terminalStates then some event.ts else prev.bind (·.finishedAt)
  timeoutS := (prev.map (·.timeoutS)).getD 1800

end AgentTaskEvent

/-- The field `agentTasks` of the store. -/
abbrev AgentTasks : Type := String → Option AgentTaskCard

def upsertAgentTask (tasks : AgentTasks) (task : AgentTaskCard) : AgentTasks :=
  Function.update tasks task.taskId (some task)

def applyAgentTaskEvent (text : Json → String) (tasks : AgentTasks) (event : AgentTaskEvent) :
    AgentTasks :=
  if event.visibility ≠ .user then tasks
  else Function.update tasks event.taskId (some (event.card text (tasks event.taskId)))

inductive TaskCall where
  | upsertAgentTask (task : AgentTaskCard)
  | applyAgentTaskEvent (event : AgentTaskEvent)

def TaskCall.apply (text : Json → String) (tasks : AgentTasks) : TaskCall → AgentTasks
  | .upsertAgentTask task => Renderer.upsertAgentTask tasks task
  | .applyAgentTaskEvent event => Renderer.applyAgentTaskEvent text tasks event

/-- The cards after the calls; a fresh store has none. -/
def TaskCall.run (text : Json → String) (calls : List TaskCall) : AgentTasks :=
  calls.foldl (TaskCall.apply text) fun _ => none

/-! ## The events of a task -/

/-- The events that the service numbers for a task: a terminal state is never left. -/
structure TaskHistory (taskId : String) (events : List AgentTaskEvent) : Prop where
  task : ∀ e ∈ events, e.taskId = taskId
  numbered : ∀ e ∈ events, 0 < e.seq
  unique : ∀ a ∈ events, ∀ b ∈ events, a.seq = b.seq → a = b
  terminal : ∀ a ∈ events, ∀ b ∈ events, a.seq ≤ b.seq → a.state ∈ terminalStates →
    b.state = a.state

/-- The task had this state when it had come to this number. -/
def WasIn (events : List AgentTaskEvent) (seq : Nat) (state : String) : Prop :=
  (seq = 0 ∧ state ∉ terminalStates) ∨ ∃ e ∈ events, seq = e.seq ∧ state = e.state

/-- The last event that a user sees. -/
structure IsLast (events : List AgentTaskEvent) (last : AgentTaskEvent) : Prop where
  mem : last ∈ events
  user : last.visibility = .user
  greatest : ∀ e ∈ events, e.visibility = .user → e.seq ≤ last.seq

structure GivenBy (card : AgentTaskCard) (event : AgentTaskEvent) : Prop where
  state : card.state = event.state
  finalText : card.finalText = event.finalText
  error : card.error = event.error
  artifacts : card.artifacts = event.artifacts?.getD []

namespace TaskCall

/-- The call brings an event of the task, or a snapshot of it. -/
def Comes (taskId : String) (events : List AgentTaskEvent) : TaskCall → Prop
  | .upsertAgentTask task => task.taskId = taskId ∧ WasIn events task.lastSeq task.state
  | .applyAgentTaskEvent event => event ∈ events

/-- The call is not older than the card. The last event says itself what the card has, and a
snapshot that is not older than it says the same. -/
def InOrder (events : List AgentTaskEvent) (prev : Option AgentTaskCard) : TaskCall → Prop
  | .upsertAgentTask task => (∀ c ∈ prev, c.lastSeq ≤ task.lastSeq) ∧
      ∀ last, IsLast events last → last.seq ≤ task.lastSeq → GivenBy task last
  | .applyAgentTaskEvent event => event.visibility = .user → ∀ c ∈ prev, c.lastSeq ≤ event.seq ∧
      (IsLast events event → (event.finalText = none → c.finalText = none) ∧
        (event.error = none → c.error = none) ∧ (event.artifacts? = none → c.artifacts = []))

end TaskCall

/-- The card of a task only moves forward, and ends where the last event leaves it. -/
structure NeverGoesBack (text : Json → String) (taskId : String) (events : List AgentTaskEvent)
    (calls : List TaskCall) : Prop where
  forward : ∀ before next after, calls = before ++ next :: after →
    ∀ c, TaskCall.run text before taskId = some c →
      ∃ c', TaskCall.run text (before ++ [next]) taskId = some c' ∧ c.lastSeq ≤ c'.lastSeq ∧
        (c.state ∈ terminalStates → c'.state = c.state)
  settled : ∀ last, IsLast events last → .applyAgentTaskEvent last ∈ calls →
    ∃ c, TaskCall.run text calls taskId = some c ∧ GivenBy c last

variable {text : Json → String} {taskId : String} {events : List AgentTaskEvent}
  {tasks : AgentTasks} {call : TaskCall} {calls : List TaskCall}
variable {event : AgentTaskEvent}

theorem WasIn.terminal (h : TaskHistory taskId events) {seq seq' : Nat} {state state' : String}
    (hstate : WasIn events seq state) (hstate' : WasIn events seq' state') (hle : seq ≤ seq')
    (hterminal : state ∈ terminalStates) : state' = state := by
  rcases hstate with ⟨-, hnot⟩ | ⟨a, ha, rfl, rfl⟩
  · exact absurd hterminal hnot
  rcases hstate' with ⟨rfl, -⟩ | ⟨b, hb, rfl, rfl⟩
  · have hpos := h.numbered a ha
    omega
  · exact h.terminal a ha b hb hle hterminal

variable (events) in
/-- The card is what the task was at some time, and what the last event gives once it is there. -/
structure Sound (c : AgentTaskCard) : Prop where
  wasIn : WasIn events c.lastSeq c.state
  settled : ∀ last, IsLast events last → last.seq ≤ c.lastSeq → GivenBy c last

/-! ## One call -/

theorem givenBy_card {prev : Option AgentTaskCard}
    (h : ∀ c ∈ prev, (event.finalText = none → c.finalText = none) ∧
      (event.error = none → c.error = none) ∧ (event.artifacts? = none → c.artifacts = [])) :
    GivenBy (event.card text prev) event := by
  have hfield : ∀ {α : Type} (given : Option α) (kept : AgentTaskCard → Option α),
      (∀ c ∈ prev, given = none → kept c = none) → (given <|> prev.bind kept) = given := by
    intro α given kept hkept
    cases given with
    | some a => rfl
    | none =>
      cases prev with
      | none => rfl
      | some c => exact hkept c rfl rfl
  constructor
  · rfl
  · exact hfield _ _ fun c hc => (h c hc).1
  · exact hfield _ _ fun c hc => (h c hc).2.1
  cases hartifacts : event.artifacts? with
  | some artifacts => simp [AgentTaskEvent.card, hartifacts]
  | none =>
    cases prev with
    | none => simp [AgentTaskEvent.card, hartifacts]
    | some c => simp [AgentTaskEvent.card, hartifacts, (h c rfl).2.2 hartifacts]

/-- A call leaves the card, or puts a sound one in its place that is not older. -/
theorem apply_cases (h : TaskHistory taskId events) (hcomes : call.Comes taskId events)
    (horder : call.InOrder events (tasks taskId)) :
    call.apply text tasks taskId = tasks taskId ∨
      ∃ c', call.apply text tasks taskId = some c' ∧ Sound events c' ∧
        ∀ c ∈ tasks taskId, c.lastSeq ≤ c'.lastSeq := by
  cases call with
  | upsertAgentTask task =>
    obtain ⟨rfl, hwas⟩ := hcomes
    exact .inr ⟨task, update_self _ _ _, ⟨hwas, horder.2⟩, horder.1⟩
  | applyAgentTaskEvent event =>
    obtain rfl := h.task event hcomes
    dsimp only [TaskCall.apply, applyAgentTaskEvent]
    by_cases huser : event.visibility = .user
    · rw [if_neg (not_not_intro huser), update_self]
      refine .inr ⟨_, rfl, ⟨.inr ⟨event, hcomes, rfl, rfl⟩, ?_⟩, fun c hc => (horder huser c hc).1⟩
      intro last hlast hle
      obtain rfl := h.unique last hlast.mem event hcomes
        (Nat.le_antisymm hle (hlast.greatest event hcomes huser))
      exact givenBy_card fun c hc => (horder huser c hc).2 hlast
    · exact .inl (by rw [if_pos huser])

/-! ## Runs -/

theorem TaskCall.run_append (next : TaskCall) :
    TaskCall.run text (calls ++ [next]) = next.apply text (TaskCall.run text calls) := by
  rw [TaskCall.run, foldl_append]
  rfl

theorem sound_run (h : TaskHistory taskId events) (hcomes : ∀ call ∈ calls, call.Comes taskId events)
    (horder : ∀ before next after, calls = before ++ next :: after →
      next.InOrder events (TaskCall.run text before taskId)) :
    ∀ c ∈ TaskCall.run text calls taskId, Sound events c := by
  induction calls using List.reverseRecOn with
  | nil => rintro c ⟨⟩
  | append_singleton calls next ih =>
    have hold := ih (fun call hcall => hcomes call (mem_append_left _ hcall))
      fun before other after heq => horder before other (after ++ [next]) (by simp [heq])
    rw [TaskCall.run_append]
    rcases apply_cases h (hcomes next (by simp)) (horder calls next [] rfl) with hsame | ⟨c', hc', hsound, -⟩
    · rw [hsame]
      exact hold
    · rw [hc']
      rintro c ⟨⟩
      exact hsound

section Run

variable (h : TaskHistory taskId events) (hcomes : ∀ call ∈ calls, call.Comes taskId events)
  (horder : ∀ before next after, calls = before ++ next :: after →
    next.InOrder events (TaskCall.run text before taskId))
include h hcomes horder

theorem forward_run (before : List TaskCall) (next : TaskCall) (after : List TaskCall)
    (heq : calls = before ++ next :: after) (c : AgentTaskCard)
    (hc : TaskCall.run text before taskId = some c) :
    ∃ c', TaskCall.run text (before ++ [next]) taskId = some c' ∧ c.lastSeq ≤ c'.lastSeq ∧
      (c.state ∈ terminalStates → c'.state = c.state) := by
  have hsound : ∀ c ∈ TaskCall.run text before taskId, Sound events c := by
    refine sound_run h (fun call hcall => hcomes call (by simp [heq, hcall])) ?_
    intro first other rest hsplit
    exact horder first other (rest ++ next :: after) (by simp [heq, hsplit])
  rw [TaskCall.run_append]
  rcases apply_cases h (hcomes next (by simp [heq])) (horder before next after heq) with
    hsame | ⟨c', hc', hsound', hle⟩
  · exact ⟨c, hsame.trans hc, Nat.le_refl _, fun _ => rfl⟩
  · exact ⟨c', hc', hle c hc, (hsound c hc).wasIn.terminal h hsound'.wasIn (hle c hc)⟩

/-- A delivered event has brought the card to its number. -/
theorem reached_run (hevent : .applyAgentTaskEvent event ∈ calls)
    (huser : event.visibility = .user) :
    ∃ c, TaskCall.run text calls taskId = some c ∧ event.seq ≤ c.lastSeq := by
  induction calls using List.reverseRecOn with
  | nil => cases hevent
  | append_singleton calls next ih =>
    rcases mem_append.1 hevent with hold | hnow
    · obtain ⟨c, hc, hle⟩ := ih (fun call hcall => hcomes call (mem_append_left _ hcall))
        (fun before other after heq => horder before other (after ++ [next]) (by simp [heq])) hold
      obtain ⟨c', hc', hle', -⟩ := forward_run h hcomes horder calls next [] rfl c hc
      exact ⟨c', hc', Nat.le_trans hle hle'⟩
    obtain rfl := mem_singleton.1 hnow
    obtain rfl := h.task event (hcomes _ (mem_append_right _ (mem_singleton_self _)))
    rw [TaskCall.run_append]
    dsimp only [TaskCall.apply, applyAgentTaskEvent]
    rw [if_neg (not_not_intro huser), update_self]
    exact ⟨_, rfl, Nat.le_refl _⟩

end Run

def started : AgentTaskEvent where
  taskId := "t"
  seq := 1
  event := "task.started"
  state := "running"
  ts := "2026-07-15T00:00:00+00:00"

def completed : AgentTaskEvent where
  taskId := "t"
  seq := 2
  event := "task.completed"
  state := "succeeded"
  message := some "done"
  ts := "2026-07-15T00:00:01+00:00"

theorem history : TaskHistory "t" [started, completed] := by
  constructor <;> simp [started, completed, terminalStates]

/-- What a snapshot read after the last event carries. -/
def finished : AgentTaskCard := completed.card (fun _ => "") (some (started.card (fun _ => "") none))

theorem eq_completed (h : IsLast [started, completed] event) : event = completed := by
  rcases mem_pair.1 h.mem with rfl | rfl
  · exact absurd (h.greatest completed (by simp) rfl) (by decide)
  · rfl

end Renderer
