import EchoDesk.Core.Json
import EchoDesk.Foundations.Pairing

/-! # The messages of an agent session

The canonical messages a session keeps, and the micro-compaction that rewrites them between
two requests. It clears the contents of old tool results, never a block: what is called and
what is returned stays as it was.
-/

namespace AgentKernel

open EchoDesk Pairing List

abbrev JsonObject := List (String × Json)

/-! ## Blocks and messages -/

structure CanonicalToolResult where
  content : String
  isError : Bool
  receipt : Option JsonObject := none

inductive CanonicalContentBlock where
  | text (text : String)
  | toolUse (toolUseId name : String) (input : JsonObject)
  | toolResult (toolUseId : String) (result : CanonicalToolResult)

inductive MessageRole where
  | user
  | assistant
deriving DecidableEq

structure CanonicalMessage where
  messageId : String
  role : MessageRole
  content : List CanonicalContentBlock

def CanonicalContentBlock.mark : CanonicalContentBlock → Option (Mark String)
  | .text _ => none
  | .toolUse id _ _ => some (.call id)
  | .toolResult id _ => some (.ret id)

/-- An assistant message begins a round; its blocks and those of the user messages after it
belong to it. -/
def CanonicalMessage.marks (m : CanonicalMessage) : List (Mark String) :=
  match m.role with
  | .user => m.content.filterMap CanonicalContentBlock.mark
  | .assistant => .round :: m.content.filterMap CanonicalContentBlock.mark

def marks (messages : List CanonicalMessage) : List (Mark String) :=
  messages.flatMap CanonicalMessage.marks

@[simp] theorem marks_nil : marks [] = [] := rfl

@[simp] theorem marks_append (xs ys : List CanonicalMessage) :
    marks (xs ++ ys) = marks xs ++ marks ys := flatMap_append

@[simp] theorem marks_cons (m : CanonicalMessage) (ms : List CanonicalMessage) :
    marks (m :: ms) = m.marks ++ marks ms := flatMap_cons

/-! ## Micro-compaction -/

def TIME_BASED_MC_CLEARED_MESSAGE : String := "[Old tool result content cleared]"

def DEFAULT_COMPACTABLE_TOOL_NAMES : List String :=
  ["Read", "Bash", "Grep", "Glob", "WebSearch", "WebFetch", "Edit", "Write"]

structure MicroCompactOptions where
  keepRecent : Nat
  shouldCompact : Option Bool := none
  compactableToolNames : Option (List String) := none

structure MicroCompactResult where
  messages : List CanonicalMessage
  changed : Bool
  clearedToolUseIds : List String
  tokensSaved : Nat

/-- `Math.ceil(bytes / 3)`. -/
def roughTokenCount (text : String) : Nat := (text.utf8ByteSize + 2) / 3

def collectCompactableToolIds (messages : List CanonicalMessage) (names : List String) :
    List String :=
  (messages.filter fun m => m.role = .assistant).flatMap fun m =>
    m.content.filterMap fun
      | .toolUse id name _ => if name ∈ names then some id else none
      | _ => none

/-- The result that a block is cleared of. -/
def CanonicalContentBlock.clearable (clearSet : List String) (role : MessageRole) :
    CanonicalContentBlock → Option (String × CanonicalToolResult)
  | .toolResult id result =>
    if role = .user ∧ id ∈ clearSet ∧ result.content ≠ TIME_BASED_MC_CLEARED_MESSAGE then
      some (id, result)
    else none
  | _ => none

def CanonicalContentBlock.cleared (clearSet : List String) (role : MessageRole)
    (block : CanonicalContentBlock) : CanonicalContentBlock :=
  match block.clearable clearSet role with
  | some (id, result) => .toolResult id { result with content := TIME_BASED_MC_CLEARED_MESSAGE }
  | none => block

def CanonicalMessage.cleared (clearSet : List String) (m : CanonicalMessage) :
    CanonicalMessage :=
  { m with content := m.content.map (CanonicalContentBlock.cleared clearSet m.role) }

/-- The results that are cleared, in order. -/
def clearedResults (clearSet : List String) (messages : List CanonicalMessage) :
    List (String × CanonicalToolResult) :=
  messages.flatMap fun m =>
    m.content.filterMap (CanonicalContentBlock.clearable clearSet m.role)

def unchanged (messages : List CanonicalMessage) : MicroCompactResult where
  messages := messages
  changed := false
  clearedToolUseIds := []
  tokensSaved := 0

def microCompactMessages (messages : List CanonicalMessage) (options : MicroCompactOptions) :
    MicroCompactResult :=
  if options.shouldCompact = some false then unchanged messages
  else
    let compactableToolNames := options.compactableToolNames.getD DEFAULT_COMPACTABLE_TOOL_NAMES
    let compactableIds := collectCompactableToolIds messages compactableToolNames
    let keepRecent := max 1 options.keepRecent
    let keepSet := compactableIds.drop (compactableIds.length - keepRecent)
    let clearSet := compactableIds.filter (· ∉ keepSet)
    if clearSet = [] then unchanged messages
    else
      let cleared := clearedResults clearSet messages
      { messages := messages.map (CanonicalMessage.cleared clearSet)
        changed := cleared ≠ []
        clearedToolUseIds := (cleared.map Prod.fst).eraseDups
        tokensSaved := (cleared.map fun c => roughTokenCount c.2.content).sum }

theorem mark_cleared (clearSet : List String) (role : MessageRole)
    (block : CanonicalContentBlock) : (block.cleared clearSet role).mark = block.mark := by
  cases block with
  | text text => rfl
  | toolUse id name input => rfl
  | toolResult id result =>
    unfold CanonicalContentBlock.cleared CanonicalContentBlock.clearable
    by_cases h : role = .user ∧ id ∈ clearSet ∧ result.content ≠ TIME_BASED_MC_CLEARED_MESSAGE
    · simp only [if_pos h]
      rfl
    · simp only [if_neg h]

theorem marks_cleared (clearSet : List String) (m : CanonicalMessage) :
    (m.cleared clearSet).marks = m.marks := by
  have hcontent : (m.content.map (CanonicalContentBlock.cleared clearSet m.role)).filterMap
      CanonicalContentBlock.mark = m.content.filterMap CanonicalContentBlock.mark := by
    rw [filterMap_map]
    congr 1
    funext block
    exact mark_cleared clearSet m.role block
  unfold CanonicalMessage.marks CanonicalMessage.cleared
  simp only [hcontent]

/-- Compaction neither adds nor drops a call or a return. -/
theorem marks_microCompactMessages (messages : List CanonicalMessage)
    (options : MicroCompactOptions) :
    marks (microCompactMessages messages options).messages = marks messages := by
  have hmap : ∀ clearSet : List String,
      marks (messages.map (CanonicalMessage.cleared clearSet)) = marks messages := by
    intro clearSet
    unfold marks
    rw [flatMap_map]
    congr 1
    funext m
    exact marks_cleared clearSet m
  unfold microCompactMessages
  by_cases hoff : options.shouldCompact = some false
  · rw [if_pos hoff]
    rfl
  rw [if_neg hoff]
  dsimp only
  split
  · rfl
  · exact hmap _

end AgentKernel
