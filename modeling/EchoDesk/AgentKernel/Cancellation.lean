import EchoDesk.AgentKernel.Moves

/-! # Cancelled turns

A turn looks at its cancel reason before each request, before it takes an event of the model
and when something is thrown. It does not look between the validation of a tool and its
invocation, nor between the end of the stream and the terminal event, and a revoked grant
takes the place of an earlier reason. The law holds along a run exactly when no cancellation
falls into these gaps.
-/

namespace AgentKernel

open EchoDesk Transition List Option Session

/-! ## What a log shows -/

def Happening.cancelReason? : Happening → Option CancelReason
  | .cancelled reason => some reason
  | _ => none

def Happening.terminalEvent? : Happening → Option TerminalEvent
  | .published (.terminal event) => some event
  | _ => none

def firstCancel (log : List Happening) : Option CancelReason :=
  log.findSome? Happening.cancelReason?

/-- What has happened from the first cancellation on. -/
def sinceCancel : List Happening → List Happening
  | [] => []
  | h :: later => if h.cancelReason?.isSome then h :: later else sinceCancel later

def terminalEvents (log : List Happening) : List TerminalEvent :=
  log.filterMap Happening.terminalEvent?

variable {log : List Happening} {h : Happening} {t : Turn} {s : Session} {ports : Ports}
  {limits : AgentResourceBudget}
variable {history : List CanonicalMessage} {validation : ToolValidation} {event : TerminalEvent}
  {reply : ModelReply} {toolUseId : String} {await : Await}

theorem firstCancel_snoc : firstCancel (log ++ [h]) = (firstCancel log).or h.cancelReason? := by
  unfold firstCancel
  rw [findSome?_append]
  cases hreason : h.cancelReason? <;> simp [hreason]

theorem sinceCancel_snoc_of_none (hlog : firstCancel log = none) :
    sinceCancel (log ++ [h]) = if h.cancelReason?.isSome then [h] else [] := by
  induction log with
  | nil => rfl
  | cons x log ih =>
    unfold firstCancel at ih hlog
    rw [findSome?_cons] at hlog
    cases hx : x.cancelReason? with
    | some reason => simp [hx] at hlog
    | none =>
      rw [hx] at hlog
      simpa [sinceCancel, hx] using ih hlog

variable {reason : CancelReason}

theorem sinceCancel_snoc_of_some (hlog : firstCancel log = some reason) :
    sinceCancel (log ++ [h]) = sinceCancel log ++ [h] := by
  induction log with
  | nil => exact absurd hlog (by simp [firstCancel])
  | cons x log ih =>
    unfold firstCancel at ih hlog
    rw [findSome?_cons] at hlog
    cases hx : x.cancelReason? with
    | some reason => simp [sinceCancel, hx]
    | none =>
      rw [hx] at hlog
      simpa [sinceCancel, hx] using ih hlog

theorem mem_sinceCancel_snoc {x : Happening} (hx : x ∈ sinceCancel (log ++ [h])) :
    x ∈ sinceCancel log ∨ x = h := by
  cases hlog : firstCancel log with
  | some reason =>
    rw [sinceCancel_snoc_of_some hlog] at hx
    simpa using hx
  | none =>
    rw [sinceCancel_snoc_of_none hlog] at hx
    split at hx
    · exact Or.inr (mem_singleton.1 hx)
    · exact absurd hx not_mem_nil

theorem terminalEvents_snoc :
    terminalEvents (log ++ [h]) = terminalEvents log ++ h.terminalEvent?.toList := by
  unfold terminalEvents
  rw [filterMap_append]
  cases hevent : h.terminalEvent? <;> simp [hevent]

/-! ## The law -/

def Await.isFinished : Await → Bool
  | .finished => true
  | _ => false

def cancelledRecord (reason : CancelReason) : TerminalRecord :=
  ⟨.cancelled, .code (cancelCode reason)⟩

/-- What a cancelled turn does from then on: it starts no tool, and the one terminal event it
has in the end is that of the cancellation. -/
structure Turn.Heeds (t : Turn) (reason : CancelReason) : Prop where
  quiet : ∀ id, .invoked id ∉ sinceCancel t.log
  terminal : ∀ event ∈ terminalEvents t.log, event.record = cancelledRecord reason
  once : (terminalEvents t.log).length ≤ 1
  ends : t.await.isFinished → terminalEvents t.log ≠ []

/-- The turn heeds its first cancellation, if it has one. -/
def Session.CancelHeeded (s : Session) : Prop :=
  ∀ t, s.turn = some t → ∀ reason, firstCancel t.log = some reason → t.Heeds reason

/-- The cancellation does not fall into a gap: none has come when an invocation is about to
start or a reply without completed tools is about to end the turn, and no other one when a
validation says that the grant is revoked. -/
def Timely (s : Session) (l : Label) : Prop :=
  ∀ t, s.turn = some t → match t.await, l with
    | .validate _ _, .answer (.validated validation) =>
      if validation.allowed then t.cancelReason = none
      else
        validation.reasonCode = some .grantRevoked →
          t.cancelReason = none ∨ t.cancelReason = some .grantRevoked
    | .compacted reply, .answer .done =>
      reply.completedToolCount = 0 → t.cancelReason = none
    | _, _ => True

/-! ## Where a turn stands -/

/-- The terminal event is not recorded yet. -/
def Await.isOpen : Await → Bool
  | .terminal _ => false
  | .lateTerminal _ => false
  | .finished => false
  | .abandoned => false
  | _ => true

/-- The terminal event is recorded. -/
def Await.isEnded : Await → Bool
  | .terminal _ => true
  | .lateTerminal _ => true
  | .finished => true
  | _ => false

/-- The flags of a turn say what its log does. -/
structure Turn.Sound (t : Turn) : Prop where
  first : firstCancel t.log = t.cancelReason
  quiet : ∀ id, .invoked id ∉ sinceCancel t.log
  records : (terminalEvents t.log).map TerminalEvent.record = t.terminal.toList
  code : ∀ reason record, t.cancelReason = some reason → t.terminal = some record →
    record = cancelledRecord reason
  opened : t.await.isOpen → t.terminal = none
  ended : t.await.isEnded → t.terminal ≠ none

theorem Turn.Sound.heeds (ht : t.Sound) (hreason : firstCancel t.log = some reason) :
    t.Heeds reason := by
  rw [ht.first] at hreason
  have hlength : (terminalEvents t.log).length = t.terminal.toList.length := by
    rw [← ht.records, length_map]
  constructor
  · exact ht.quiet
  · intro event hevent
    have hmem : event.record ∈ t.terminal.toList := by
      rw [← ht.records]
      exact mem_map_of_mem hevent
    exact ht.code reason _ hreason (by simpa using hmem)
  · rw [hlength]
    cases t.terminal <;> simp
  intro hfinished hnil
  have hended : t.await.isEnded := by
    revert hfinished
    cases t.await <;> simp [Await.isFinished, Await.isEnded]
  rw [hnil] at hlength
  apply ht.ended hended
  cases hterminal : t.terminal with
  | none => rfl
  | some record => simp [hterminal] at hlength

/-! ## What the segments keep -/

namespace Turn

/-- Another open await. -/
theorem Sound.goOn {t' : Turn} (ht : t.Sound) (hopen : t.terminal = none)
    (hlog : t'.log = t.log) (hreason : t'.cancelReason = t.cancelReason)
    (hterminal : t'.terminal = t.terminal) (hawait : t'.await.isOpen) : t'.Sound := by
  constructor
  · rw [hlog, hreason]
    exact ht.first
  · rw [hlog]
    exact ht.quiet
  · rw [hlog, hterminal]
    exact ht.records
  · rw [hreason, hterminal]
    exact ht.code
  · rw [hterminal]
    exact fun _ => hopen
  intro hended
  exfalso
  revert hawait hended
  cases t'.await <;> simp [Await.isOpen, Await.isEnded]

theorem Sound.spend (ht : t.Sound) (budget : BudgetState) : Sound { t with budget } :=
  ⟨ht.first, ht.quiet, ht.records, ht.code, ht.opened, ht.ended⟩

/-- Something is added to the log that is neither a cancellation, nor a terminal event, nor an
invocation after a cancellation. -/
theorem Sound.note (ht : t.Sound) (hreason : h.cancelReason? = none)
    (hevent : h.terminalEvent? = none) (hinvoked : ∀ id, h = .invoked id → t.cancelReason = none) :
    Sound { t with log := t.log ++ [h] } := by
  constructor
  · rw [firstCancel_snoc, hreason, ht.first]
    exact or_none
  · intro id hid
    rcases mem_sinceCancel_snoc hid with hid | rfl
    · exact ht.quiet id hid
    have hnone := hinvoked id rfl
    rw [← ht.first] at hnone
    rw [sinceCancel_snoc_of_none hnone, hreason] at hid
    exact absurd hid not_mem_nil
  · rw [terminalEvents_snoc, hevent]
    simpa using ht.records
  · exact ht.code
  · exact ht.opened
  · exact ht.ended

theorem Sound.publish (ht : t.Sound) (hopen : t.terminal = none) {event : KernelEvent}
    (hevent : Happening.terminalEvent? (.published event) = none) (hawait : await.isOpen) :
    (t.publish event await).Sound :=
  (ht.note (h := .published event) rfl hevent fun _ heq => Happening.noConfusion heq).goOn hopen
    rfl rfl rfl hawait

/-- A cancellation that reaches an open turn. -/
theorem Sound.cancel (ht : t.Sound) (hopen : t.terminal = none) (reason : CancelReason) :
    Sound { t with
      cancelReason := some (t.cancelReason.getD reason)
      log := t.log ++ [.cancelled reason] } := by
  constructor
  · rw [firstCancel_snoc, ht.first]
    cases t.cancelReason <;> rfl
  · intro id hid
    rcases mem_sinceCancel_snoc hid with hid | heq
    · exact ht.quiet id hid
    · exact Happening.noConfusion heq
  · rw [terminalEvents_snoc]
    simpa [Happening.terminalEvent?] using ht.records
  · intro reason' record _ hrecord
    exact absurd (hopen.symm.trans hrecord) (by simp)
  · exact ht.opened
  · exact ht.ended

/-- A terminal event is proposed; the first one is recorded. -/
theorem Sound.terminalEvent (ht : t.Sound) (inCatch : Bool)
    (hcode : t.terminal = none → ∀ reason, t.cancelReason = some reason →
      event.record = cancelledRecord reason) : (t.terminalEvent event inCatch).Sound := by
  unfold Turn.terminalEvent
  split
  · rename_i first hterminal
    have hlog := ht.note (h := .lateTerminal event first.state) rfl rfl
      fun _ heq => Happening.noConfusion heq
    constructor
    · exact hlog.first
    · exact hlog.quiet
    · exact hlog.records
    · exact hlog.code
    · intro hopen
      exact Bool.noConfusion hopen
    · intro _
      simp [hterminal]
  rename_i hterminal
  have hnil : terminalEvents t.log = [] := by
    have := ht.records
    rw [hterminal] at this
    simpa using this
  constructor
  · rw [firstCancel_snoc, ht.first]
    exact or_none
  · intro id hid
    rcases mem_sinceCancel_snoc hid with hid | heq
    · exact ht.quiet id hid
    · exact Happening.noConfusion heq
  · rw [terminalEvents_snoc, hnil]
    rfl
  · intro reason record hreason hrecord
    rw [← some.inj hrecord]
    exact hcode hterminal reason hreason
  · intro hopen
    exact Bool.noConfusion hopen
  · intro _
    simp

theorem Sound.caught (ht : t.Sound) (error : Thrown) : (t.caught error).Sound := by
  unfold Turn.caught
  split
  · apply ht.terminalEvent
    intro _ reason hreason
    rw [hreason]
    rfl
  · rename_i hcancel
    apply ht.terminalEvent
    intro _ reason hreason
    rw [hreason] at hcancel
    exact absurd (Or.inl rfl) hcancel

end Turn

theorem Happening.of_isQuiet (hquiet : h.isQuiet) :
    h.cancelReason? = none ∧ h.terminalEvent? = none ∧ ∀ id, h ≠ .invoked id := by
  cases h with
  | published event =>
    cases event with
    | terminal event => cases hquiet
    | _ => exact ⟨rfl, rfl, nofun⟩
  | invoked id | cancelled reason => cases hquiet
  | _ => exact ⟨rfl, rfl, nofun⟩

theorem Await.Leads.isOpen {a b : Await} (h : a.Leads history b) : a.isOpen ∧ b.isOpen := by
  cases h <;> exact ⟨rfl, rfl⟩

namespace Turn

theorem Sound.end_await (ht : t.Sound) (hopen : await.isOpen = false)
    (hended : await.isEnded → t.terminal ≠ none) : Sound { t with await } :=
  ⟨ht.first, ht.quiet, ht.records, ht.code, fun h => absurd h (by simp [hopen]), hended⟩

/-- What a move keeps, when the answer it is made on falls into no gap. -/
theorem Sound.moves (ht : t.Sound) {answer : Answer} {t' : Turn}
    (hmoves : t.Moves limits history answer t') (hturn : s.turn = some t)
    (htimely : Timely s (.answer answer)) : t'.Sound := by
  have hgap := htimely t hturn
  cases hmoves with
  | go more budget await hleads hquiet hturns hcalls =>
    have hopen := ht.opened hleads.isOpen.1
    cases more with
    | none => exact ht.goOn hopen (append_nil _) rfl rfl hleads.isOpen.2
    | some h =>
      obtain ⟨hreason, hevent, hinvoked⟩ := Happening.of_isQuiet (hquiet h rfl)
      exact (ht.note hreason hevent fun id heq => absurd heq (hinvoked id)).goOn hopen rfl rfl rfl
        hleads.isOpen.2
  | call pending input hawait =>
    have hopen : t.terminal = none := ht.opened (by rw [hawait]; rfl)
    have hspend := ht.spend { t.budget with toolCallsUsed := t.budget.toolCallsUsed + 1 }
    exact hspend.publish hopen rfl rfl
  | invoke hawait hanswer hallowed =>
    have hopen : t.terminal = none := ht.opened (by rw [hawait]; rfl)
    rw [hawait, hanswer] at hgap
    dsimp only at hgap
    rw [if_pos hallowed] at hgap
    exact (ht.note (h := .invoked _) rfl rfl fun _ _ => hgap).goOn hopen rfl rfl rfl rfl
  | revoked error hawait hanswer hdenied hcode =>
    have hopen : t.terminal = none := ht.opened (by rw [hawait]; rfl)
    rw [hawait, hanswer] at hgap
    dsimp only at hgap
    rw [if_neg hdenied] at hgap
    have hkeep : some (t.cancelReason.getD .grantRevoked) = some .grantRevoked := by
      rcases hgap hcode with hnone | hsome
      · rw [hnone]
        rfl
      · rw [hsome]
        rfl
    rw [← hkeep]
    exact (ht.cancel hopen .grantRevoked).caught error
  | again code result count hawait =>
    have hopen : t.terminal = none := ht.opened (by rw [hawait]; rfl)
    exact ht.publish hopen rfl rfl
  | caught error => exact ht.caught error
  | cancelled reason _ hreason =>
    refine ht.terminalEvent false fun _ reason' hreason' => ?_
    rw [hreason', getD_some] at hreason
    rw [hreason]
    rfl
  | completed hawait hanswer hnone =>
    rw [hawait, hanswer] at hgap
    refine ht.terminalEvent false fun _ reason hreason => ?_
    rw [hgap hnone] at hreason
    cases hreason
  | finish _ hended =>
    refine ht.end_await rfl fun _ => ?_
    rcases hended with hsome | ⟨inCatch, hend | hend⟩
    · exact isSome_iff_ne_none.1 hsome
    · exact ht.ended (by rw [hend]; rfl)
    · exact ht.ended (by rw [hend]; rfl)

end Turn

/-! ## What a step keeps -/

namespace Session

/-- The turn of the session is sound. -/
def Sound (s : Session) : Prop := ∀ t, s.turn = some t → t.Sound

theorem sound_of_turn (hturn : s.turn = some t) (ht : t.Sound) : s.Sound := by
  intro t' heq
  cases hturn.symm.trans heq
  exact ht

/-- What a step that meets the condition keeps. -/
theorem Sound.step (hs : s.Sound) {l : Label} (htimely : Timely s l) :
    (s.step ports limits l).Sound := by
  have hmoves : s.Moves limits l (s.step ports limits l) := moves_step l
  revert hmoves
  generalize s.step ports limits l = s'
  intro hmoves
  cases hmoves with
  | same hturn => exact fun t ht => hs t (hturn.symm.trans ht)
  | opened hturn =>
    intro t ht
    rw [hturn] at ht
    cases ht
  | begins =>
    exact sound_of_turn rfl ⟨rfl, fun id => not_mem_nil, rfl, fun _ _ h => (by cases h),
      fun _ => rfl, fun h => Bool.noConfusion h⟩
  | began messageId hturn hawait =>
    have ht := hs _ hturn
    exact sound_of_turn rfl (ht.publish (ht.opened (by rw [hawait]; rfl)) rfl rfl)
  | turn hturn hmoves => exact sound_of_turn rfl ((hs _ hturn).moves hmoves hturn htimely)
  | request hturn hawait =>
    have ht := hs _ hturn
    have hopen := ht.opened (by rcases hawait with h | ⟨_, h⟩ <;> rw [h] <;> rfl)
    exact sound_of_turn rfl (ht.goOn hopen rfl rfl rfl rfl)
  | @replied t _ _ _ _ hturn hawait _ hevent hnext =>
    have ht := hs t hturn
    have hopen := ht.opened (by rw [hawait]; rfl)
    have hspend := ht.spend { t.budget with turnsUsed := t.budget.turnsUsed + 1 }
    refine sound_of_turn rfl (hspend.publish hopen (Happening.of_isQuiet hevent).2.1 ?_)
    rcases hnext with rfl | rfl <;> rfl
  | compacted hturn hawait =>
    have ht := hs _ hturn
    exact sound_of_turn rfl (ht.publish (ht.opened (by rw [hawait]; rfl)) rfl rfl)
  | abandoned hturn =>
    exact sound_of_turn rfl ((hs _ hturn).end_await rfl fun h => Bool.noConfusion h)
  | cancelled reason hturn hopen hcancelled =>
    exact sound_of_turn hcancelled ((hs _ hturn).cancel hopen reason)

end Session

/-! ## The gaps -/

theorem cancelCode_eq_grantRevoked (hcode : cancelCode reason = .grantRevoked) :
    reason = .grantRevoked := by
  cases reason with
  | grantRevoked => rfl
  | _ => exact absurd hcode (by decide)

/-- A terminal event that is recorded after a cancellation must be that of its reason. -/
theorem Turn.Sound.record_of_heeds (ht : t.Sound) (hopen : t.terminal = none)
    (hreason : t.cancelReason = some reason) {inCatch : Bool}
    (hheeds : ∀ r, firstCancel (t.terminalEvent event inCatch).log = some r →
      (t.terminalEvent event inCatch).Heeds r) : event.record = cancelledRecord reason := by
  have hlog : (t.terminalEvent event inCatch).log = t.log ++ [.published (.terminal event)] := by
    unfold Turn.terminalEvent
    rw [hopen]
  have hfirst : firstCancel (t.terminalEvent event inCatch).log = some reason := by
    rw [hlog, firstCancel_snoc, ht.first, hreason]
    rfl
  apply (hheeds reason hfirst).terminal
  rw [hlog, terminalEvents_snoc]
  exact mem_append_right _ (mem_singleton_self event)

/-- An invocation that starts comes before any cancellation. -/
theorem Turn.Sound.reason_of_heeds (ht : t.Sound) (hallowed : validation.allowed)
    (hheeds : ∀ r, firstCancel (t.validated reply toolUseId validation).log = some r →
      (t.validated reply toolUseId validation).Heeds r) : t.cancelReason = none := by
  have hlog : (t.validated reply toolUseId validation).log = t.log ++ [.invoked toolUseId] := by
    unfold Turn.validated
    rw [if_pos hallowed]
  cases hreason : t.cancelReason with
  | none => rfl
  | some reason =>
    exfalso
    have hfirst : firstCancel t.log = some reason := ht.first.trans hreason
    have hnew : firstCancel (t.validated reply toolUseId validation).log = some reason := by
      rw [hlog, firstCancel_snoc, hfirst]
      rfl
    apply (hheeds reason hnew).quiet toolUseId
    rw [hlog, sinceCancel_snoc_of_some hfirst]
    exact mem_append_right _ (mem_singleton_self _)

/-- A revoked grant is the first reason, or comes after one of the same kind. -/
theorem Turn.Sound.revoked_of_heeds (ht : t.Sound) (hopen : t.terminal = none)
    (hdenied : ¬ validation.allowed) (hcode : validation.reasonCode = some .grantRevoked)
    (hheeds : ∀ r, firstCancel (t.validated reply toolUseId validation).log = some r →
      (t.validated reply toolUseId validation).Heeds r) :
    t.cancelReason = none ∨ t.cancelReason = some .grantRevoked := by
  have hlog : (t.validated reply toolUseId validation).log = (t.log ++ [.cancelled .grantRevoked])
      ++ [.published (.terminal (.cancelled .grantRevoked))] := by
    unfold Turn.validated
    rw [if_neg hdenied, hcode]
    simp [Turn.caught, Turn.terminalEvent, hopen]
  cases hreason : t.cancelReason with
  | none => exact Or.inl rfl
  | some reason =>
    right
    have hfirst : firstCancel (t.validated reply toolUseId validation).log = some reason := by
      rw [hlog, firstCancel_snoc, firstCancel_snoc, ht.first, hreason]
      rfl
    have hmem : TerminalEvent.cancelled .grantRevoked ∈
        terminalEvents (t.validated reply toolUseId validation).log := by
      rw [hlog, terminalEvents_snoc]
      exact mem_append_right _ (mem_singleton_self _)
    have hrecord := (hheeds reason hfirst).terminal _ hmem
    have hsame : cancelCode .grantRevoked = cancelCode reason :=
      ReasonCode.code.inj (TerminalRecord.mk.inj hrecord).2
    rw [cancelCode_eq_grantRevoked hsame.symm]

/-- One step keeps the law exactly when it meets the condition. -/
theorem cancelHeeded_step_iff (hs : s.Sound) (l : Label) :
    (s.step ports limits l).CancelHeeded ↔ Timely s l := by
  constructor
  · intro hheeded t hturn
    have ht := hs t hturn
    split
    · rename_i reply toolUseId validation hawait
      have hopen : t.terminal = none := ht.opened (by rw [hawait]; rfl)
      have hstep : s.step ports limits (.answer (.validated validation)) =
          s.withTurn (t.validated reply toolUseId validation) := by
        simp only [step, hturn, resumed, hawait]
      rw [hstep] at hheeded
      have hheeds := hheeded _ rfl
      split
      · rename_i hallowed
        exact ht.reason_of_heeds hallowed hheeds
      · rename_i hdenied
        intro hcode
        exact ht.revoked_of_heeds hopen hdenied hcode hheeds
    · rename_i reply hawait
      intro hnone
      have hopen : t.terminal = none := ht.opened (by rw [hawait]; rfl)
      have hstep : s.step ports limits (.answer .done) =
          s.withTurn (t.terminalEvent .completed false) := by
        simp only [step, hturn, resumed, hawait, settle, requestDone, hnone]
        exact if_neg (Nat.lt_irrefl 0)
      rw [hstep] at hheeded
      cases hreason : t.cancelReason with
      | none => rfl
      | some reason =>
        have hrecord := ht.record_of_heeds hopen hreason (hheeded _ rfl)
        exact TerminalState.noConfusion (congrArg TerminalRecord.state hrecord)
    · trivial
  · intro htimely
    exact fun t hturn _ hreason => (hs.step htimely t hturn).heeds hreason

/-- Along a run of a session, every turn heeds its first cancellation exactly when no
cancellation falls into a gap: from then on no tool is started, and the only terminal event is
the one that carries the code of that reason. -/
theorem cancelHeeded_iff (ports : Ports) (limits : AgentResourceBudget) (s : Session)
    (hs : s.turn = none) (trace : List Label) :
    Meets (Session.step ports limits) (fun s l => (s.step ports limits l).CancelHeeded) s trace ↔
      Meets (Session.step ports limits) Timely s trace := by
  refine meets_congr ?_ ?_ (?_ : Session.Sound s) trace
  · intro s l hs
    exact cancelHeeded_step_iff hs l
  · intro s l htimely hs
    exact hs.step htimely
  · intro t ht
    rw [hs] at ht
    exact absurd ht (by simp)

private def anyTool : Ports where
  parse json := if json = "{}" then some (.obj []) else none
  resolves _ := true

private def roomy : AgentResourceBudget where
  maxTurns := 10
  maxToolCalls := 10
  maxModelInputTokens := 1000
  maxToolOutputBytes := 1000

/-- A cancellation during the publication of `agent.turn.started` is seen before the request. -/
theorem cancelHeeded_before_request : Meets (Session.step anyTool roomy)
    (fun s l => (s.step anyTool roomy l).CancelHeeded) {}
    [.runTurn "turn" { userMessage := .text "hello" }, .begin "user", .cancel .user,
      .answer .done, .answer .done] := by
  apply (cancelHeeded_iff anyTool roomy {} rfl _).2
  refine ⟨?_, ?_, ?_, ?_, ?_, trivial⟩
  all_goals
    intro t ht
    cases ht <;> trivial

/-! ## A cancellation before the validation is answered -/

/-- A turn whose model asks for one tool, up to the publication of its start. -/
private def untilToolStarted : List Label :=
  [.runTurn "turn" { userMessage := .text "hello" }, .begin "user", .answer .done,
    .answer (.context "request"), .answer (.counted 1),
    .answer (.event ⟨1, "request", .toolStart 0 "call" "Bash"⟩), .answer .done,
    .answer (.event ⟨1, "request", .toolArgumentsDelta 0 "{}"⟩),
    .answer (.event ⟨1, "request", .toolStop 0⟩)]

/-- The user cancels while `agent.tool.started` is published; the tool is still invoked. -/
theorem invoked_after_cancel : ¬ Meets (Session.step anyTool roomy)
    (fun s l => (s.step anyTool roomy l).CancelHeeded) {}
    (untilToolStarted ++
      [.cancel .user, .answer .done, .answer (.validated { allowed := true })]) := by
  intro hmeets
  have hend : (run (Session.step anyTool roomy) {} (untilToolStarted ++
      [.cancel .user, .answer .done, .answer (.validated { allowed := true })])).CancelHeeded := by
    rw [meets_append] at hmeets
    rw [run_append]
    exact hmeets.2.2.2.1
  have hrun : ((run (Session.step anyTool roomy) {} (untilToolStarted ++
      [.cancel .user, .answer .done, .answer (.validated { allowed := true })])).turn.map fun t =>
        (firstCancel t.log, decide (.invoked "call" ∈ sinceCancel t.log))) =
      some (some .user, true) := by
    decide +kernel
  obtain ⟨t, hturn, hpair⟩ := Option.map_eq_some_iff.1 hrun
  obtain ⟨hfirst, hinvoked⟩ := Prod.mk.inj hpair
  exact (hend t hturn .user hfirst).quiet "call" (of_decide_eq_true hinvoked)

end AgentKernel
