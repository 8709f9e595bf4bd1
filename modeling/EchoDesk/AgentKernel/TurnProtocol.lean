import EchoDesk.AgentKernel.Cancellation

/-! # The protocol of a turn

A turn that is read to its end publishes `agent.turn.started` first and one terminal event last.
It makes a request only while rounds are left and invokes a tool only after the call was paid
for, so that both stay within the budget. `runTurn` takes the slot of the session before the
generator has run at all, and only the generator's `finally` gives it back: a consumer that
leaves before the first event leaves a session that begins no other turn.
-/

namespace AgentKernel

open EchoDesk Transition List Option Bool

/-! ## What a turn has shown -/

def Happening.event? : Happening → Option KernelEvent
  | .published event => some event
  | _ => none

def Happening.isInvocation : Happening → Bool
  | .invoked _ => true
  | _ => false

def KernelEvent.isTerminal : KernelEvent → Bool
  | .terminal _ => true
  | _ => false

/-- The events the turn has published, in order. -/
def publishedEvents (log : List Happening) : List KernelEvent := log.filterMap Happening.event?

def invocations (log : List Happening) : Nat := log.countP Happening.isInvocation

/-- The generator does not run: its consumer decides whether it goes on. -/
def Await.suspended : Await → Bool
  | .created => true
  | await => await.yields

/-- A turn within its budget, with the events of a whole turn once it has returned. `made` are
the requests it has made. -/
structure Turn.Lawful (limits : AgentResourceBudget) (made : Nat) (t : Turn) : Prop where
  requests : made ≤ limits.maxTurns
  invocations : invocations t.log ≤ limits.maxToolCalls
  events : t.await.isFinished → ∃ between event,
    publishedEvents t.log = .turnStarted t.turnId :: between ++ [.terminal event] ∧
      ∀ e ∈ between, e.isTerminal = false

/-- An open session begins the turn it is asked for. -/
def Session.Accepts (ports : Ports) (limits : AgentResourceBudget) (s : Session) : Prop :=
  s.closed = false → ∀ turnId input,
    (s.step ports limits (.runTurn turnId input)).activeTurn = some { turnId, input }

/-! ## Runs that count requests -/

/-- A session, and the number of requests it had made when its turn was begun. -/
structure CountedSession where
  session : Session := {}
  earlier : Nat := 0

namespace CountedSession

variable (ports : Ports) (limits : AgentResourceBudget)

def step (w : CountedSession) (l : Label) : CountedSession where
  session := w.session.step ports limits l
  earlier :=
    match l with
    | .runTurn _ _ =>
      if w.session.closed ∨ w.session.activeTurn.isSome then w.earlier
      else w.session.requests.length
    | _ => w.earlier

/-- The requests of the turn. -/
def made (w : CountedSession) : Nat := w.session.requests.length - w.earlier

/-- The step ends the turn, or its consumer leaves it. -/
def EndsTurn (w : CountedSession) (l : Label) : Prop :=
  (∃ t, (w.step ports limits l).session.turn = some t ∧ t.await.isFinished) ∨
    (l = .abandon ∧ ∃ t, w.session.turn = some t ∧ t.await.suspended)

/-- The law of the step: the turn stays lawful, and once it is over the session is free. -/
def KeepsProtocol (w : CountedSession) (l : Label) : Prop :=
  (∀ t, (w.step ports limits l).session.turn = some t →
    t.Lawful limits (w.step ports limits l).made) ∧
  (w.EndsTurn ports limits l → (w.step ports limits l).session.Accepts ports limits)

/-- The consumer of a turn of an open session has asked for the first event before it leaves. -/
def ReadBeforeLeft (w : CountedSession) (l : Label) : Prop :=
  l = .abandon → w.session.closed = false → ∀ t, w.session.turn = some t →
    t.await.suspended → t.await.yields

end CountedSession

/-! ## Where a turn stands -/

def Await.isCreated : Await → Bool
  | .created => true
  | _ => false

/-- A call is in hand that was counted and not invoked yet. -/
def Await.callsPaid : Await → Nat
  | .toolStarted _ _ => 1
  | .validate _ _ => 1
  | _ => 0

/-- No request is open: each one that was made is counted. -/
def Await.betweenRounds : Await → Bool
  | .created => true
  | .turnStarted => true
  | .messageCompleted _ => true
  | .compactionStarted _ => true
  | .runContextTurn _ _ => true
  | .compactionCompleted _ _ => true
  | .summaryUpdated _ => true
  | .compactionFailed _ => true
  | .compacted _ => true
  | _ => false

/-- A turn that has begun goes on, and pays for nothing on the way. -/
def Await.leadsTo (a b : Await) : Bool :=
  !a.isCreated && !b.isCreated && b.isOpen && decide (b.callsPaid ≤ a.callsPaid) &&
    (!b.betweenRounds || a.betweenRounds)

namespace Turn

/-- The events so far, and the budget spent on what the turn did. The session had made `earlier`
requests when the turn was begun, and has made `total` since it was opened. -/
structure Kept (limits : AgentResourceBudget) (earlier total : Nat) (t : Turn) : Prop where
  created : t.await.isCreated → publishedEvents t.log = []
  begun : t.await.isCreated = false → ∃ between closing,
    publishedEvents t.log = .turnStarted t.turnId :: between ++ closing ∧
      (∀ e ∈ between, e.isTerminal = false) ∧ (t.terminal = none → closing = []) ∧
      (t.terminal ≠ none → ∃ event, closing = [.terminal event])
  opened : t.await.isOpen → t.terminal = none
  ended : t.await.isEnded → t.terminal ≠ none
  calls : AgentKernel.invocations t.log + t.await.callsPaid ≤ t.budget.toolCallsUsed
  callsLeft : t.budget.toolCallsUsed ≤ limits.maxToolCalls
  rounds : total ≤ earlier + t.budget.turnsUsed + 1
  counted : t.await.betweenRounds → total ≤ earlier + t.budget.turnsUsed
  roundsLeft : total ≤ earlier + limits.maxTurns

end Turn

variable {log more : List Happening} {h : Happening} {t t' : Turn} {s : Session} {ports : Ports}
  {limits : AgentResourceBudget} {earlier total : Nat}
variable {event : KernelEvent}

theorem publishedEvents_append :
    publishedEvents (log ++ more) = publishedEvents log ++ publishedEvents more :=
  filterMap_append

theorem invocations_append : invocations (log ++ more) = invocations log + invocations more :=
  countP_append

theorem isTerminal_of_event (hevent : h.event? = some event) (hnone : h.terminalEvent? = none) :
    event.isTerminal = false := by
  cases h with
  | published e =>
    cases some.inj hevent
    cases event with
    | terminal event => exact absurd hnone (by simp [Happening.terminalEvent?])
    | _ => rfl
  | _ => exact absurd hevent (by simp [Happening.event?])

theorem Await.Leads.leadsTo {history : List CanonicalMessage} {a b : Await}
    (h : a.Leads history b) : a.leadsTo b := by
  cases h <;> rfl

namespace Turn

/-! ## What the segments keep -/

/-- An open turn that goes on: it shows nothing terminal, and what it does is paid for. -/
theorem Kept.goOn (ht : t.Kept limits earlier total) (hbegun : t.await.isCreated = false)
    (hopen : t.terminal = none) (hid : t'.turnId = t.turnId) (hterminal : t'.terminal = t.terminal)
    (hlog : t'.log = t.log ++ more) (hmore : ∀ h ∈ more, h.terminalEvent? = none)
    (hcreated : t'.await.isCreated = false) (hawait : t'.await.isOpen)
    (hcalls : AgentKernel.invocations t.log + AgentKernel.invocations more + t'.await.callsPaid ≤
      t'.budget.toolCallsUsed)
    (hcallsLeft : t'.budget.toolCallsUsed ≤ limits.maxToolCalls)
    (hrounds : total ≤ earlier + t'.budget.turnsUsed + 1)
    (hcounted : t'.await.betweenRounds → total ≤ earlier + t'.budget.turnsUsed) :
    t'.Kept limits earlier total := by
  constructor
  · intro hnot
    rw [hcreated] at hnot
    exact Bool.noConfusion hnot
  · intro _
    obtain ⟨between, closing, hevents, hbetween, hnone, -⟩ := ht.begun hbegun
    refine ⟨between ++ publishedEvents more, [], ?_, ?_, fun _ => rfl, ?_⟩
    · rw [hlog, publishedEvents_append, hevents, hnone hopen, hid]
      simp
    · intro e he
      rcases mem_append.1 he with he | he
      · exact hbetween e he
      · obtain ⟨h, hmem, hevent⟩ := mem_filterMap.1 he
        exact isTerminal_of_event hevent (hmore h hmem)
    · intro hsome
      rw [hterminal] at hsome
      exact absurd hopen hsome
  · intro _
    rw [hterminal]
    exact hopen
  · intro hended
    revert hawait hended
    cases t'.await <;> simp [Await.isOpen, Await.isEnded]
  · rw [hlog, invocations_append]
    exact hcalls
  · exact hcallsLeft
  · exact hrounds
  · exact hcounted
  · exact ht.roundsLeft

/-- A move that spends nothing. -/
theorem Kept.move (ht : t.Kept limits earlier total) (hopen : t.terminal = none)
    (hid : t'.turnId = t.turnId) (hterminal : t'.terminal = t.terminal)
    (hlog : t'.log = t.log ++ more)
    (hmore : ∀ h ∈ more, h.terminalEvent? = none ∧ h.isInvocation = false)
    (hturns : t'.budget.turnsUsed = t.budget.turnsUsed)
    (hcalls : t'.budget.toolCallsUsed = t.budget.toolCallsUsed)
    (hleads : t.await.leadsTo t'.await) : t'.Kept limits earlier total := by
  simp only [Await.leadsTo, and_eq_true, not_eq_true', decide_eq_true_eq, or_eq_true] at hleads
  obtain ⟨⟨⟨⟨hbegun, hcreated⟩, hawait⟩, hpaid⟩, hbetween⟩ := hleads
  have hnone : AgentKernel.invocations more = 0 :=
    countP_eq_zero.2 fun h hh => by simp [(hmore h hh).2]
  have hspent := ht.calls
  refine ht.goOn hbegun hopen hid hterminal hlog (fun h hh => (hmore h hh).1) hcreated hawait
    ?_ ?_ ?_ ?_
  · omega
  · rw [hcalls]
    exact ht.callsLeft
  · rw [hturns]
    exact ht.rounds
  intro hnew
  rw [hturns]
  rcases hbetween with hold | hold
  · rw [hold] at hnew
    exact Bool.noConfusion hnew
  · exact ht.counted hold

variable {await : Await}

theorem Kept.publish (ht : t.Kept limits earlier total) (hopen : t.terminal = none)
    (hevent : event.isTerminal = false) (hleads : t.await.leadsTo await) :
    (t.publish event await).Kept limits earlier total := by
  refine ht.move hopen rfl rfl rfl ?_ rfl rfl hleads
  intro h hh
  rw [mem_singleton.1 hh]
  refine ⟨?_, rfl⟩
  cases event with
  | terminal event => exact Bool.noConfusion hevent
  | _ => rfl

/-- A terminal event is proposed; the first one is published, and nothing comes after it. -/
theorem Kept.terminalEvent (ht : t.Kept limits earlier total) (hbegun : t.await.isCreated = false)
    (event : TerminalEvent) (inCatch : Bool) :
    (t.terminalEvent event inCatch).Kept limits earlier total := by
  obtain ⟨between, closing, hevents, hbetween, hnone, hsome⟩ := ht.begun hbegun
  have hcalls : AgentKernel.invocations t.log ≤ t.budget.toolCallsUsed := by
    have := ht.calls
    omega
  unfold Turn.terminalEvent
  split
  · rename_i first hterminal
    constructor
    · intro hnot
      exact Bool.noConfusion hnot
    · intro _
      refine ⟨between, closing, ?_, hbetween, hnone, hsome⟩
      rw [publishedEvents_append, hevents]
      exact append_nil _
    · intro hopen
      exact Bool.noConfusion hopen
    · intro _
      simp [hterminal]
    · rw [invocations_append]
      exact hcalls
    · exact ht.callsLeft
    · exact ht.rounds
    · intro hbetweenRounds
      exact Bool.noConfusion hbetweenRounds
    · exact ht.roundsLeft
  rename_i hterminal
  constructor
  · intro hnot
    exact Bool.noConfusion hnot
  · intro _
    refine ⟨between, [.terminal event], ?_, hbetween, ?_, fun _ => ⟨event, rfl⟩⟩
    · rw [publishedEvents_append, hevents, hnone hterminal, append_nil]
      rfl
    · intro habsurd
      exact absurd habsurd (by simp)
  · intro hopen
    exact Bool.noConfusion hopen
  · intro _
    simp
  · rw [invocations_append]
    exact hcalls
  · exact ht.callsLeft
  · exact ht.rounds
  · intro hbetweenRounds
    exact Bool.noConfusion hbetweenRounds
  · exact ht.roundsLeft

theorem Kept.caught (ht : t.Kept limits earlier total) (hbegun : t.await.isCreated = false)
    (error : Thrown) : (t.caught error).Kept limits earlier total := by
  unfold Turn.caught
  split <;> exact ht.terminalEvent hbegun _ true

variable {history : List CanonicalMessage} {answer : Answer}

theorem isCreated_eq_false (h : t.await ≠ .created) : t.await.isCreated = false := by
  revert h
  cases t.await <;> simp [Await.isCreated]

/-- A turn that is over, or that its consumer has left. -/
theorem Kept.end_await (ht : t.Kept limits earlier total) (hbegun : t.await.isCreated = false)
    (hopen : await.isOpen = false) (hended : await.isEnded → t.terminal ≠ none)
    (hcreated : await.isCreated = false) (hpaid : await.callsPaid = 0)
    (hbetween : await.betweenRounds = false) : Kept limits earlier total { t with await } := by
  have hcalls := ht.calls
  refine ⟨fun hnot => absurd hnot (by simp [hcreated]), fun _ => ht.begun hbegun,
    fun hnot => absurd hnot (by simp [hopen]), hended, ?_, ht.callsLeft, ht.rounds,
    fun hnot => absurd hnot (by simp [hbetween]), ht.roundsLeft⟩
  rw [hpaid]
  show AgentKernel.invocations t.log + 0 ≤ t.budget.toolCallsUsed
  omega

theorem Kept.moves (ht : t.Kept limits earlier total) (hmoves : t.Moves limits history answer t') :
    t'.Kept limits earlier total := by
  have hcalls := ht.calls
  cases hmoves with
  | go more budget await hleads hquiet hturns hcallsUsed =>
    refine ht.move (ht.opened hleads.isOpen.1) rfl rfl rfl ?_ hturns hcallsUsed ?_
    · intro h hh
      obtain ⟨-, hterminal, hinvoked⟩ := Happening.of_isQuiet (hquiet h (mem_toList.1 hh))
      refine ⟨hterminal, ?_⟩
      cases h with
      | invoked id => exact absurd rfl (hinvoked id)
      | _ => rfl
    · exact hleads.leadsTo
  | call pending input hawait _ _ hleft =>
    have hopen : t.terminal = none := ht.opened (by rw [hawait]; rfl)
    rw [hawait] at hcalls
    refine ht.goOn (by rw [hawait]; rfl) hopen rfl rfl rfl ?_ rfl rfl ?_ hleft ht.rounds ?_
    · intro h hh
      rw [mem_singleton.1 hh]
      rfl
    · exact Nat.add_le_add_right hcalls 1
    · intro hbetween
      exact Bool.noConfusion hbetween
  | invoke hawait =>
    have hopen : t.terminal = none := ht.opened (by rw [hawait]; rfl)
    rw [hawait] at hcalls
    refine ht.goOn (by rw [hawait]; rfl) hopen rfl rfl rfl ?_ rfl rfl hcalls ht.callsLeft
      ht.rounds ?_
    · intro h hh
      rw [mem_singleton.1 hh]
      rfl
    · intro hbetween
      exact Bool.noConfusion hbetween
  | revoked error hawait =>
    -- the revoked grant cancels the turn where it stands
    refine Kept.caught (t := { t with
      cancelReason := some .grantRevoked
      log := t.log ++ [.cancelled .grantRevoked] }) ?_ (by rw [hawait]; rfl) _
    refine ht.move (ht.opened (by rw [hawait]; rfl)) rfl rfl rfl ?_ rfl rfl (by rw [hawait]; rfl)
    intro h hh
    rw [mem_singleton.1 hh]
    exact ⟨rfl, rfl⟩
  | again code result count hawait =>
    exact ht.publish (ht.opened (by rw [hawait]; rfl)) rfl (by rw [hawait]; rfl)
  | caught error hbegun => exact ht.caught (isCreated_eq_false hbegun) error
  | cancelled reason hbegun => exact ht.terminalEvent (isCreated_eq_false hbegun) _ false
  | completed hawait => exact ht.terminalEvent (by rw [hawait]; rfl) _ false
  | finish hbegun hended =>
    refine ht.end_await (isCreated_eq_false hbegun) rfl (fun _ => ?_) rfl rfl rfl
    rcases hended with hsome | ⟨inCatch, hend | hend⟩
    · exact isSome_iff_ne_none.1 hsome
    · exact ht.ended (by rw [hend]; rfl)
    · exact ht.ended (by rw [hend]; rfl)

end Turn

/-! ## What a step keeps -/

namespace Session

/-- The turn of the session, which had made `earlier` requests when it was begun. -/
def Kept (limits : AgentResourceBudget) (earlier : Nat) (s : Session) : Prop :=
  ∀ t, s.turn = some t → t.Kept limits earlier s.requests.length

theorem kept_of_turn (hturn : s.turn = some t) (ht : t.Kept limits earlier s.requests.length) :
    s.Kept limits earlier := by
  intro t' heq
  cases hturn.symm.trans heq
  exact ht

theorem kept_began (hs : s.Kept limits earlier) (hturn : s.turn = some t)
    (hawait : t.await = .created) (messageId : String) :
    (s.began t messageId).Kept limits earlier := by
  have ht := hs t hturn
  have hopen : t.terminal = none := ht.opened (by rw [hawait]; rfl)
  have hnil : publishedEvents t.log = [] := ht.created (by rw [hawait]; rfl)
  have hcalls := ht.calls
  rw [hawait] at hcalls
  refine kept_of_turn rfl ⟨fun hnot => Bool.noConfusion hnot, fun _ => ?_, fun _ => hopen,
    fun hnot => Bool.noConfusion hnot, ?_, ht.callsLeft, ht.rounds, fun _ => ?_, ht.roundsLeft⟩
  · refine ⟨[], [], ?_, ?_, fun _ => rfl, fun hsome => absurd hopen hsome⟩
    · show publishedEvents (t.log ++ [.published (.turnStarted t.turnId)]) = _
      rw [publishedEvents_append, hnil]
      rfl
    · intro e he
      exact absurd he not_mem_nil
  · show invocations (t.log ++ [.published (.turnStarted t.turnId)]) + 0 ≤ t.budget.toolCallsUsed
    rw [invocations_append]
    exact hcalls
  · exact ht.counted (by rw [hawait]; rfl)

/-- A turn that begins has made no request. -/
theorem kept_begins (turnId : String) (input : AgentTurnInput) :
    (s.withTurn { turnId, input }).Kept limits s.requests.length := by
  refine kept_of_turn rfl ⟨fun _ => rfl, fun hnot => Bool.noConfusion hnot, fun _ => rfl,
    fun hnot => Bool.noConfusion hnot, Nat.le_refl 0, Nat.zero_le _, ?_, fun _ => ?_, ?_⟩
  · exact Nat.le_add_right _ _
  · exact Nat.le_refl _
  · exact Nat.le_add_right _ _

theorem kept_moves {s' : Session} {l : Label} (hs : s.Kept limits earlier)
    (hmoves : s.Moves limits l s') : s'.Kept limits earlier ∨
      ∃ turnId input, l = .runTurn turnId input ∧ ¬ (s.closed ∨ s.activeTurn.isSome) ∧
        s' = s.withTurn { turnId, input } := by
  -- only the begin of a turn starts another count
  rw [or_iff_not_imp_right]
  intro hnot
  cases hmoves with
  | same hturn _ hrequests =>
    intro t ht
    rw [hrequests]
    exact hs t (hturn.symm.trans ht)
  | opened hturn =>
    intro t ht
    rw [hturn] at ht
    cases ht
  | begins hfree => exact absurd ⟨_, _, rfl, hfree, rfl⟩ hnot
  | began messageId hturn hawait => exact kept_began hs hturn hawait messageId
  | turn hturn hmoves => exact kept_of_turn rfl ((hs _ hturn).moves hmoves)
  | @request t _ hturn hawait hleft =>
    have ht := hs t hturn
    have hstands : t.await.isOpen ∧ t.await.isCreated = false ∧ t.await.callsPaid = 0 ∧
        t.await.betweenRounds := by
      rcases hawait with h | ⟨_, h⟩ <;> rw [h] <;> exact ⟨rfl, rfl, rfl, rfl⟩
    obtain ⟨hopen, hbegun, hpaid, hbetween⟩ := hstands
    have hrounds := ht.counted hbetween
    have hcalls := ht.calls
    rw [hpaid] at hcalls
    -- a round is left for the request that is made
    have hmade : (s.requests ++ [s.history]).length = s.requests.length + 1 := by simp
    have hkept : Turn.Kept limits earlier s.requests.length
        { t with await := .buildModelContext } :=
      ht.goOn hbegun (ht.opened hopen) rfl rfl (append_nil _).symm
        (fun _ hh => absurd hh not_mem_nil) rfl rfl hcalls ht.callsLeft ht.rounds
        fun hnot => Bool.noConfusion hnot
    refine kept_of_turn rfl ⟨hkept.created, hkept.begun, hkept.opened, hkept.ended, hkept.calls,
      hkept.callsLeft, ?_, fun hnot => Bool.noConfusion hnot, ?_⟩
    · show (s.requests ++ [s.history]).length ≤ earlier + t.budget.turnsUsed + 1
      omega
    · show (s.requests ++ [s.history]).length ≤ earlier + limits.maxTurns
      omega
  | @replied t _ _ event await hturn hawait _ hevent hnext =>
    have ht := hs t hturn
    have hcalls := ht.calls
    have hrounds := ht.rounds
    have hstands : await.isCreated = false ∧ await.isOpen ∧ await.callsPaid = 0 := by
      rcases hnext with rfl | rfl <;> exact ⟨rfl, rfl, rfl⟩
    obtain ⟨hcreated, hopen, hpaid⟩ := hstands
    -- the round of the request is counted
    refine kept_of_turn rfl (ht.goOn (by rw [hawait]; rfl) (ht.opened (by rw [hawait]; rfl)) rfl rfl
      rfl ?_ hcreated hopen ?_ ht.callsLeft ?_ fun _ => ?_)
    · intro h hh
      rw [mem_singleton.1 hh]
      exact (Happening.of_isQuiet hevent).2.1
    · rw [hawait] at hcalls
      show invocations t.log + 0 + await.callsPaid ≤ t.budget.toolCallsUsed
      rwa [hpaid]
    · show s.requests.length ≤ earlier + (t.budget.turnsUsed + 1) + 1
      omega
    · show s.requests.length ≤ earlier + (t.budget.turnsUsed + 1)
      omega
  | compacted hturn hawait =>
    have ht := hs _ hturn
    exact kept_of_turn rfl (ht.publish (ht.opened (by rw [hawait]; rfl)) rfl (by rw [hawait]; rfl))
  | @abandoned t hturn hyields =>
    -- a generator that has yielded has begun its turn
    have hbegun : t.await.isCreated = false := by
      revert hyields
      cases t.await <;> simp [Await.yields, Await.isCreated]
    exact kept_of_turn rfl ((hs t hturn).end_await hbegun rfl (fun hnot => Bool.noConfusion hnot)
      rfl rfl rfl)
  | @cancelled _ t _ reason hturn _ hcancelled _ hrequests =>
    -- a cancellation shows nothing and spends nothing
    have ht := hs t hturn
    have hevents : publishedEvents (t.log ++ [.cancelled reason]) = publishedEvents t.log := by
      rw [publishedEvents_append]
      exact append_nil _
    refine kept_of_turn hcancelled ?_
    rw [hrequests]
    refine ⟨?_, ?_, ht.opened, ht.ended, ?_, ht.callsLeft, ht.rounds, ht.counted, ht.roundsLeft⟩
    · intro hcreated
      exact hevents.trans (ht.created hcreated)
    · intro hbegun
      rw [hevents]
      exact ht.begun hbegun
    · rw [invocations_append]
      exact ht.calls

end Session

namespace CountedSession

variable {w : CountedSession}

/-- The turn of the session keeps the protocol so far. -/
def Kept (limits : AgentResourceBudget) (w : CountedSession) : Prop :=
  w.session.Kept limits w.earlier

theorem kept_step (hw : w.Kept limits) (l : Label) : (w.step ports limits l).Kept limits := by
  have hmoves : w.session.Moves limits l (w.session.step ports limits l) :=
    Session.moves_step l
  unfold CountedSession.Kept CountedSession.step
  rcases Session.kept_moves hw hmoves with hkept | ⟨turnId, input, rfl, hfree, heq⟩
  · cases l with
    | runTurn turnId input =>
      dsimp only
      split
      · exact hkept
      rename_i hfree
      simp only [Session.step, if_neg hfree]
      exact Session.kept_begins turnId input
    | _ => exact hkept
  · rw [heq]
    dsimp only
    rw [if_neg hfree]
    exact Session.kept_begins turnId input

theorem lawful_of_kept (ht : t.Kept limits earlier total) : t.Lawful limits (total - earlier) := by
  constructor
  · have := ht.roundsLeft
    omega
  · have hcalls := ht.calls
    have hleft := ht.callsLeft
    omega
  intro hfinished
  have hended : t.await.isEnded ∧ t.await.isCreated = false := by
    revert hfinished
    cases t.await <;> simp [Await.isFinished, Await.isEnded, Await.isCreated]
  obtain ⟨between, closing, hevents, hbetween, -, hclosing⟩ := ht.begun hended.2
  obtain ⟨event, rfl⟩ := hclosing (ht.ended hended.1)
  exact ⟨between, event, hevents, hbetween⟩

/-! ## The slot of the session -/

/-- An open session begins a turn exactly when it has none. -/
theorem accepts_iff : s.Accepts ports limits ↔ (s.closed = false → s.activeTurn = none) := by
  constructor
  · intro haccepts hclosed
    by_contra hactive
    have hsome : s.activeTurn.isSome := isSome_iff_ne_none.2 hactive
    have hstays := haccepts hclosed
    simp only [Session.step, if_pos (Or.inr hsome)] at hstays
    -- the turn that is there cannot have every id
    have hone := hstays "" ⟨none, .text ""⟩
    have hother := hstays "other" ⟨none, .text ""⟩
    rw [hone, some.injEq] at hother
    have hid := congrArg Turn.turnId hother
    exact absurd hid (by decide)
  · intro hfree hclosed turnId input
    have hnone := hfree hclosed
    have hnot : ¬ (s.closed ∨ s.activeTurn.isSome) := by simp [hclosed, hnone]
    simp only [Session.step, if_neg hnot]
    rfl

theorem not_active_of_finished (hturn : s.turn = some t) (hfinished : t.await.isFinished) :
    s.activeTurn = none := by
  have hactive : t.active = false := by
    unfold Turn.active
    revert hfinished
    cases t.await <;> simp [Await.isFinished]
  simp [Session.activeTurn, hturn, hactive]

/-- A step keeps the protocol exactly when no turn is left before it was read. -/
theorem keepsProtocol_iff (hw : w.Kept limits) (l : Label) :
    w.KeepsProtocol ports limits l ↔ w.ReadBeforeLeft l := by
  constructor
  · rintro ⟨-, hfree⟩ rfl hclosed t hturn hsuspended
    by_contra hyields
    -- `return` finds a generator that has not run, and changes nothing
    have hsame : (w.step ports limits .abandon).session = w.session := by
      simp [CountedSession.step, Session.step, hturn, hyields]
    have haccepts := hfree (Or.inr ⟨rfl, t, hturn, hsuspended⟩)
    rw [hsame, accepts_iff] at haccepts
    have hnone := haccepts hclosed
    have hactive : t.active := by
      unfold Turn.active
      revert hsuspended hyields
      cases t.await <;> simp [Await.suspended, Await.yields]
    simp [Session.activeTurn, hturn, hactive] at hnone
  · intro hread
    refine ⟨fun t hturn => lawful_of_kept (kept_step hw l t hturn), ?_⟩
    rw [accepts_iff]
    rintro (⟨t, hturn, hfinished⟩ | ⟨rfl, t, hturn, hsuspended⟩) hclosed
    · exact not_active_of_finished hturn hfinished
    have hopen : w.session.closed = false := by
      revert hclosed
      simp only [CountedSession.step, Session.step, hturn]
      split <;> exact fun hclosed => hclosed
    have hyields := hread rfl hopen t hturn hsuspended
    simp [CountedSession.step, Session.step, hturn, hyields, Session.withTurn,
      Session.activeTurn, Turn.active]

/-- Along a run of a session, every turn keeps the protocol exactly when no consumer of an open
session leaves a turn before it has asked for its first event. -/
theorem turnProtocol_iff (ports : Ports) (limits : AgentResourceBudget) (w : CountedSession)
    (hw : w.session.turn = none) (trace : List Label) :
    Meets (CountedSession.step ports limits) (CountedSession.KeepsProtocol ports limits) w trace ↔
      Meets (CountedSession.step ports limits) CountedSession.ReadBeforeLeft w trace := by
  refine meets_congr ?_ ?_ (?_ : w.Kept limits) trace
  · intro w l hkept
    exact keepsProtocol_iff hkept l
  · intro w l _ hkept
    exact kept_step hkept l
  · intro t ht
    rw [hw] at ht
    exact absurd ht (by simp)

private def openTools : Ports where
  parse json := if json = "{}" then some (.obj []) else none
  resolves _ := true

private def oneRound : AgentResourceBudget where
  maxTurns := 1
  maxToolCalls := 1
  maxModelInputTokens := 1000
  maxToolOutputBytes := 1000

/-- A turn that fails at its first request, and the next turn. -/
theorem turnProtocol_failedTurn : Meets (CountedSession.step openTools oneRound)
      (CountedSession.KeepsProtocol openTools oneRound) {}
      [.runTurn "first" { userMessage := .text "hello" }, .begin "user", .answer .done,
        .answer (.thrown (.other none)), .answer .done,
        .runTurn "second" { userMessage := .text "hello" }, .begin "again", .abandon] := by
  apply (turnProtocol_iff openTools oneRound {} rfl _).2
  refine ⟨?_, ?_, ?_, ?_, ?_, ?_, ?_, ?_, trivial⟩
  all_goals
    intro hleft hclosed t ht hsuspended
    first
    | cases ht
      rfl
    | exact Label.noConfusion hleft

/-- A turn that is left before its first event is the last one of its session. -/
theorem unread_turn_blocks : ¬ Meets (CountedSession.step openTools oneRound)
    (CountedSession.KeepsProtocol openTools oneRound) {}
    [.runTurn "turn" { userMessage := .text "hello" }, .abandon] := by
  rintro ⟨-, ⟨-, hfree⟩, -⟩
  have haccepts := hfree (Or.inr ⟨rfl, _, rfl, rfl⟩)
  have hbegun := haccepts rfl "next" { userMessage := .text "hello" }
  have hid := congrArg (Option.map Turn.turnId) hbegun
  exact absurd hid (by decide)

end CountedSession

end AgentKernel
