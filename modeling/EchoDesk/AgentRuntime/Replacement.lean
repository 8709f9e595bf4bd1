import EchoDesk.AgentRuntime.WorkerManager
import EchoDesk.Foundations.Transition

/-! # Replaced workers

The manager tells its workers apart only by the channel it sends on: what an earlier worker does
late is taken for the doing of the current one, and a worker that ends quietly leaves its requests
open. A run is safe while a worker is created only after the earlier ones have ended.
-/

namespace AgentRuntime

open EchoDesk Transition List

/-! ## The law -/

/-- The channel of a worker is not closed. -/
def St.linked (s : St) (i : Nat) : Bool := s.workers[i]?.any Worker.connected

/-- At most one worker is alive and connected. -/
def St.OneWorker (s : St) : Prop :=
  ∀ i j, s.running i = true → s.linked i = true → s.running j = true → s.linked j = true → i = j

/-- A promise or a stream that is open is served by a worker that is alive and not replaced. -/
def St.Served (s : St) : Prop :=
  ∀ r ∈ s.requests, r.outcome = none → ∃ i, r.worker = some i ∧ s.running i = true ∧
    s.linked i = true ∧ i + 1 = s.workers.length

/-- The event of an earlier worker changes neither the state nor what later workers are waited
for. -/
def Undisturbed (s t : St) (l : Lbl) : Prop :=
  ∀ i, l.source = some i → i + 1 < s.workers.length → t.state = s.state ∧
    (∀ j, i < j → t.workers[j]?.map Worker.ready = s.workers[j]?.map Worker.ready) ∧
    ∀ (k : Nat) (r : Request), s.requests[k]? = some r → (∀ j, r.worker = some j → i < j) → t.requests[k]? = some r

/-! ## The condition -/

namespace St

/-- No worker is left, and none is being stopped. -/
def fresh (s : St) : Bool := !s.closing && s.workers.all Worker.exited

/-- The worker at the other end of the channel has not exited. -/
def live (s : St) : Bool := s.channel.all s.running

/-- Every promise and every stream is settled. -/
def idle (s : St) : Bool := s.requests.all fun r => r.outcome.isSome

/-- `handleCrash` returns at once. -/
def guarded (s : St) : Bool := s.closing || s.state = .closed

/-- `start` gets to the part that creates a worker. -/
def startCreates (s : St) : Bool := s.state ≠ .ready && s.state ≠ .open && s.state ≠ .closed

/-- The label creates a worker. -/
def creates (s : St) : Lbl → Bool
  | .start | .open _ => s.startCreates
  | .resume k =>
    match s.calls[k]? with
    | some (.stopped (.restart _)) => true
    | _ => false
  | _ => false

/-- The label sends a request. -/
def sends (s : St) : Lbl → Bool
  | .turn input _ => s.state = .open && s.activeTurn.isNone && s.openInput.any fun session =>
    input.taskId = session.taskId && input.operationKey = session.operationKey
  | .checkpoint => s.openInput.isSome
  | .cancel _ => s.activeTurn.isSome && s.openInput.isSome
  | .closeSession => s.state = .open && s.openInput.isSome
  | .resume k =>
    match s.calls[k]? with
    | some (.started _) => s.state = .ready
    | some (.cancelling _) => s.openInput.isSome
    | _ => false
  | _ => false

/-- The label is an exit or a fault that the manager does not take for one of another worker. -/
def heeds (s : St) : Lbl → Bool
  | .exit _ code => code ≠ 0 || s.closing || s.idle
  | .hostFault i _ => s.workers.length ≤ i + 1 || s.guarded
  | _ => true

end St

/-- A worker is created only when no earlier one is left; a request is sent only to a worker that
has not exited; a worker that was not stopped exits with code 0 only when nothing is open; and the
host port of a replaced worker has no fault. -/
structure Allowed (s : St) (l : Lbl) : Prop where
  creates : s.creates l = true → s.fresh = true
  sends : s.sends l = true → s.live = true
  heeds : s.heeds l = true

instance (s : St) (l : Lbl) : Decidable (Allowed s l) :=
  decidable_of_iff ((s.creates l = true → s.fresh = true) ∧ (s.sends l = true → s.live = true) ∧
      s.heeds l = true)
    ⟨fun ⟨creates, sends, heeds⟩ => ⟨creates, sends, heeds⟩, fun h => ⟨h.creates, h.sends, h.heeds⟩⟩

/-! ## The invariant -/

structure Inv (s : St) : Prop where
  last : ∀ i, s.running i = true → i + 1 = s.workers.length
  channel : ∀ i, s.channel = some i → i + 1 = s.workers.length ∧ s.linked i = true
  served : ∀ r ∈ s.requests, r.outcome = none →
    ∃ i, r.worker = some i ∧ s.channel = some i ∧ s.running i = true
  guarded : s.guarded = true → s.channel = none
  turn : ∀ (id : Nat) (r : Request), s.requests[id]? = some r → r.type = .turn →
    r.outcome = none → s.activeTurn = some id

/-- The workers are as they were, and no promise or stream was opened. -/
structure Quieter (s t : St) : Prop where
  length : t.workers.length = s.workers.length
  running : ∀ i, t.running i = s.running i
  linked : ∀ i, t.linked i = s.linked i
  channel : t.channel = s.channel
  guarded : t.guarded = true → s.guarded = true
  requests : ∀ (id : Nat) (r : Request), t.requests[id]? = some r → r.outcome = none →
    ∃ r' : Request, s.requests[id]? = some r' ∧ r'.outcome = none ∧ r'.worker = r.worker ∧
      r'.type = r.type
  turn : ∀ id, s.activeTurn = some id → t.activeTurn = some id ∨
    ∀ r : Request, t.requests[id]? = some r → r.outcome ≠ none

namespace Quieter

variable {s t u : St}

theorem refl (s : St) : Quieter s s where
  length := rfl
  running _ := rfl
  linked _ := rfl
  channel := rfl
  guarded := id
  requests _ r hr hopen := ⟨r, hr, hopen, rfl, rfl⟩
  turn _ h := .inl h

theorem trans (hst : Quieter s t) (htu : Quieter t u) : Quieter s u where
  length := htu.length.trans hst.length
  running i := (htu.running i).trans (hst.running i)
  linked i := (htu.linked i).trans (hst.linked i)
  channel := htu.channel.trans hst.channel
  guarded h := hst.guarded (htu.guarded h)
  requests id r hr hopen := by
    obtain ⟨r₁, hr₁, hopen₁, hworker₁, htype₁⟩ := htu.requests id r hr hopen
    obtain ⟨r₂, hr₂, hopen₂, hworker₂, htype₂⟩ := hst.requests id r₁ hr₁ hopen₁
    exact ⟨r₂, hr₂, hopen₂, hworker₂.trans hworker₁, htype₂.trans htype₁⟩
  turn id h := by
    rcases hst.turn id h with ht | hsettled
    · exact htu.turn id ht
    right
    intro r hr hopen
    obtain ⟨r₁, hr₁, hopen₁, -, -⟩ := htu.requests id r hr hopen
    exact hsettled r₁ hr₁ hopen₁

theorem inv (h : Quieter s t) (hi : Inv s) : Inv t where
  last i hrunning := by
    rw [h.running] at hrunning
    rw [h.length]
    exact hi.last i hrunning
  channel i hchannel := by
    rw [h.channel] at hchannel
    rw [h.length, h.linked]
    exact hi.channel i hchannel
  served r hr hopen := by
    obtain ⟨id, hid⟩ := getElem?_of_mem hr
    obtain ⟨r', hr', hopen', hworker, -⟩ := h.requests id r hid hopen
    obtain ⟨i, hi', hchannel, hrunning⟩ := hi.served r' (mem_of_getElem? hr') hopen'
    exact ⟨i, hworker ▸ hi', h.channel ▸ hchannel, (h.running i).trans hrunning⟩
  guarded hguarded := by
    rw [h.channel]
    exact hi.guarded (h.guarded hguarded)
  turn id r hr htype hopen := by
    obtain ⟨r', hr', hopen', -, htype'⟩ := h.requests id r hr hopen
    rcases h.turn id (hi.turn id r' hr' (htype'.trans htype) hopen') with hturn | hsettled
    · exact hturn
    · exact absurd hopen (hsettled r hr)

/-- Fields that the law does not see. -/
theorem of_same (hworkers : t.workers = s.workers) (hchannel : t.channel = s.channel)
    (hrequests : t.requests = s.requests) (hturn : t.activeTurn = s.activeTurn)
    (hguarded : t.guarded = true → s.guarded = true) : Quieter s t where
  length := by rw [hworkers]
  running i := by
    unfold St.running
    rw [hworkers]
  linked i := by
    unfold St.linked
    rw [hworkers]
  channel := hchannel
  guarded := hguarded
  requests id r hr hopen := ⟨r, hrequests ▸ hr, hopen, rfl, rfl⟩
  turn id h := .inl (hturn.trans h)

/-- A request that is settled, or another change that keeps what is settled. -/
theorem of_requests {requests : List Request}
    (h : ∀ (id : Nat) (r : Request), requests[id]? = some r → r.outcome = none →
      ∃ r' : Request, s.requests[id]? = some r' ∧ r'.outcome = none ∧ r'.worker = r.worker ∧
        r'.type = r.type) : Quieter s { s with requests } where
  length := rfl
  running _ := rfl
  linked _ := rfl
  channel := rfl
  guarded := id
  requests := h
  turn _ h := .inl h

end Quieter

theorem Request.outcome_settle (r : Request) (outcome : Outcome) :
    (r.settle outcome).outcome ≠ none := by
  unfold settle
  cases r.outcome <;> exact Option.some_ne_none _

variable {s : St}

theorem quieter_settle (s : St) (id : Nat) (outcome : Outcome) :
    Quieter s (s.settle id outcome) := by
  refine .of_requests fun k r hr hopen => ?_
  rw [getElem?_modify] at hr
  obtain ⟨r', hr', rfl⟩ := Option.map_eq_some_iff.1 hr
  by_cases heq : id = k
  · rw [if_pos heq] at hopen
    exact absurd hopen (r'.outcome_settle outcome)
  · rw [if_neg heq] at hopen ⊢
    exact ⟨r', hr', hopen, rfl, rfl⟩

theorem quieter_rejectPending (s : St) (code : String) : Quieter s (s.rejectPending code) := by
  refine .of_requests fun k r hr hopen => ?_
  rw [getElem?_map] at hr
  obtain ⟨r', hr', rfl⟩ := Option.map_eq_some_iff.1 hr
  by_cases htype : r'.type = .turn
  · rw [if_pos htype] at hopen ⊢
    exact ⟨r', hr', hopen, rfl, rfl⟩
  · rw [if_neg htype] at hopen
    exact absurd hopen (r'.outcome_settle _)

theorem settled_settle (s : St) (id : Nat) (outcome : Outcome) {r : Request}
    (hr : (s.settle id outcome).requests[id]? = some r) : r.outcome ≠ none := by
  unfold St.settle at hr
  rw [getElem?_modify] at hr
  obtain ⟨r', -, rfl⟩ := Option.map_eq_some_iff.1 hr
  rw [if_pos rfl]
  exact r'.outcome_settle outcome

theorem quieter_endTurn (s : St) (outcome : Outcome) : Quieter s (s.endTurn outcome) := by
  unfold St.endTurn
  split
  · exact .refl s
  rename_i id hturn
  have h := quieter_settle s id outcome
  refine ⟨h.length, h.running, h.linked, h.channel, h.guarded, h.requests, ?_⟩
  intro k hk
  cases hturn.symm.trans hk
  exact .inr fun r hr => settled_settle s id outcome hr

theorem quieter_settleReady (s : St) (value : Deferred) : Quieter s (s.settleReady value) := by
  unfold St.settleReady
  split
  · exact .refl s
  rename_i i hready
  refine ⟨length_modify .., ?_, ?_, rfl, id, ?_, fun _ h => .inl h⟩
  · intro j
    show Option.any _ (List.modify _ _ _)[j]? = _
    rw [getElem?_modify]
    unfold St.running
    cases s.workers[j]? with
    | none => rfl
    | some w => by_cases heq : i = j <;> simp [heq]
  · intro j
    show Option.any _ (List.modify _ _ _)[j]? = _
    rw [getElem?_modify]
    unfold St.linked
    cases s.workers[j]? with
    | none => rfl
    | some w => by_cases heq : i = j <;> simp [heq]
  · intro id r hr hopen
    exact ⟨r, hr, hopen, rfl, rfl⟩

theorem quieter_setState (s : St) {state : WorkerManagerState} (h : state ≠ .closed) :
    Quieter s { s with state } := by
  refine .of_same rfl rfl rfl rfl fun hguarded => ?_
  unfold St.guarded at hguarded ⊢
  rw [Bool.or_eq_true] at hguarded ⊢
  rcases hguarded with hclosing | hclosed
  · exact .inl hclosing
  · exact absurd (of_decide_eq_true hclosed) h

theorem handleCrash_of_guarded (h : s.guarded = true) (code : String) : s.handleCrash code = s := by
  unfold St.guarded at h
  rw [Bool.or_eq_true, decide_eq_true_iff] at h
  exact if_pos h

theorem quieter_handleCrash (s : St) (code : String) : Quieter s (s.handleCrash code) := by
  unfold St.handleCrash
  split
  · exact .refl s
  have hstate : Quieter s { s with state := .crashed } := quieter_setState s (by decide)
  exact ((hstate.trans (quieter_endTurn _ _)).trans (quieter_settleReady _ _)).trans
    (quieter_rejectPending _ _)

theorem quieter_handleFrame (s : St) (frame : RuntimeFrame) : Quieter s (s.handleFrame frame) := by
  unfold St.handleFrame
  split
  · exact quieter_settleReady s _
  · split
    · exact .refl s
    split
    · -- an event only adds to the stream of its turn
      refine .of_requests fun k r hr hopen => ?_
      rw [getElem?_modify] at hr
      obtain ⟨r', hr', rfl⟩ := Option.map_eq_some_iff.1 hr
      refine ⟨r', hr', ?_⟩
      by_cases heq : frame.requestId = k
      · rw [if_pos heq] at hopen ⊢
        exact ⟨hopen, rfl, rfl⟩
      · rw [if_neg heq] at hopen ⊢
        exact ⟨hopen, rfl, rfl⟩
    · exact quieter_endTurn s _
  · split
    · exact quieter_endTurn s _
    · exact .refl s
  · dsimp only
    have hturn : Quieter s (if s.activeTurn = some frame.requestId then
        s.endTurn (.failed (St.errorCode frame)) else s) := by
      split
      · exact quieter_endTurn s _
      · exact .refl s
    generalize (if s.activeTurn = some frame.requestId then
      s.endTurn (.failed (St.errorCode frame)) else s) = t at hturn ⊢
    split
    · exact hturn.trans (quieter_settle _ _ _)
    split
    · exact hturn.trans (quieter_settleReady _ _)
    · exact hturn
  · split
    · exact quieter_settle s _ _
    · exact .refl s

/-- The calls at their awaits, the timers and the open session. -/
theorem quieter_other (s : St) (calls : List Call) (timers : List Nat)
    (openInput : Option OpenSessionInput) : Quieter s { s with calls, timers, openInput } :=
  .of_same rfl rfl rfl rfl id

/-! ## Everything settled -/

theorem idle_iff : s.idle = true ↔ ∀ r ∈ s.requests, r.outcome ≠ none := by
  unfold St.idle
  rw [all_eq_true]
  exact forall₂_congr fun r _ => Option.isSome_iff_ne_none

/-- A turn that is open is the active one, so failing it and all that is pending leaves nothing. -/
theorem idle_of_stopped {code code' : String} (hturn : ∀ (id : Nat) (r : Request),
    s.requests[id]? = some r → r.type = .turn → r.outcome = none → s.activeTurn = some id) :
    ((s.endTurn (.failed code)).rejectPending code').idle = true := by
  rw [idle_iff]
  intro r hr hopen
  obtain ⟨id, hid⟩ := getElem?_of_mem hr
  obtain ⟨r₁, hr₁, hopen₁, -, htype₁⟩ := (quieter_rejectPending _ code').requests id r hid hopen
  have hkept : r.type = .turn := by
    unfold St.rejectPending at hid
    rw [getElem?_map] at hid
    obtain ⟨r₂, -, rfl⟩ := Option.map_eq_some_iff.1 hid
    by_cases htype : r₂.type = .turn
    · rw [if_pos htype]
      exact htype
    · rw [if_neg htype] at hopen
      exact absurd hopen (r₂.outcome_settle _)
  obtain ⟨r₀, hr₀, hopen₀, -, htype₀⟩ := (quieter_endTurn s _).requests id r₁ hr₁ hopen₁
  have hactive := hturn id r₀ hr₀ (htype₀.trans (htype₁.trans hkept)) hopen₀
  unfold St.endTurn at hr₁
  rw [hactive] at hr₁
  exact settled_settle s id _ hr₁ hopen₁

theorem requests_settleReady (s : St) (value : Deferred) :
    (s.settleReady value).requests = s.requests := by
  unfold St.settleReady
  split <;> rfl

theorem idle_of_channel_none (hi : Inv s) (h : s.channel = none) : s.idle = true := by
  rw [idle_iff]
  intro r hr hopen
  obtain ⟨i, -, hchannel, -⟩ := hi.served r hr hopen
  rw [h] at hchannel
  cases hchannel

theorem idle_handleCrash (hguarded : s.guarded = true → s.idle = true)
    (hturn : ∀ (id : Nat) (r : Request), s.requests[id]? = some r → r.type = .turn →
      r.outcome = none → s.activeTurn = some id) (code : String) :
    (s.handleCrash code).idle = true := by
  by_cases hguard : s.guarded = true
  · rw [handleCrash_of_guarded hguard]
    exact hguarded hguard
  have hnot : ¬ (s.closing = true ∨ s.state = .closed) := by
    unfold St.guarded at hguard
    rwa [Bool.or_eq_true, decide_eq_true_iff] at hguard
  unfold St.handleCrash
  rw [if_neg hnot]
  unfold St.idle St.rejectPending
  rw [requests_settleReady]
  exact idle_of_stopped hturn

theorem inv_of_idle {t : St} (hidle : t.idle = true)
    (hlast : ∀ i, t.running i = true → i + 1 = t.workers.length)
    (hchannel : ∀ i, t.channel = some i → i + 1 = t.workers.length ∧ t.linked i = true)
    (hguarded : t.guarded = true → t.channel = none) : Inv t where
  last := hlast
  channel := hchannel
  served r hr hopen := absurd hopen (idle_iff.1 hidle r hr)
  guarded := hguarded
  turn _ r hr _ hopen := absurd hopen (idle_iff.1 hidle r (mem_of_getElem? hr))

/-! ## Stopping and creating -/

/-- Closing the channel ends no worker. -/
theorem running_closeChannel (s : St) (j : Nat) : s.closeChannel.running j = s.running j := by
  unfold St.closeChannel
  split
  · rfl
  rename_i i hchannel
  show Option.any _ (List.modify _ _ _)[j]? = _
  rw [getElem?_modify]
  unfold St.running
  cases s.workers[j]? with
  | none => rfl
  | some w => by_cases heq : i = j <;> simp [heq]

theorem closeChannel_same (s : St) : s.closeChannel.workers.length = s.workers.length ∧
    s.closeChannel.channel = none ∧ s.closeChannel.requests = s.requests ∧
    s.closeChannel.activeTurn = s.activeTurn := by
  unfold St.closeChannel
  split
  · rename_i hchannel
    exact ⟨rfl, hchannel, rfl, rfl⟩
  · exact ⟨length_modify .., rfl, rfl, rfl⟩

/-- Without a channel the guards of the handlers do not matter. -/
theorem Inv.of_unlinked (hi : Inv s) (hchannel : s.channel = none) (state : WorkerManagerState)
    (closing : Bool) (calls : List Call) : Inv { s with state, closing, calls } :=
  ⟨hi.last, hi.channel, hi.served, fun _ => hchannel, hi.turn⟩

/-- After `stopWorker` nothing is open and no channel is left. -/
theorem inv_stopWorker (hlast : ∀ i, s.running i = true → i + 1 = s.workers.length)
    (hturn : ∀ (id : Nat) (r : Request), s.requests[id]? = some r → r.type = .turn →
      r.outcome = none → s.activeTurn = some id) (after : AfterStop) :
    Inv (s.stopWorker after) := by
  obtain ⟨hlength, hnone, hrequests, hactive⟩ := closeChannel_same s
  let closed : St := { s.closeChannel with closing := true, worker := none, ready := none }
  let stopped := (closed.endTurn (.failed "RUNTIME_WORKER_CRASHED")).rejectPending
    "RUNTIME_WORKER_CRASHED"
  have hidle : stopped.idle = true := by
    refine idle_of_stopped fun id r hr htype hopen => ?_
    exact hactive.trans (hturn id r (hrequests ▸ hr) htype hopen)
  have hquieter : Quieter closed stopped :=
    (quieter_endTurn _ _).trans (quieter_rejectPending _ _)
  have hchannel : stopped.channel = none := hquieter.channel.trans hnone
  have hinv : Inv stopped := by
    refine inv_of_idle hidle ?_ ?_ fun _ => hchannel
    · intro i hrun
      rw [hquieter.running] at hrun
      rw [hquieter.length]
      exact (hlast i ((running_closeChannel s i).symm.trans hrun)).trans hlength.symm
    · intro i hsome
      rw [hchannel] at hsome
      cases hsome
  unfold St.stopWorker
  split
  · exact hinv.of_unlinked hchannel _ _ _
  · exact hinv.of_unlinked hchannel _ _ _

theorem Inv.stopWorker (hi : Inv s) (after : AfterStop) : Inv (s.stopWorker after) :=
  inv_stopWorker hi.last hi.turn after

variable {i : Nat} {type : RuntimeFrameType}

theorem running_concat (s : St) (worker : Worker) (hi : i < s.workers.length) :
    St.running { s with workers := s.workers ++ [worker] } i = s.running i := by
  unfold St.running
  rw [getElem?_append_left hi]

theorem lt_of_running (h : s.running i = true) : i < s.workers.length := by
  obtain ⟨w, hw, -⟩ := (Option.any_eq_true _ _).1 h
  exact (List.getElem?_eq_some_iff.1 hw).1

section

variable {o : Options} (hi : Inv s)

include hi

theorem Inv.createWorker (hfresh : s.fresh = true) (next : Option OpenSessionInput) :
    Inv (s.createWorker next) := by
  unfold St.fresh at hfresh
  rw [Bool.and_eq_true, Bool.not_eq_true', all_eq_true] at hfresh
  obtain ⟨hclosing, hexited⟩ := hfresh
  have hrunning : ∀ i, s.running i = false := by
    intro i
    unfold St.running
    cases hw : s.workers[i]? with
    | none => rfl
    | some w => simp [hexited w (mem_of_getElem? hw)]
  refine inv_of_idle ?_ ?_ ?_ ?_
  · rw [idle_iff]
    intro r hr hopen
    obtain ⟨i, -, -, hrun⟩ := hi.served r hr hopen
    rw [hrunning i] at hrun
    cases hrun
  · intro i hrun
    have hle : i < (s.workers ++ [_]).length := lt_of_running hrun
    show i + 1 = (s.workers ++ [_]).length
    rw [length_append, length_singleton] at hle ⊢
    -- an index below the new worker is one of a worker that has exited
    by_contra hne
    have hlt : i < s.workers.length := by omega
    have hold : s.running i = true := (running_concat s _ hlt).symm.trans hrun
    rw [hrunning i] at hold
    cases hold
  · intro i hchannel
    cases hchannel
    constructor
    · show s.workers.length + 1 = (s.workers ++ [_]).length
      rw [length_append, length_singleton]
    · show Option.any _ (s.workers ++ [_])[s.workers.length]? = true
      rw [getElem?_concat_length]
      rfl
  · intro hguarded
    have hfalse : (s.closing || decide (WorkerManagerState.starting = .closed)) = true := hguarded
    rw [hclosing] at hfalse
    cases hfalse

theorem Inv.await (call : Call) : Inv (s.await call) :=
  (quieter_other s _ s.timers s.openInput).inv hi

theorem Inv.drop (k : Nat) : Inv (s.drop k) :=
  (quieter_other s _ s.timers s.openInput).inv hi

theorem Inv.start (next : Option OpenSessionInput)
    (hfresh : s.startCreates = true → s.fresh = true) :
    Inv (s.start next) := by
  unfold St.start
  split
  · split
    · exact hi
    · exact hi.await _
  · split
    · exact hi
    · exact hi.await _
  · exact hi
  rename_i hready hopen hclosed
  have hcreates : s.startCreates = true := by
    unfold St.startCreates
    rw [Bool.and_eq_true, Bool.and_eq_true, decide_eq_true_iff, decide_eq_true_iff,
      decide_eq_true_iff]
    exact ⟨⟨hready, hopen⟩, hclosed⟩
  exact hi.createWorker (hfresh hcreates) next

/-! ## Requests -/

/-- The worker a new request is sent to has not exited. -/
theorem served_request (hlive : s.live = true) (type : RuntimeFrameType) (input : OpenSessionInput)
    (payload : Dict) : ∀ r ∈ (s.request o type input payload).requests, r.outcome = none →
      ∃ i, r.worker = some i ∧ s.channel = some i ∧ s.running i = true := by
  intro r hr hopen
  rcases mem_append.1 hr with hold | hnew
  · exact hi.served r hold hopen
  obtain rfl := mem_singleton.1 hnew
  split at hopen
  · rename_i hsent
    obtain ⟨i, hchannel⟩ := Option.isSome_iff_exists.1 hsent.1
    unfold St.live at hlive
    rw [hchannel] at hlive
    exact ⟨i, hchannel, hchannel, hlive⟩
  · cases hopen

theorem Inv.request (hlive : s.live = true) (htype : type ≠ .turn) (input : OpenSessionInput)
    (payload : Dict) : Inv (s.request o type input payload) where
  __ := hi
  served := served_request hi hlive type input payload
  turn id r hr hturn hopen := by
    have hr' : (s.requests ++ [_])[id]? = some r := hr
    rw [getElem?_append] at hr'
    split at hr'
    · exact hi.turn id r hr' hturn hopen
    · obtain rfl := mem_singleton.1 (mem_of_getElem? hr')
      exact absurd hturn htype

theorem Inv.runTurnStream {input : OpenSessionInput} {payload : Dict}
    (hlive : s.sends (.turn input payload) = true → s.live = true) :
    Inv (s.runTurnStream o input payload) := by
  unfold St.runTurnStream
  split
  · exact hi
  split
  · exact hi
  rename_i session hsession hallowed
  simp only [not_or, Decidable.not_not] at hallowed
  obtain ⟨hopen, hactive, htask, hkey⟩ := hallowed
  have hactive : s.activeTurn = none := by simpa using hactive
  have hsends : s.sends (.turn input payload) = true := by
    simp [St.sends, hopen, hactive, hsession, htask, hkey]
  have hserved := served_request (o := o) hi (hlive hsends) .turn input payload
  refine ⟨hi.last, hi.channel, hserved, hi.guarded, ?_⟩
  intro id r hr hturn hopen
  have hr' : (s.requests ++ [_])[id]? = some r := hr
  rw [getElem?_append] at hr'
  split at hr'
  · have hnone := hi.turn id r hr' hturn hopen
    rw [hactive] at hnone
    cases hnone
  -- a turn that was sent is the active one
  obtain ⟨hindex, -⟩ := List.getElem?_eq_some_iff.1 hr'
  rw [length_singleton] at hindex
  have hid : id = s.requests.length := by omega
  subst hid
  refine if_pos ?_
  rw [show (s.request o .turn input payload).requests[s.requests.length]? = some r from hr]
  show r.outcome.isNone = true
  rw [hopen]
  rfl

theorem Inv.requestOpen (hlive : s.openInput.isSome = true → s.live = true) (htype : type ≠ .turn)
    (payload : Dict) : Inv (s.requestOpen o type payload) := by
  unfold St.requestOpen
  split
  · exact hi
  · rename_i input hinput
    exact hi.request (hlive (Option.isSome_of_eq_some hinput)) htype input payload

theorem Inv.awaitRequest (hlive : s.openInput.isSome = true → s.live = true) (htype : type ≠ .turn)
    (payload : Dict) (call : Nat → Call) : Inv (s.awaitRequest o type payload call) := by
  unfold St.awaitRequest
  split
  · exact hi
  · exact (hi.requestOpen hlive htype payload).await _

theorem Inv.closeSession (hlive : s.state = .open → s.openInput.isSome = true → s.live = true) :
    Inv (s.closeSession o) := by
  unfold St.closeSession
  split
  · exact hi
  rename_i hstate
  rw [Decidable.not_not] at hstate
  split
  · exact hi.awaitRequest (hlive hstate) (by decide) _ _
  · exact hi.awaitRequest (hlive hstate) (by decide) _ _

theorem Inv.openStarted (hlive : s.state = .ready → s.live = true) (input : OpenSessionInput) :
    Inv (s.openStarted o input) := by
  unfold St.openStarted
  split
  · exact hi
  rename_i hstate
  rw [Decidable.not_not] at hstate
  have hopened : Inv { s with openInput := some input } :=
    (quieter_other s s.calls s.timers (some input)).inv hi
  exact (hopened.request (hlive hstate) (by decide) input _).await _

/-! ## One step -/

theorem Inv.moved (state : WorkerManagerState) (timers : List Nat)
    (openInput : Option OpenSessionInput) (h : state ≠ .closed) :
    Inv { s with state, timers, openInput } :=
  ((quieter_setState s h).trans (quieter_other _ s.calls timers openInput)).inv hi

theorem Inv.unguarded : Inv { s with closing := false } := by
  have hquieter : Quieter s { s with closing := false } := by
    refine .of_same rfl rfl rfl rfl fun hguarded => ?_
    unfold St.guarded at hguarded ⊢
    rw [Bool.false_or] at hguarded
    rw [hguarded, Bool.or_true]
  exact hquieter.inv hi

theorem Inv.resume (k : Nat) (hcreates : s.creates (.resume k) = true → s.fresh = true)
    (hsends : s.sends (.resume k) = true → s.live = true) : Inv (s.resume o k) := by
  have hdrop := hi.drop k
  unfold St.creates at hcreates
  unfold St.sends at hsends
  unfold St.resume
  dsimp only at hcreates hsends
  cases hcall : s.calls[k]? with
  | none => exact hi
  | some call =>
    rw [hcall] at hcreates hsends
    cases call with
    | starting i next =>
      dsimp only
      split
      · split
        · have hready := hdrop.moved .ready (s.timers.erase i) s.openInput (by decide)
          cases next with
          | none => exact hready
          | some input => exact hready.await _
        · exact hdrop.stopWorker _
      · exact hdrop.stopWorker _
      · exact hi
    | started input =>
      exact hdrop.openStarted (fun hready => hsends (decide_eq_true hready)) input
    | terminating i after =>
      dsimp only
      split
      · exact hi
      · exact hdrop.unguarded.await _
    | stopped after =>
      cases after with
      | startFailed i => exact hdrop.moved .crashed (s.timers.erase i) s.openInput (by decide)
      | restart input =>
        have hnew := hdrop.moved .new s.timers s.openInput (by decide)
        exact hnew.start (some input) fun _ => hcreates rfl
      | close => exact hdrop
    | opening id =>
      dsimp only
      split
      · exact hi
      · split
        · exact hdrop.moved .open s.timers s.openInput (by decide)
        · exact hdrop
      · exact (quieter_other _ _ s.timers none).inv hdrop
    | cancelling id =>
      dsimp only
      split
      · exact hi
      · exact hdrop.awaitRequest hsends (by decide) _ _
      · exact hdrop
    | closing id =>
      dsimp only
      split
      · exact hi
      · exact hdrop.moved .ready s.timers none (by decide)
      · exact hdrop

end

theorem running_exited (s : St) (i j : Nat) :
    St.running { s with workers := s.workers.modify i fun w => { w with exited := true } } j =
      (s.running j && i ≠ j) := by
  show Option.any _ (List.modify _ _ _)[j]? = _
  rw [getElem?_modify]
  unfold St.running
  cases s.workers[j]? with
  | none => rfl
  | some w => by_cases heq : i = j <;> simp [heq]

theorem linked_exited (s : St) (i j : Nat) :
    St.linked { s with workers := s.workers.modify i fun w => { w with exited := true } } j =
      s.linked j := by
  show Option.any _ (List.modify _ _ _)[j]? = _
  rw [getElem?_modify]
  unfold St.linked
  cases s.workers[j]? with
  | none => rfl
  | some w => by_cases heq : i = j <;> simp [heq]

/-- An exit after which nothing is open. -/
theorem Inv.exited (hi : Inv s) (i : Nat) {t : St} (hquieter : Quieter { s with
      workers := s.workers.modify i fun w => { w with exited := true } } t)
    (hidle : t.idle = true) : Inv t := by
  refine inv_of_idle hidle ?_ ?_ ?_
  · intro j hrun
    rw [hquieter.running, running_exited, Bool.and_eq_true] at hrun
    rw [hquieter.length]
    exact (hi.last j hrun.1).trans (length_modify ..).symm
  · intro j hchannel
    rw [hquieter.channel] at hchannel
    rw [hquieter.length, hquieter.linked, linked_exited]
    obtain ⟨hlast, hlinked⟩ := hi.channel j hchannel
    exact ⟨hlast.trans (length_modify ..).symm, hlinked⟩
  · intro hguarded
    rw [hquieter.channel]
    exact hi.guarded (hquieter.guarded hguarded)

theorem idle_of_guarded (hi : Inv s) (h : s.guarded = true) : s.idle = true :=
  idle_of_channel_none hi (hi.guarded h)

/-- The worker exits, and its exit is taken for a crash or leaves nothing open. -/
theorem inv_exit (hi : Inv s) {code : Int} (hheeds : s.heeds (.exit i code) = true) :
    Inv (step o s (.exit i code)) := by
  unfold step
  dsimp only
  split
  · split
    · refine hi.exited i (quieter_handleCrash _ _) ?_
      have hguarded : St.guarded { s with
          workers := s.workers.modify i fun w => { w with exited := true } } = true →
          St.idle { s with
            workers := s.workers.modify i fun w => { w with exited := true } } = true :=
        fun h => show s.idle = true from idle_of_guarded hi h
      exact idle_handleCrash hguarded hi.turn _
    rename_i hignored
    refine hi.exited i (.refl _) ?_
    show s.idle = true
    unfold St.heeds at hheeds
    rw [Bool.or_eq_true, Bool.or_eq_true, decide_eq_true_iff] at hheeds
    rcases hheeds with (hcode | hclosing) | hidle
    · -- an exit with another code is ignored only while the manager stops a worker
      have hclosing : s.closing = true := by
        by_contra hopen
        exact hignored ⟨Bool.eq_false_iff.2 hopen, hcode⟩
      exact idle_of_guarded hi (Bool.or_eq_true_iff.2 (.inl hclosing))
    · exact idle_of_guarded hi (Bool.or_eq_true_iff.2 (.inl hclosing))
    · exact hidle
  · exact hi

theorem Inv.next (hi : Inv s) {l : Lbl} (ha : Allowed s l) : Inv (step o s l) := by
  cases l with
  | start => exact hi.start none ha.creates
  | «open» input => exact hi.start (some input) ha.creates
  | restart input =>
    unfold step
    dsimp only
    split
    · exact hi
    · exact hi.stopWorker _
  | close =>
    have hlast : ∀ i, St.running { s with state := .closed } i = true → i + 1 = s.workers.length :=
      hi.last
    exact inv_stopWorker hlast hi.turn _
  | turn input payload => exact hi.runTurnStream ha.sends
  | checkpoint => exact hi.requestOpen ha.sends (by decide) _
  | cancel reason =>
    unfold step St.cancel
    dsimp only
    split
    · exact hi
    rename_i hactive
    refine hi.requestOpen (fun hopened => ha.sends ?_) (by decide) _
    simp only [St.sends, hopened, Bool.and_true]
    exact Option.isSome_iff_ne_none.2 fun hnone => hactive (hnone ▸ rfl)
  | closeSession =>
    refine hi.closeSession fun hopen hopened => ha.sends ?_
    simp [St.sends, hopen, hopened]
  | resume k => exact hi.resume k ha.creates ha.sends
  | timeout i =>
    unfold step
    dsimp only
    split
    · have htimer := (quieter_other s s.calls (s.timers.erase i) s.openInput).inv hi
      exact (quieter_settleReady _ _).inv htimer
    · exact hi
  | frame i frame =>
    unfold step
    dsimp only
    split
    · exact (quieter_handleFrame s frame).inv hi
    · exact hi
  | fault i code | hostFault i code =>
    unfold step
    dsimp only
    split
    · exact (quieter_handleCrash s code).inv hi
    · exact hi
  | exit i code => exact inv_exit hi ha.heeds

/-! ## The law along a run -/

theorem Inv.oneWorker (hi : Inv s) : s.OneWorker := by
  intro i j hrunI _ hrunJ _
  have hlastI := hi.last i hrunI
  have hlastJ := hi.last j hrunJ
  omega

theorem Inv.allServed (hi : Inv s) : s.Served := by
  intro r hr hopen
  obtain ⟨i, hworker, hchannel, hrun⟩ := hi.served r hr hopen
  exact ⟨i, hworker, hrun, (hi.channel i hchannel).2, hi.last i hrun⟩

/-- An earlier worker has exited, so that only its host port can still raise. -/
theorem Inv.undisturbed (hi : Inv s) {l : Lbl} (ha : Allowed s l) :
    Undisturbed s (step o s l) l := by
  intro i hsource hlater
  have hexited : s.running i = false := by
    cases hrun : s.running i with
    | false => rfl
    | true =>
      have hlast := hi.last i hrun
      omega
  have hsame : step o s l = s := by
    cases l with
    | frame j frame | fault j code =>
      cases hsource
      exact if_neg (by rw [hexited]; exact Bool.false_ne_true)
    | hostFault j code =>
      cases hsource
      have hguarded : s.guarded = true := by
        have hheeds := ha.heeds
        unfold St.heeds at hheeds
        rw [Bool.or_eq_true, decide_eq_true_iff] at hheeds
        exact hheeds.resolve_left (by omega)
      unfold step
      dsimp only
      rw [handleCrash_of_guarded hguarded, ite_self]
    | exit j code =>
      cases hsource
      exact if_neg (by rw [hexited]; exact Bool.false_ne_true)
    | _ => cases hsource
  rw [hsame]
  exact ⟨rfl, fun _ _ => rfl, fun k r hr _ => hr⟩

/-- What a step must keep to. -/
def KeepsLaw (o : Options) (s : St) (l : Lbl) : Prop :=
  (step o s l).OneWorker ∧ (step o s l).Served ∧ Undisturbed s (step o s l) l

theorem inv_init : Inv {} where
  last _ hrun := nomatch hrun
  channel _ h := nomatch h
  served _ hr := nomatch hr
  guarded _ := rfl
  turn _ _ hr := nomatch hr

/-- In a run whose steps are all allowed, no worker disturbs its successor and every promise is
settled. -/
theorem keepsLaw_of_allowed (o : Options) {trace : List Lbl}
    (h : Meets (step o) Allowed {} trace) : Meets (step o) (KeepsLaw o) {} trace := by
  refine h.of_invariant (fun s l ha hi => ?_) inv_init
  have hnext : Inv (step o s l) := hi.next ha
  exact ⟨⟨hnext.oneWorker, hnext.allServed, hi.undisturbed ha⟩, hnext⟩

/-! ## Two runs -/

/-- Any identity, and frames that can be sent. -/
def anyOptions : Options where
  manifestId := "manifest"
  matchesIdentity _ := true
  sendable _ _ _ := true

def readyFrame : RuntimeFrame where
  type := .ready
  requestId := 0
  payload := [("manifestId", .str "manifest")]
  buildIdentity := some .null

def openedFrame : RuntimeFrame where
  type := .opened
  requestId := 0
  buildIdentity := some .null

/-- A session whose worker exits in a turn, and its restart. -/
def restarted (input : OpenSessionInput) : List Lbl :=
  [.open input, .frame 0 readyFrame, .resume 0, .resume 0, .frame 0 openedFrame, .resume 0,
    .turn input [], .exit 0 1, .restart none, .resume 0, .resume 0, .frame 1 readyFrame, .resume 0]

theorem keepsLaw_restarted :
    Meets (step anyOptions) (KeepsLaw anyOptions) {} (restarted ⟨"task", "operation", []⟩) :=
  keepsLaw_of_allowed anyOptions (by decide)

/-- A worker sends a malformed frame, which stops nothing; `start` then creates another one beside
it. -/
theorem start_after_fault : ¬ Meets (step anyOptions) (KeepsLaw anyOptions) {}
      [.start, .frame 0 readyFrame, .resume 0, .fault 0 "RUNTIME_INVALID_FRAME", .start] := by
  rintro ⟨-, -, -, -, ⟨hone, -⟩, -⟩
  have hsame : 0 = 1 := hone 0 1 rfl rfl rfl rfl
  cases hsame

end AgentRuntime
