import EchoDesk.Meeting.Steps

/-! # What the clients are told

The current meeting is changed with the lock; after an end, with or without a finalize, and after
an automatic start, the `meeting.state_changed` of it is published without the lock.
-/

namespace Meeting

open EchoDesk Transition Option

variable {s s' : System} {t : Nat} {o : Outcome}
variable {state : String × Mode} {event : Event}

/-! ## Events -/

/-- The meeting and the mode that a `meeting.state_changed` names. -/
def Event.state? : Event → Option (String × Mode)
  | .stateChanged meetingId mode _ => some (meetingId, mode)
  | _ => none

/-- What the last `meeting.state_changed` names. -/
def lastState (events : List Event) : Option (String × Mode) :=
  (events.filterMap Event.state?).getLast?

/-- The meeting and the mode are the current ones; when there is none, the mode is idle. -/
def Shows (current : Option CurrentMeeting) (state : String × Mode) : Prop :=
  match current, state.2 with
  | none, .idle _ => True
  | some current, .inMeeting startedBy =>
    state.1 = current.meetingId ∧ startedBy = current.startedBy
  | _, _ => False

theorem lastState_snoc (events : List Event) (event : Event) :
    lastState (events ++ [event]) = event.state?.or (lastState events) := by
  unfold lastState
  rw [List.filterMap_append]
  cases hstate : event.state? with
  | none | some state => simp [hstate]

/-- Any other event leaves what was last named. -/
theorem lastState_publishIf (s : System) (happened : Bool) (h : event.state? = none) :
    lastState (s.publishIf happened event).events = lastState s.events := by
  unfold System.publishIf System.publish
  split
  · rw [lastState_snoc, h, none_or]
  · rfl

theorem lastState_happened (s : System) {happened : Bool} (h : event.state? = some state)
    (hhappened : happened = true) : lastState (s.publishIf happened event).events = some state := by
  rw [hhappened]
  show lastState (s.events ++ [event]) = some state
  rw [lastState_snoc, h, some_or]

/-! ## What is still to be published -/

/-- The state that a task has left and not published yet. -/
def Pc.owed : Pc → Option (String × Mode)
  | .notifyAuto e _ | .notify e _ => some (e.meetingId, .idle e.endedBy)
  | .lowNotify meetingId _ => some (meetingId, .idle .manual)
  | .detected _ current | .announce _ current =>
    some (current.meetingId, .inMeeting current.startedBy)
  | _ => none

theorem owed_of_atRest {pc : Pc} (h : pc.atRest = true) : pc.owed = none := by
  cases pc with
  | idle | returned | failed => rfl
  | _ => cases h

theorem owed_of_waits {pc : Pc} (h : pc.waits = true) : pc.owed = none := by
  cases pc with
  | idle | manualStart | manualEnd | resolving | lockEnd | lowLock | lockStart | returned
  | failed => rfl
  | _ => cases h

/-- The task is not cut off before its `meeting.state_changed`, which is published while the
state is still the one it names. -/
def Pc.Timely (s : System) (o : Outcome) : Pc → Prop
  | .notifyAuto _ _ | .detected _ _ => o.cancelled = false
  | .notify _ _ | .lowNotify _ _ => o.happened = true ∧ s.current = none
  | .announce _ current => o.happened = true ∧ s.current = some current
  | _ => True

instance (s : System) (o : Outcome) : (pc : Pc) → Decidable (pc.Timely s o)
  | .notifyAuto _ _ | .detected _ _ => inferInstanceAs (Decidable (_ = _))
  | .notify _ _ | .lowNotify _ _ =>
    inferInstanceAs (Decidable (_ ∧ _))
  | .announce _ _ =>
    inferInstanceAs (Decidable (_ ∧ _))
  | .idle | .manualStart _ _ | .manualEnd | .resolving _ | .lockEnd _ _ | .updating _ _
  | .publishEnded _ _ | .lowLock _ _ | .lowUpdating _ _ _ | .lowPublishEnded _ _ _ | .lockStart _
  | .creating _ | .publishStarted _ _ | .returned _ | .failed => .isTrue trivial

def Timely (s : System) (a : Label) : Prop := (s.tasks a.task).Timely s a.outcome

instance (s : System) (a : Label) : Decidable (Timely s a) :=
  inferInstanceAs (Decidable ((s.tasks a.task).Timely s a.outcome))

/-- What was last published is the current state. -/
def Fresh (s : System) : Prop := ∀ state, lastState s.events = some state → Shows s.current state

/-- It is, or a task is about to publish it. -/
def Told (s : System) : Prop :=
  Fresh s ∨ ∃ t state, (s.tasks t).owed = some state ∧ Shows s.current state

theorem told_of_owed (t : Nat) (state : String × Mode) (h : (s.tasks t).owed = some state)
    (hshows : Shows s.current state) : Told s := .inr ⟨t, state, h, hshows⟩

theorem told_of_last (h : lastState s.events = some state) (hshows : Shows s.current state) :
    Told s := by
  left
  intro last hlast
  rw [h] at hlast
  injection hlast with heq
  rw [← heq]
  exact hshows

/-- A move that changes no state and loses nothing. -/
theorem Move.told_same (h : Move s t o s') (hs : Told s)
    (hlast : lastState s'.events = lastState s.events) (hcurrent : s'.current = s.current)
    (howed : (s.tasks t).owed = none ∨ (s'.tasks t).owed = (s.tasks t).owed) : Told s' := by
  rcases hs with hfresh | ⟨u, state, hu, hshows⟩
  · left
    intro state hstate
    rw [hlast] at hstate
    rw [hcurrent]
    exact hfresh state hstate
  rw [← hcurrent] at hshows
  by_cases heq : u = t
  · rw [heq] at hu
    rcases howed with hnone | hsame
    · rw [hnone] at hu
      cases hu
    · exact told_of_owed t state (hsame.trans hu) hshows
  · refine told_of_owed u state ?_ hshows
    rw [h.tasks heq]
    exact hu

theorem Move.told (h : Move s t o s') (htimely : (s.tasks t).Timely s o) (hs : Told s) :
    Told s' := by
  have hsame := h.told_same hs
  cases h with
  | waits pc hfrom hto => exact hsame rfl rfl (.inl (owed_of_waits hfrom))
  | takeEnd e title current hpc | commit e title hpc =>
    exact hsame rfl rfl (.inl (by rw [hpc]; rfl))
  | updateFails _ _ happened _ hpc | lowUpdateFails _ _ _ happened _ hpc =>
    cases happened with
    | true | false => exact hsame rfl rfl (.inl (by rw [hpc]; rfl))
  | lowTake meetingId reason hpc | lowCommit meetingId reason currentMatches hpc =>
    exact hsame rfl rfl (.inl (by rw [hpc]; rfl))
  | takeStart c hpc | create c rows record hpc | createFails c rows hpc =>
    exact hsame rfl rfl (.inl (by rw [hpc]; rfl))
  | endedFails _ _ happened _ hpc | startedFails _ _ happened _ hpc
  | lowEndedFails _ _ _ happened hpc =>
    exact hsame (lastState_publishIf s happened rfl) (current_publishIf ..)
      (.inl (by rw [hpc]; rfl))
  | clearFinalized e title | clear e title =>
    -- the end is still to be published
    refine told_of_owed t (e.meetingId, .idle e.endedBy) ?_ trivial
    rw [System.clear, tasks_goto, if_pos rfl]
    split
    · rfl
    · rfl
  | lowClearFinalized meetingId reason hpc =>
    -- the end of another meeting than the current one says nothing
    cases hmatches : s.currentMatches meetingId with
    | false =>
      rw [hmatches] at hsame
      exact hsame rfl rfl (.inl (by rw [hpc]; rfl))
    | true =>
      refine told_of_owed t (meetingId, .idle .manual) ?_ trivial
      rw [System.clearMatching, tasks_goto, if_pos rfl]
      rfl
  | lowClear meetingId reason currentMatches hpc =>
    cases currentMatches with
    | false =>
      have hlast : lastState (s.publish (.ended meetingId)).events = lastState s.events :=
        lastState_publishIf s true rfl
      exact hsame hlast rfl (.inl (by rw [hpc]; rfl))
    | true =>
      refine told_of_owed t (meetingId, .idle .manual) ?_ trivial
      rw [System.clearMatching, tasks_goto, if_pos rfl]
      rfl
  | startManual title mid record =>
    refine told_of_owed t (record.current.meetingId, .inMeeting record.current.startedBy) ?_
      ⟨rfl, rfl⟩
    rw [tasks_goto, if_pos rfl]
    rfl
  | startAuto mid reason record =>
    refine told_of_owed t (record.current.meetingId, .inMeeting record.current.startedBy) ?_
      ⟨rfl, rfl⟩
    rw [tasks_goto, if_pos rfl]
    split
    · rfl
    · rfl
  | notifyAuto e title hpc | detected reason current hpc =>
    rw [hpc] at htimely
    have hcancelled : o.cancelled = false := htimely
    refine hsame (lastState_publishIf s _ rfl) (current_publishIf ..) (.inr ?_)
    rw [tasks_goto, if_pos rfl, hpc, hcancelled]
    rfl
  | notifyFails _ _ hpc | schedule _ _ hpc | lowNotify _ _ hpc =>
    rw [hpc] at htimely
    refine told_of_last (lastState_happened s rfl htimely.1) ?_
    rw [current_goto, current_publishIf, htimely.2]
    trivial
  | announceAuto mid reason current hpc =>
    rw [hpc] at htimely
    refine told_of_last (lastState_happened s rfl htimely.1) ?_
    rw [current_goto, current_publishIf, htimely.2]
    exact ⟨rfl, rfl⟩
  | announceManual title mid current hpc =>
    rw [hpc] at htimely
    refine told_of_last (lastState_happened s rfl htimely.1) ?_
    show Shows (s.publishIf o.happened _).current _
    rw [current_publishIf, htimely.2]
    exact ⟨rfl, rfl⟩

theorem told_step (s : System) (a : Label) (ha : Timely s a) (hs : Told s) : Told (step s a) :=
  step_keeps hs fun h => h.told ha hs

/-- When no task is in progress, the last `meeting.state_changed` names the current meeting and
mode. -/
theorem stateChanged_current (rows : Rows) (trace : List Label)
    (hmeets : Meets step Timely (System.hydrated rows) trace)
    (hrest : ∀ t, ((run step (System.hydrated rows) trace).tasks t).atRest = true)
    (state : String × Mode)
    (hlast : lastState (run step (System.hydrated rows) trace).events = some state) :
    Shows (run step (System.hydrated rows) trace).current state := by
  have hinit : Told (System.hydrated rows) := .inl nofun
  rcases run_invariant_of_meets told_step hmeets hinit with hfresh | ⟨t, owed, howed, -⟩
  · exact hfresh state hlast
  · rw [owed_of_atRest (hrest t)] at howed
    cases howed

/-- The user ends a meeting and starts another one, which is ended without a finalize. -/
def turnover : List Label :=
  .call 0 .manualEnd :: List.replicate 6 (.advance 0 .ok) ++
    .call 1 (.manualStart none "m-1") :: List.replicate 5 (.advance 1 .ok) ++
    .call 2 (.endWithoutFinalize "m-1" "low_level_api_end") :: List.replicate 4 (.advance 2 .ok)

theorem stateChanged_current_turnover :
    Shows (run step (System.hydrated oneActive) turnover).current ("m-1", .idle .manual) :=
  stateChanged_current oneActive turnover (by decide +kernel)
    (atRest_run 3 (by decide +kernel) (by decide +kernel)) _ (by decide +kernel)

/-- The user ends a meeting and starts another one before the end is published. -/
def overtaken : List Label :=
  .call 0 .manualEnd :: List.replicate 5 (.advance 0 .ok) ++
    .call 1 (.manualStart none "m-1") :: List.replicate 5 (.advance 1 .ok) ++ [.advance 0 .ok]

theorem stateChanged_breaks : ¬ ∀ (rows : Rows) (trace : List Label) (state : String × Mode),
    (∀ t, ((run step (System.hydrated rows) trace).tasks t).atRest = true) →
    lastState (run step (System.hydrated rows) trace).events = some state →
    Shows (run step (System.hydrated rows) trace).current state := by
  intro h
  have hshows := h oneActive overtaken ("m-0", .idle .manual)
    (atRest_run 2 (by decide +kernel) (by decide +kernel)) (by decide +kernel)
  have hcurrent : (run step (System.hydrated oneActive) overtaken).current =
      some ⟨"m-1", .manual⟩ := by decide +kernel
  rw [hcurrent] at hshows
  exact hshows

end Meeting
