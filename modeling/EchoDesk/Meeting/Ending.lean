import EchoDesk.Foundations.Handover
import EchoDesk.Meeting.Steps

/-! # Ending a meeting

An end commits the row, clears the current meeting and schedules a finalize, with an `await`
between any two of them.
-/

namespace Meeting

open EchoDesk Transition List Option Function

variable {s s' : System} {t : Nat} {o : Outcome}
variable {rows : Rows} {trace : List Label} {id : String} {e : EndCall}

/-! ## The finalize that an end owes -/

/-- The meeting whose finalize the task has still to schedule. -/
def Pc.due : Pc → Option String
  | .publishEnded e _ | .notifyAuto e _ | .notify e _ => some e.meetingId
  | _ => none

/-- The meetings whose finalize was scheduled. -/
def System.finalizing (s : System) : List String := s.finalizes.map Prod.fst

theorem due_of_waits {pc : Pc} (h : pc.waits = true) : pc.due = none := by
  cases pc with
  | idle | manualStart | manualEnd | resolving | lockEnd | lowLock | lockStart | returned
  | failed => rfl
  | _ => cases h

/-- Every committed end has its finalize scheduled, or one task owes it. -/
def Scheduled (s : System) : Prop :=
  Handover s.commits s.finalizing fun u => (s.tasks u).due

/-! ## Undisturbed ends -/

/-- The `await`s of an end that matter: the update commits, or raises and has not committed;
`meeting.ended` is published; and the later events may be lost, but the task is not cancelled.
An end without a finalize is none of the ends this is about. -/
def Pc.Orderly (o : Outcome) : Pc → Prop
  | .updating _ _ => o = .ok ∨ o = .fails false false
  | .publishEnded _ _ => o = .ok
  | .notifyAuto _ _ | .notify _ _ => o.cancelled = false
  | .lowLock _ _ | .lowUpdating _ _ _ | .lowPublishEnded _ _ _ | .lowNotify _ _ => False
  | _ => True

instance (o : Outcome) : (pc : Pc) → Decidable (pc.Orderly o)
  | .updating _ _ => inferInstanceAs (Decidable (_ ∨ _))
  | .publishEnded _ _ => inferInstanceAs (Decidable (o = .ok))
  | .notifyAuto _ _ | .notify _ _ => inferInstanceAs (Decidable (_ = _))
  | .lowLock _ _ | .lowUpdating _ _ _ | .lowPublishEnded _ _ _ | .lowNotify _ _ => .isFalse nofun
  | .idle | .manualStart _ _ | .manualEnd | .resolving _ | .lockEnd _ _ | .lockStart _
  | .creating _ | .publishStarted _ _ | .detected _ _ | .announce _ _ | .returned _
  | .failed => .isTrue trivial

def Orderly (s : System) (a : Label) : Prop := (s.tasks a.task).Orderly a.outcome

instance (s : System) (a : Label) : Decidable (Orderly s a) :=
  inferInstanceAs (Decidable ((s.tasks a.task).Orderly a.outcome))

/-! ## The current meeting and its row -/

/-- Where the task with the lock stands. -/
def System.holder (s : System) : Option Pc := s.lock.map s.tasks

/-- The row of the meeting is `in_meeting`. -/
def IsActive (rows : Rows) (meetingId : String) : Prop :=
  ∃ row, rows.get? meetingId = some row ∧ row.state = .inMeeting

/-- The row of the current meeting has ended only between the commit and the clearing; and with
no end at work, the next one is not turned away. -/
def Alive (s : System) (current : CurrentMeeting) : Option Pc → Prop
  | some (.publishEnded _ _) => HasEnded s.rows current.meetingId
  | some (.updating _ _) => IsActive s.rows current.meetingId
  | _ => IsActive s.rows current.meetingId ∧ current.meetingId ∉ s.finalized

/-- What holds along a run of orderly ends. -/
structure Whole (s : System) : Prop where
  guarded : Guarded s
  alive : ∀ current, s.current = some current → Alive s current s.holder
  committed : ∀ id ∈ s.commits, HasEnded s.rows id
  scheduled : Scheduled s

theorem IsActive.not_hasEnded (h : IsActive rows id) : ¬ HasEnded rows id := by
  rintro ⟨row, hrow, hstate⟩
  obtain ⟨active, hactive, hin⟩ := h
  rw [hactive] at hrow
  injection hrow with heq
  rw [← heq] at hstate
  exact hstate hin

theorem isActive_of_active? {row : MeetingRow} (h : active? rows = some row) :
    IsActive rows row.id := ⟨row, get?_of_active? h, active?_state h⟩

theorem IsActive.endRow (h : IsActive rows id) : HasEnded (endRow rows id) id := by
  obtain ⟨row, hrow, -⟩ := h
  exact hasEnded_endRow (by rw [hrow]; rfl)

theorem whole_hydrated (rows : Rows) : Whole (System.hydrated rows) where
  guarded := guarded_hydrated rows
  alive current hcurrent := by
    rw [System.hydrated, map_eq_some_iff] at hcurrent
    obtain ⟨row, hrow, rfl⟩ := hcurrent
    exact ⟨isActive_of_active? hrow, not_mem_nil⟩
  committed := nofun
  scheduled := Handover.init

theorem holder_none (h : s.lock = none) : s.holder = none := by
  rw [System.holder, h]
  rfl

theorem holder_of_locked (hs : Excludes s) (h : (s.tasks t).locked = true) :
    s.holder = some (s.tasks t) := by
  rw [System.holder, (hs t).1 h]
  rfl

/-- Another task has the lock, or none. -/
theorem Move.holder (h : Move s t o s') (hs : Excludes s) (hfree : (s.tasks t).locked = false)
    (hlock : s'.lock = s.lock) : s'.holder = s.holder := by
  unfold System.holder
  rw [hlock]
  cases hheld : s.lock with
  | none => rfl
  | some u =>
    have hne : u ≠ t := by
      intro heq
      rw [heq] at hheld
      rw [(hs t).2 hheld] at hfree
      cases hfree
    rw [map_some, map_some, h.tasks hne]

/-- A task that has no lock and only publishes or waits. -/
theorem Move.alive_of_untouched (h : Move s t o s') (hs : Whole s)
    (hfree : (s.tasks t).locked = false) (hsame : Untouched s s') (current : CurrentMeeting)
    (hcurrent : s'.current = some current) : Alive s' current s'.holder := by
  rw [h.holder hs.guarded.excludes hfree hsame.lock]
  rw [hsame.current] at hcurrent
  have halive := hs.alive current hcurrent
  unfold Alive at halive ⊢
  rw [hsame.rows, hsame.finalized]
  exact halive

theorem Move.alive (h : Move s t o s') (hs : Whole s) (hok : (s.tasks t).Orderly o)
    (current : CurrentMeeting) (hcurrent : s'.current = some current) :
    Alive s' current s'.holder := by
  have hrelies := hs.guarded.relies t
  have hsame := h.alive_of_untouched hs
  have hexcludes := hs.guarded.excludes
  have hguarded := h.guarded hs.guarded
  cases h with
  | waits pc hfrom =>
    exact hsame (not_locked_of_waits hfrom) ⟨rfl, rfl, rfl, rfl, rfl⟩ current hcurrent
  | notifyAuto e title hpc | notifyFails e title hpc | schedule e title hpc
  | detected reason current' hpc | announceAuto mid reason current' hpc =>
    exact hsame (by rw [hpc]; rfl) ⟨by simp, by simp, by simp, by simp, by simp⟩ current hcurrent
  | clearFinalized | clear => cases hcurrent
  | lowTake _ _ hpc | lowClearFinalized _ _ hpc | lowCommit _ _ _ hpc
  | lowUpdateFails _ _ _ _ _ hpc | lowClear _ _ _ hpc | lowEndedFails _ _ _ _ hpc
  | lowNotify _ _ hpc =>
    rw [hpc] at hok
    cases hok
  | takeEnd e title current' hpc hlock hcurrent' =>
    have halive := hs.alive current hcurrent
    rw [holder_none hlock] at halive
    rw [holder_of_locked (t := t) hguarded.excludes (by rw [tasks_goto, if_pos rfl]; rfl),
      tasks_goto, if_pos rfl]
    exact halive.1
  | commit e title hpc =>
    -- the row ends here, and the task stands before the clearing
    rw [hpc] at hrelies
    obtain ⟨current', hcurrent', hid⟩ := hrelies
    have halive := hs.alive current hcurrent
    rw [holder_of_locked (t := t) hexcludes (by rw [hpc]; rfl), hpc] at halive
    rw [holder_of_locked (t := t) hguarded.excludes (by rw [tasks_goto, if_pos rfl]; rfl),
      tasks_goto, if_pos rfl]
    have heq : current = current' := some.inj (hcurrent.symm.trans hcurrent')
    rw [← hid, ← heq]
    exact IsActive.endRow halive
  | updateFails e title happened cancelled hpc ho =>
    -- nothing was committed, and the meeting is taken out of `_finalized` again
    rw [hpc] at hrelies
    rw [hpc, ho] at hok
    obtain ⟨current', hcurrent', hid⟩ := hrelies
    have hpair : happened = false ∧ cancelled = false := by
      rcases hok with hok | hok
      · cases hok
      · injection hok with hhappened hcancelled
        exact ⟨hhappened, hcancelled⟩
    obtain ⟨rfl, rfl⟩ := hpair
    have halive := hs.alive current hcurrent
    rw [holder_of_locked (t := t) hexcludes (by rw [hpc]; rfl), hpc] at halive
    have heq : current = current' := some.inj (hcurrent.symm.trans hcurrent')
    refine ⟨halive, ?_⟩
    show current.meetingId ∉ s.finalized.filter (· ≠ e.meetingId)
    rw [heq, hid]
    simp
  | endedFails e title happened cancelled hpc ho =>
    rw [hpc, ho] at hok
    cases hok
  | takeStart c hpc hlock hnone =>
    exact absurd (hnone.symm.trans hcurrent) nofun
  | create c rows record hpc | createFails c rows hpc =>
    rw [hpc] at hrelies
    exact absurd (hrelies.symm.trans hcurrent) nofun
  | startedFails c record happened cancelled hpc =>
    rw [hpc] at hrelies
    have hnone := (current_publishIf s
      (.started record.id record.autoStarted record.title) happened).trans hrelies.1
    exact absurd (hnone.symm.trans hcurrent) nofun
  | startManual title mid record hpc =>
    rw [hpc] at hrelies
    rw [holder_of_locked (t := t) hguarded.excludes (by rw [tasks_goto, if_pos rfl]; rfl),
      tasks_goto, if_pos rfl]
    obtain rfl : record.current = current := some.inj hcurrent
    exact ⟨isActive_of_active? hrelies.2.1, hrelies.2.2⟩
  | startAuto mid reason record hpc =>
    rw [hpc] at hrelies
    obtain rfl : record.current = current := some.inj hcurrent
    exact ⟨isActive_of_active? hrelies.2.1, hrelies.2.2⟩
  | announceManual title mid current' hpc =>
    have hcurrent : s.current = some current := (current_publishIf ..).symm.trans hcurrent
    have halive := hs.alive current hcurrent
    rw [holder_of_locked (t := t) hexcludes (by rw [hpc]; rfl), hpc] at halive
    show IsActive (s.publishIf _ _).rows _ ∧ _ ∉ (s.publishIf _ _).finalized
    rw [rows_publishIf, finalized_publishIf]
    exact halive

/-! ## Commits and finalizes -/

theorem Move.commits (h : Move s t o s') (hok : (s.tasks t).Orderly o) :
    s'.commits = s.commits ∨ ∃ e title, s.tasks t = .updating e title ∧
      s' = (s.commitEnd e.meetingId).goto t (.publishEnded e title) := by
  cases h with
  | waits | takeEnd | clearFinalized | clear | takeStart | create | createFails | startManual
  | startAuto => exact .inl rfl
  | commit e title hpc => exact .inr ⟨e, title, hpc, rfl⟩
  | updateFails e title happened cancelled hpc ho =>
    rw [hpc, ho] at hok
    rcases hok with hok | hok
    · cases hok
    injection hok with hhappened hcancelled
    rw [hhappened]
    exact .inl rfl
  | lowTake _ _ hpc | lowClearFinalized _ _ hpc | lowCommit _ _ _ hpc
  | lowUpdateFails _ _ _ _ _ hpc | lowClear _ _ _ hpc | lowEndedFails _ _ _ _ hpc
  | lowNotify _ _ hpc =>
    rw [hpc] at hok
    cases hok
  | _ =>
    exact .inl (commits_publishIf ..)

/-- An end that is about to be committed never was. -/
theorem not_committed (hs : Whole s) {title : String} (hpc : s.tasks t = .updating e title) :
    e.meetingId ∉ s.commits := by
  have hrelies := hs.guarded.relies t
  rw [hpc] at hrelies
  obtain ⟨current, hcurrent, hid⟩ := hrelies
  have halive := hs.alive current hcurrent
  rw [holder_of_locked (t := t) hs.guarded.excludes (by rw [hpc]; rfl), hpc] at halive
  intro hmem
  have hended := hs.committed e.meetingId hmem
  rw [← hid] at hended
  exact IsActive.not_hasEnded halive hended

theorem Move.committed (h : Move s t o s') (hs : Whole s) (hok : (s.tasks t).Orderly o) :
    ∀ id ∈ s'.commits, HasEnded s'.rows id := by
  intro id hid
  rcases h.commits hok with hsame | ⟨e, title, hpc, rfl⟩
  · rw [hsame] at hid
    exact h.hasEnded (hs.committed id hid)
  have hrelies := hs.guarded.relies t
  rw [hpc] at hrelies
  obtain ⟨current, hcurrent, hcid⟩ := hrelies
  have halive := hs.alive current hcurrent
  rw [holder_of_locked (t := t) hs.guarded.excludes (by rw [hpc]; rfl), hpc] at halive
  rcases mem_append.1 hid with hold | hnew
  · exact h.hasEnded (hs.committed id hold)
  · rw [mem_singleton.1 hnew, ← hcid]
    exact IsActive.endRow halive

theorem Move.due (h : Move s t o s') : (fun u => (s'.tasks u).due) =
    Function.update (fun u => (s.tasks u).due) t (s'.tasks t).due := by
  funext u
  by_cases hu : u = t
  · rw [hu, update_self]
  · rw [update_of_ne hu, h.tasks hu]

/-- A move that neither commits nor schedules, and leaves the task its debt. -/
theorem Move.scheduled_same (h : Move s t o s') (hs : Scheduled s)
    (hcommits : s'.commits = s.commits) (hfinalizes : s'.finalizes = s.finalizes)
    (hdue : (s'.tasks t).due = (s.tasks t).due) : Scheduled s' := by
  unfold Scheduled System.finalizing
  rw [hcommits, hfinalizes, h.due, hdue, update_eq_self]
  exact hs

theorem Move.scheduled (h : Move s t o s') (hs : Whole s) (hok : (s.tasks t).Orderly o) :
    Scheduled s' := by
  have hsame := h.scheduled_same hs.scheduled
  have hdue := h.due
  cases h with
  | waits pc hfrom hto =>
    exact hsame rfl rfl (by rw [tasks_goto, if_pos rfl, due_of_waits hfrom, due_of_waits hto])
  | takeEnd e title current hpc | takeStart c hpc | create c rows record hpc
  | createFails c rows hpc | startManual title mid record hpc =>
    exact hsame rfl rfl (by rw [tasks_goto, if_pos rfl, hpc]; rfl)
  | startAuto mid reason record hpc =>
    refine hsame rfl rfl ?_
    rw [tasks_goto, if_pos rfl, hpc]
    split
    · rfl
    · rfl
  | commit e title hpc =>
    have hnone : (s.tasks t).due = none := by rw [hpc]; rfl
    unfold Scheduled
    rw [hdue, tasks_goto, if_pos rfl]
    exact Handover.incur hs.scheduled hnone (not_committed hs hpc)
  | updateFails e title happened cancelled hpc ho =>
    rw [hpc, ho] at hok
    rcases hok with hok | hok
    · cases hok
    injection hok with hhappened hcancelled
    refine hsame (by rw [hhappened]; rfl) (by rw [hhappened]; rfl) ?_
    rw [tasks_goto, if_pos rfl, hpc]
    rfl
  | clearFinalized e title current hpc hlock hcurrent hid hfinalized =>
    -- a meeting that is current is not in `_finalized` while the lock is free
    have halive := hs.alive current hcurrent
    rw [holder_none hlock] at halive
    rw [← hid] at hfinalized
    exact absurd hfinalized halive.2
  | clear e title hpc =>
    refine hsame rfl rfl ?_
    rw [System.clear, tasks_goto, if_pos rfl, hpc]
    split
    · rfl
    · rfl
  | endedFails e title happened cancelled hpc ho =>
    rw [hpc, ho] at hok
    cases hok
  | notifyAuto e title hpc =>
    rw [hpc] at hok
    have hcancelled : o.cancelled = false := hok
    refine hsame (commits_publishIf ..) (finalizes_publishIf ..) ?_
    rw [tasks_goto, if_pos rfl, hpc, hcancelled]
    rfl
  | lowTake _ _ hpc | lowClearFinalized _ _ hpc | lowCommit _ _ _ hpc
  | lowUpdateFails _ _ _ _ _ hpc | lowClear _ _ _ hpc | lowEndedFails _ _ _ _ hpc
  | lowNotify _ _ hpc =>
    rw [hpc] at hok
    cases hok
  | notifyFails e title hpc ho =>
    rw [hpc] at hok
    have hcancelled : o.cancelled = false := hok
    rw [hcancelled] at ho
    cases ho
  | schedule e title hpc =>
    have hbears : (s.tasks t).due = some e.meetingId := by rw [hpc]; rfl
    unfold Scheduled
    rw [hdue, tasks_goto, if_pos rfl, due_of_waits (waits_afterEnd e), System.finalizing,
      commits_goto, finalizes_goto, map_append, commits_publishIf]
    exact Handover.meet hs.scheduled hbears
  | startedFails c record happened cancelled hpc =>
    exact hsame (commits_publishIf ..) (finalizes_publishIf ..)
      (by rw [tasks_goto, if_pos rfl, hpc]; rfl)
  | detected reason current hpc | announceAuto mid reason current hpc
  | announceManual title mid current hpc =>
    refine hsame (commits_publishIf ..) (finalizes_publishIf ..) ?_
    rw [tasks_goto, if_pos rfl, hpc]
    split
    · rfl
    · rfl

theorem whole_step (s : System) (a : Label) (ha : Orderly s a) (hs : Whole s) :
    Whole (step s a) := by
  refine step_keeps hs ?_
  intro h
  exact
    { guarded := h.guarded hs.guarded
      alive := h.alive hs ha
      committed := h.committed hs ha
      scheduled := h.scheduled hs ha }

theorem whole_run (h : Meets step Orderly (System.hydrated rows) trace) :
    Whole (run step (System.hydrated rows) trace) :=
  run_invariant_of_meets whole_step h (whole_hydrated rows)

/-! ## All or nothing -/

/-- A meeting that was current in the first state is cleared in the second exactly when its
durable end was committed; a task that stands between the two is the only exception. -/
def Cleared (s₀ s : System) : Prop :=
  ∀ a, s₀.current = some a → (s.current ≠ some a → HasEnded s.rows a.meetingId) ∧
    (HasEnded s.rows a.meetingId → s.current = some a →
      ∃ t e title, s.tasks t = .publishEnded e title ∧ e.meetingId = a.meetingId)

/-- An end is committed once at most and its finalize scheduled once at most, and once when no
task is in progress. -/
def Once (s : System) : Prop :=
  s.commits.Nodup ∧ s.finalizing.Nodup ∧ (∀ id ∈ s.finalizing, id ∈ s.commits) ∧
    ((∀ t, (s.tasks t).atRest = true) → s.finalizing.Perm s.commits)

/-- The end that a task has not committed yet. -/
def Pc.ending : Pc → Option EndCall
  | .resolving e | .lockEnd e _ | .updating e _ => some e
  | _ => none

/-- The same end, by a task at rest. -/
def retry (u : Nat) (e : EndCall) : List Label :=
  .call u (.endCurrent e.meetingId e.endedBy e.reason) :: List.replicate 6 (.advance u .ok)

/-- The end of the meeting goes through. -/
def Ends (s : System) (e : EndCall) (s' : System) : Prop :=
  s'.current = none ∧ s'.commits = s.commits ++ [e.meetingId] ∧
    s'.finalizing = s.finalizing ++ [e.meetingId]

/-- When an end raises before the commit, the meeting is still current and the end can be
retried. -/
def Retriable (s : System) : Prop :=
  ∀ t o e, Orderly s (.advance t o) → (s.tasks t).ending = some e →
    (step s (.advance t o)).tasks t = .failed →
    (step s (.advance t o)).current = s.current ∧ (step s (.advance t o)).rows = s.rows ∧
    (step s (.advance t o)).commits = s.commits ∧
    ((∃ title, s.tasks t = .updating e title) → (step s (.advance t o)).lock = none ∧
        ∃ current, s.current = some current ∧ current.meetingId = e.meetingId) ∧
    ∀ current u, s.current = some current → current.meetingId = e.meetingId →
      (step s (.advance t o)).lock = none → ((step s (.advance t o)).tasks u).atRest = true →
      Ends (step s (.advance t o)) e (run step (step s (.advance t o)) (retry u e))

/-- The meeting is current, or has ended. -/
theorem Move.kept (h : Move s t o s') (hs : Whole s) (hok : (s.tasks t).Orderly o)
    {a : CurrentMeeting} (ha : HasEnded s.rows a.meetingId ∨ s.current = some a) :
    HasEnded s'.rows a.meetingId ∨ s'.current = some a := by
  rcases ha with hended | hcurrent
  · exact .inl (h.hasEnded hended)
  have hrelies := hs.guarded.relies t
  have halive := hs.alive a hcurrent
  cases h with
  | waits | takeEnd | takeStart | commit | create | createFails => exact .inr hcurrent
  | clearFinalized e title current hpc hlock hcurrent' hid hfinalized =>
    rw [holder_none hlock] at halive
    obtain rfl : current = a := some.inj (hcurrent'.symm.trans hcurrent)
    rw [← hid] at hfinalized
    exact absurd hfinalized halive.2
  | clear e title hpc =>
    rw [holder_of_locked (t := t) hs.guarded.excludes (by rw [hpc]; rfl), hpc] at halive
    exact .inl halive
  | lowTake _ _ hpc | lowClearFinalized _ _ hpc | lowCommit _ _ _ hpc
  | lowUpdateFails _ _ _ _ _ hpc | lowClear _ _ _ hpc | lowEndedFails _ _ _ _ hpc
  | lowNotify _ _ hpc =>
    rw [hpc] at hok
    cases hok
  | updateFails e title happened cancelled =>
    cases happened with
    | true | false => exact .inr hcurrent
  | startManual title mid record hpc | startAuto mid reason record hpc =>
    rw [hpc] at hrelies
    exact absurd (hrelies.1.symm.trans hcurrent) nofun
  | _ =>
    exact .inr ((current_publishIf ..).trans hcurrent)

theorem cleared_run (hs : Whole s) (h : Meets step Orderly s trace) :
    Cleared s (run step s trace) := by
  intro a ha
  have hstep : ∀ s l, Orderly s l → Whole s ∧ (HasEnded s.rows a.meetingId ∨ s.current = some a) →
      Whole (step s l) ∧ (HasEnded (step s l).rows a.meetingId ∨ (step s l).current = some a) := by
    rintro s l hl ⟨hs, ha⟩
    refine ⟨whole_step s l hl hs, ?_⟩
    exact step_keeps (P := fun s => HasEnded s.rows a.meetingId ∨ s.current = some a) ha
      fun h => h.kept hs hl ha
  obtain ⟨hwhole, hkept⟩ := run_invariant_of_meets hstep h ⟨hs, .inr ha⟩
  constructor
  · intro hne
    exact hkept.resolve_right hne
  intro hended hcurrent
  have halive := hwhole.alive a hcurrent
  cases hlock : (run step s trace).lock with
  | none =>
    rw [holder_none hlock] at halive
    exact absurd hended halive.1.not_hasEnded
  | some u =>
    have hrelies := hwhole.guarded.relies u
    rw [System.holder, hlock, map_some] at halive
    -- any other task with the lock would find the row active
    cases hpc : (run step s trace).tasks u with
    | publishEnded e title =>
      rw [hpc] at hrelies
      obtain ⟨current, hcurrent', hid⟩ := hrelies
      obtain rfl : a = current := some.inj (hcurrent.symm.trans hcurrent')
      exact ⟨u, e, title, hpc, hid.symm⟩
    | updating e title =>
      rw [hpc] at halive
      exact absurd hended (IsActive.not_hasEnded halive)
    | _ =>
      rw [hpc] at halive
      exact absurd hended halive.1.not_hasEnded

theorem once_of_whole (hs : Whole s) : Once s := by
  refine ⟨hs.scheduled.incurred_nodup, hs.scheduled.met_nodup, hs.scheduled.incurred_of_met, ?_⟩
  intro hrest
  exact hs.scheduled.perm fun t => due_of_waits (atRest_waits (hrest t))

theorem ends_of_retry (u : Nat) (e : EndCall) (current : CurrentMeeting) (hlock : s.lock = none)
    (hcurrent : s.current = some current) (hid : current.meetingId = e.meetingId)
    (hfresh : e.meetingId ∉ s.finalized) (hrest : (s.tasks u).atRest = true) :
    Ends s e (run step s (retry u e)) := by
  have hcall : step s (.call u (.endCurrent e.meetingId e.endedBy e.reason)) =
      s.goto u (.resolving ⟨e.meetingId, e.endedBy, e.reason, none⟩) := if_pos hrest
  unfold retry
  rw [run_cons, hcall]
  by_cases hauto : e.endedBy = .auto <;>
  · simp [List.replicate, step, System.advance, hlock, hcurrent, hid, hfresh, System.clear, hauto,
      System.commitEnd, System.publish, System.release, Ends, afterEnd, System.finalizing,
      Outcome.cancelled, Outcome.happened, System.publishIf]

/-- An end that raises before the commit leaves everything as it was; when it was in the update,
it gives back the lock and takes the meeting out of `_finalized`. -/
theorem Move.fails (h : Move s t o s') (hok : (s.tasks t).Orderly o)
    (hending : (s.tasks t).ending = some e) (hfailed : s'.tasks t = .failed) :
    (∀ title, s.tasks t ≠ .updating e title) ∧ s' = s.goto t .failed ∨
      ∃ title, s.tasks t = .updating e title ∧ s' = ({ s with
        finalized := s.finalized.filter (· ≠ e.meetingId) } : System).release.goto t .failed := by
  cases h with
  | waits pc hfrom =>
    rw [tasks_goto, if_pos rfl] at hfailed
    rw [hfailed]
    refine .inl ⟨?_, rfl⟩
    intro title hpc
    rw [hpc] at hfrom
    cases hfrom
  | takeEnd | commit =>
    rw [tasks_goto, if_pos rfl] at hfailed
    cases hfailed
  | clearFinalized | clear =>
    rw [System.clear, tasks_goto, if_pos rfl] at hfailed
    split at hfailed
    · cases hfailed
    · cases hfailed
  | updateFails e' title happened cancelled hpc ho =>
    rw [hpc, ho] at hok
    rw [hpc] at hending
    obtain rfl : e' = e := some.inj hending
    rcases hok with hok | hok
    · cases hok
    injection hok with hhappened hcancelled
    rw [hhappened, hcancelled]
    exact .inr ⟨title, hpc, rfl⟩
  | endedFails e' title happened cancelled hpc | notifyAuto e' title hpc | notifyFails e' title hpc
  | schedule e' title hpc
  | takeStart c hpc | create c rows record hpc | createFails c rows hpc
  | startedFails c record happened cancelled hpc
  | startManual title mid record hpc | startAuto mid reason record hpc
  | detected reason current hpc | announceAuto mid reason current hpc
  | announceManual title mid current hpc | lowTake _ _ hpc | lowClearFinalized _ _ hpc
  | lowCommit _ _ _ hpc | lowUpdateFails _ _ _ _ _ hpc | lowClear _ _ _ hpc
  | lowEndedFails _ _ _ _ hpc | lowNotify _ _ hpc =>
    rw [hpc] at hending
    cases hending

theorem retriable_of_whole (hs : Whole s) : Retriable s := by
  intro t o e hok hending hfailed
  have hmove : Move s t o (step s (.advance t o)) := by
    rcases advance_move s t o with hsame | h
    · rw [show step s (.advance t o) = s from hsame] at hfailed
      rw [hfailed] at hending
      cases hending
    · exact h
  rcases hmove.fails hok hending hfailed with ⟨hother, heq⟩ | ⟨title, hpc, heq⟩
  · rw [heq]
    refine ⟨rfl, rfl, rfl, ?_, ?_⟩
    · rintro ⟨title, hpc⟩
      exact absurd hpc (hother title)
    intro current u hcurrent hid hlock hrest
    have halive := hs.alive current hcurrent
    rw [holder_none (s := s) hlock] at halive
    exact ends_of_retry u e current hlock hcurrent hid (by rw [← hid]; exact halive.2) hrest
  · have hrelies := hs.guarded.relies t
    rw [hpc] at hrelies
    rw [heq]
    refine ⟨rfl, rfl, rfl, fun _ => ⟨rfl, hrelies⟩, ?_⟩
    intro current u hcurrent hid hlock hrest
    exact ends_of_retry u e current hlock hcurrent hid (by simp [System.release]) hrest

/-- Ending a meeting is all or nothing, along a run of orderly ends. -/
theorem end_allOrNothing (rows : Rows) (before during : List Label)
    (hmeets : Meets step Orderly (System.hydrated rows) (before ++ during)) :
    Cleared (run step (System.hydrated rows) before)
        (run step (System.hydrated rows) (before ++ during)) ∧
      Once (run step (System.hydrated rows) (before ++ during)) ∧
      Retriable (run step (System.hydrated rows) (before ++ during)) := by
  have hwhole := whole_run hmeets
  rw [meets_append] at hmeets
  refine ⟨?_, once_of_whole hwhole, retriable_of_whole hwhole⟩
  rw [run_append]
  exact cleared_run (whole_run hmeets.1) hmeets.2

/-- An end that raises before its commit, and is made again. -/
def interrupted : List Label :=
  [.call 0 .manualEnd, .advance 0 .ok, .advance 0 .ok, .advance 0 .ok,
    .advance 0 (.fails false false), .call 1 .manualEnd] ++ List.replicate 6 (.advance 1 .ok)

theorem end_allOrNothing_interrupted : Cleared (run step (System.hydrated oneActive) [])
        (run step (System.hydrated oneActive) ([] ++ interrupted)) ∧
      Once (run step (System.hydrated oneActive) ([] ++ interrupted)) ∧
      Retriable (run step (System.hydrated oneActive) ([] ++ interrupted)) :=
  end_allOrNothing oneActive [] interrupted (by decide +kernel)

/-- The same end, but the task is cancelled in the update. -/
def cancelled : List Label :=
  [.call 0 .manualEnd, .advance 0 .ok, .advance 0 .ok, .advance 0 .ok,
    .advance 0 (.fails false true), .call 1 .manualEnd] ++ List.replicate 6 (.advance 1 .ok)

theorem end_breaks : ¬ ∀ (rows : Rows) (before during : List Label),
    Cleared (run step (System.hydrated rows) before)
      (run step (System.hydrated rows) (before ++ during)) := by
  intro h
  have hcleared := (h oneActive [] cancelled ⟨"m-0", .manual⟩ (by decide +kernel)).1
    (by decide +kernel)
  have hactive : IsActive (run step (System.hydrated oneActive) cancelled).rows "m-0" :=
    ⟨⟨"m-0", none, .inMeeting, false⟩, by decide +kernel, rfl⟩
  exact hactive.not_hasEnded hcleared

end Meeting
