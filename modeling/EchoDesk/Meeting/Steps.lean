import EchoDesk.Meeting.State

/-! # What a task can do

All the moves of a task, one by one, and who has the lock.
-/

namespace Meeting

open EchoDesk Transition List Option

/-! ## Fields -/

section Fields

variable (s : System) (t : Nat) (pc : Pc) (event : Event) (happened : Bool)

@[simp] theorem tasks_goto (u : Nat) : (s.goto t pc).tasks u = if u = t then pc else s.tasks u :=
  Function.update_apply _ _ _ _

@[simp] theorem rows_goto : (s.goto t pc).rows = s.rows := rfl

@[simp] theorem current_goto : (s.goto t pc).current = s.current := rfl

@[simp] theorem finalized_goto : (s.goto t pc).finalized = s.finalized := rfl

@[simp] theorem lock_goto : (s.goto t pc).lock = s.lock := rfl

@[simp] theorem events_goto : (s.goto t pc).events = s.events := rfl

@[simp] theorem finalizes_goto : (s.goto t pc).finalizes = s.finalizes := rfl

@[simp] theorem commits_goto : (s.goto t pc).commits = s.commits := rfl

/-- A publish changes the events only. -/
theorem publishIf_eq : s.publishIf happened event =
    { s with events := (s.publishIf happened event).events } := by
  unfold System.publishIf
  split
  · rfl
  · rfl

@[simp] theorem rows_publishIf : (s.publishIf happened event).rows = s.rows := by
  rw [publishIf_eq]

@[simp] theorem current_publishIf : (s.publishIf happened event).current = s.current := by
  rw [publishIf_eq]

@[simp] theorem finalized_publishIf : (s.publishIf happened event).finalized = s.finalized := by
  rw [publishIf_eq]

@[simp] theorem lock_publishIf : (s.publishIf happened event).lock = s.lock := by
  rw [publishIf_eq]

@[simp] theorem tasks_publishIf : (s.publishIf happened event).tasks = s.tasks := by
  rw [publishIf_eq]

@[simp] theorem finalizes_publishIf : (s.publishIf happened event).finalizes = s.finalizes := by
  rw [publishIf_eq]

@[simp] theorem commits_publishIf : (s.publishIf happened event).commits = s.commits := by
  rw [publishIf_eq]

/-- The current meeting is cleared or left. -/
theorem current_clearMatching (meetingId reason : String) (currentMatches : Bool) :
    (s.clearMatching t meetingId reason currentMatches).current = s.current ∨
      (s.clearMatching t meetingId reason currentMatches).current = none := by
  cases currentMatches with
  | false => exact .inl rfl
  | true => exact .inr rfl

end Fields

/-! ## Moves -/

/-- The task has no lock and owes no event. -/
def Pc.waits : Pc → Bool
  | .idle | .manualStart _ _ | .manualEnd | .resolving _ | .lockEnd _ _ | .lowLock _ _
  | .lockStart _ | .returned _ | .failed => true
  | _ => false

variable {pc : Pc}

theorem not_locked_of_waits (h : pc.waits = true) : pc.locked = false := by
  cases pc with
  | idle | manualStart | manualEnd | resolving | lockEnd | lowLock | lockStart | returned
  | failed => rfl
  | _ => cases h

/-- All that a task can do when its `await` ends so. -/
inductive Move (s : System) (t : Nat) (o : Outcome) : System → Prop where
  /-- It goes on without touching anything. -/
  | waits (pc : Pc) (hfrom : (s.tasks t).waits = true) (hto : pc.waits = true)
      (hstarted : ∀ current, pc = .returned (.started current) →
        s.lock = none ∧ s.current = current ∧
          ∃ title mid, s.tasks t = .lockStart (.manual title mid)) :
      Move s t o (s.goto t pc)
  | takeEnd (e : EndCall) (title : String) (current : CurrentMeeting)
      (hpc : s.tasks t = .lockEnd e title) (hlock : s.lock = none)
      (hcurrent : s.current = some current) (hid : current.meetingId = e.meetingId)
      (hfinalized : e.meetingId ∉ s.finalized) :
      Move s t o (({ s with
        finalized := e.meetingId :: s.finalized
        lock := some t }).goto t (.updating e title))
  | clearFinalized (e : EndCall) (title : String) (current : CurrentMeeting)
      (hpc : s.tasks t = .lockEnd e title) (hlock : s.lock = none)
      (hcurrent : s.current = some current) (hid : current.meetingId = e.meetingId)
      (hfinalized : e.meetingId ∈ s.finalized) :
      Move s t o (s.clear t e title)
  | commit (e : EndCall) (title : String) (hpc : s.tasks t = .updating e title) (ho : o = .ok) :
      Move s t o ((s.commitEnd e.meetingId).goto t (.publishEnded e title))
  | updateFails (e : EndCall) (title : String) (happened cancelled : Bool)
      (hpc : s.tasks t = .updating e title) (ho : o = .fails happened cancelled) :
      Move s t o (({ (if happened then s.commitEnd e.meetingId else s) with
        finalized := if cancelled then s.finalized else
          s.finalized.filter (· ≠ e.meetingId) }).release.goto t .failed)
  | clear (e : EndCall) (title : String) (hpc : s.tasks t = .publishEnded e title) (ho : o = .ok) :
      Move s t o ((s.publish (.ended e.meetingId)).clear t e title)
  | endedFails (e : EndCall) (title : String) (happened cancelled : Bool)
      (hpc : s.tasks t = .publishEnded e title) (ho : o = .fails happened cancelled) :
      Move s t o ((s.publishIf happened (.ended e.meetingId)).release.goto t .failed)
  | notifyAuto (e : EndCall) (title : String) (hpc : s.tasks t = .notifyAuto e title) :
      Move s t o ((s.publishIf o.happened (.autoEnded e.meetingId e.reason)).goto t
        (if o.cancelled then .failed else .notify e title))
  | notifyFails (e : EndCall) (title : String) (hpc : s.tasks t = .notify e title)
      (ho : o.cancelled = true) :
      Move s t o ((s.publishIf o.happened
        (.stateChanged e.meetingId (.idle e.endedBy) e.reason)).goto t .failed)
  | schedule (e : EndCall) (title : String) (hpc : s.tasks t = .notify e title)
      (ho : o.cancelled = false) :
      Move s t o (({ s.publishIf o.happened
          (.stateChanged e.meetingId (.idle e.endedBy) e.reason) with
        finalizes := s.finalizes ++ [(e.meetingId, title)] }).goto t (afterEnd e))
  | lowTake (meetingId reason : String) (hpc : s.tasks t = .lowLock meetingId reason)
      (hlock : s.lock = none) (hfinalized : meetingId ∉ s.finalized) :
      Move s t o (({ s with
        finalized := meetingId :: s.finalized
        lock := some t }).goto t (.lowUpdating meetingId reason (s.currentMatches meetingId)))
  | lowClearFinalized (meetingId reason : String) (hpc : s.tasks t = .lowLock meetingId reason)
      (hlock : s.lock = none) (hfinalized : meetingId ∈ s.finalized) :
      Move s t o (s.clearMatching t meetingId reason (s.currentMatches meetingId))
  | lowCommit (meetingId reason : String) (currentMatches : Bool)
      (hpc : s.tasks t = .lowUpdating meetingId reason currentMatches) :
      Move s t o ((s.commitEnd meetingId).goto t (.lowPublishEnded meetingId reason currentMatches))
  | lowUpdateFails (meetingId reason : String) (currentMatches happened cancelled : Bool)
      (hpc : s.tasks t = .lowUpdating meetingId reason currentMatches) :
      Move s t o (({ (if happened then s.commitEnd meetingId else s) with
        finalized := if cancelled then s.finalized else
          s.finalized.filter (· ≠ meetingId) }).release.goto t .failed)
  | lowClear (meetingId reason : String) (currentMatches : Bool)
      (hpc : s.tasks t = .lowPublishEnded meetingId reason currentMatches) :
      Move s t o ((s.publish (.ended meetingId)).clearMatching t meetingId reason currentMatches)
  | lowEndedFails (meetingId reason : String) (currentMatches happened : Bool)
      (hpc : s.tasks t = .lowPublishEnded meetingId reason currentMatches) :
      Move s t o ((s.publishIf happened (.ended meetingId)).release.goto t .failed)
  | lowNotify (meetingId reason : String) (hpc : s.tasks t = .lowNotify meetingId reason) :
      Move s t o ((s.publishIf o.happened (.stateChanged meetingId (.idle .manual) reason)).goto t
        (if o.cancelled then .failed else .returned .done))
  | takeStart (c : StartCall) (hpc : s.tasks t = .lockStart c) (hlock : s.lock = none)
      (hcurrent : s.current = none) :
      Move s t o (({ s with lock := some t } : System).goto t (.creating c))
  | create (c : StartCall) (rows : Rows) (record : MeetingRow) (hpc : s.tasks t = .creating c)
      (hcreate : createMeeting s.rows c.mid c.title c.isAuto = some (rows, record)) (ho : o = .ok) :
      Move s t o (({ s with
        rows := rows
        finalized := s.finalized.filter (· ≠ record.id) }).goto t (.publishStarted c record))
  | createFails (c : StartCall) (rows : Rows) (hpc : s.tasks t = .creating c)
      (hrows : rows = s.rows ∨
        ∃ record, createMeeting s.rows c.mid c.title c.isAuto = some (rows, record)) :
      Move s t o (({ s with rows := rows }).release.goto t .failed)
  | startedFails (c : StartCall) (record : MeetingRow) (happened cancelled : Bool)
      (hpc : s.tasks t = .publishStarted c record) (ho : o = .fails happened cancelled) :
      Move s t o ((s.publishIf happened
        (.started record.id record.autoStarted record.title)).release.goto t .failed)
  | startManual (title : Option String) (mid : String) (record : MeetingRow)
      (hpc : s.tasks t = .publishStarted (.manual title mid) record) (ho : o = .ok) :
      Move s t o (({ s.publish (.started record.id record.autoStarted record.title) with
        current := some record.current }).goto t (.announce (.manual title mid) record.current))
  | startAuto (mid reason : String) (record : MeetingRow)
      (hpc : s.tasks t = .publishStarted (.auto mid reason) record) (ho : o = .ok) :
      Move s t o (({ s.publish (.started record.id record.autoStarted record.title) with
        current := some record.current }).release.goto t
          (if record.autoStarted then .detected reason record.current
          else .announce (.auto mid reason) record.current))
  | detected (reason : String) (current : CurrentMeeting)
      (hpc : s.tasks t = .detected reason current) :
      Move s t o ((s.publishIf o.happened (.autoDetected current.meetingId reason)).goto t
        (if o.cancelled then .failed else .announce (.auto current.meetingId reason) current))
  | announceAuto (mid reason : String) (current : CurrentMeeting)
      (hpc : s.tasks t = .announce (.auto mid reason) current) :
      Move s t o ((s.publishIf o.happened (.stateChanged current.meetingId
          (.inMeeting current.startedBy) (StartCall.reasonFor (.auto mid reason) current))).goto t
        (if o.cancelled then .failed else .returned .done))
  | announceManual (title : Option String) (mid : String) (current : CurrentMeeting)
      (hpc : s.tasks t = .announce (.manual title mid) current) :
      Move s t o ((s.publishIf o.happened (.stateChanged current.meetingId
          (.inMeeting current.startedBy) "user_clicked")).release.goto t
        (if o.cancelled then .failed else .returned (.started s.current)))

theorem waits_afterEnd (e : EndCall) : (afterEnd e).waits = true := by
  unfold afterEnd
  split
  · rfl
  · rfl

theorem afterEnd_ne_started (e : EndCall) (current : Option CurrentMeeting) :
    afterEnd e ≠ .returned (.started current) := by
  unfold afterEnd
  split
  · exact nofun
  · exact nofun

/-- A task that goes on stays where it is, or makes a move. -/
theorem advance_move (s : System) (t : Nat) (o : Outcome) :
    s.advance t o = s ∨ Move s t o (s.advance t o) := by
  unfold System.advance
  cases hpc : s.tasks t with
  | idle | returned result | failed => exact .inl rfl
  | manualStart title mid | manualEnd =>
    right
    dsimp only
    split
    · exact .waits _ (by rw [hpc]; rfl) rfl nofun
    · exact .waits _ (by rw [hpc]; rfl) rfl nofun
  | resolving e =>
    right
    cases o with
    | ok => exact .waits _ (by rw [hpc]; rfl) rfl nofun
    | fails happened cancelled =>
      cases cancelled with
      | true | false => exact .waits _ (by rw [hpc]; rfl) rfl nofun
  | lockEnd e title =>
    cases o with
    | fails happened cancelled => exact .inr (.waits _ (by rw [hpc]; rfl) rfl nofun)
    | ok =>
      dsimp only
      split
      -- another task has the lock: this one waits
      · exact .inl rfl
      rename_i hlock
      rw [not_isSome_iff_eq_none] at hlock
      right
      split
      -- the current meeting is not the one to end
      · refine .waits _ (by rw [hpc]; rfl) (waits_afterEnd e) ?_
        intro current heq
        exact absurd heq (afterEnd_ne_started e current)
      rename_i hmatches
      have hmatch : ∃ current, s.current = some current ∧ current.meetingId = e.meetingId := by
        cases hcurrent : s.current with
        | none =>
          rw [hcurrent] at hmatches
          exact absurd rfl hmatches
        | some current =>
          rw [hcurrent] at hmatches
          exact ⟨current, rfl, by simpa using hmatches⟩
      obtain ⟨current, hcurrent, hid⟩ := hmatch
      split
      · rename_i hfinalized
        exact .clearFinalized e title current hpc hlock hcurrent hid hfinalized
      · rename_i hfinalized
        exact .takeEnd e title current hpc hlock hcurrent hid hfinalized
  | updating e title =>
    right
    cases o with
    | ok => exact .commit e title hpc rfl
    | fails happened cancelled =>
      have h := Move.updateFails (s := s) (t := t) e title happened cancelled hpc rfl
      cases happened <;> exact h
  | publishEnded e title =>
    right
    cases o with
    | ok => exact .clear e title hpc rfl
    | fails happened cancelled => exact .endedFails e title happened cancelled hpc rfl
  | notifyAuto e title => exact .inr (.notifyAuto e title hpc)
  | notify e title =>
    right
    dsimp only
    split
    · rename_i hcancelled
      exact .notifyFails e title hpc hcancelled
    rename_i hcancelled
    have h := Move.schedule (s := s) (t := t) (o := o) e title hpc (by simpa using hcancelled)
    rw [finalizes_publishIf]
    exact h
  | lowLock meetingId reason =>
    cases o with
    | fails happened cancelled => exact .inr (.waits _ (by rw [hpc]; rfl) rfl nofun)
    | ok =>
      dsimp only
      split
      · exact .inl rfl
      rename_i hlock
      rw [not_isSome_iff_eq_none] at hlock
      right
      split
      · rename_i hfinalized
        exact .lowClearFinalized meetingId reason hpc hlock hfinalized
      · rename_i hfinalized
        exact .lowTake meetingId reason hpc hlock hfinalized
  | lowUpdating meetingId reason currentMatches =>
    right
    cases o with
    | ok => exact .lowCommit meetingId reason currentMatches hpc
    | fails happened cancelled =>
      have h := Move.lowUpdateFails (s := s) (t := t) (o := .fails happened cancelled) meetingId
        reason currentMatches happened cancelled hpc
      cases happened <;> exact h
  | lowPublishEnded meetingId reason currentMatches =>
    right
    cases o with
    | ok => exact .lowClear meetingId reason currentMatches hpc
    | fails happened cancelled =>
      exact .lowEndedFails meetingId reason currentMatches happened hpc
  | lowNotify meetingId reason => exact .inr (.lowNotify meetingId reason hpc)
  | lockStart c =>
    cases o with
    | fails happened cancelled => exact .inr (.waits _ (by rw [hpc]; rfl) rfl nofun)
    | ok =>
      dsimp only
      split
      · exact .inl rfl
      rename_i hlock
      rw [not_isSome_iff_eq_none] at hlock
      right
      split
      -- a meeting is already current, and `manual_start` answers with it
      · rename_i current hcurrent
        refine .waits _ (by rw [hpc]; rfl) rfl ?_
        intro current' heq
        cases c with
        | auto mid reason => cases heq
        | manual title mid =>
          injection heq with heq
          injection heq with heq
          rw [hcurrent, ← heq]
          exact ⟨hlock, rfl, title, mid, hpc⟩
      · rename_i hcurrent
        exact .takeStart c hpc hlock hcurrent
  | creating c =>
    right
    dsimp only
    split
    · exact .createFails c s.rows hpc (.inl rfl)
    rename_i rows record hcreate
    -- a creation that fails may have written its row
    cases o with
    | ok => exact .create c rows record hpc hcreate rfl
    | fails happened cancelled =>
      cases happened with
      | true => exact .createFails c rows hpc (.inr ⟨record, hcreate⟩)
      | false => exact .createFails c s.rows hpc (.inl rfl)
  | publishStarted c record =>
    right
    cases o with
    | fails happened cancelled => exact .startedFails c record happened cancelled hpc rfl
    | ok =>
      cases c with
      | manual title mid => exact .startManual title mid record hpc rfl
      | auto mid reason => exact .startAuto mid reason record hpc rfl
  | detected reason current => exact .inr (.detected reason current hpc)
  | announce c current =>
    right
    cases c with
    | auto mid reason => exact .announceAuto mid reason current hpc
    | manual title mid =>
      have h := Move.announceManual (s := s) (t := t) (o := o) title mid current hpc
      rw [← current_publishIf s (.stateChanged current.meetingId (.inMeeting current.startedBy)
        "user_clicked") o.happened] at h
      exact h

/-! ## The lock -/

/-- A task stands in the critical section exactly when it has the lock. -/
def Excludes (s : System) : Prop := ∀ t, (s.tasks t).locked = true ↔ s.lock = some t

/-- What the tasks share does not change. -/
structure Untouched (s s' : System) : Prop where
  rows : s'.rows = s.rows
  current : s'.current = s.current
  finalized : s'.finalized = s.finalized
  commits : s'.commits = s.commits
  lock : s'.lock = s.lock

variable {s s' : System} {t u : Nat} {o : Outcome}
variable {rows : Rows}
variable {id k : String} {record row : MeetingRow} {title : Option String} {autoStarted : Bool}
  {rows' : Rows}

theorem Move.tasks (h : Move s t o s') (hu : u ≠ t) : s'.tasks u = s.tasks u := by
  cases h with
  | updateFails _ _ happened | lowUpdateFails _ _ _ happened =>
    cases happened with
    | true | false => exact (tasks_goto ..).trans (if_neg hu)
  | notifyAuto | notifyFails | endedFails | startedFails | detected | announceAuto | announceManual
  | schedule | lowEndedFails | lowNotify =>
    refine (tasks_goto ..).trans ((if_neg hu).trans ?_)
    exact congrFun (tasks_publishIf ..) u
  | _ =>
    exact (tasks_goto ..).trans (if_neg hu)

/-- Only a task that has the lock, or finds it free, touches what is shared; and it leaves the
lock free or takes it. -/
theorem Move.untouched (h : Move s t o s') : Untouched s s' ∨
    (s.lock = none ∨ (s.tasks t).locked = true) ∧ (s'.lock = none ∨ s'.lock = some t ∨
      s'.lock = s.lock) := by
  cases h with
  | waits => exact .inl ⟨rfl, rfl, rfl, rfl, rfl⟩
  | takeEnd e title current hpc hlock => exact .inr ⟨.inl hlock, .inr (.inl rfl)⟩
  | clearFinalized e title current hpc hlock => exact .inr ⟨.inl hlock, .inl rfl⟩
  | commit e title hpc => exact .inr ⟨.inr (by rw [hpc]; rfl), .inr (.inr rfl)⟩
  | updateFails e title happened cancelled hpc | clear e title hpc
  | endedFails e title happened cancelled hpc =>
    exact .inr ⟨.inr (by rw [hpc]; rfl), .inl rfl⟩
  | notifyAuto | notifyFails =>
    exact .inl ⟨by simp, by simp, by simp, by simp, by simp⟩
  | schedule => exact .inl ⟨by simp, by simp, by simp, by simp, by simp⟩
  | takeStart c hpc hlock | lowTake meetingId reason hpc hlock =>
    exact .inr ⟨.inl hlock, .inr (.inl rfl)⟩
  | lowClearFinalized meetingId reason hpc hlock => exact .inr ⟨.inl hlock, .inl rfl⟩
  | lowCommit meetingId reason currentMatches hpc =>
    exact .inr ⟨.inr (by rw [hpc]; rfl), .inr (.inr rfl)⟩
  | lowUpdateFails meetingId reason currentMatches happened cancelled hpc
  | lowClear meetingId reason currentMatches hpc
  | lowEndedFails meetingId reason currentMatches happened hpc =>
    exact .inr ⟨.inr (by rw [hpc]; rfl), .inl rfl⟩
  | lowNotify => exact .inl ⟨by simp, by simp, by simp, by simp, by simp⟩
  | create c rows record hpc => exact .inr ⟨.inr (by rw [hpc]; rfl), .inr (.inr rfl)⟩
  | createFails c rows hpc | startedFails c record happened cancelled hpc =>
    exact .inr ⟨.inr (by rw [hpc]; rfl), .inl rfl⟩
  | startManual title mid record hpc => exact .inr ⟨.inr (by rw [hpc]; rfl), .inr (.inr rfl)⟩
  | startAuto mid reason record hpc => exact .inr ⟨.inr (by rw [hpc]; rfl), .inl rfl⟩
  | detected | announceAuto => exact .inl ⟨by simp, by simp, by simp, by simp, by simp⟩
  | announceManual title mid current hpc => exact .inr ⟨.inr (by rw [hpc]; rfl), .inl rfl⟩

/-- What a task in the critical section reads stays as it is while the others move. -/
theorem Move.untouched_of_locked (h : Move s t o s') (hs : Excludes s) (hu : u ≠ t)
    (hlocked : (s.tasks u).locked = true) : Untouched s s' := by
  have hlock : s.lock = some u := (hs u).1 hlocked
  rcases h.untouched with hsame | ⟨hnone | ht, -⟩
  · exact hsame
  · rw [hlock] at hnone
    cases hnone
  · rw [(hs t).1 ht] at hlock
    injection hlock with heq
    exact absurd heq.symm hu

/-- A task has the lock after its move exactly when it stands in the critical section then. -/
theorem Move.own_lock (h : Move s t o s') (hs : Excludes s) :
    (s'.tasks t).locked = true ↔ s'.lock = some t := by
  have hfree : (s.tasks t).locked = false → ¬ s.lock = some t := by
    intro hfalse hlock
    rw [(hs t).2 hlock] at hfalse
    cases hfalse
  have hheld : (s.tasks t).locked = true → s.lock = some t := (hs t).1
  cases h with
  | waits pc hfrom hto =>
    rw [tasks_goto, if_pos rfl, not_locked_of_waits hto]
    exact iff_of_false (by simp) (hfree (not_locked_of_waits hfrom))
  | commit e title hpc | create c rows record hpc | startManual title mid record hpc
  | lowCommit meetingId reason currentMatches hpc =>
    rw [tasks_goto, if_pos rfl]
    exact iff_of_true rfl (hheld (by rw [hpc]; rfl))
  | clearFinalized e title | clear e title =>
    refine iff_of_false ?_ nofun
    rw [System.clear, tasks_goto, if_pos rfl]
    split
    · exact nofun
    · exact nofun
  | lowClearFinalized | lowClear =>
    refine iff_of_false ?_ nofun
    rw [System.clearMatching, tasks_goto, if_pos rfl]
    split
    · exact nofun
    · exact nofun
  | updateFails e title happened cancelled | endedFails e title happened cancelled
  | createFails | startedFails | lowUpdateFails | lowEndedFails =>
    rw [tasks_goto, if_pos rfl]
    exact iff_of_false nofun nofun
  | announceManual | startAuto =>
    rw [tasks_goto, if_pos rfl]
    refine iff_of_false ?_ nofun
    split
    · exact nofun
    · exact nofun
  | notifyFails e title hpc =>
    rw [tasks_goto, if_pos rfl, lock_goto, lock_publishIf]
    exact iff_of_false nofun (hfree (by rw [hpc]; rfl))
  | schedule e title hpc =>
    rw [tasks_goto, if_pos rfl, not_locked_of_waits (waits_afterEnd e)]
    refine iff_of_false nofun ?_
    rw [lock_goto, lock_publishIf]
    exact hfree (by rw [hpc]; rfl)
  | notifyAuto e title hpc | detected reason current hpc | announceAuto mid reason current hpc
  | lowNotify meetingId reason hpc =>
    rw [tasks_goto, if_pos rfl, lock_goto, lock_publishIf]
    refine iff_of_false ?_ (hfree (by rw [hpc]; rfl))
    split
    · exact nofun
    · exact nofun
  | _ => simp [Pc.locked]

theorem Move.excludes (h : Move s t o s') (hs : Excludes s) : Excludes s' := by
  intro u
  by_cases hu : u = t
  · rw [hu]
    exact h.own_lock hs
  rw [h.tasks hu, hs u]
  rcases h.untouched with hsame | ⟨hfrom, hto⟩
  · rw [hsame.lock]
  -- another task could neither have the lock before the move nor get it by it
  have hother : s.lock ≠ some u := by
    intro hlock
    rcases hfrom with hnone | ht
    · rw [hlock] at hnone
      cases hnone
    · rw [(hs t).1 ht] at hlock
      injection hlock with heq
      exact hu heq.symm
  refine iff_of_false hother ?_
  rcases hto with hlock | hlock | hlock
  · rw [hlock]
    exact nofun
  · rw [hlock]
    intro heq
    injection heq with heq
    exact hu heq.symm
  · rw [hlock]
    exact hother

/-- The task that a label is about. -/
def Label.task : Label → Nat
  | .call t _ | .advance t _ => t

def Label.outcome : Label → Outcome
  | .call _ _ => .ok
  | .advance _ o => o

theorem atRest_waits (h : pc.atRest = true) : pc.waits = true := by
  cases pc with
  | idle | returned | failed => rfl
  | _ => cases h

theorem waits_call (c : Call) : c.pc.waits = true ∧ c.pc.atRest = false := by
  cases c with
  | manualStart | manualEnd | endWithoutFinalize | autoStart | endCurrent => exact ⟨rfl, rfl⟩

/-- A step changes nothing, or is a move of its task. -/
theorem step_move (s : System) (a : Label) : step s a = s ∨ Move s a.task a.outcome (step s a) := by
  cases a with
  | call t c =>
    unfold step
    dsimp only
    split
    · rename_i hrest
      refine .inr (.waits c.pc (atRest_waits hrest) (waits_call c).1 ?_)
      intro current heq
      have hcall := (waits_call c).2
      rw [heq] at hcall
      cases hcall
    · exact .inl rfl
  | advance t o => exact advance_move s t o

/-- What the moves keep, the steps keep. -/
theorem step_keeps {P : System → Prop} {a : Label} (hs : P s)
    (hmove : Move s a.task a.outcome (step s a) → P (step s a)) : P (step s a) := by
  rcases step_move s a with hsame | h
  · rw [hsame]
    exact hs
  · exact hmove h

/-! ## The rows -/

/-- The meeting is there and is not active. -/
def HasEnded (rows : Rows) (meetingId : String) : Prop :=
  ∃ row, rows.get? meetingId = some row ∧ row.state ≠ .inMeeting

theorem active?_state (h : active? rows = some row) : row.state = .inMeeting := by
  simpa using find?_some h

theorem get?_of_active? (h : active? rows = some row) :
    rows.get? row.id = some row := Keyed.mem_get?.2 ⟨mem_of_find?_eq_some h, rfl⟩

/-- An end ends its own meeting only. -/
theorem get?_endRow (rows : Rows) (id k : String) : (endRow rows id).get? k =
    if k = id then (rows.get? id).map fun row => { row with state := .ended }
    else rows.get? k := by
  unfold endRow
  split
  · rename_i row hrow
    obtain rfl : row.id = id := (Keyed.mem_get?.1 hrow).2
    rw [Keyed.get?_put, hrow, map_some]
  rename_i hnone
  split
  · rename_i heq
    rw [heq, hnone]
    rfl
  · rfl

theorem HasEnded.endRow (h : HasEnded rows k) (id : String) : HasEnded (endRow rows id) k := by
  obtain ⟨row, hrow, hstate⟩ := h
  unfold HasEnded
  rw [get?_endRow]
  split
  · rename_i heq
    rw [← heq, hrow]
    refine ⟨_, rfl, ?_⟩
    intro h
    cases h
  · exact ⟨row, hrow, hstate⟩

theorem hasEnded_endRow (h : (rows.get? id).isSome = true) : HasEnded (endRow rows id) id := by
  obtain ⟨row, hrow⟩ := isSome_iff_exists.1 h
  refine ⟨{ row with state := .ended }, ?_, ?_⟩
  · rw [get?_endRow, if_pos rfl, hrow]
    rfl
  · intro h
    cases h

theorem active?_endRow_of_ne (h : active? rows = some row) (hne : row.id ≠ id) :
    active? (endRow rows id) = some row := by
  unfold endRow
  split
  · rename_i old hold
    have hid : old.id = id := (Keyed.mem_get?.1 hold).2
    exact Keyed.find?_put_of_ne h (by simp) (by rw [hid]; exact hne)
  · exact h

/-- A start gives back the active row; it adds it only when there was none. -/
theorem createMeeting_cases (h : createMeeting rows id title autoStarted = some (rows', record)) :
    active? rows' = some record ∧ (rows' = rows ∨ active? rows = none ∧ rows.get? id = none ∧
      rows' = rows.put ⟨id, title, .inMeeting, autoStarted⟩) := by
  unfold createMeeting at h
  rw [map_eq_some_iff] at h
  obtain ⟨row, hactive, heq⟩ := h
  injection heq with hrows hrecord
  subst hrecord
  rw [hrows] at hactive
  refine ⟨hactive, ?_⟩
  split at hrows
  · exact .inl hrows.symm
  rename_i hfree
  simp only [not_or, not_isSome_iff_eq_none] at hfree
  exact .inr ⟨hfree.2, hfree.1, hrows.symm⟩

theorem HasEnded.create (h : HasEnded rows k)
    (hcreate : createMeeting rows id title autoStarted = some (rows', record)) :
    HasEnded rows' k := by
  rcases (createMeeting_cases hcreate).2 with hsame | ⟨-, hfree, hput⟩
  · rw [hsame]
    exact h
  obtain ⟨row, hrow, hstate⟩ := h
  refine ⟨row, ?_, hstate⟩
  have hne : k ≠ id := by
    intro heq
    rw [heq, hfree] at hrow
    cases hrow
  rw [hput, Keyed.get?_put, if_neg hne]
  exact hrow

/-- What has ended stays so. -/
theorem Move.hasEnded (h : Move s t o s') (hs : HasEnded s.rows k) : HasEnded s'.rows k := by
  cases h with
  | waits | takeEnd | clearFinalized | clear | takeStart | startManual | startAuto | lowTake
  | lowClearFinalized | lowClear => exact hs
  | commit | lowCommit => exact hs.endRow _
  | updateFails _ _ happened | lowUpdateFails _ _ _ happened =>
    cases happened with
    | true => exact hs.endRow _
    | false => exact hs
  | create c rows record hpc hcreate => exact hs.create hcreate
  | createFails c rows hpc hrows =>
    rcases hrows with rfl | ⟨record, hcreate⟩
    · exact hs
    · exact hs.create hcreate
  | _ =>
    show HasEnded (s.publishIf _ _).rows k
    rw [rows_publishIf]
    exact hs

/-! ## What the critical section relies on -/

/-- What a task with the lock has read and nobody changes before it goes on. -/
def Relies (s : System) : Pc → Prop
  | .updating e _ | .publishEnded e _ =>
    ∃ current, s.current = some current ∧ current.meetingId = e.meetingId
  | .lowUpdating meetingId _ currentMatches | .lowPublishEnded meetingId _ currentMatches =>
    currentMatches = s.currentMatches meetingId
  | .creating _ => s.current = none
  | .publishStarted _ record =>
    s.current = none ∧ active? s.rows = some record ∧ record.id ∉ s.finalized
  | .announce (.manual _ _) current => s.current = some current
  | _ => True

theorem relies_of_not_locked (h : pc.locked = false) : Relies s pc := by
  cases pc with
  | updating | publishEnded | lowUpdating | lowPublishEnded | creating | publishStarted => cases h
  | announce c current =>
    cases c with
    | manual => cases h
    | auto => trivial
  | _ => trivial

theorem relies_of_waits (h : pc.waits = true) : Relies s pc :=
  relies_of_not_locked (not_locked_of_waits h)

theorem Untouched.relies (h : Untouched s s') (hpc : Relies s pc) : Relies s' pc := by
  cases pc with
  | updating | publishEnded | creating =>
    simp only [Relies] at hpc ⊢
    rw [h.current]
    exact hpc
  | lowUpdating | lowPublishEnded =>
    simp only [Relies, System.currentMatches] at hpc ⊢
    rw [h.current]
    exact hpc
  | publishStarted =>
    simp only [Relies] at hpc ⊢
    rw [h.current, h.rows, h.finalized]
    exact hpc
  | announce c current =>
    cases c with
    | auto => trivial
    | manual =>
      simp only [Relies] at hpc ⊢
      rw [h.current]
      exact hpc
  | _ => trivial

/-- The lock excludes, and every task may rely on what it has read with it. -/
structure Guarded (s : System) : Prop where
  excludes : Excludes s
  relies : ∀ t, Relies s (s.tasks t)

theorem guarded_hydrated (rows : Rows) : Guarded (System.hydrated rows) :=
  ⟨fun _ => ⟨nofun, nofun⟩, fun _ => trivial⟩

/-- The task that moves may rely on what its move leaves. -/
theorem Move.own_relies (h : Move s t o s') (hs : Relies s (s.tasks t)) :
    Relies s' (s'.tasks t) := by
  cases h with
  | waits pc hfrom hto =>
    rw [tasks_goto, if_pos rfl]
    exact relies_of_waits hto
  | takeEnd e title current hpc hlock hcurrent hid =>
    rw [tasks_goto, if_pos rfl]
    exact ⟨current, hcurrent, hid⟩
  | clearFinalized e title | clear e title =>
    rw [System.clear, tasks_goto, if_pos rfl]
    split
    · trivial
    · trivial
  | lowClearFinalized | lowClear =>
    rw [System.clearMatching, tasks_goto, if_pos rfl]
    split
    · trivial
    · trivial
  | commit e title hpc | lowCommit meetingId reason currentMatches hpc =>
    rw [hpc] at hs
    rw [tasks_goto, if_pos rfl]
    exact hs
  | lowTake =>
    rw [tasks_goto, if_pos rfl]
    rfl
  | notifyAuto | detected | announceAuto | announceManual | lowNotify =>
    rw [tasks_goto, if_pos rfl]
    split
    · trivial
    · trivial
  | schedule e =>
    rw [tasks_goto, if_pos rfl]
    exact relies_of_waits (waits_afterEnd e)
  | takeStart c hpc hlock hcurrent =>
    rw [tasks_goto, if_pos rfl]
    exact hcurrent
  | create c rows record hpc hcreate =>
    rw [hpc] at hs
    rw [tasks_goto, if_pos rfl]
    exact ⟨hs, (createMeeting_cases hcreate).1, by simp⟩
  | startManual title mid record =>
    rw [tasks_goto, if_pos rfl]
    rfl
  | startAuto mid reason record =>
    rw [tasks_goto, if_pos rfl]
    split
    · trivial
    · trivial
  | _ =>
    rw [tasks_goto, if_pos rfl]
    trivial

theorem Move.guarded (h : Move s t o s') (hs : Guarded s) : Guarded s' := by
  refine ⟨h.excludes hs.excludes, ?_⟩
  intro u
  by_cases hu : u = t
  · rw [hu]
    exact h.own_relies (hs.relies t)
  rw [h.tasks hu]
  by_cases hlocked : (s.tasks u).locked = true
  · exact (h.untouched_of_locked hs.excludes hu hlocked).relies (hs.relies u)
  · exact relies_of_not_locked (by simpa using hlocked)

/-- Whatever raises or is cancelled at whatever await, at most one task is in the critical section,
no task that is out of it has the lock, and what the one inside has read is still so. -/
theorem sections_exclude (rows : Rows) (trace : List Label) :
    Guarded (run step (System.hydrated rows) trace) ∧
      ∀ t u, ((run step (System.hydrated rows) trace).tasks t).locked = true →
        ((run step (System.hydrated rows) trace).tasks u).locked = true → t = u := by
  have hguarded : Guarded (run step (System.hydrated rows) trace) := by
    refine run_invariant ?_ (guarded_hydrated rows) trace
    exact fun s l hs => step_keeps hs fun h => h.guarded hs
  refine ⟨hguarded, fun t u ht hu => ?_⟩
  have hsame := ((hguarded.excludes t).1 ht).symm.trans ((hguarded.excludes u).1 hu)
  exact some.inj hsame

/-! ## Runs of a few tasks -/

/-- A task that no label is about stays where it is. -/
theorem tasks_run (s : System) (trace : List Label) (u : Nat) (h : ∀ a ∈ trace, a.task ≠ u) :
    (run step s trace).tasks u = s.tasks u := by
  induction trace generalizing s with
  | nil => rfl
  | cons a trace ih =>
    rw [run_cons, ih (step s a) fun b hb => h b (mem_cons_of_mem a hb)]
    rcases step_move s a with hsame | hmove
    · rw [hsame]
    · exact hmove.tasks (h a (mem_cons_self ..)).symm

/-- The run of a few tasks that come to rest. -/
theorem atRest_run {trace : List Label} (n : Nat) (htasks : ∀ a ∈ trace, a.task < n)
    (hrest : ∀ t < n, ((run step (System.hydrated rows) trace).tasks t).atRest = true) (t : Nat) :
    ((run step (System.hydrated rows) trace).tasks t).atRest = true := by
  by_cases ht : t < n
  · exact hrest t ht
  rw [tasks_run]
  · rfl
  intro a ha heq
  have := htasks a ha
  omega

/-- A manual meeting is active in the repository. -/
def oneActive : Rows := Keyed.empty.put ⟨"m-0", none, .inMeeting, false⟩

end Meeting
