import EchoDesk.Core.Python
import EchoDesk.Foundations.Keyed
import EchoDesk.Foundations.Transition

/-! # The meeting state of a scope

`app/use_cases/meeting_state.py`, with what it calls of `meeting_pipeline.py` and of the
repository. A task is a call of `manual_start`, `manual_end`, `end_without_finalize`,
`_apply_auto_start` or of `_end_current` by the detector or the watchdog; it goes from `await` to
`await`, and each of them may fail or be cancelled. The state is taken once `hydrate` is done.
-/

namespace Meeting

open EchoDesk Transition

inductive StartReason where
  | auto | manual
deriving DecidableEq

inductive EndedBy where
  | manual | auto | system
deriving DecidableEq

inductive RowState where
  | inMeeting | ended | finalized
deriving DecidableEq

/-- What is read of a row of `meetings`. -/
structure MeetingRow where
  id : String
  title : Option String
  state : RowState
  autoStarted : Bool
deriving DecidableEq

/-- The meetings of the scope. -/
abbrev Rows : Type := Keyed MeetingRow.id

structure CurrentMeeting where
  meetingId : String
  startedBy : StartReason
deriving DecidableEq

/-- The payload of `meeting.state_changed`. -/
inductive Mode where
  | inMeeting (startedBy : StartReason)
  | idle (endedBy : EndedBy)
deriving DecidableEq

inductive Event where
  /-- `meeting.started`. -/
  | started (meetingId : String) (autoStarted : Bool) (title : Option String)
  /-- `meeting.ended`. -/
  | ended (meetingId : String)
  /-- `meeting.auto_detected`. -/
  | autoDetected (meetingId reason : String)
  /-- `meeting.auto_ended`. -/
  | autoEnded (meetingId reason : String)
  /-- `meeting.state_changed`. -/
  | stateChanged (meetingId : String) (mode : Mode) (reason : String)

/-- The current meeting that a record stands for. -/
def MeetingRow.current (record : MeetingRow) : CurrentMeeting :=
  ⟨record.id, if record.autoStarted then .auto else .manual⟩

/-! ## The repository -/

/-- The active row. -/
def active? (rows : Rows) : Option MeetingRow := rows.rows.find? fun row => row.state = .inMeeting

/-- `create_meeting`: the row is inserted unless its id or an active meeting is there, and the
active row is given back. -/
def createMeeting (rows : Rows) (id : String) (title : Option String) (autoStarted : Bool) :
    Option (Rows × MeetingRow) :=
  let rows :=
    if (rows.get? id).isSome ∨ (active? rows).isSome then rows
    else rows.put ⟨id, title, .inMeeting, autoStarted⟩
  (active? rows).map fun row => (rows, row)

/-- `update_meeting_state(id, state="ended")`. -/
def endRow (rows : Rows) (id : String) : Rows :=
  match rows.get? id with
  | some row => rows.put { row with state := .ended }
  | none => rows

/-- `_resolve_meeting_title(None, meeting_id)`. -/
def defaultTitle (meetingId : String) : String :=
  if meetingId = "" then "未命名会议" else "会议 " ++ meetingId

/-- `_resolve_title`, when the repository can be read. -/
def resolveTitle (rows : Rows) (meetingId : String) : String :=
  (((rows.get? meetingId).bind fun row => truthy row.title)).getD (defaultTitle meetingId)

/-! ## Tasks -/

/-- A start that waits for the lock. -/
inductive StartCall where
  | manual (title : Option String) (mid : String)
  | auto (mid reason : String)
deriving DecidableEq

def StartCall.mid : StartCall → String
  | .manual _ mid | .auto mid _ => mid

def StartCall.title : StartCall → Option String
  | .manual title _ => title
  | .auto _ _ => none

def StartCall.isAuto : StartCall → Bool
  | .manual _ _ => false
  | .auto _ _ => true

/-- A call of `_end_current`, and the manual start that goes on after it. -/
structure EndCall where
  meetingId : String
  endedBy : EndedBy
  reason : String
  next : Option StartCall
deriving DecidableEq

/-- What a task returns. -/
inductive Result where
  /-- `manual_start`. -/
  | started (current : Option CurrentMeeting)
  /-- The other calls. -/
  | done
deriving DecidableEq

/-- Where a task stands: at an `await`, or at its end. -/
inductive Pc where
  | idle
  /-- `manual_start`, after `hydrate`. -/
  | manualStart (title : Option String) (mid : String)
  /-- `manual_end`, after `hydrate`. -/
  | manualEnd
  /-- In `_resolve_title`. -/
  | resolving (e : EndCall)
  /-- At the lock of `_end_current`. -/
  | lockEnd (e : EndCall) (title : String)
  /-- In `update_meeting_state` of `end_meeting`, with the lock. -/
  | updating (e : EndCall) (title : String)
  /-- At `meeting.ended`, with the lock. -/
  | publishEnded (e : EndCall) (title : String)
  /-- At `meeting.auto_ended`. -/
  | notifyAuto (e : EndCall) (title : String)
  /-- At `meeting.state_changed` after an end. -/
  | notify (e : EndCall) (title : String)
  /-- At the lock of `end_without_finalize`. -/
  | lowLock (meetingId reason : String)
  /-- In `update_meeting_state` of its `end_meeting`, with the lock. -/
  | lowUpdating (meetingId reason : String) (currentMatches : Bool)
  /-- At its `meeting.ended`, with the lock. -/
  | lowPublishEnded (meetingId reason : String) (currentMatches : Bool)
  /-- At its `meeting.state_changed`. -/
  | lowNotify (meetingId reason : String)
  /-- At the lock of a start. -/
  | lockStart (c : StartCall)
  /-- In `create_meeting`, with the lock. -/
  | creating (c : StartCall)
  /-- At `meeting.started`, with the lock. -/
  | publishStarted (c : StartCall) (record : MeetingRow)
  /-- At `meeting.auto_detected`. -/
  | detected (reason : String) (current : CurrentMeeting)
  /-- At `meeting.state_changed` after a start; a manual start still has the lock. -/
  | announce (c : StartCall) (current : CurrentMeeting)
  | returned (result : Result)
  /-- An exception or a cancellation went through. -/
  | failed
deriving DecidableEq

/-- The task has the lock. -/
def Pc.locked : Pc → Bool
  | .updating _ _ | .publishEnded _ _ | .lowUpdating _ _ _ | .lowPublishEnded _ _ _ | .creating _
  | .publishStarted _ _ => true
  | .announce c _ => !c.isAuto
  | _ => false

/-- The task is not in progress. -/
def Pc.atRest : Pc → Bool
  | .idle | .returned _ | .failed => true
  | _ => false

/-- How an `await` ends. What it waits for may have happened although it fails. -/
inductive Outcome where
  | ok
  | fails (happened cancelled : Bool)
deriving DecidableEq

def Outcome.happened : Outcome → Bool
  | .ok => true
  | .fails happened _ => happened

def Outcome.cancelled : Outcome → Bool
  | .ok => false
  | .fails _ cancelled => cancelled

structure System where
  rows : Rows
  current : Option CurrentMeeting
  /-- `_finalized` of the pipeline. -/
  finalized : List String
  /-- The task that has the lock. -/
  lock : Option Nat
  tasks : Nat → Pc
  events : List Event
  /-- The finalizes that were scheduled: the meeting and the title. -/
  finalizes : List (String × String)
  /-- The meetings whose end was committed, once for each commit. -/
  commits : List String

/-- The state after `hydrate`, with the meetings in the repository. -/
def System.hydrated (rows : Rows) : System where
  rows := rows
  current := (active? rows).map MeetingRow.current
  finalized := []
  lock := none
  tasks _ := .idle
  events := []
  finalizes := []
  commits := []

/-! ## Steps -/

def System.goto (s : System) (t : Nat) (pc : Pc) : System :=
  { s with tasks := Function.update s.tasks t pc }

def System.publish (s : System) (event : Event) : System := { s with events := s.events ++ [event] }

/-- An `await` of a publish that may have happened. -/
def System.publishIf (s : System) (happened : Bool) (event : Event) : System :=
  if happened then s.publish event else s

def System.release (s : System) : System := { s with lock := none }

/-- What follows `_end_current`. -/
def afterEnd (e : EndCall) : Pc :=
  match e.next with
  | some c => .lockStart c
  | none => .returned .done

/-- The in-memory state is cleared and the lock released. -/
def System.clear (s : System) (t : Nat) (e : EndCall) (title : String) : System :=
  ({ s with current := none } : System).release.goto t
    (if e.endedBy = .auto then .notifyAuto e title else .notify e title)

/-- `current_matches` of `end_without_finalize`. -/
def System.currentMatches (s : System) (meetingId : String) : Bool :=
  s.current.any fun current => current.meetingId = meetingId

/-- The end of the critical section of `end_without_finalize`: only a current meeting is cleared
and announced. -/
def System.clearMatching (s : System) (t : Nat) (meetingId reason : String)
    (currentMatches : Bool) : System :=
  ({ s with current := if currentMatches then none else s.current } : System).release.goto t
    (if currentMatches then .lowNotify meetingId reason else .returned .done)

/-- The durable end. -/
def System.commitEnd (s : System) (meetingId : String) : System :=
  { s with rows := endRow s.rows meetingId, commits := s.commits ++ [meetingId] }

def StartCall.reasonFor (c : StartCall) (current : CurrentMeeting) : String :=
  match c with
  | .manual _ _ => "user_clicked"
  | .auto _ reason =>
    if current.startedBy = .auto then reason else "concurrent_active_meeting"

/-- A task goes on from its `await`. -/
def System.advance (s : System) (t : Nat) (o : Outcome) : System :=
  match s.tasks t with
  | .idle | .returned _ | .failed => s
  | .manualStart title mid =>
    match s.current with
    | some ⟨meetingId, .auto⟩ =>
      s.goto t (.resolving ⟨meetingId, .auto, "formal_boundary_started", some (.manual title mid)⟩)
    | _ => s.goto t (.lockStart (.manual title mid))
  | .manualEnd =>
    match s.current with
    | none => s.goto t (.returned .done)
    | some current => s.goto t (.resolving ⟨current.meetingId, .manual, "manual_end", none⟩)
  | .resolving e =>
    match o with
    | .ok => s.goto t (.lockEnd e (resolveTitle s.rows e.meetingId))
    | .fails _ cancelled =>
      -- an exception of the repository is logged
      if cancelled then s.goto t .failed else s.goto t (.lockEnd e (defaultTitle e.meetingId))
  | .lockEnd e title =>
    match o with
    | .fails _ _ => s.goto t .failed
    | .ok =>
      if s.lock.isSome then s
      else if s.current.all fun current => current.meetingId ≠ e.meetingId then
        s.goto t (afterEnd e)
      else if e.meetingId ∈ s.finalized then s.clear t e title
      else
        ({ s with finalized := e.meetingId :: s.finalized, lock := some t } : System).goto t
          (.updating e title)
  | .updating e title =>
    match o with
    | .ok => (s.commitEnd e.meetingId).goto t (.publishEnded e title)
    | .fails happened cancelled =>
      let s := if happened then s.commitEnd e.meetingId else s
      -- a cancellation is no `Exception`
      let finalized := if cancelled then s.finalized else s.finalized.filter (· ≠ e.meetingId)
      ({ s with finalized := finalized } : System).release.goto t .failed
  | .publishEnded e title =>
    match o with
    | .ok => (s.publish (.ended e.meetingId)).clear t e title
    | .fails happened _ => (s.publishIf happened (.ended e.meetingId)).release.goto t .failed
  | .notifyAuto e title =>
    (s.publishIf o.happened (.autoEnded e.meetingId e.reason)).goto t
      (if o.cancelled then .failed else .notify e title)
  | .notify e title =>
    let s := s.publishIf o.happened (.stateChanged e.meetingId (.idle e.endedBy) e.reason)
    if o.cancelled then s.goto t .failed
    else ({ s with finalizes := s.finalizes ++ [(e.meetingId, title)] } : System).goto t (afterEnd e)
  | .lowLock meetingId reason =>
    match o with
    | .fails _ _ => s.goto t .failed
    | .ok =>
      if s.lock.isSome then s
      else
        let currentMatches := s.currentMatches meetingId
        -- `end_meeting` is called for any meeting, and returns at once for one in `_finalized`
        if meetingId ∈ s.finalized then s.clearMatching t meetingId reason currentMatches
        else
          ({ s with finalized := meetingId :: s.finalized, lock := some t } : System).goto t
            (.lowUpdating meetingId reason currentMatches)
  | .lowUpdating meetingId reason currentMatches =>
    match o with
    | .ok => (s.commitEnd meetingId).goto t (.lowPublishEnded meetingId reason currentMatches)
    | .fails happened cancelled =>
      let s := if happened then s.commitEnd meetingId else s
      let finalized := if cancelled then s.finalized else s.finalized.filter (· ≠ meetingId)
      ({ s with finalized := finalized } : System).release.goto t .failed
  | .lowPublishEnded meetingId reason currentMatches =>
    match o with
    | .ok => (s.publish (.ended meetingId)).clearMatching t meetingId reason currentMatches
    | .fails happened _ => (s.publishIf happened (.ended meetingId)).release.goto t .failed
  | .lowNotify meetingId reason =>
    (s.publishIf o.happened (.stateChanged meetingId (.idle .manual) reason)).goto t
      (if o.cancelled then .failed else .returned .done)
  | .lockStart c =>
    match o with
    | .fails _ _ => s.goto t .failed
    | .ok =>
      if s.lock.isSome then s
      else
        match s.current with
        | some current => s.goto t (.returned (if c.isAuto then .done else .started (some current)))
        | none => ({ s with lock := some t } : System).goto t (.creating c)
  | .creating c =>
    match createMeeting s.rows c.mid c.title c.isAuto with
    | none => s.release.goto t .failed
    | some (rows, record) =>
      match o with
      | .ok => ({ s with rows := rows, finalized := s.finalized.filter (· ≠ record.id) } : System).goto t
          (.publishStarted c record)
      | .fails happened _ =>
        ({ s with rows := if happened then rows else s.rows } : System).release.goto t .failed
  | .publishStarted c record =>
    let event : Event := .started record.id record.autoStarted record.title
    match o with
    | .fails happened _ => (s.publishIf happened event).release.goto t .failed
    | .ok =>
      let s := { s.publish event with current := some record.current }
      match c with
      | .manual _ _ => s.goto t (.announce c record.current)
      | .auto _ reason =>
        s.release.goto t (if record.autoStarted then .detected reason record.current
          else .announce c record.current)
  | .detected reason current =>
    (s.publishIf o.happened (.autoDetected current.meetingId reason)).goto t
      (if o.cancelled then .failed else .announce (.auto current.meetingId reason) current)
  | .announce c current =>
    let s := s.publishIf o.happened
      (.stateChanged current.meetingId (.inMeeting current.startedBy) (c.reasonFor current))
    let s := if c.isAuto then s else s.release
    s.goto t (if o.cancelled then .failed
      else .returned (if c.isAuto then .done else .started s.current))

/-- The calls that open a task. -/
inductive Call where
  | manualStart (title : Option String) (mid : String)
  | manualEnd
  /-- `POST /meetings/{id}/end`, of any meeting. -/
  | endWithoutFinalize (meetingId reason : String)
  | autoStart (mid reason : String)
  /-- The detector or the watchdog ends a meeting. -/
  | endCurrent (meetingId : String) (endedBy : EndedBy) (reason : String)

def Call.pc : Call → Pc
  | .manualStart title mid => .manualStart title mid
  | .manualEnd => .manualEnd
  | .endWithoutFinalize meetingId reason => .lowLock meetingId reason
  | .autoStart mid reason => .lockStart (.auto mid reason)
  | .endCurrent meetingId endedBy reason => .resolving ⟨meetingId, endedBy, reason, none⟩

inductive Label where
  | call (t : Nat) (c : Call)
  | advance (t : Nat) (o : Outcome)

def step (s : System) : Label → System
  | .call t c => if (s.tasks t).atRest then s.goto t c.pc else s
  | .advance t o => s.advance t o

end Meeting
