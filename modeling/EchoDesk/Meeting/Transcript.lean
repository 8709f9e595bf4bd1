import EchoDesk.Meeting.State

/-! # The transcript of a meeting

`app/use_cases/meeting_pipeline.py` and what it calls of `SQLiteRepository`, for one meeting and
any number of processes. Each process has its own list of the segments; a task is a call of one
of its methods and goes from `await` to `await`. A crash forgets the lists and the tasks of a
process.
-/

namespace Transcript

open EchoDesk Transition Meeting

structure Segment where
  text : String
  startMs : Int
  endMs : Int
  speakerId : Option String
  speakerLabel : Option String
deriving DecidableEq

/-! ## Texts -/

/-- `f"{n:02d}"`. -/
def pad2 (n : Int) : String := if 0 ≤ n ∧ n < 10 then "0" ++ toString n else toString n

def renderSegment (s : Segment) : String :=
  "[" ++ pad2 (s.startMs / 1000) ++ ":" ++ pad2 (s.startMs / 1000 % 60) ++ "] " ++
    (truthy s.speakerLabel).getD "未识别" ++ ": " ++ s.text

/-- `_render_transcript`. -/
def renderTranscript (segs : List Segment) : String := "\n".intercalate (segs.map renderSegment)

/-- The text that `_index_minutes` hands to `ingest_meeting`. -/
def ragPayload (summary transcriptText : String) : String :=
  "【纪要】\n" ++ summary ++ "\n\n【逐字稿】\n" ++ transcriptText

/-! ## The repository -/

structure Db where
  /-- The row of the meeting. -/
  row : Option RowState
  /-- `meeting_segments`, by id. -/
  segments : List Segment
  /-- What `append_meeting_segment` has answered, for every call that was made. -/
  answers : List (Segment × Bool)
  /-- What the finalizes have been given. -/
  snapshots : List (List Segment)

/-- The segments whose append was reported accepted. -/
def Db.accepted (d : Db) : List Segment := (d.answers.filter Prod.snd).map Prod.fst

/-- The append gate. -/
def Db.closed (d : Db) : Bool := d.row = some .ended ∨ d.row = some .finalized

/-- `create_meeting`, when no meeting is active. -/
def Db.create (d : Db) : Db := { d with row := some .inMeeting }

/-- `append_meeting_segment`. -/
def Db.append (d : Db) (seg : Segment) : Db :=
  let inserted : Bool := d.row = some .inMeeting
  { d with
    segments := if inserted then d.segments ++ [seg] else d.segments
    answers := d.answers ++ [(seg, inserted)] }

/-- `snapshot_meeting_segments_for_finalize`, when there is the row. -/
def Db.snapshot (d : Db) : Db :=
  { d with
    row := if d.row = some .inMeeting then some .ended else d.row
    snapshots := d.snapshots ++ [d.segments] }

/-- `update_meeting_state(state="ended")`. -/
def Db.setEnded (d : Db) : Db := { d with row := d.row.map fun _ => .ended }

/-- The commit of a finalize. -/
def Db.setFinalized (d : Db) : Db := { d with row := d.row.map fun _ => .finalized }

/-! ## Tasks -/

/-- Why the segments are read. -/
inductive Reader where
  /-- `start_meeting`, and the segments that are appended after it. -/
  | start (next : Option (List Segment))
  /-- `load_meeting_for_retry`. -/
  | retry
  /-- `hydrate_from_repo`. -/
  | hydrate
  /-- An append was rejected. -/
  | rejected
  /-- `finalize_meeting`, and the summary that the model will give. -/
  | finalize (summary : String)
deriving DecidableEq

inductive Pc where
  | idle
  /-- In `create_meeting`; another meeting may be active. -/
  | starting (next : Option (List Segment)) (other : Bool)
  /-- In `list_meeting_segments`, or in the snapshot of a finalize. -/
  | reading (r : Reader)
  /-- Before the list is put into `_segments`. -/
  | installing (r : Reader) (segs : List Segment)
  /-- Before the segments are added to `_segments`. -/
  | remembering (segs : List Segment)
  /-- In `append_meeting_segment` of the first of these. -/
  | persisting (segs : List Segment)
  /-- In `_llm_minutes`. -/
  | generating (summary : String)
  /-- In the commit of a finalize. -/
  | committing (summary : String)
  /-- At `after_finalize_committed`. -/
  | indexing (summary : String)
  /-- In `update_meeting_state` of `end_meeting`. -/
  | ending
  /-- `repair_rag_projections`, in `list_meeting_segments`. -/
  | repairing (summary : String)
  | reindexing (summary : String) (segs : List Segment)
deriving DecidableEq

structure System where
  db : Db
  /-- The summaries of the runs that are marked `domain_commit`. -/
  commits : List String
  /-- `_segments[meeting_id]` of each process. -/
  memory : Nat → Option (List Segment)
  /-- The meeting is in `_finalized`. -/
  finalized : Nat → Bool
  /-- The meeting is in `_wall_clock_start`. -/
  known : Nat → Bool
  tasks : Nat → Nat → Pc
  /-- The summaries and the texts that were handed to `ingest_meeting`. -/
  ingested : List (String × String)

def System.initial : System where
  db := ⟨none, [], [], []⟩
  commits := []
  memory _ := none
  finalized _ := false
  known _ := false
  tasks _ _ := .idle
  ingested := []

def System.goto (s : System) (p t : Nat) (pc : Pc) : System :=
  { s with tasks := Function.update s.tasks p (Function.update (s.tasks p) t pc) }

def System.install (s : System) (p : Nat) (segs : List Segment) : System :=
  { s with memory := Function.update s.memory p (some segs) }

def System.setFinalized (s : System) (p : Nat) (b : Bool) : System :=
  { s with finalized := Function.update s.finalized p b }

def System.setKnown (s : System) (p : Nat) : System :=
  { s with known := Function.update s.known p true }

def System.setDb (s : System) (d : Db) : System := { s with db := d }

def System.ingest (s : System) (summary : String) (segs : List Segment) : System :=
  { s with ingested := s.ingested ++ [(summary, ragPayload summary (renderTranscript segs))] }

/-- `get_segments`. -/
def System.getSegments (s : System) (p : Nat) : List Segment := (s.memory p).getD []

/-- What follows `start_meeting`. -/
def afterStart (next : Option (List Segment)) : Pc :=
  match next with
  | some segs => .remembering segs
  | none => .idle

/-- A database call that fails may have been done. -/
def System.setDbIf (s : System) (happened : Bool) (d : Db) : System :=
  if happened then s.setDb d else s

/-- The list that was read is put into `_segments`. -/
def System.put (s : System) (p t : Nat) (segs : List Segment) : Reader → System
  | .start next =>
    -- `setdefault`
    ((((s.install p ((s.memory p).getD segs)).setKnown p).setFinalized p false).goto p t
      (afterStart next))
  | .retry | .hydrate => (((s.install p segs).setKnown p).setFinalized p false).goto p t .idle
  | .rejected => ((s.install p segs).setFinalized p true).goto p t .idle
  | .finalize summary =>
    ((s.install p segs).setFinalized p true).goto p t
      (if segs = [] then .idle else .generating summary)

/-- A task goes on from its `await`. -/
def System.advance (s : System) (p t : Nat) (o : Outcome) : System :=
  match s.tasks p t with
  | .idle => s
  | .starting next other =>
    if s.db.row = none ∧ other = false ∨ s.db.row = some .inMeeting then
      match o with
      | .ok =>
        (s.setDb s.db.create).goto p t
          (if s.known p then .installing (.start next) [] else .reading (.start next))
      | .fails happened _ => (s.setDbIf happened s.db.create).goto p t .idle
    else
      -- another meeting is active, or the insert has conflicted and none is
      match o with
      | .ok => s.goto p t (if other then afterStart next else .idle)
      | .fails _ _ => s.goto p t .idle
  | .reading r =>
    match r with
    | .finalize _ =>
      if s.db.row = none then s.goto p t .idle
      else
        match o with
        | .ok => (s.setDb s.db.snapshot).goto p t (.installing r s.db.segments)
        | .fails happened _ => (s.setDbIf happened s.db.snapshot).goto p t .idle
    | .retry =>
      match o with
      | .ok =>
        s.goto p t (if s.db.segments = [] then .idle else .installing .retry s.db.segments)
      | .fails _ _ => s.goto p t .idle
    | .start _ | .hydrate | .rejected =>
      match o with
      | .ok => s.goto p t (.installing r s.db.segments)
      | .fails _ _ => s.goto p t .idle
  | .installing r segs =>
    match o with
    | .ok => s.put p t segs r
    | .fails _ _ => s.goto p t .idle
  | .remembering segs =>
    match o with
    | .ok => (s.install p (s.getSegments p ++ segs)).goto p t (.persisting segs)
    | .fails _ _ => s.goto p t .idle
  | .persisting [] => s.goto p t .idle
  | .persisting (seg :: segs) =>
    match o with
    | .ok =>
      (s.setDb (s.db.append seg)).goto p t
        (if s.db.row = some .inMeeting then .persisting segs else .reading .rejected)
    | .fails happened _ => (s.setDbIf happened (s.db.append seg)).goto p t .idle
  | .generating summary =>
    match o with
    | .ok => s.goto p t (.committing summary)
    | .fails happened _ => (s.setDbIf happened s.db.setEnded).goto p t .idle
  | .committing summary =>
    let s' : System := { s.setDb s.db.setFinalized with commits := s.commits ++ [summary] }
    match o with
    | .ok => s'.goto p t (.indexing summary)
    | .fails happened _ => (if happened then s' else s).goto p t .idle
  | .indexing summary =>
    match o with
    | .ok => ((s.setFinalized p true).ingest summary (s.getSegments p)).goto p t .idle
    | .fails _ _ => s.goto p t .idle
  | .ending =>
    match o with
    | .ok => (s.setDb s.db.setEnded).goto p t .idle
    | .fails happened cancelled =>
      let s := s.setDbIf happened s.db.setEnded
      (if cancelled then s else s.setFinalized p false).goto p t .idle
  | .repairing summary =>
    match o with
    | .ok => s.goto p t (.reindexing summary s.db.segments)
    | .fails _ _ => s.goto p t .idle
  | .reindexing summary segs =>
    match o with
    | .ok => (s.ingest summary segs).goto p t .idle
    | .fails _ _ => s.goto p t .idle

/-- The calls that open a task. -/
inductive Call where
  /-- `start_meeting`. -/
  | start (other : Bool)
  /-- `append_segment`, or `ingest_from_stt` and `add_audio_chunk`, which look at `_finalized`. -/
  | append (segs : List Segment) (checked other : Bool)
  | endMeeting
  | finalize (summary : String)
  | loadForRetry
  | hydrate
  /-- The finalize handler, for a run that is marked `domain_commit`. -/
  | recover (summary : String)
  | repair (summary : String)

def System.call (s : System) (p t : Nat) : Call → System
  | .start other => s.goto p t (.starting none other)
  | .append segs checked other =>
    if checked ∧ s.finalized p then s
    else s.goto p t (if s.known p then .remembering segs else .starting (some segs) other)
  | .endMeeting => if s.finalized p then s else (s.setFinalized p true).goto p t .ending
  | .finalize summary => s.goto p t (.reading (.finalize summary))
  | .loadForRetry => s.goto p t (.reading .retry)
  | .hydrate => if s.db.row = some .inMeeting then s.goto p t (.reading .hydrate) else s
  | .recover summary => if summary ∈ s.commits then s.goto p t (.indexing summary) else s
  | .repair summary => if summary ∈ s.commits then s.goto p t (.repairing summary) else s

/-- The process goes, and with it what it had in memory. -/
def System.crash (s : System) (p : Nat) : System :=
  { s with
    memory := Function.update s.memory p none
    finalized := Function.update s.finalized p false
    known := Function.update s.known p false
    tasks := Function.update s.tasks p fun _ => .idle }

inductive Label where
  | call (p t : Nat) (c : Call)
  | advance (p t : Nat) (o : Outcome)
  | crash (p : Nat)

def step (s : System) : Label → System
  | .call p t c => if s.tasks p t = .idle then s.call p t c else s
  | .advance p t o => s.advance p t o
  | .crash p => s.crash p

end Transcript
