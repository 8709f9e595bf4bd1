import EchoDesk.Hub.SnapshotFold

/-! # The cursors the hub hands out

`list_changes` and `snapshot` run one autocommitted `SELECT` after the other,
and pushes commit between them. A client continues from the cursor of its last
response; the cursor is sound when every event up to it was in some response.

`list_changes` returns the cursor of its last row, or, when it found none, the
maximum it reads afterwards; `snapshot` always returns a maximum it reads last.
In both places a push between the two reads is covered by the cursor and by no
response. A snapshot also leaves out entities that its tables do not show: a
memory whose row is not active, a transcript all of whose rows match newer ones.
-/

namespace Hub.Cursor

open EchoDesk Transaction Transition OrderedLog LastWrite List Option SyncEvent

/-- A reader's call, by what its statements have read so far. -/
inductive Call where
  | changes (cursor limit : Nat)
  | changesRead (cursor : Nat) (rows : List SyncEvent)
  | changesDone (returned : Nat) (rows : List SyncEvent)
  | snapshot
  | snapshotEvents (events : List SyncEvent)
  | snapshotSegments (events : List SyncEvent) (segments : List SegmentRow)
  | snapshotMeetings (events : List SyncEvent) (segments : List SegmentRow)
      (meetings : List MeetingRow)
  | snapshotMemories (events : List SyncEvent) (segments : List SegmentRow)
      (meetings : List MeetingRow) (memories : List MemoryRow)
  | snapshotDone (reads : SnapshotReads)

inductive Response where
  | changes (returned : Nat) (records : List SyncChangeRecord)
  | snapshot (result : SnapshotResult)

def Response.cursor : Response → Nat
  | .changes returned _ => returned
  | .snapshot result => result.cursor

/-- A page contains the events it lists. A snapshot contains an event when one of
its records is of that event or of a later one of the same entity. -/
def Response.Contains : Response → SyncEvent → Prop
  | .changes _ records, event => event.toSyncChangeRecord ∈ records
  | .snapshot result, event =>
    ∃ record ∈ result.records, record.key = event.key ∧ event.cursor ≤ record.cursor

/-- A client: the cursor it continues from, its responses and its call in flight. -/
structure Client where
  principal : Principal
  cursor : Nat
  received : List Response
  call : Option Call

structure St where
  db : HubDb Repository
  clients : Nat → Client

inductive Lbl where
  /-- A push transaction of any device. -/
  | push (principal : Principal) (request : PushRequest)
  /-- Another subsystem writes the business tables. -/
  | business (tables : Repository)
  /-- Client `i` asks for the changes after its cursor. -/
  | listChanges (i limit : Nat)
  /-- Client `i` asks for a snapshot. -/
  | snapshot (i : Nat)
  /-- The next `SELECT` of the call of client `i`. -/
  | select (i : Nat)
  /-- The call of client `i` ends; its response arrives, unless building it raised. -/
  | respond (i : Nat) (now : Timestamp)
  /-- The call of client `i` is cancelled, or its response is lost. -/
  | lose (i : Nat)

/-- The next `SELECT` of a call. -/
def Call.select (db : HubDb Repository) (scope : Scope) : Call → Call
  | .changes cursor limit =>
    .changesRead cursor (window (fun event => event.cursor) cursor limit (db.eventsOf scope))
  | .changesRead _ rows =>
    -- `rows[-1]["cursor"] if rows else next_cursor`
    .changesDone (lastPos (fun event => event.cursor) (db.latestCursor scope) rows) rows
  | .snapshot => .snapshotEvents (db.eventsOf scope)
  | .snapshotEvents events => .snapshotSegments events (db.tables.segments.ofScope scope)
  | .snapshotSegments events segments => .snapshotMeetings events segments (summaryRows db scope)
  | .snapshotMeetings events segments meetings =>
    .snapshotMemories events segments meetings (memoryRows db scope)
  | .snapshotMemories events segments meetings memories =>
    .snapshotDone ⟨events, segments, meetings, memories, db.latestCursor scope⟩
  | call => call

/-- The response of a call that has run its statements. -/
def Call.response (py : Python) : Call → Option (Except PyError Response)
  | .changesDone returned rows => some (.ok (.changes returned (rows.map (·.toSyncChangeRecord))))
  | .snapshotDone reads => some ((reads.result py).map .snapshot)
  | _ => none

/-- `list_changes` records the returned cursor for the device; `snapshot` writes
nothing. -/
def Call.record (db : HubDb Repository) (principal : Principal) (now : Timestamp) :
    Call → HubDb Repository
  | .changesDone returned _ => db.advanceDeviceCursor principal returned now
  | _ => db

def St.setClient (s : St) (i : Nat) (client : Client) : St :=
  { s with clients := Function.update s.clients i client }

def step (py : Python) (s : St) : Lbl → St
  | .push principal request => { s with db := (push (entities py) principal request s.db).2 }
  | .business tables => { s with db := { s.db with tables := tables } }
  | .listChanges i limit =>
    -- the route admits only positive limits
    if (s.clients i).call.isNone ∧ 1 ≤ limit then
      s.setClient i { s.clients i with call := some (.changes (s.clients i).cursor limit) }
    else s
  | .snapshot i =>
    if (s.clients i).call.isNone then s.setClient i { s.clients i with call := some .snapshot }
    else s
  | .select i =>
    s.setClient i { s.clients i with
      call := (s.clients i).call.map (Call.select s.db (s.clients i).principal.scope) }
  | .respond i now =>
    match (s.clients i).call with
    | none => s
    | some call =>
      match call.response py with
      | none => s
      | some (.error _) => s.setClient i { s.clients i with call := none }
      | some (.ok response) =>
        { s with db := call.record s.db (s.clients i).principal now }.setClient i { s.clients i with
            cursor := response.cursor
            received := (s.clients i).received ++ [response]
            call := none }
  | .lose i => s.setClient i { s.clients i with call := none }

/-- The hub holds well-formed events and no client has called yet. -/
def Init : StatePred St := fun s =>
  (∀ scope, Sorted (fun event => event.cursor) (s.db.eventsOf scope) ∧
    ∀ event ∈ s.db.eventsOf scope, 0 < event.cursor) ∧
  ∀ i, (s.clients i).cursor = 0 ∧ (s.clients i).received = [] ∧ (s.clients i).call = none

/-- Every event of the client's scope up to its cursor was in a response. -/
def Covered (s : St) (i : Nat) : Prop :=
  ∀ event ∈ s.db.eventsOf (s.clients i).principal.scope, event.cursor ≤ (s.clients i).cursor →
      ∃ response ∈ (s.clients i).received, response.Contains event

/-- No client misses an event it was told to be past, at any point of a run. -/
def CursorsSound (py : Python) (s : St) (trace : List Lbl) : Prop :=
  ∀ before after, trace = before ++ after → ∀ i, Covered (run (step py) s before) i

/-- Each transcript with rows has one that no newer transcript matches. -/
def TranscriptsShown (py : Python) (events : List SyncEvent) (rows : List SegmentRow) : Prop :=
  ∀ event ∈ transcriptsOf events, (∃ row ∈ rows, transcriptEventMatchesRow py event row) →
    ∃ row ∈ rows, transcriptEventMatchesRow py event row ∧
      ∀ event' ∈ transcriptsOf events, transcriptEventMatchesRow py event' row →
        event'.cursor ≤ event.cursor

/-- Each entity of the type with an event has a row of its id. -/
def RowsShown {ρ : Type} (entityType : SyncEntityType) (idOf : ρ → String)
    (events : List SyncEvent) (rows : List ρ) : Prop :=
  ∀ event ∈ events, event.entityType = entityType → ∃ row ∈ rows, idOf row = event.entityId

/-- The next read of a call fits its reads before. No push of the scope comes
between them: a `list_changes` that found no row still finds none when it reads the
maximum, and a snapshot that reads the maximum has read every event. And the rows
that a snapshot reads show every entity whose events it has read. -/
def Call.Agrees (py : Python) (db : HubDb Repository) (scope : Scope) : Call → Prop
  | .changesRead cursor rows => rows = [] → ∀ event ∈ db.eventsOf scope, event.cursor ≤ cursor
  | .snapshotEvents events => TranscriptsShown py events (db.tables.segments.ofScope scope)
  | .snapshotSegments events _ =>
    RowsShown .meetingSummary MeetingRow.id events (summaryRows db scope)
  | .snapshotMeetings events _ _ => RowsShown .memory MemoryRow.memoryId events (memoryRows db scope)
  | .snapshotMemories events _ _ _ => ∀ event ∈ db.eventsOf scope, event ∈ events
  | _ => True

/-- Every read fits the reads of its call before. -/
def ReadsAgree (py : Python) (s : St) : Lbl → Prop
  | .select i => ∀ call ∈ (s.clients i).call, call.Agrees py s.db (s.clients i).principal.scope
  | _ => True

/-! ## What stays true while events are appended -/

variable {P : SyncEvent → Prop} {scope : Scope} {cursor : Nat}

/-- `P` holds of every event of the scope up to a cursor that was reached. -/
def UpTo (db : HubDb Repository) (scope : Scope) (cursor : Nat) (P : SyncEvent → Prop) : Prop :=
  cursor ≤ db.latestCursor scope ∧ ∀ event ∈ db.eventsOf scope, event.cursor ≤ cursor → P event

variable {db : HubDb Repository} {s : St} {client : Client} {call : Call} {py : Python}

theorem UpTo.imp {Q : SyncEvent → Prop} (h : UpTo db scope cursor P)
    (hPQ : ∀ event, P event → Q event) : UpTo db scope cursor Q :=
  ⟨h.1, fun event he hle => hPQ event (h.2 event he hle)⟩

/-- Well-formed events: cursors are positive and increase within a scope. -/
def EventsOk {δ : Type} (db : HubDb δ) : Prop :=
  ∀ scope, Sorted (fun event => event.cursor) (db.eventsOf scope) ∧
    ∀ event ∈ db.eventsOf scope, 0 < event.cursor

/-- The events of a scope after a push: as before, or one more past the latest
cursor. -/
theorem push_eventsOf {δ : Type} (adapter : Adapter δ) (principal : Principal)
    (request : PushRequest) (db : HubDb δ) (scope : Scope) :
    (push adapter principal request db).2.eventsOf scope = db.eventsOf scope ∨
      ∃ event : SyncEvent, event.cursor = db.latestCursor scope + 1 ∧
        (push adapter principal request db).2.eventsOf scope = db.eventsOf scope ++ [event] := by
  rcases push_events adapter principal request db with h | ⟨event, hscope, hcursor, h⟩
  · left
    rw [HubDb.eventsOf, h, HubDb.eventsOf]
  by_cases hs : principal.scope = scope
  · refine .inr ⟨event, by rw [hcursor, hs]; rfl, ?_⟩
    simp [HubDb.eventsOf, h, hscope, hs]
  · left
    simp [HubDb.eventsOf, h, hscope, hs]

theorem push_eventsOk (py : Python) (principal : Principal) (request : PushRequest)
    (h : EventsOk db) : EventsOk (push (entities py) principal request db).2 := by
  intro scope
  rcases push_eventsOf (entities py) principal request db scope with heq | ⟨event, hcursor, heq⟩
  · rw [heq]
    exact h scope
  rw [heq]
  refine ⟨(h scope).1.concat ?_, ?_⟩
  · show db.latestCursor scope < event.cursor
    omega
  intro e he
  rcases mem_append.1 he with he | he
  · exact (h scope).2 e he
  · rw [mem_singleton.1 he]
    omega

/-- A push does not touch what lies at or below a reached cursor. -/
theorem push_upTo (py : Python) (principal : Principal) (request : PushRequest)
    (h : UpTo db scope cursor P) :
    UpTo (push (entities py) principal request db).2 scope cursor P := by
  rcases push_eventsOf (entities py) principal request db scope with heq | ⟨event, hcursor, heq⟩
  · simpa only [UpTo, HubDb.latestCursor, heq] using h
  constructor
  · have hold : db.latestCursor scope ≤
        (push (entities py) principal request db).2.latestCursor scope :=
      maxPos_le.2 fun e he => HubDb.le_latestCursor (by rw [heq]; exact mem_append_left _ he)
    exact Nat.le_trans h.1 hold
  intro e he hle
  rw [heq] at he
  rcases mem_append.1 he with he | he
  · exact h.2 e he hle
  -- the new event lies past the cursor
  rw [mem_singleton.1 he, hcursor] at hle
  have := h.1
  omega

/-! ## What a snapshot shows -/

section

variable {events : List SyncEvent} {event : SyncEvent} {reads : SnapshotReads}
  {result : SnapshotResult}

/-- The latest event of the entity of an event. -/
theorem exists_latest (hsorted : Sorted (fun event : SyncEvent => event.cursor) events)
    (h : event ∈ events) :
    ∃ last ∈ latest key events, last.key = event.key ∧ event.cursor ≤ last.cursor := by
  have hmem : event ∈ events.filter fun e => e.key = event.key :=
    mem_filter.2 ⟨h, decide_eq_true rfl⟩
  obtain ⟨last, hlast⟩ := ne_none_iff_exists'.1 (mt getLast?_eq_none_iff.1 (ne_nil_of_mem hmem))
  have hlastOf : lastOf key events event.key = some last := hlast
  have hkey : last.key = event.key := (lastOf_mem hlastOf).2
  refine ⟨last, mem_latest.2 (hkey ▸ hlastOf), hkey, ?_⟩
  obtain ⟨init, hinit⟩ := getLast?_eq_some_iff.1 hlast
  have hs := hsorted.filter (fun e => e.key = event.key)
  rw [hinit] at hmem hs
  rcases mem_append.1 hmem with hmem | hmem
  · exact Nat.le_of_lt ((sorted_append.1 hs).2.2 event hmem last (mem_singleton_self _))
  · exact Nat.le_of_eq (congrArg (·.cursor) (mem_singleton.1 hmem))

/-- The section of a type has the latest event of each entity that has a row. -/
theorem mem_section {ρ : Type} {rows : List ρ} {idOf : ρ → String} {entityType : SyncEntityType}
    {fallback : ρ → Except PyError SyncChangeRecord} {records : List SyncChangeRecord}
    (h : rows.mapM (fun row => snapshotRow (latest key events) entityType (idOf row)
      (fallback row)) = .ok records)
    (hevent : event ∈ latest key events) (htype : event.entityType = entityType)
    (hrow : ∃ row ∈ rows, idOf row = event.entityId) : event.toSyncChangeRecord ∈ records := by
  obtain ⟨row, hrow, hid⟩ := hrow
  obtain ⟨record, hrecord, hbuilt⟩ := exists_of_mapM_ok h hrow
  have hfind : ((latest key events).find? fun e => e.key = (entityType, idOf row)) =
      some event := (find?_key (nodup_latest events)).2 ⟨hevent, by rw [hid, ← htype]; rfl⟩
  rw [snapshotRow, hfind] at hbuilt
  cases hbuilt
  exact hrecord

/-- The rows of a snapshot show every entity whose events it has read. -/
structure Shown (py : Python) (reads : SnapshotReads) : Prop where
  sorted : Sorted (fun event : SyncEvent => event.cursor) reads.events
  transcripts : TranscriptsShown py reads.events reads.segments
  summaries : RowsShown .meetingSummary MeetingRow.id reads.events reads.meetings
  memories : RowsShown .memory MemoryRow.memoryId reads.events reads.memories

/-- Then it contains every event it has read. -/
theorem Shown.contains (h : Shown py reads) (hresult : reads.result py = .ok result)
    (hevent : event ∈ reads.events) : (Response.snapshot result).Contains event := by
  obtain ⟨last, hlast, hkey, hle⟩ := exists_latest h.sorted hevent
  have hread : ∀ {e}, e ∈ latest key reads.events → e ∈ reads.events :=
    fun he => (lastOf_mem (mem_latest.1 he)).1
  obtain ⟨-, htranscripts, hsummaries, hmemories⟩ := result_eq_ok.1 hresult
  refine ⟨last.toSyncChangeRecord, ?_, hkey, hle⟩
  cases htype : last.entityType with
  | transcriptSegment =>
    have hof : ∀ {e}, e ∈ transcriptsOf reads.events →
        e ∈ latest key reads.events ∧ e.entityType = .transcriptSegment := fun he =>
      let h := mem_filter.1 ((mem_insertionSort _).1 he)
      ⟨h.1, of_decide_eq_true h.2⟩
    have hcursor : ∀ a ∈ transcriptsOf reads.events, ∀ b ∈ transcriptsOf reads.events,
        a.cursor = b.cursor → a = b := fun a ha b hb =>
      h.sorted.eq_of_pos_eq (hread (hof ha).1) (hread (hof hb).1)
    have hmem : last ∈ transcriptsOf reads.events :=
      (mem_insertionSort _).2 (mem_filter.2 ⟨hlast, decide_eq_true htype⟩)
    refine mem_append_left _ (mem_append_left _
      (mem_snapshotTranscripts hcursor htranscripts hmem fun hrow => ?_))
    obtain ⟨row, hrow, hmatch, hmax⟩ := h.transcripts last hmem hrow
    refine ⟨row, hrow, (newest_eq_some hcursor).2 ⟨mem_matching.2 ⟨hmem, hmatch⟩, ?_⟩⟩
    exact fun e he => hmax e (mem_matching.1 he).1 (mem_matching.1 he).2
  | meetingSummary =>
    exact mem_append_left _ (mem_append_right _ (mem_section hsummaries hlast htype
      (h.summaries last (hread hlast) htype)))
  | memory =>
    exact mem_append_right _ (mem_section hmemories hlast htype
      (h.memories last (hread hlast) htype))

end

/-! ## The invariant -/

/-- What the statements of a call have secured so far. -/
def CallOk (py : Python) (db : HubDb Repository) (client : Client) : Call → Prop
  | .changes cursor limit => cursor = client.cursor ∧ 0 < limit
  | .changesRead cursor rows => cursor = client.cursor ∧ (rows ≠ [] →
      UpTo db client.principal.scope (lastPos (fun event => event.cursor) 0 rows)
        fun event => event.cursor ≤ client.cursor ∨ event ∈ rows)
  | .changesDone returned rows => UpTo db client.principal.scope returned
      fun event => event.cursor ≤ client.cursor ∨ event ∈ rows
  | .snapshot => True
  | .snapshotEvents events => Sorted (fun event : SyncEvent => event.cursor) events
  | .snapshotSegments events segments =>
    Sorted (fun event : SyncEvent => event.cursor) events ∧ TranscriptsShown py events segments
  | .snapshotMeetings events segments meetings =>
    Sorted (fun event : SyncEvent => event.cursor) events ∧ TranscriptsShown py events segments ∧
      RowsShown .meetingSummary MeetingRow.id events meetings
  | .snapshotMemories events segments meetings memories =>
    Shown py ⟨events, segments, meetings, memories, 0⟩
  | .snapshotDone reads =>
    Shown py reads ∧ UpTo db client.principal.scope reads.cursor (· ∈ reads.events)

structure ClientOk (py : Python) (db : HubDb Repository) (client : Client) : Prop where
  covered : UpTo db client.principal.scope client.cursor fun event =>
    ∃ response ∈ client.received, response.Contains event
  call : ∀ call, client.call = some call → CallOk py db client call

structure Inv (py : Python) (s : St) : Prop where
  events : EventsOk s.db
  clients : ∀ i, ClientOk py s.db (s.clients i)

theorem init_inv (py : Python) (h : Init s) : Inv py s where
  events := h.1
  clients i := by
    rcases h.2 i with ⟨hcursor, _, hcall⟩
    refine ⟨⟨hcursor ▸ Nat.zero_le _, fun event he hle => ?_⟩, fun call hc => ?_⟩
    · have := (h.1 _).2 event he
      omega
    · rw [hcall] at hc
      cases hc

/-- A store with the same events has the same promises. -/
theorem CallOk.of_events {db' : HubDb Repository} (h : CallOk py db client call)
    (hup : ∀ {cursor P}, UpTo db client.principal.scope cursor P →
      UpTo db' client.principal.scope cursor P) : CallOk py db' client call := by
  cases call with
  | changesRead cursor rows => exact ⟨h.1, fun hne => hup (h.2 hne)⟩
  | changesDone returned rows => exact hup h
  | snapshotDone reads => exact ⟨h.1, hup h.2⟩
  | _ => exact h

theorem Inv.of_db (hi : Inv py s) (hok : EventsOk db)
    (hup : ∀ {scope cursor P}, UpTo s.db scope cursor P → UpTo db scope cursor P) :
    Inv py { s with db := db } where
  events := hok
  clients i := ⟨hup (hi.clients i).covered,
    fun call hc => ((hi.clients i).call call hc).of_events hup⟩

theorem Inv.setClient (hi : Inv py s) {i : Nat} (h : ClientOk py s.db client) :
    Inv py (s.setClient i client) where
  events := hi.events
  clients j := by
    by_cases hj : j = i
    · subst hj
      simpa [St.setClient] using h
    · simpa [St.setClient, Function.update_of_ne hj] using hi.clients j

/-- Changing only the call of a client needs only the promises of that call. -/
theorem ClientOk.setCall (h : ClientOk py db client) {call : Option Call}
    (hcall : ∀ c, call = some c → CallOk py db client c) :
    ClientOk py db { client with call := call } where
  covered := h.covered
  call c hc := by
    have := hcall c hc
    cases c <;> exact this

/-- The next read of a call secures its promises, if it fits the reads before. -/
theorem select_callOk (hi : Inv py s) {i : Nat} (hg : ReadsAgree py s (.select i))
    (hcall : (s.clients i).call = some call) :
    CallOk py s.db (s.clients i) (call.select s.db (s.clients i).principal.scope) := by
  have hok := (hi.clients i).call call hcall
  have hg := hg call hcall
  generalize hscope : (s.clients i).principal.scope = scope at hg ⊢
  cases call with
  | changes cursor limit =>
    rcases hok with ⟨rfl, hlimit⟩
    refine ⟨rfl, fun hne => ?_⟩
    rw [hscope]
    rcases @exists_pos_eq_lastPos _ (fun event : SyncEvent => event.cursor) _ hne 0 with
      ⟨last, hlast, hpos⟩
    rw [← hpos]
    refine ⟨HubDb.le_latestCursor (mem_of_mem_window hlast).1, fun event he hle => ?_⟩
    by_cases hbelow : event.cursor ≤ (s.clients i).cursor
    · exact .inl hbelow
    · exact .inr (mem_window (hi.events scope).1 he (Nat.lt_of_not_le hbelow) hlast hle)
  | changesRead cursor rows =>
    rcases hok with ⟨rfl, hrows⟩
    cases rows with
    | nil =>
      -- the maximum is read now, and nothing lies past the cursor
      show UpTo s.db _ _ _
      rw [hscope]
      exact ⟨le_rfl, fun event he _ => .inl (hg rfl event he)⟩
    | cons row rows =>
      have h := hrows (cons_ne_nil _ _)
      show UpTo s.db _ _ _
      have hlast : lastPos (fun event : SyncEvent => event.cursor) (s.db.latestCursor scope)
          (row :: rows) = lastPos (fun event => event.cursor) 0 (row :: rows) := by
        simp [lastPos, getLast?_cons]
      rw [hlast]
      exact h
  | snapshot => exact (hi.events scope).1
  | snapshotEvents events => exact ⟨hok, hg⟩
  | snapshotSegments events segments => exact ⟨hok.1, hok.2, hg⟩
  | snapshotMeetings events segments meetings => exact ⟨hok.1, hok.2.1, hok.2.2, hg⟩
  | snapshotMemories events segments meetings memories =>
    -- the maximum is read now, and every event has been read
    refine ⟨⟨hok.sorted, hok.transcripts, hok.summaries, hok.memories⟩, ?_⟩
    rw [hscope]
    exact ⟨le_rfl, fun event he _ => hg event he⟩
  | changesDone returned rows | snapshotDone reads => exact hok

/-- A response covers what its call has secured. -/
theorem respond_covered {response : Response} (h : ClientOk py db client)
    (hcall : client.call = some call) (hresp : call.response py = some (.ok response)) :
    UpTo db client.principal.scope response.cursor fun event =>
      ∃ r ∈ client.received ++ [response], r.Contains event := by
  have hok := h.call call hcall
  have hnew : response ∈ client.received ++ [response] :=
    mem_append_right _ (mem_singleton_self _)
  cases call with
  | changesDone returned rows =>
    cases hresp
    refine ⟨hok.1, fun event he hle => ?_⟩
    rcases hok.2 event he hle with hbelow | hrow
    · obtain ⟨r, hr, hcontains⟩ := h.covered.2 event he hbelow
      exact ⟨r, mem_append_left _ hr, hcontains⟩
    · exact ⟨_, hnew, mem_map_of_mem hrow⟩
  | snapshotDone reads =>
    cases hresult : reads.result py with
    | error e =>
      simp only [Call.response, hresult] at hresp
      cases hresp
    | ok result =>
      simp only [Call.response, hresult] at hresp
      cases hresp
      show UpTo db _ result.cursor _
      rw [(result_eq_ok.1 hresult).1]
      exact hok.2.imp fun event hevent => ⟨_, hnew, hok.1.contains hresult hevent⟩
  | _ => cases hresp

theorem step_inv (s : St) (l : Lbl) (hg : ReadsAgree py s l) (hi : Inv py s) :
    Inv py (step py s l) := by
  cases l with
  | push principal request =>
    exact hi.of_db (push_eventsOk py principal request hi.events)
      fun h => push_upTo py principal request h
  | business tables => exact hi.of_db hi.events fun h => h
  | listChanges i limit =>
    simp only [step]
    split
    · rename_i h
      refine hi.setClient ((hi.clients i).setCall fun c hc => ?_)
      cases hc
      exact ⟨rfl, h.2⟩
    · exact hi
  | snapshot i =>
    simp only [step]
    split
    · refine hi.setClient ((hi.clients i).setCall fun c hc => ?_)
      cases hc
      trivial
    · exact hi
  | select i =>
    refine hi.setClient ((hi.clients i).setCall fun c hc => ?_)
    rcases map_eq_some_iff.1 hc with ⟨call, hcall, rfl⟩
    exact select_callOk hi hg hcall
  | respond i now =>
    simp only [step]
    split
    · exact hi
    rename_i call hcall
    split
    · exact hi
    · exact hi.setClient ((hi.clients i).setCall fun c hc => by cases hc)
    rename_i response hresp
    -- recording the device cursor leaves the events alone
    have hsame : ∀ {scope cursor P}, UpTo s.db scope cursor P →
        UpTo (call.record s.db (s.clients i).principal now) scope cursor P := by
      intro scope cursor P h
      cases call <;> exact h
    have hrec : Inv py { s with db := call.record s.db (s.clients i).principal now } := by
      refine hi.of_db ?_ hsame
      cases call <;> exact hi.events
    exact hrec.setClient
      ⟨hsame (respond_covered (hi.clients i) hcall hresp), fun c hc => by cases hc⟩
  | lose i =>
    refine hi.setClient ((hi.clients i).setCall fun c hc => ?_)
    cases hc

/-- When the reads of every call fit together, no client ever misses an event up
to the cursor it was handed. -/
theorem cursors_sound (py : Python) {s : St} (hs : Init s) {trace : List Lbl}
    (hm : Meets (step py) (ReadsAgree py) s trace) : CursorsSound py s trace := by
  rintro before after rfl i event he hle
  have hi := run_invariant_of_meets step_inv ((meets_append _ _ _).1 hm).1 (init_inv py hs)
  exact (hi.clients i).covered.2 event he hle

/-! ## A push between two reads -/

/-- An empty hub and clients of one device. -/
def fresh : St where
  db := .fresh Repository.empty
  clients _ := ⟨⟨"tenant", "laptop", "owner"⟩, 0, [], none⟩

/-- The push of a first memory by the phone of the same owner. -/
def pushMemory (id : String) : Lbl :=
  .push ⟨"tenant", "phone", "owner"⟩ ⟨id, "phone", .memory, id, 0, 0, [("content", .str id)]⟩

theorem fresh_init : Init fresh :=
  ⟨fun _ => ⟨List.Pairwise.nil, fun _ h => absurd h not_mem_nil⟩, fun _ => ⟨rfl, rfl, rfl⟩⟩

deriving instance DecidableEq for SyncChangeRecord, SyncEvent

instance (py : Python) (db : HubDb Repository) (scope : Scope) :
    ∀ call : Call, Decidable (call.Agrees py db scope)
  | .changesRead _ _ => inferInstanceAs (Decidable (_ → ∀ _ ∈ _, _))
  | .snapshotEvents _ => inferInstanceAs (Decidable (∀ _ ∈ _, (∃ _ ∈ _, _) → ∃ _ ∈ _, _))
  | .snapshotSegments _ _ | .snapshotMeetings _ _ _ =>
    inferInstanceAs (Decidable (∀ _ ∈ _, _ → ∃ _ ∈ _, _))
  | .snapshotMemories _ _ _ _ => inferInstanceAs (Decidable (∀ _ ∈ _, _ ∈ _))
  | .changes _ _ | .changesDone _ _ | .snapshot | .snapshotDone _ => .isTrue trivial

instance (py : Python) (s : St) : ∀ l, Decidable (ReadsAgree py s l)
  | .select _ => inferInstanceAs (Decidable (∀ _ ∈ _, _))
  | .push _ _ | .business _ | .listChanges _ _ | .snapshot _ | .respond _ _ | .lose _ =>
    .isTrue trivial

/-- The reads of a call, one after the other. -/
def reads (i n : Nat) : List Lbl := List.replicate n (.select i)

/-- Two pushes around the rows of a `list_changes` that finds one, and a snapshot of
both memories. -/
theorem cursors_sound_two_pushes : CursorsSound .ascii fresh
      ([pushMemory "a", .listChanges 0 1, .select 0, pushMemory "b", .select 0, .respond 0 0,
        .snapshot 0] ++ reads 0 5 ++ [.respond 0 0, pushMemory "c"]) :=
  cursors_sound .ascii fresh_init (by decide +kernel)

/-- The client asks for changes, the first read finds nothing, the phone
pushes, the maximum is read: the client is told to continue from 1 and has not
received event 1. -/
theorem not_sound_push_between :
    ¬ ∀ (s : St) (trace : List Lbl), Init s → CursorsSound .ascii s trace := by
  intro h
  let trace : List Lbl := [.listChanges 0 100, .select 0, pushMemory "a", .select 0, .respond 0 0]
  have hcov := h fresh trace fresh_init trace [] rfl 0
  have hevent : ∃ event ∈ (run (step .ascii) fresh trace).db.eventsOf ⟨"tenant", "owner"⟩,
      event.cursor ≤ ((run (step .ascii) fresh trace).clients 0).cursor := by decide +kernel
  obtain ⟨event, hmem, hle⟩ := hevent
  obtain ⟨response, hresponse, hcontains⟩ := hcov event hmem hle
  cases List.mem_singleton.1 hresponse
  exact absurd hcontains List.not_mem_nil

end Hub.Cursor
