import EchoDesk.Hub.Snapshot

/-! # The cursor of the renderer

`syncWorker.ts` and `SyncWorkerCore.receiveChanges`, against one scope of a hub. The calls of
`receiveChanges` wait for their replies side by side: `reconcile` makes one at a time, the
reconnect timer and a resync frame make others. Each of them, and each frame of the socket, hands
its changes to the applier and stores its own cursor over the one that is there.

The cursor is a number here; `decodes_changes` says that a reply is decoded to the records of the
hub. `reset_required`, the frames that announce a cursor and the resync frames are in the
protocol of the renderer, and the hub of this repository sends none of them.
-/

namespace Renderer.Receive

open EchoDesk Hub OrderedLog Transition List

/-- A decoded reply of the hub. -/
structure Reply where
  cursor : Nat
  changes : List SyncChangeRecord
  usedSnapshot : Bool

/-- Where a call of `receiveChanges` waits. -/
inductive Await where
  | changes (cursor : Option Nat)
  | snapshot
  | replied (reply : Reply)

/-- A call of `receiveChanges`; its own is the one `reconcile` waits for. -/
structure Poll where
  await : Await
  own : Bool

inductive Reconcile where
  | idle
  | pushing
  | receiving
deriving DecidableEq

/-- The changes of the scope, the renderer, and what its applier has seen: the changes it was
given, in order, and the cursors of the snapshots that were applied. -/
structure St where
  log : List SyncChangeRecord
  cursor : Option Nat
  polls : List Poll := []
  reconcile : Reconcile := .idle
  /-- The last cursor the hub has sent on the socket. -/
  socket : Option Nat := none
  given : List SyncChangeRecord := []
  snapshots : List Nat := []

inductive Lbl where
  /-- The hub applies a push of some device. -/
  | append (record : SyncChangeRecord)
  | reconcile
  /-- A push of `pushBatch` is answered with a conflict, and the `k`-th change as the current one. -/
  | conflict (k : Nat)
  /-- `pushBatch` returns. -/
  | pushed
  /-- The timer of `scheduleReconnect`. -/
  | reconnect
  | connect
  | closed
  /-- The hub answers the request of the `i`-th call. -/
  | answer (i : Nat) (resetRequired : Bool)
  /-- The request of the `i`-th call fails. -/
  | refuse (i : Nat) (cursorInvalid : Bool)
  /-- The `i`-th call goes on with its reply. With `some k` an exception leaves it after `k`
  changes and one more. -/
  | deliver (i : Nat) (threw : Option Nat)
  /-- The next change arrives on the socket. -/
  | frame (threw : Bool)
  /-- `server_hello` or `server_sync`. -/
  | announce (cursor : Nat)
  /-- `server_resync`, `snapshot_required` or `cursor_invalid`. -/
  | resync

/-! ## The hub -/

def latestCursor (log : List SyncChangeRecord) : Nat := maxPos SyncChangeRecord.cursor log

/-- The `limit` of `receiveChanges`. -/
def changesLimit : Nat := 100

def changesReply (log : List SyncChangeRecord) (cursor : Nat) : Reply where
  cursor := lastPos SyncChangeRecord.cursor (latestCursor log)
    (window SyncChangeRecord.cursor cursor changesLimit log)
  changes := window SyncChangeRecord.cursor cursor changesLimit log
  usedSnapshot := false

def snapshotReply (log : List SyncChangeRecord) : Reply where
  cursor := latestCursor log
  changes := LastWrite.latest SyncChangeRecord.key log
  usedSnapshot := true

/-! ## The renderer -/

namespace St

/-- The stored cursor; without one the renderer has nothing. -/
def position (s : St) : Nat := s.cursor.getD 0

/-- `connectSocket`: the socket continues from the cursor of this moment. -/
def connectSocket (s : St) : St :=
  if s.socket.isNone then { s with socket := some s.position } else s

/-- `receiveChanges`, up to its request. -/
def receiveChanges (s : St) (forceSnapshot own : Bool) : St :=
  { s with polls := s.polls ++ [⟨if forceSnapshot then .snapshot else .changes s.cursor, own⟩] }

def setPoll (s : St) (i : Nat) (poll : Poll) : St := { s with polls := s.polls.set i poll }

/-- A call of `receiveChanges` returns or throws; `reconcile` goes on with its `finally`. -/
def endPoll (s : St) (i : Nat) (own : Bool) : St :=
  if own then { s with polls := s.polls.eraseIdx i, reconcile := .idle }.connectSocket
  else { s with polls := s.polls.eraseIdx i }

/-- `applyChanges`, and what `handleSocketMessage` does with a change or a cursor. An exception
leaves the stored cursor as it is. -/
def applyChanges (s : St) (reply : Reply) : Option Nat → St
  | none => { s with
    given := s.given ++ reply.changes
    cursor := some reply.cursor
    snapshots := if reply.usedSnapshot then s.snapshots ++ [reply.cursor] else s.snapshots }
  | some k => { s with given := s.given ++ reply.changes.take (k + 1) }

/-- The frame that arrives next. -/
def nextFrame (s : St) : Option SyncChangeRecord :=
  s.socket.bind fun sent => s.log.find? fun record => sent < record.cursor

end St

def step (s : St) : Lbl → St
  | .append record =>
    if latestCursor s.log < record.cursor ∧
        (∀ a ∈ s.log, a.key = record.key → a.revision < record.revision) then
      { s with log := s.log ++ [record] }
    else s
  | .reconcile => if s.reconcile = .idle then { s with reconcile := .pushing } else s
  | .conflict k =>
    match s.reconcile, s.log[k]? with
    | .pushing, some record => { s with given := s.given ++ [record] }
    | _, _ => s
  | .pushed =>
    if s.reconcile = .pushing then { s with reconcile := .receiving }.receiveChanges false true
    else s
  -- beside a call that `reconcile` may be waiting for
  | .reconnect => (s.receiveChanges false false).connectSocket
  | .connect => s.connectSocket
  | .closed => { s with socket := none }
  | .answer i resetRequired =>
    match s.polls[i]? with
    | some ⟨.changes cursor, own⟩ =>
      if resetRequired then s.setPoll i ⟨.snapshot, own⟩
      else s.setPoll i ⟨.replied (changesReply s.log (cursor.getD 0)), own⟩
    | some ⟨.snapshot, own⟩ => s.setPoll i ⟨.replied (snapshotReply s.log), own⟩
    | _ => s
  | .refuse i cursorInvalid =>
    match s.polls[i]? with
    | some ⟨.changes _, own⟩ =>
      if cursorInvalid then s.setPoll i ⟨.snapshot, own⟩ else s.endPoll i own
    | some ⟨.snapshot, own⟩ => s.endPoll i own
    | _ => s
  | .deliver i threw =>
    match s.polls[i]? with
    | some ⟨.replied reply, own⟩ => (s.applyChanges reply threw).endPoll i own
    | _ => s
  | .frame threw =>
    match s.nextFrame with
    | some record =>
      { s.applyChanges ⟨record.cursor, [record], false⟩ (if threw then some 0 else none) with
        socket := some record.cursor }
    | none => s
  | .announce cursor => if s.socket.isSome then s.applyChanges ⟨cursor, [], false⟩ none else s
  | .resync => if s.socket.isSome then s.receiveChanges true false else s

/-! ## The law of the cursor -/

/-- The applier was given the change, or a snapshot stood for it. -/
def St.Handled (s : St) (record : SyncChangeRecord) : Prop :=
  record ∈ s.given ∨ ∃ cursor ∈ s.snapshots, record.cursor ≤ cursor

/-- The stored cursor covers only changes that were handled. -/
def St.Covered (s : St) : Prop := ∀ record ∈ s.log, record.cursor ≤ s.position → s.Handled record

/-- No older revision of an entity after a newer one. -/
def St.InOrder (s : St) : Prop := s.given.Pairwise fun a b => a.key = b.key → a.revision ≤ b.revision

def KeepsLaw (s : St) (l : Lbl) : Prop :=
  (step s l).Covered ∧ s.position ≤ (step s l).position ∧ (step s l).InOrder

/-- A paired renderer. The hub orders the changes of the scope and the revisions of an entity; the
pairing has stored the latest cursor of that moment, or none. -/
structure Paired (s : St) : Prop where
  sorted : Sorted SyncChangeRecord.cursor s.log
  revised : ∀ a ∈ s.log, ∀ b ∈ s.log, a.key = b.key → a.cursor < b.cursor → a.revision < b.revision
  cursor : s.cursor = none ∨ s.cursor = some (latestCursor s.log)
  polls : s.polls = []
  socket : s.socket = none
  given : s.given = []
  snapshots : s.snapshots = []

/-- What the step hands to the applier lies past the stored cursor, and the cursor it stores does
not lie before it. A snapshot reaches every change the applier has; a conflict skips no change of
its entity and comes before none; a cursor that is only announced has no change before it that is
past the stored one. -/
def PastCursor (s : St) : Lbl → Prop
  | .conflict k => s.reconcile = .pushing → ∀ record, s.log[k]? = some record →
    (∀ a ∈ s.log, a.key = record.key → a.cursor < record.cursor → a.cursor ≤ s.position) ∧
    ∀ g ∈ s.given, g.key = record.key → g.cursor ≤ record.cursor
  | .deliver i threw => ∀ reply own, s.polls[i]? = some ⟨.replied reply, own⟩ →
    threw = none ∧ s.position ≤ reply.cursor ∧
      if reply.usedSnapshot then ∀ g ∈ s.given, g.cursor ≤ reply.cursor
      else ∀ record ∈ reply.changes, s.position < record.cursor
  | .frame threw => ∀ record, s.nextFrame = some record → threw = false ∧ s.position < record.cursor
  | .announce cursor => s.socket.isSome → s.position ≤ cursor ∧ cursor ≤ latestCursor s.log ∧
    ∀ record ∈ s.log, record.cursor ≤ cursor → record.cursor ≤ s.position
  | _ => True

/-! ## What was reached -/

namespace St

variable {s t : St} {n : Nat}

/-- Every change up to `n` was handled, and the hub has got there. -/
def Done (s : St) (n : Nat) : Prop :=
  n ≤ latestCursor s.log ∧ ∀ record ∈ s.log, record.cursor ≤ n → s.Handled record

/-- The state has everything the other one has, and perhaps changes past the latest one. -/
structure Grown (s t : St) : Prop where
  log : ∀ record ∈ s.log, record ∈ t.log
  later : ∀ record ∈ t.log, record ∈ s.log ∨ latestCursor s.log < record.cursor
  given : ∀ record ∈ s.given, record ∈ t.given
  snapshots : ∀ cursor ∈ s.snapshots, cursor ∈ t.snapshots

theorem Grown.latestCursor_le (h : Grown s t) : latestCursor s.log ≤ latestCursor t.log :=
  maxPos_le.2 fun record hrecord => le_maxPos (h.log record hrecord)

variable {record : SyncChangeRecord}

/-- A change up to a cursor that was reached is not a new one. -/
theorem Grown.mem_of_le (h : Grown s t) (hrecord : record ∈ t.log) (hle : record.cursor ≤ n)
    (hn : n ≤ latestCursor s.log) : record ∈ s.log := by
  rcases h.later record hrecord with hold | hnew
  · exact hold
  · omega

theorem Handled.grown (hs : s.Handled record) (h : Grown s t) : t.Handled record := by
  rcases hs with hgiven | ⟨cursor, hcursor, hle⟩
  · exact .inl (h.given record hgiven)
  · exact .inr ⟨cursor, h.snapshots cursor hcursor, hle⟩

theorem Done.grown (hs : s.Done n) (h : Grown s t) : t.Done n := by
  constructor
  · exact Nat.le_trans hs.1 h.latestCursor_le
  · intro record hrecord hle
    exact (hs.2 record (h.mem_of_le hrecord hle hs.1) hle).grown h

end St

/-! ## The invariant -/

/-- The second change is of another entity, or no older. -/
def Follows (a b : SyncChangeRecord) : Prop := a.key = b.key → a.cursor ≤ b.cursor

/-- A reply on its way: its changes are changes of the hub up to its cursor, in order, and nothing
up to the cursor is missing. A snapshot has the newest change of an entity up to its cursor. -/
structure Reply.Sound (s : St) (reply : Reply) : Prop where
  reached : reply.cursor ≤ latestCursor s.log
  known : ∀ record ∈ reply.changes, record ∈ s.log ∧ record.cursor ≤ reply.cursor
  ordered : reply.changes.Pairwise Follows
  whole : reply.usedSnapshot = false → ∀ record ∈ s.log, record.cursor ≤ reply.cursor →
    s.Handled record ∨ record ∈ reply.changes
  newest : reply.usedSnapshot = true → ∀ record ∈ reply.changes, ∀ a ∈ s.log,
    a.cursor ≤ reply.cursor → Follows a record

def Await.Sound (s : St) : Await → Prop
  | .changes cursor => s.Done (cursor.getD 0)
  | .snapshot => True
  | .replied reply => reply.Sound s

structure Inv (s : St) : Prop where
  sorted : Sorted SyncChangeRecord.cursor s.log
  revised : ∀ a ∈ s.log, ∀ b ∈ s.log, a.key = b.key → a.cursor < b.cursor → a.revision < b.revision
  known : ∀ record ∈ s.given, record ∈ s.log
  ordered : s.given.Pairwise Follows
  /-- What was given past the stored cursor skipped no change of its entity. -/
  ahead : ∀ record ∈ s.given, ∀ a ∈ s.log, a.key = record.key → a.cursor < record.cursor →
    a.cursor ≤ s.position
  stored : s.Done s.position
  socket : ∀ sent, s.socket = some sent → s.Done sent
  polls : ∀ poll ∈ s.polls, poll.await.Sound s

variable {s : St}
variable {reply : Reply} {a : SyncChangeRecord} {cursor : Nat}

theorem Reply.Sound.grown {t : St} (hs : reply.Sound s) (h : s.Grown t) : reply.Sound t where
  reached := Nat.le_trans hs.reached h.latestCursor_le
  known record hrecord := ⟨h.log record (hs.known record hrecord).1, (hs.known record hrecord).2⟩
  ordered := hs.ordered
  whole hsnapshot record hrecord hle := by
    have hold := h.mem_of_le hrecord hle hs.reached
    rcases hs.whole hsnapshot record hold hle with hhandled | hlisted
    · exact .inl (hhandled.grown h)
    · exact .inr hlisted
  newest hsnapshot record hrecord a ha hle :=
    hs.newest hsnapshot record hrecord a (h.mem_of_le ha hle hs.reached) hle

theorem Await.Sound.grown {t : St} {await : Await} (hs : await.Sound s) (h : s.Grown t) :
    await.Sound t := by
  cases await with
  | changes cursor => exact St.Done.grown hs h
  | snapshot => trivial
  | replied reply => exact Reply.Sound.grown hs h

theorem Paired.inv (h : Paired s) (hnew : ∀ record ∈ s.log, s.position < record.cursor) :
    Inv s where
  __ := h
  known := by simp [h.given]
  ordered := by simp [h.given]
  ahead := by simp [h.given]
  stored := by
    constructor
    · rcases h.cursor with hnone | hlatest
      · simp [St.position, hnone]
      · simp [St.position, hlatest]
    · intro record hrecord hle
      have := hnew record hrecord
      omega
  socket := by simp [h.socket]
  polls := by simp [h.polls]

/-- The revisions of an entity grow with its cursors. -/
theorem Inv.revision_le (hi : Inv s) {b : SyncChangeRecord} (ha : a ∈ s.log) (hb : b ∈ s.log)
    (hkey : a.key = b.key) (hle : a.cursor ≤ b.cursor) : a.revision ≤ b.revision := by
  rcases Nat.lt_or_eq_of_le hle with hlt | heq
  · exact Nat.le_of_lt (hi.revised a ha b hb hkey hlt)
  · rw [hi.sorted.eq_of_pos_eq ha hb heq]

theorem Inv.inOrder (hi : Inv s) : s.InOrder := by
  refine hi.ordered.imp_of_mem ?_
  intro a b ha hb hfollows hkey
  exact hi.revision_le (hi.known a ha) (hi.known b hb) hkey (hfollows hkey)

/-! ## Steps that hand nothing over -/

/-- The waiting calls and the socket change, and nothing else the invariant is about. -/
theorem Inv.of_waiting (hi : Inv s) {polls : List Poll} {reconcile : Reconcile}
    {socket : Option Nat} (hsocket : ∀ sent, socket = some sent → s.Done sent)
    (hpolls : ∀ poll ∈ polls, poll.await.Sound s) :
    Inv { s with polls := polls, reconcile := reconcile, socket := socket } where
  __ := hi
  socket := hsocket
  polls poll hpoll := (hpolls poll hpoll).grown
    ⟨fun _ h => h, fun _ h => .inl h, fun _ h => h, fun _ h => h⟩

theorem Inv.connectSocket (hi : Inv s) : Inv s.connectSocket := by
  unfold St.connectSocket
  split
  · refine hi.of_waiting ?_ hi.polls
    rintro sent ⟨⟩
    exact hi.stored
  · exact hi

theorem Inv.receiveChanges (hi : Inv s) (forceSnapshot own : Bool) :
    Inv (s.receiveChanges forceSnapshot own) := by
  refine hi.of_waiting hi.socket ?_
  intro poll hpoll
  rcases mem_append.1 hpoll with hold | hnew
  · exact hi.polls poll hold
  rw [mem_singleton.1 hnew]
  cases forceSnapshot with
  | false => exact hi.stored
  | true => trivial

theorem Inv.setPoll (hi : Inv s) (i : Nat) {poll : Poll} (h : poll.await.Sound s) :
    Inv (s.setPoll i poll) := by
  refine hi.of_waiting hi.socket ?_
  intro other hother
  rcases mem_or_eq_of_mem_set hother with hold | rfl
  · exact hi.polls other hold
  · exact h

theorem Inv.endPoll (hi : Inv s) (i : Nat) (own : Bool) : Inv (s.endPoll i own) := by
  have hpolls : ∀ poll ∈ s.polls.eraseIdx i, poll.await.Sound s := fun poll hpoll =>
    hi.polls poll (mem_of_mem_eraseIdx hpoll)
  cases own with
  | false => exact hi.of_waiting hi.socket hpolls
  | true =>
    have hidle : Inv { s with polls := s.polls.eraseIdx i, reconcile := .idle } :=
      hi.of_waiting hi.socket hpolls
    exact hidle.connectSocket

/-! ## Replies -/

theorem changesReply_sound (hi : Inv s) (hcursor : s.Done cursor) :
    (changesReply s.log cursor).Sound s := by
  have hsorted := window_sorted hi.sorted cursor changesLimit
  rcases eq_or_ne (window SyncChangeRecord.cursor cursor changesLimit s.log) [] with hnil | hne
  · -- nothing lies past the requested cursor, so the latest one is no further
    have hall : ∀ record ∈ s.log, record.cursor ≤ cursor := fun record hrecord =>
      window_eq_nil (by decide : 0 < changesLimit) hnil hrecord
    have hreply : changesReply s.log cursor = ⟨latestCursor s.log, [], false⟩ := by
      unfold changesReply
      rw [hnil]
      rfl
    rw [hreply]
    constructor
    · exact le_rfl
    · intro record hrecord
      cases hrecord
    · exact List.Pairwise.nil
    · intro _ record hrecord _
      exact .inl (hcursor.2 record hrecord (hall record hrecord))
    · intro hsnapshot
      cases hsnapshot
  obtain ⟨last, hlast, hpos⟩ := @exists_pos_eq_lastPos _ SyncChangeRecord.cursor _ hne
    (latestCursor s.log)
  constructor
  · show lastPos _ _ _ ≤ _
    rw [← hpos]
    exact le_maxPos (mem_of_mem_window hlast).1
  · intro record hrecord
    exact ⟨(mem_of_mem_window hrecord).1, hsorted.le_lastPos hrecord _⟩
  · have hfollows : ∀ {a b : SyncChangeRecord}, a.cursor < b.cursor → Follows a b :=
      fun hlt _ => Nat.le_of_lt hlt
    exact hsorted.imp hfollows
  · intro _ record hrecord hle
    rcases Nat.lt_or_ge cursor record.cursor with hpast | hbefore
    · refine .inr (mem_window hi.sorted hrecord hpast hlast ?_)
      rw [hpos]
      exact hle
    · exact .inl (hcursor.2 record hrecord hbefore)
  · intro hsnapshot
    cases hsnapshot

/-- The last change of an entity has its largest cursor. -/
theorem follows_latest {log : List SyncChangeRecord} (hsorted : Sorted SyncChangeRecord.cursor log)
    (h : record ∈ LastWrite.latest SyncChangeRecord.key log) (ha : a ∈ log) : Follows a record := by
  intro hkey
  have hlast := LastWrite.mem_latest.1 h
  have hmem : a ∈ log.filter fun b => b.key = record.key :=
    mem_filter.2 ⟨ha, decide_eq_true hkey⟩
  have hle := (hsorted.filter _).le_lastPos hmem 0
  rwa [lastPos_of_getLast? hlast] at hle

theorem snapshotReply_sound (hi : Inv s) : (snapshotReply s.log).Sound s := by
  have hlog : ∀ record ∈ LastWrite.latest SyncChangeRecord.key s.log, record ∈ s.log :=
    fun record hrecord => LastWrite.lastOf_mem (LastWrite.mem_latest.1 hrecord) |>.1
  constructor
  · exact le_rfl
  · intro record hrecord
    exact ⟨hlog record hrecord, le_maxPos (hlog record hrecord)⟩
  · refine pairwise_of_forall_mem_list ?_
    intro a ha b hb
    exact follows_latest hi.sorted hb (hlog a ha)
  · intro hsnapshot
    cases hsnapshot
  · intro _ record hrecord a ha _
    exact follows_latest hi.sorted hrecord ha

/-! ## Steps that hand changes over -/

/-- What is handed over comes after what the applier has, nothing up to the new cursor is missing,
and the new cursor is not before the stored one. -/
structure Accepts (s : St) (reply : Reply) : Prop where
  known : ∀ record ∈ reply.changes, record ∈ s.log ∧ record.cursor ≤ reply.cursor
  ordered : reply.changes.Pairwise Follows
  after : ∀ given ∈ s.given, ∀ record ∈ reply.changes, Follows given record
  stored : s.position ≤ reply.cursor
  reached : reply.cursor ≤ latestCursor s.log
  whole : reply.usedSnapshot = false → ∀ record ∈ s.log, record.cursor ≤ reply.cursor →
    s.Handled record ∨ record ∈ reply.changes

theorem grown_applyChanges (s : St) (reply : Reply) : s.Grown (s.applyChanges reply none) where
  log _ h := h
  later _ h := .inl h
  given _ h := mem_append_left _ h
  snapshots cursor h := by
    unfold St.applyChanges
    dsimp only
    split
    · exact mem_append_left _ h
    · exact h

theorem Inv.applyChanges (hi : Inv s) (h : Accepts s reply) : Inv (s.applyChanges reply none) := by
  have hgrown := grown_applyChanges s reply
  constructor
  · exact hi.sorted
  · exact hi.revised
  · intro record hrecord
    rcases mem_append.1 hrecord with hold | hnew
    · exact hi.known record hold
    · exact (h.known record hnew).1
  · exact pairwise_append.2 ⟨hi.ordered, h.ordered, h.after⟩
  · intro record hrecord a ha hkey hlt
    show a.cursor ≤ reply.cursor
    rcases mem_append.1 hrecord with hold | hnew
    · exact Nat.le_trans (hi.ahead record hold a ha hkey hlt) h.stored
    · have := (h.known record hnew).2
      omega
  · refine ⟨h.reached, ?_⟩
    intro record hrecord hle
    cases hsnapshot : reply.usedSnapshot with
    | true =>
      refine .inr ⟨reply.cursor, ?_, hle⟩
      simp [St.applyChanges, hsnapshot]
    | false =>
      rcases h.whole hsnapshot record hrecord hle with hhandled | hlisted
      · exact hhandled.grown hgrown
      · exact .inl (mem_append_right _ hlisted)
  · intro sent hsent
    exact (hi.socket sent hsent).grown hgrown
  · intro poll hpoll
    exact (hi.polls poll hpoll).grown hgrown

/-- Changes past the stored cursor come after what the applier has. -/
theorem Inv.follows_of_past (hi : Inv s) {given : SyncChangeRecord} (hgiven : given ∈ s.given)
    (hrecord : record ∈ s.log) (hpast : s.position < record.cursor) : Follows given record := by
  intro hkey
  by_contra hlt
  have := hi.ahead given hgiven record hrecord hkey.symm (Nat.lt_of_not_le hlt)
  omega

theorem Inv.accepts_deliver (hi : Inv s) {i : Nat} {threw : Option Nat} {own : Bool}
    (hpoll : s.polls[i]? = some ⟨.replied reply, own⟩) (hpast : PastCursor s (.deliver i threw)) :
    threw = none ∧ Accepts s reply := by
  obtain ⟨hthrew, hstored, hchanges⟩ := hpast reply own hpoll
  have hsound : reply.Sound s := hi.polls _ (mem_of_getElem? hpoll)
  refine ⟨hthrew, hsound.known, hsound.ordered, ?_, hstored, hsound.reached, hsound.whole⟩
  intro given hgiven record hrecord
  split at hchanges
  · rename_i hsnapshot
    exact hsound.newest hsnapshot record hrecord given (hi.known given hgiven)
      (hchanges given hgiven)
  · exact hi.follows_of_past hgiven (hsound.known record hrecord).1 (hchanges record hrecord)

/-- Up to the next change of the socket everything was handled. -/
theorem Inv.accepts_frame (hi : Inv s) {threw : Bool} (hnext : s.nextFrame = some record)
    (hpast : PastCursor s (.frame threw)) :
    threw = false ∧ Accepts s ⟨record.cursor, [record], false⟩ := by
  obtain ⟨hthrew, hstored⟩ := hpast record hnext
  obtain ⟨sent, hsent, hfind⟩ := Option.bind_eq_some_iff.1 hnext
  have hmem := mem_of_find?_eq_some hfind
  refine ⟨hthrew, ?_⟩
  constructor
  · intro other hother
    rw [mem_singleton.1 hother]
    exact ⟨hmem, le_rfl⟩
  · exact pairwise_singleton _ _
  · intro given hgiven other hother
    rw [mem_singleton.1 hother]
    exact hi.follows_of_past hgiven hmem hstored
  · exact Nat.le_of_lt hstored
  · exact (le_maxPos hmem : record.cursor ≤ latestCursor s.log)
  intro _ a ha hle
  rcases Nat.lt_or_ge sent a.cursor with hlater | hearlier
  · -- the frame is the first change past what was sent
    have hfirst := hi.sorted.find?_le hfind ha (decide_eq_true hlater)
    have heq : a = record := hi.sorted.eq_of_pos_eq ha hmem (Nat.le_antisymm hle hfirst)
    exact .inr (mem_singleton.2 heq)
  · exact .inl ((hi.socket sent hsent).2 a ha hearlier)

theorem Inv.accepts_announce (hi : Inv s) (hsocket : s.socket.isSome)
    (hpast : PastCursor s (.announce cursor)) : Accepts s ⟨cursor, [], false⟩ := by
  obtain ⟨hstored, hreached, hnone⟩ := hpast hsocket
  constructor
  · intro record hrecord
    cases hrecord
  · exact List.Pairwise.nil
  · intro given _ record hrecord
    cases hrecord
  · exact hstored
  · exact hreached
  · intro _ record hrecord hle
    exact .inl (hi.stored.2 record hrecord (hnone record hrecord hle))

theorem Inv.append (hi : Inv s) (hlatest : latestCursor s.log < record.cursor)
    (hrevision : ∀ a ∈ s.log, a.key = record.key → a.revision < record.revision) :
    Inv { s with log := s.log ++ [record] } := by
  have hgrown : s.Grown { s with log := s.log ++ [record] } := by
    refine ⟨fun a ha => mem_append_left _ ha, ?_, fun _ h => h, fun _ h => h⟩
    intro a ha
    rcases mem_append.1 ha with hold | hnew
    · exact .inl hold
    · rw [mem_singleton.1 hnew]
      exact .inr hlatest
  constructor
  · exact hi.sorted.concat hlatest
  · intro a ha b hb hkey hlt
    rcases mem_append.1 ha with ha | ha <;> rcases mem_append.1 hb with hb | hb
    · exact hi.revised a ha b hb hkey hlt
    · rw [mem_singleton.1 hb] at hkey ⊢
      exact hrevision a ha hkey
    · rw [mem_singleton.1 ha] at hlt
      have hbound : b.cursor ≤ latestCursor s.log := le_maxPos hb
      exact absurd hlt (Nat.not_lt_of_le (Nat.le_trans hbound (Nat.le_of_lt hlatest)))
    · rw [mem_singleton.1 ha, mem_singleton.1 hb] at hlt
      omega
  · intro a ha
    exact mem_append_left _ (hi.known a ha)
  · exact hi.ordered
  · intro given hgiven a ha hkey hlt
    have hbound : given.cursor ≤ latestCursor s.log := le_maxPos (hi.known given hgiven)
    have hold : a ∈ s.log := hgrown.mem_of_le ha (Nat.le_of_lt hlt) hbound
    exact hi.ahead given hgiven a hold hkey hlt
  · exact hi.stored.grown hgrown
  · intro sent hsent
    exact (hi.socket sent hsent).grown hgrown
  · intro poll hpoll
    exact (hi.polls poll hpoll).grown hgrown

theorem Inv.conflict (hi : Inv s) (hrecord : record ∈ s.log)
    (hskips : ∀ a ∈ s.log, a.key = record.key → a.cursor < record.cursor → a.cursor ≤ s.position)
    (hafter : ∀ given ∈ s.given, given.key = record.key → given.cursor ≤ record.cursor) :
    Inv { s with given := s.given ++ [record] } := by
  have hgrown : s.Grown { s with given := s.given ++ [record] } :=
    ⟨fun _ h => h, fun _ h => .inl h, fun a ha => mem_append_left _ ha, fun _ h => h⟩
  constructor
  · exact hi.sorted
  · exact hi.revised
  · intro a ha
    rcases mem_append.1 ha with hold | hnew
    · exact hi.known a hold
    · rw [mem_singleton.1 hnew]
      exact hrecord
  · refine pairwise_append.2 ⟨hi.ordered, pairwise_singleton _ _, ?_⟩
    intro given hgiven other hother
    rw [mem_singleton.1 hother]
    exact hafter given hgiven
  · intro given hgiven
    rcases mem_append.1 hgiven with hold | hnew
    · exact hi.ahead given hold
    · rw [mem_singleton.1 hnew]
      exact hskips
  · exact hi.stored.grown hgrown
  · intro sent hsent
    exact (hi.socket sent hsent).grown hgrown
  · intro poll hpoll
    exact (hi.polls poll hpoll).grown hgrown

/-! ## Steps and runs -/

theorem position_connectSocket (s : St) : s.connectSocket.position = s.position := by
  unfold St.connectSocket
  split <;> rfl

theorem position_endPoll (s : St) (i : Nat) (own : Bool) : (s.endPoll i own).position = s.position := by
  cases own with
  | false => rfl
  | true => exact position_connectSocket _

/-- A step that hands over only what is past the stored cursor keeps the invariant, and does not
store an earlier cursor. -/
theorem step_inv {l : Lbl} (hpast : PastCursor s l) (hi : Inv s) :
    Inv (step s l) ∧ s.position ≤ (step s l).position := by
  have hsame : Inv s ∧ s.position ≤ s.position := ⟨hi, le_rfl⟩
  cases l with
  | append record =>
    unfold step
    dsimp only
    split
    · rename_i hguard
      exact ⟨hi.append hguard.1 hguard.2, le_rfl⟩
    · exact hsame
  | reconcile =>
    unfold step
    dsimp only
    split
    · exact ⟨hi.of_waiting hi.socket hi.polls, le_rfl⟩
    · exact hsame
  | conflict k =>
    unfold step
    dsimp only
    split
    · rename_i record hpushing hrecord
      obtain ⟨hskips, hafter⟩ := hpast hpushing record hrecord
      exact ⟨hi.conflict (mem_of_getElem? hrecord) hskips hafter, le_rfl⟩
    · exact hsame
  | pushed =>
    unfold step
    dsimp only
    split
    · have hreceiving : Inv { s with reconcile := .receiving } :=
        hi.of_waiting hi.socket hi.polls
      exact ⟨hreceiving.receiveChanges false true, le_rfl⟩
    · exact hsame
  | reconnect =>
    refine ⟨(hi.receiveChanges false false).connectSocket, ?_⟩
    show s.position ≤ (s.receiveChanges false false).connectSocket.position
    rw [position_connectSocket]
    exact le_rfl
  | connect => exact ⟨hi.connectSocket, Nat.le_of_eq (position_connectSocket s).symm⟩
  | closed =>
    refine ⟨hi.of_waiting ?_ hi.polls, le_rfl⟩
    intro sent hsent
    cases hsent
  | answer i resetRequired =>
    unfold step
    dsimp only
    split
    · rename_i cursor own hpoll
      have hrequested : s.Done (cursor.getD 0) := hi.polls _ (mem_of_getElem? hpoll)
      split
      · exact ⟨hi.setPoll i trivial, le_rfl⟩
      · exact ⟨hi.setPoll i (changesReply_sound hi hrequested), le_rfl⟩
    · exact ⟨hi.setPoll i (snapshotReply_sound hi), le_rfl⟩
    · exact hsame
  | refuse i cursorInvalid =>
    unfold step
    dsimp only
    split
    · split
      · exact ⟨hi.setPoll i trivial, le_rfl⟩
      · exact ⟨hi.endPoll i _, Nat.le_of_eq (position_endPoll s i _).symm⟩
    · exact ⟨hi.endPoll i _, Nat.le_of_eq (position_endPoll s i _).symm⟩
    · exact hsame
  | deliver i threw =>
    unfold step
    dsimp only
    split
    · rename_i reply own hpoll
      -- the reply is past the stored cursor
      obtain ⟨rfl, haccepts⟩ := hi.accepts_deliver hpoll hpast
      refine ⟨(hi.applyChanges haccepts).endPoll i own, ?_⟩
      rw [position_endPoll]
      exact haccepts.stored
    · exact hsame
  | frame threw =>
    unfold step
    dsimp only
    split
    · rename_i record hnext
      obtain ⟨rfl, haccepts⟩ := hi.accepts_frame hnext hpast
      have hstored := hi.applyChanges haccepts
      refine ⟨hstored.of_waiting ?_ hstored.polls, haccepts.stored⟩
      rintro sent ⟨⟩
      exact hstored.stored
    · exact hsame
  | announce cursor =>
    unfold step
    dsimp only
    split
    · rename_i hsocket
      have haccepts := hi.accepts_announce hsocket hpast
      exact ⟨hi.applyChanges haccepts, haccepts.stored⟩
    · exact hsame
  | resync =>
    unfold step
    dsimp only
    split
    · exact ⟨hi.receiveChanges true false, le_rfl⟩
    · exact hsame

theorem keepsLaw {l : Lbl} (hpast : PastCursor s l) (hi : Inv s) : KeepsLaw s l := by
  obtain ⟨hinv, hposition⟩ := step_inv hpast hi
  exact ⟨hinv.stored.2, hposition, hinv.inOrder⟩

/-- A renderer paired with a hub that has no change up to the stored cursor keeps the law along
every run that hands over only what is past the stored cursor. -/
theorem keepsLaw_of_pastCursor {s : St} (hpaired : Paired s)
    (hnew : ∀ record ∈ s.log, s.position < record.cursor) {trace : List Lbl}
    (hpast : Meets step PastCursor s trace) :
    (s.Covered ∧ s.InOrder) ∧ Meets step KeepsLaw s trace := by
  have hinv := hpaired.inv hnew
  refine ⟨⟨hinv.stored.2, hinv.inOrder⟩, ?_⟩
  exact hpast.of_invariant (fun s l hl hi => ⟨keepsLaw hl hi, (step_inv hl hi).1⟩) hinv

/-! ## A reply that was overtaken -/

/-- Paired while the hub was empty. -/
def emptyPairing : St where
  log := []
  cursor := some 0

def memoryRevision (cursor revision : Nat) : SyncChangeRecord where
  cursor := cursor
  sourceDeviceId := "phone"
  entityType := .memory
  entityId := "m1"
  revision := revision
  updatedAt := 0
  payload := []

theorem paired_emptyPairing : Paired emptyPairing where
  sorted := List.Pairwise.nil
  revised _ ha := nomatch ha
  cursor := .inr rfl
  polls := rfl
  socket := rfl
  given := rfl
  snapshots := rfl

/-- A reconcile, the socket it opens and a frame of the next revision. -/
theorem keepsLaw_memory : (emptyPairing.Covered ∧ emptyPairing.InOrder) ∧
    Meets step KeepsLaw emptyPairing [.append (memoryRevision 1 1), .reconcile, .pushed,
      .answer 0 false, .deliver 0 none, .append (memoryRevision 2 2), .frame false] := by
  refine keepsLaw_of_pastCursor paired_emptyPairing (fun _ h => nomatch h) ?_
  refine ⟨trivial, trivial, trivial, trivial, ?_, trivial, ?_, trivial⟩
  · rintro reply own ⟨⟩
    exact ⟨rfl, by decide, by decide⟩
  · rintro record hnext
    cases hnext
    exact ⟨rfl, by decide⟩

/-- After a lost socket the renderer asks for the changes after `0` and connects again. The reply
holds the first revision; both revisions arrive on the socket before it does. -/
def overtakenReply : List Lbl :=
  [.reconcile, .pushed, .answer 0 false, .deliver 0 none, .closed, .append (memoryRevision 1 1),
    .reconnect, .answer 0 false, .append (memoryRevision 2 2), .frame false, .frame false,
    .deliver 0 none]

/-- The reply takes the cursor back, and gives the first revision after the second one. -/
theorem overtakenReply_breaks : Paired emptyPairing ∧
    ¬ Meets step KeepsLaw emptyPairing overtakenReply ∧
    (run step emptyPairing overtakenReply).cursor = some 1 ∧
    (run step emptyPairing overtakenReply).given.map SyncChangeRecord.revision = [1, 2, 1] := by
  refine ⟨paired_emptyPairing, ?_, by decide, by decide⟩
  intro hlaw
  have hlast := (meets_iff_forall_split _ _).1 hlaw (overtakenReply.take 11) (.deliver 0 none) [] rfl
  have hback : ¬ (run step emptyPairing (overtakenReply.take 11)).position ≤
      (step (run step emptyPairing (overtakenReply.take 11)) (.deliver 0 none)).position := by
    decide
  exact hback hlast.2.1

end Renderer.Receive
