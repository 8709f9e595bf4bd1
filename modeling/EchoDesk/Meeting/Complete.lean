import EchoDesk.Meeting.Transcript

/-! # Finalized transcripts are complete

Once the append gate is closed the durable segments stay as they are, and every snapshot is
taken of a closed meeting. What is indexed comes from the list of a process instead.
-/

namespace Transcript

open EchoDesk Transition Meeting List Function

variable {s s' : System} {d : Db}
variable {p t : Nat} {segs : List Segment} {pc : Pc}

/-! ## The durable side -/

/-- What one step can do to the database. -/
inductive DbStep (d : Db) : Db → Prop where
  | same : DbStep d d
  | create (hopen : d.closed = false) : DbStep d d.create
  | append (seg : Segment) : DbStep d (d.append seg)
  | snapshot (hrow : d.row ≠ none) : DbStep d d.snapshot
  | ended : DbStep d d.setEnded
  | finalized : DbStep d d.setFinalized

/-- The durable segments are the accepted ones, and so is every snapshot. -/
structure Db.Exact (d : Db) : Prop where
  segments : d.segments = d.accepted
  snapshots : ∀ segs ∈ d.snapshots, d.closed = true ∧ segs = d.segments

theorem closed_iff : d.closed = true ↔ d.row = some .ended ∨ d.row = some .finalized := by
  simp [Db.closed]

/-- A meeting that can be created, or is active. -/
theorem not_closed {other : Bool} (h : d.row = none ∧ other = false ∨ d.row = some .inMeeting) :
    d.closed = false := by
  rw [Bool.eq_false_iff, ne_eq, closed_iff]
  rcases h with ⟨hrow, -⟩ | hrow
  · simp [hrow]
  · simp [hrow]

theorem accepted_append (d : Db) (seg : Segment) : (d.append seg).accepted =
    if d.row = some .inMeeting then d.accepted ++ [seg] else d.accepted := by
  unfold Db.append Db.accepted
  split
  · rename_i hrow
    simp [hrow]
  · rename_i hrow
    simp [hrow]

theorem segments_append (d : Db) (seg : Segment) : (d.append seg).segments =
    if d.row = some .inMeeting then d.segments ++ [seg] else d.segments := by
  unfold Db.append
  split
  · rename_i hrow
    simp [hrow]
  · rename_i hrow
    simp [hrow]

variable {d' : Db} {s₁ : System}

/-- With the gate closed, the segments and the accepted appends stay as they are. -/
theorem DbStep.closed (h : DbStep d d') (hclosed : d.closed = true) :
    d'.closed = true ∧ d'.segments = d.segments ∧ d'.accepted = d.accepted := by
  have hrow := closed_iff.1 hclosed
  have hnot : ¬ d.row = some .inMeeting := by
    rcases hrow with hrow | hrow
    · rw [hrow]
      exact nofun
    · rw [hrow]
      exact nofun
  cases h with
  | same => exact ⟨hclosed, rfl, rfl⟩
  | create hopen =>
    rw [hopen] at hclosed
    cases hclosed
  | append seg =>
    rw [segments_append, accepted_append, if_neg hnot, if_neg hnot]
    exact ⟨hclosed, rfl, rfl⟩
  | snapshot =>
    refine ⟨?_, rfl, rfl⟩
    rw [closed_iff, Db.snapshot, if_neg hnot]
    exact hrow
  | ended =>
    refine ⟨?_, rfl, rfl⟩
    rcases hrow with hrow | hrow
    · rw [closed_iff, Db.setEnded, hrow]
      exact .inl rfl
    · rw [closed_iff, Db.setEnded, hrow]
      exact .inl rfl
  | finalized =>
    refine ⟨?_, rfl, rfl⟩
    rcases hrow with hrow | hrow
    · rw [closed_iff, Db.setFinalized, hrow]
      exact .inr rfl
    · rw [closed_iff, Db.setFinalized, hrow]
      exact .inr rfl

theorem closed_snapshot (hrow : d.row ≠ none) : d.snapshot.closed = true := by
  rw [closed_iff, Db.snapshot]
  cases hstate : d.row with
  | none => exact absurd hstate hrow
  | some state =>
    cases state with
    | inMeeting | ended => exact .inl rfl
    | finalized => exact .inr rfl

theorem DbStep.exact (h : DbStep d d') (hd : d.Exact) : d'.Exact := by
  have hkept : ∀ segs ∈ d.snapshots, d'.closed = true ∧ segs = d'.segments := by
    intro segs hsegs
    obtain ⟨hclosed, heq⟩ := hd.snapshots segs hsegs
    obtain ⟨hclosed', hsegments, -⟩ := h.closed hclosed
    exact ⟨hclosed', by rw [hsegments]; exact heq⟩
  cases h with
  | same => exact hd
  | append seg =>
    refine ⟨?_, hkept⟩
    rw [segments_append, accepted_append, hd.segments]
  | snapshot hrow =>
    refine ⟨hd.segments, ?_⟩
    intro segs hsegs
    rcases mem_append.1 hsegs with hold | hnew
    · exact hkept segs hold
    · exact ⟨closed_snapshot hrow, mem_singleton.1 hnew⟩
  | _ => exact ⟨hd.segments, hkept⟩

section Fields

variable (s : System) (p t : Nat) (pc : Pc) (d : Db) (b : Bool)

@[simp] theorem db_goto : (s.goto p t pc).db = s.db := rfl

@[simp] theorem db_setDbIf : (s.setDbIf b d).db = if b then d else s.db := by
  unfold System.setDbIf
  split
  · rfl
  · rfl

end Fields

theorem dbStep_if (happened : Bool) (h : DbStep d d') : DbStep d (if happened then d' else d) := by
  split
  · exact h
  · exact .same

theorem advance_db (s : System) (p t : Nat) (o : Outcome) : DbStep s.db (s.advance p t o).db := by
  unfold System.advance
  cases s.tasks p t with
  | idle => exact .same
  | starting next other =>
    dsimp only
    split
    · rename_i hrow
      have hopen := not_closed hrow
      cases o with
      | ok => exact .create hopen
      | fails happened cancelled =>
        rw [db_goto, db_setDbIf]
        exact dbStep_if happened (.create hopen)
    · cases o with
      | ok | fails happened cancelled => exact .same
  | reading r =>
    cases r with
    | finalize summary =>
      dsimp only
      split
      · exact .same
      rename_i hrow
      cases o with
      | ok => exact .snapshot hrow
      | fails happened cancelled =>
        rw [db_goto, db_setDbIf]
        exact dbStep_if happened (.snapshot hrow)
    | _ =>
      cases o with
      | ok | fails => exact .same
  | installing r segs =>
    cases o with
    | ok =>
      cases r with
      | start | retry | hydrate | rejected | finalize => exact .same
    | fails => exact .same
  | remembering segs =>
    cases o with
    | ok | fails => exact .same
  | persisting segs =>
    cases segs with
    | nil => exact .same
    | cons seg segs =>
      cases o with
      | ok => exact .append seg
      | fails happened cancelled =>
        rw [db_goto, db_setDbIf]
        exact dbStep_if happened (.append seg)
  | generating summary =>
    cases o with
    | ok => exact .same
    | fails happened cancelled =>
      rw [db_goto, db_setDbIf]
      exact dbStep_if happened .ended
  | committing summary =>
    cases o with
    | ok => exact .finalized
    | fails happened cancelled =>
      cases happened with
      | true => exact .finalized
      | false => exact .same
  | indexing summary =>
    cases o with
    | ok | fails => exact .same
  | ending =>
    cases o with
    | ok => exact .ended
    | fails happened cancelled =>
      have h := dbStep_if happened (DbStep.ended (d := s.db))
      rw [← db_setDbIf] at h
      cases cancelled with
      | true | false => exact h
  | repairing summary | reindexing summary segs =>
    cases o with
    | ok | fails => exact .same

theorem call_db (s : System) (p t : Nat) (c : Call) : (s.call p t c).db = s.db := by
  cases c with
  | append segs checked other | endMeeting | hydrate | recover | repair =>
    unfold System.call
    dsimp only
    split
    · rfl
    · rfl
  | _ => rfl

theorem step_db (s : System) (a : Label) : DbStep s.db (step s a).db := by
  cases a with
  | call p t c =>
    unfold step
    dsimp only
    split
    · rw [call_db]
      exact .same
    · exact .same
  | advance p t o => exact advance_db s p t o
  | crash p => exact .same

/-! ## The lists of the processes -/

/-- The process has the durable segments of the closed meeting. -/
def Holds (s : System) (p : Nat) : Prop :=
  s.db.closed = true ∧ s.memory p = some s.db.segments

/-- What a task that has passed the gate may rely on. -/
def Pc.Sure (s : System) (p : Nat) : Pc → Prop
  | .repairing _ => s.db.closed = true
  | .installing (.finalize _) segs | .reindexing _ segs =>
    s.db.closed = true ∧ segs = s.db.segments
  | .generating _ | .committing _ | .indexing _ => Holds s p
  | _ => True

/-- Nothing is added to the list of a process after the gate is closed, and no list is put there
then that was read before an append. -/
def Pc.Timely (s : System) : Pc → Prop
  | .remembering _ => s.db.closed = false
  | .installing .retry segs | .installing .hydrate segs | .installing .rejected segs =>
    s.db.closed = true → segs = s.db.segments
  | _ => True

/-- A run that is marked `domain_commit` is recovered by a process that has the durable
segments. -/
def Timely (s : System) : Label → Prop
  | .call p _ (.recover _) => s.memory p = some s.db.segments
  | .advance p t _ => (s.tasks p t).Timely s
  | _ => True

instance (s : System) : (pc : Pc) → Decidable (pc.Timely s)
  | .remembering _ => inferInstanceAs (Decidable (_ = _))
  | .installing .retry _ | .installing .hydrate _ | .installing .rejected _ =>
    inferInstanceAs (Decidable (_ → _))
  | .installing (.start _) _ | .installing (.finalize _) _ | .idle | .starting _ _ | .reading _
  | .persisting _ | .generating _ | .committing _ | .indexing _
  | .ending | .repairing _ | .reindexing _ _ => .isTrue trivial

instance (s : System) : (a : Label) → Decidable (Timely s a)
  | .call _ _ (.recover _) => inferInstanceAs (Decidable (_ = _))
  | .advance p t _ => inferInstanceAs (Decidable ((s.tasks p t).Timely s))
  | .call _ _ (.start _) | .call _ _ (.append _ _ _) | .call _ _ .endMeeting
  | .call _ _ (.finalize _) | .call _ _ .loadForRetry | .call _ _ .hydrate
  | .call _ _ (.repair _) | .crash _ => .isTrue trivial

/-- What is indexed is the rendering of the durable segments of a closed meeting. -/
def Indexed (s : System) : Prop :=
  ∀ entry ∈ s.ingested, entry.2 = ragPayload entry.1 (renderTranscript s.db.segments)

structure Sound (s : System) : Prop where
  tasks : ∀ p t, (s.tasks p t).Sure s p
  commits : s.commits ≠ [] → s.db.closed = true
  ingested : s.ingested ≠ [] → s.db.closed = true
  indexed : Indexed s

theorem holds_step (hdb : DbStep s.db s'.db)
    (hmemory : Holds s p → s'.memory p = some s.db.segments) (h : Holds s p) : Holds s' p := by
  obtain ⟨hclosed, hsegments, -⟩ := hdb.closed h.1
  refine ⟨hclosed, ?_⟩
  rw [hmemory h, hsegments]

/-- A task may rely on the same after a step that leaves its process the list. -/
theorem sure_step (hdb : DbStep s.db s'.db) (hmemory : Holds s p → s'.memory p = some s.db.segments)
    (h : pc.Sure s p) : pc.Sure s' p := by
  cases pc with
  | installing r segs =>
    cases r with
    | finalize summary =>
      obtain ⟨hclosed, hsegments, -⟩ := hdb.closed h.1
      exact ⟨hclosed, h.2.trans hsegments.symm⟩
    | _ => trivial
  | reindexing summary segs =>
    obtain ⟨hclosed, hsegments, -⟩ := hdb.closed h.1
    exact ⟨hclosed, h.2.trans hsegments.symm⟩
  | generating | committing | indexing => exact holds_step hdb hmemory h
  | repairing => exact (hdb.closed h).1
  | _ => trivial

/-- What a step leaves to the tasks that did not move. -/
structure Keeps (s s' : System) : Prop where
  db : DbStep s.db s'.db
  memory : ∀ p, Holds s p → s'.memory p = some s.db.segments

theorem Sound.goto (hs : Sound s) (h : Keeps s s₁) (htasks : s₁.tasks = s.tasks)
    (hcommits : s₁.commits ≠ [] → s₁.db.closed = true)
    (hingested : s₁.ingested ≠ [] → s₁.db.closed = true) (hindexed : Indexed s₁)
    (hpc : pc.Sure s₁ p) : Sound (s₁.goto p t pc) := by
  refine ⟨?_, hcommits, hingested, hindexed⟩
  intro q u
  have hkept : (s.tasks q u).Sure (s₁.goto p t pc) q :=
    sure_step h.db (h.memory q) (hs.tasks q u)
  unfold System.goto
  rw [htasks]
  dsimp only
  by_cases hq : q = p
  · subst hq
    rw [update_self]
    by_cases hu : u = t
    · subst hu
      rw [update_self]
      exact hpc
    · rw [update_of_ne hu]
      exact hkept
  · rw [update_of_ne hq]
    exact hkept

/-- What was indexed stays right. -/
theorem Sound.indexed_of_keeps (hs : Sound s) (h : Keeps s s₁)
    (hingested : s₁.ingested = s.ingested) : Indexed s₁ := by
  intro entry hentry
  rw [hingested] at hentry
  have hclosed := hs.ingested (ne_nil_of_mem hentry)
  rw [(h.db.closed hclosed).2.1]
  exact hs.indexed entry hentry

/-- A step that neither commits nor indexes. -/
theorem Sound.move (hs : Sound s) (h : Keeps s s₁) (htasks : s₁.tasks = s.tasks)
    (hcommits : s₁.commits = s.commits) (hingested : s₁.ingested = s.ingested)
    (hpc : pc.Sure s₁ p) : Sound (s₁.goto p t pc) := by
  refine hs.goto h htasks ?_ ?_ (hs.indexed_of_keeps h hingested) hpc
  · intro hne
    rw [hcommits] at hne
    exact (h.db.closed (hs.commits hne)).1
  · intro hne
    rw [hingested] at hne
    exact (h.db.closed (hs.ingested hne)).1

theorem keeps_refl (s : System) : Keeps s s := ⟨.same, fun _ h => h.2⟩

theorem Sound.stay (hs : Sound s) (hpc : pc.Sure s p) :
    Sound (s.goto p t pc) := hs.move (keeps_refl s) rfl rfl rfl hpc

theorem Sound.setDb (hs : Sound s) (h : DbStep s.db d) (hpc : pc.Sure (s.setDb d) p) :
    Sound ((s.setDb d).goto p t pc) :=
  hs.move ⟨h, fun _ h => h.2⟩ rfl rfl rfl hpc

/-- A database call that fails. -/
theorem Sound.setDbIf (hs : Sound s) (happened : Bool) (h : DbStep s.db d) :
    Sound ((s.setDbIf happened d).goto p t .idle) := by
  cases happened with
  | true => exact hs.setDb h trivial
  | false => exact hs.stay trivial

/-- A list is put into the memory of a process. -/
theorem keeps_install (h : Holds s p → segs = s.db.segments) : Keeps s (s.install p segs) := by
  refine ⟨.same, ?_⟩
  intro q hq
  show Function.update s.memory p (some segs) q = _
  by_cases heq : q = p
  · subst heq
    rw [update_self, h hq]
  · rw [update_of_ne heq]
    exact hq.2

theorem Keeps.congr {s₂ : System} (h : Keeps s s₁) (hdb : s₂.db = s₁.db)
    (hmemory : s₂.memory = s₁.memory) : Keeps s s₂ := by
  constructor
  · rw [hdb]
    exact h.db
  · rw [hmemory]
    exact h.memory

/-- The rendering of the durable segments is indexed. -/
theorem Sound.ingest (hs : Sound s) {summary : String} (h : Keeps s s₁)
    (htasks : s₁.tasks = s.tasks) (hingested : s₁.ingested = s.ingested)
    (hclosed : s.db.closed = true) (hsegs : segs = s.db.segments) :
    Sound ((s₁.ingest summary segs).goto p t .idle) := by
  obtain ⟨hclosed', hsegments, -⟩ := h.db.closed hclosed
  refine hs.goto ⟨h.db, h.memory⟩ htasks (fun _ => hclosed') (fun _ => hclosed') ?_ trivial
  intro entry hentry
  rcases mem_append.1 hentry with hold | hnew
  · exact hs.indexed_of_keeps h hingested entry hold
  rw [mem_singleton.1 hnew]
  show ragPayload summary (renderTranscript segs) =
    ragPayload summary (renderTranscript s₁.db.segments)
  rw [hsegs, hsegments]

theorem sure_afterStart (s : System) (p : Nat) (next : Option (List Segment)) :
    (afterStart next).Sure s p := by
  cases next with
  | none | some segs => trivial

/-- The list of a process changes. -/
theorem Sound.put (hs : Sound s) {r : Reader} (htimely : (Pc.installing r segs).Timely s)
    (hsure : (Pc.installing r segs).Sure s p) : Sound (s.put p t segs r) := by
  cases r with
  | start next =>
    have hkeeps : (Holds s p → (s.memory p).getD segs = s.db.segments) →
        Keeps s (s.install p ((s.memory p).getD segs)) := keeps_install
    refine hs.move (Keeps.congr (hkeeps ?_) rfl rfl) rfl rfl rfl (sure_afterStart _ p next)
    intro h
    rw [h.2]
    rfl
  | finalize summary =>
    refine hs.move (Keeps.congr (keeps_install fun _ => hsure.2) rfl rfl) rfl rfl rfl ?_
    split
    · trivial
    refine ⟨hsure.1, ?_⟩
    show Function.update s.memory p (some segs) p = _
    rw [update_self, hsure.2]
    rfl
  | _ =>
    exact hs.move (Keeps.congr (keeps_install fun h => htimely h.1) rfl rfl) rfl rfl rfl trivial

theorem sound_advance (hs : Sound s) (p t : Nat) (o : Outcome)
    (htimely : (s.tasks p t).Timely s) : Sound (s.advance p t o) := by
  have hsure := hs.tasks p t
  unfold System.advance
  generalize s.tasks p t = pc at *
  cases pc with
  | idle => exact hs
  | starting next other =>
    dsimp only
    split
    · rename_i hrow
      cases o with
      | ok =>
        refine hs.setDb (.create (not_closed hrow)) ?_
        split
        · trivial
        · trivial
      | fails happened cancelled => exact hs.setDbIf happened (.create (not_closed hrow))
    · cases o with
      | ok =>
        refine hs.stay ?_
        split
        · exact sure_afterStart s p next
        · trivial
      | fails => exact hs.stay trivial
  | reading r =>
    cases r with
    | finalize summary =>
      dsimp only
      split
      · exact hs.stay trivial
      rename_i hrow
      -- the snapshot closes the meeting
      cases o with
      | ok => exact hs.setDb (.snapshot hrow) ⟨closed_snapshot hrow, rfl⟩
      | fails happened cancelled => exact hs.setDbIf happened (.snapshot hrow)
    | retry =>
      cases o with
      | ok =>
        refine hs.stay ?_
        split
        · trivial
        · trivial
      | fails => exact hs.stay trivial
    | _ =>
      cases o with
      | ok | fails => exact hs.stay trivial
  | installing r segs =>
    cases o with
    | ok => exact hs.put htimely hsure
    | fails => exact hs.stay trivial
  | remembering segs =>
    cases o with
    | ok =>
      -- the gate is open, so that no process holds the segments of a closed meeting
      have hopen : s.db.closed = false := htimely
      refine hs.move (keeps_install ?_) rfl rfl rfl trivial
      intro h
      rw [h.1] at hopen
      cases hopen
    | fails => exact hs.stay trivial
  | persisting segs =>
    cases segs with
    | nil => exact hs.stay trivial
    | cons seg segs =>
      cases o with
      | ok =>
        refine hs.setDb (.append seg) ?_
        split
        · trivial
        · trivial
      | fails happened cancelled => exact hs.setDbIf happened (.append seg)
  | generating summary =>
    cases o with
    | ok => exact hs.stay hsure
    | fails happened cancelled => exact hs.setDbIf happened .ended
  | committing summary =>
    have hkeeps : Keeps s { s.setDb s.db.setFinalized with commits := s.commits ++ [summary] } :=
      ⟨.finalized, fun _ h => h.2⟩
    have hclosed := (holds_step hkeeps.db (hkeeps.memory p) hsure).1
    cases o with
    | ok =>
      exact hs.goto hkeeps rfl (fun _ => hclosed) (fun _ => hclosed)
        (hs.indexed_of_keeps hkeeps rfl) (holds_step hkeeps.db (hkeeps.memory p) hsure)
    | fails happened cancelled =>
      -- a commit that fails may have happened all the same
      cases happened with
      | true =>
        exact hs.goto hkeeps rfl (fun _ => hclosed) (fun _ => hclosed)
          (hs.indexed_of_keeps hkeeps rfl) trivial
      | false => exact hs.stay trivial
  | indexing summary =>
    cases o with
    | ok =>
      -- the process holds the segments of the closed meeting
      have hsegs : s.getSegments p = s.db.segments := by
        rw [System.getSegments, hsure.2, Option.getD_some]
      exact hs.ingest (Keeps.congr (keeps_refl s) rfl rfl) rfl rfl hsure.1 hsegs
    | fails => exact hs.stay trivial
  | ending =>
    cases o with
    | ok => exact hs.setDb .ended trivial
    | fails happened cancelled =>
      have hkeeps : Keeps s (s.setDbIf happened s.db.setEnded) := by
        constructor
        · rw [db_setDbIf]
          exact dbStep_if happened .ended
        · cases happened with
          | true | false => exact fun _ h => h.2
      have hsame : (s.setDbIf happened s.db.setEnded).tasks = s.tasks ∧
          (s.setDbIf happened s.db.setEnded).commits = s.commits ∧
          (s.setDbIf happened s.db.setEnded).ingested = s.ingested := by
        cases happened with
        | true | false => exact ⟨rfl, rfl, rfl⟩
      cases cancelled with
      | true => exact hs.move hkeeps hsame.1 hsame.2.1 hsame.2.2 trivial
      | false =>
        exact hs.move (hkeeps.congr rfl rfl) hsame.1 hsame.2.1 hsame.2.2 trivial
  | repairing summary =>
    cases o with
    | ok => exact hs.stay ⟨hsure, rfl⟩
    | fails => exact hs.stay trivial
  | reindexing summary segs =>
    cases o with
    | ok => exact hs.ingest (keeps_refl s) rfl rfl hsure.1 hsure.2
    | fails => exact hs.stay trivial

theorem sound_call (hs : Sound s) (p t : Nat) (c : Call) (htimely : Timely s (.call p t c)) :
    Sound (s.call p t c) := by
  cases c with
  | append segs checked other =>
    unfold System.call
    dsimp only
    split
    · exact hs
    refine hs.stay ?_
    split
    · trivial
    · trivial
  | endMeeting =>
    unfold System.call
    dsimp only
    split
    · exact hs
    · exact hs.move ((keeps_refl s).congr rfl rfl) rfl rfl rfl trivial
  | hydrate =>
    unfold System.call
    dsimp only
    split
    · exact hs.stay trivial
    · exact hs
  | recover summary =>
    unfold System.call
    dsimp only
    split
    · rename_i hmem
      exact hs.stay ⟨hs.commits (ne_nil_of_mem hmem), htimely⟩
    · exact hs
  | repair summary =>
    unfold System.call
    dsimp only
    split
    · rename_i hmem
      exact hs.stay (hs.commits (ne_nil_of_mem hmem))
    · exact hs
  | _ => exact hs.stay trivial

theorem sound_crash (hs : Sound s) (p : Nat) : Sound (s.crash p) := by
  refine ⟨?_, hs.commits, hs.ingested, hs.indexed⟩
  intro q t
  show (Function.update s.tasks p (fun _ => .idle) q t).Sure (s.crash p) q
  by_cases hq : q = p
  · rw [hq, update_self]
    trivial
  rw [update_of_ne hq]
  have hsame : DbStep s.db (s.crash p).db := .same
  refine sure_step hsame ?_ (hs.tasks q t)
  intro h
  show Function.update s.memory p none q = _
  rw [update_of_ne hq]
  exact h.2

theorem sound_step (s : System) (a : Label) (ha : Timely s a) (hs : Sound s) :
    Sound (step s a) := by
  cases a with
  | call p t c =>
    unfold step
    dsimp only
    split
    · exact sound_call hs p t c ha
    · exact hs
  | advance p t o => exact sound_advance hs p t o ha
  | crash p => exact sound_crash hs p

/-! ## Finalized transcripts -/

theorem exact_run (trace : List Label) : (run step System.initial trace).db.Exact := by
  have hstep : ∀ s a, s.db.Exact → (step s a).db.Exact := fun s a h => (step_db s a).exact h
  have hinit : System.initial.db.Exact := by
    refine ⟨rfl, ?_⟩
    intro segs hsegs
    cases hsegs
  exact run_invariant hstep hinit trace

/-- After the gate is closed no append is accepted. -/
theorem accepted_run (hclosed : s.db.closed = true) (trace : List Label) :
    (run step s trace).db.closed = true ∧ (run step s trace).db.accepted = s.db.accepted := by
  have hstep : ∀ s' a, s'.db.closed = true ∧ s'.db.accepted = s.db.accepted →
      (step s' a).db.closed = true ∧ (step s' a).db.accepted = s.db.accepted := by
    rintro s' a ⟨hclosed, haccepted⟩
    obtain ⟨hclosed', -, haccepted'⟩ := (step_db s' a).closed hclosed
    exact ⟨hclosed', haccepted'.trans haccepted⟩
  exact run_invariant hstep ⟨hclosed, rfl⟩ trace

/-- Every snapshot of a finalize is the list of the accepted appends, no append is accepted
after one, and what is indexed is the rendering of them. -/
theorem finalized_exact (before during : List Label)
    (hmeets : Meets step Timely System.initial (before ++ during)) :
    (∀ segs ∈ (run step System.initial (before ++ during)).db.snapshots,
      segs = (run step System.initial (before ++ during)).db.accepted) ∧
    ((run step System.initial before).db.closed = true ∨
        (run step System.initial before).db.snapshots ≠ [] →
      (run step System.initial (before ++ during)).db.accepted =
        (run step System.initial before).db.accepted) ∧
    ∀ entry ∈ (run step System.initial (before ++ during)).ingested, entry.2 = ragPayload entry.1
        (renderTranscript (run step System.initial (before ++ during)).db.accepted) := by
  have hexact := exact_run (before ++ during)
  have hsound := run_invariant_of_meets sound_step hmeets ⟨fun _ _ => trivial, nofun, nofun, nofun⟩
  refine ⟨?_, ?_, ?_⟩
  · intro segs hsegs
    rw [(hexact.snapshots segs hsegs).2]
    exact hexact.segments
  · intro hgate
    have hclosed : (run step System.initial before).db.closed = true := by
      rcases hgate with hclosed | hne
      · exact hclosed
      · obtain ⟨segs, hsegs⟩ := List.exists_mem_of_ne_nil _ hne
        exact ((exact_run before).snapshots segs hsegs).1
    rw [run_append]
    exact (accepted_run hclosed during).2
  · rw [← hexact.segments]
    exact hsound.indexed

/-- Two processes append to a meeting, and the first one finalizes it. -/
def dictated : List Label :=
  .call 0 0 (.start false) :: List.replicate 3 (.advance 0 0 .ok) ++
    .call 0 0 (.append [⟨"hello", 1500, 2000, none, some "说话人1"⟩] true false) ::
      List.replicate 3 (.advance 0 0 .ok) ++
    .call 1 0 (.append [⟨"world", 65000, 66000, none, none⟩] true false) ::
      List.replicate 6 (.advance 1 0 .ok) ++
    .call 0 1 (.finalize "S") :: List.replicate 4 (.advance 0 1 .ok)

theorem finalized_exact_dictated :
    (∀ segs ∈ (run step System.initial (dictated ++ [.advance 0 1 .ok])).db.snapshots,
      segs = (run step System.initial (dictated ++ [.advance 0 1 .ok])).db.accepted) ∧
    ((run step System.initial dictated).db.closed = true ∨
        (run step System.initial dictated).db.snapshots ≠ [] →
      (run step System.initial (dictated ++ [.advance 0 1 .ok])).db.accepted =
        (run step System.initial dictated).db.accepted) ∧
    ∀ entry ∈ (run step System.initial (dictated ++ [.advance 0 1 .ok])).ingested,
      entry.2 = ragPayload entry.1
        (renderTranscript (run step System.initial (dictated ++ [.advance 0 1 .ok])).db.accepted) :=
  finalized_exact dictated [.advance 0 1 .ok] (by decide +kernel)

example : (run step System.initial (dictated ++ [.advance 0 1 .ok])).ingested =
    [("S", "【纪要】\nS\n\n【逐字稿】\n[01:01] 说话人1: hello\n[65:05] 未识别: world")] := by
  decide +kernel

/-- The first process goes after its commit, and another one recovers the run. -/
def recovered : List Label := dictated ++ [.crash 0, .call 2 0 (.recover "S"), .advance 2 0 .ok]

theorem finalized_breaks : ¬ ∀ trace : List Label,
    ∀ entry ∈ (run step System.initial trace).ingested, entry.2 = ragPayload entry.1
      (renderTranscript (run step System.initial trace).db.accepted) := by
  intro h
  have hempty : (run step System.initial recovered).ingested = [("S", ragPayload "S" "")] := by
    decide +kernel
  have hpayload := h recovered ("S", ragPayload "S" "")
    (by rw [hempty]; exact List.mem_singleton_self _)
  have hdiffer : ragPayload "S" "" ≠ ragPayload "S"
      (renderTranscript (run step System.initial recovered).db.accepted) := by
    decide +kernel
  exact hdiffer hpayload

end Transcript
