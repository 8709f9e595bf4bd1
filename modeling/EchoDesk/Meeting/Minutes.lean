import EchoDesk.Meeting.State
import Mathlib.Data.List.Infix

/-! # Todos in the minutes

`attach_artifact_to_todo` reads the row of a meeting, marks a todo in the minutes and writes the
minutes and the state back in another transaction. Any number of such calls run next to the
finalizes, the clears and the other changes of the state of the meeting.
-/

namespace Minutes

open EchoDesk Transition Meeting List Option

/-! ## The document -/

/-- `t.get("id") == todo_id`, for a dictionary. -/
def isTodo (todoId : String) : Json → Bool
  | .obj todo => Dict.get? todo "id" = some (.str todoId)
  | _ => false

/-- The keys that an attach sets. -/
def doneFields (artifactId nowIso : String) (todo : Dict) : Dict :=
  ((todo.set "status" (.str "done")).set "done_at" (.str nowIso)).set "artifact_id"
    (.str artifactId)

def markDone (artifactId nowIso : String) : Json → Json
  | .obj todo => .obj (doneFields artifactId nowIso todo)
  | other => other

/-- The loop over the todos: the first one of the id is marked. -/
def editTodos (todoId artifactId nowIso : String) : List Json → Option (List Json)
  | [] => none
  | todo :: rest =>
    if isTodo todoId todo then some (markDone artifactId nowIso todo :: rest)
    else (editTodos todoId artifactId nowIso rest).map (todo :: ·)

/-- The minutes with the todo marked, if there is one. -/
def edit (todoId artifactId nowIso : String) (data : Dict) : Option Dict :=
  match data.get? "todos" with
  | some (.arr todos) =>
    (editTodos todoId artifactId nowIso todos).map fun todos => data.set "todos" (.arr todos)
  | _ => none

/-- The todo of an id. -/
def todo? (data : Dict) (todoId : String) : Option Json :=
  match data.get? "todos" with
  | some (.arr todos) => todos.find? (isTodo todoId)
  | _ => none

/-! ## The row and the calls -/

/-- What an attach reads and writes of a row of `meetings`. -/
structure Row where
  state : RowState
  /-- `minutes_json`, by its value; none when it is null or no JSON object. -/
  minutes : Option Dict
deriving DecidableEq

/-- An attach between its read and its write. -/
structure Attach where
  todoId : String
  artifactId : String
  nowIso : String
  /-- `rec.state`. -/
  state : RowState
  data : Dict
  /-- The writes that were committed before its read. -/
  readAt : Nat
deriving DecidableEq

/-- The writes of the row. -/
inductive Write where
  | attach (a : Attach)
  | finalize (data : Dict)
  | clear
  /-- `update_meeting_state` without minutes. -/
  | setState (state : RowState)

def Row.write (row : Row) : Write → Row
  | .attach a => ⟨a.state, some a.data⟩
  | .finalize data => ⟨.finalized, some data⟩
  | .clear => ⟨if row.state = .finalized then .ended else row.state, none⟩
  | .setState state => { row with state := state }

inductive Pc where
  | idle
  /-- In `get_meeting`. -/
  | reading (todoId artifactId : String)
  /-- In `update_meeting_state`. -/
  | writing (a : Attach)
  /-- The answer of the call. -/
  | returned (attached : Bool)
deriving DecidableEq

structure System where
  row : Option Row
  tasks : Nat → Pc
  /-- The writes that were committed, the first one first. -/
  writes : List Write

def System.initial (row : Option Row) : System := ⟨row, fun _ => .idle, []⟩

def System.goto (s : System) (t : Nat) (pc : Pc) : System :=
  { s with tasks := Function.update s.tasks t pc }

/-- A write that is committed. -/
def System.commit (s : System) (w : Write) : System :=
  { s with row := s.row.map fun row => row.write w, writes := s.writes ++ [w] }

/-- What `attach_artifact_to_todo` makes of the row it has read. -/
def prepare (s : System) (todoId artifactId nowIso : String) : Option Attach :=
  s.row.bind fun row => row.minutes.bind fun data =>
    (edit todoId artifactId nowIso data).map fun data =>
      ⟨todoId, artifactId, nowIso, row.state, data, s.writes.length⟩

inductive Label where
  | call (t : Nat) (todoId artifactId : String)
  | read (t : Nat) (nowIso : String)
  | write (t : Nat)
  /-- Another writer commits. -/
  | finalize (data : Dict)
  | clear
  | setState (state : RowState)
  /-- The call raises, or its task is cancelled. -/
  | fails (t : Nat)

def step (s : System) : Label → System
  | .call t todoId artifactId =>
    match s.tasks t with
    | .idle | .returned _ => s.goto t (.reading todoId artifactId)
    | .reading _ _ | .writing _ => s
  | .read t nowIso =>
    match s.tasks t with
    | .reading todoId artifactId =>
      s.goto t (match prepare s todoId artifactId nowIso with
        | some a => .writing a
        | none => .returned false)
    | .idle | .writing _ | .returned _ => s
  | .write t =>
    match s.tasks t with
    | .writing a => (s.commit (.attach a)).goto t (.returned true)
    | .idle | .reading _ _ | .returned _ => s
  | .finalize data => s.commit (.finalize data)
  | .clear => s.commit .clear
  | .setState state => s.commit (.setState state)
  | .fails t => s.goto t .idle

/-! ## Marking a todo -/

/-- The todo has the artifact. -/
def Attached (data : Dict) (a : Attach) : Prop :=
  ∃ todo, todo? data a.todoId = some (.obj todo) ∧ Dict.get? todo "status" = some (.str "done") ∧
    Dict.get? todo "done_at" = some (.str a.nowIso) ∧
    Dict.get? todo "artifact_id" = some (.str a.artifactId)

/-- The minutes of the row have it. -/
def Kept (row : Option Row) (a : Attach) : Prop :=
  ∃ r data, row = some r ∧ r.minutes = some data ∧ Attached data a

variable {todoId artifactId nowIso : String} {data : Dict} {todos : List Json}
variable {todos' : List Json} {written : Nat} {data' : Dict}

theorem edit_some (h : edit todoId artifactId nowIso data = some data') : ∃ todos todos',
      data.get? "todos" = some (.arr todos) ∧
      editTodos todoId artifactId nowIso todos = some todos' ∧
      data' = data.set "todos" (.arr todos') := by
  unfold edit at h
  split at h
  · rename_i todos htodos
    obtain ⟨todos', hedit, heq⟩ := map_eq_some_iff.1 h
    exact ⟨todos, todos', htodos, hedit, heq.symm⟩
  · cases h

theorem todo?_of_todos (todoId : String) (h : data.get? "todos" = some (.arr todos)) :
    todo? data todoId = todos.find? (isTodo todoId) := by
  unfold todo?
  rw [h]

theorem todo?_set (data : Dict) (todos : List Json) (todoId : String) :
    todo? (data.set "todos" (.arr todos)) todoId = todos.find? (isTodo todoId) := by
  refine todo?_of_todos todoId ?_
  rw [Dict.get?_set, if_pos rfl]

theorem isTodo_markDone (todoId artifactId nowIso : String) (todo : Json) :
    isTodo todoId (markDone artifactId nowIso todo) = isTodo todoId todo := by
  cases todo with
  | obj fields =>
    simp only [markDone, isTodo, doneFields]
    rw [Dict.get?_set, if_neg (by decide), Dict.get?_set, if_neg (by decide), Dict.get?_set,
      if_neg (by decide)]
  | _ => rfl

/-- The first todo of the id is the one that is marked. -/
theorem find?_editTodos (h : editTodos todoId artifactId nowIso todos = some todos') : ∃ todo,
      todos.find? (isTodo todoId) = some todo ∧
      todos'.find? (isTodo todoId) = some (markDone artifactId nowIso todo) := by
  induction todos generalizing todos' with
  | nil => cases h
  | cons head rest ih =>
    rw [editTodos] at h
    split at h
    · rename_i hhead
      injection h with h
      rw [← h, find?_cons, find?_cons, isTodo_markDone, hhead]
      exact ⟨head, rfl, rfl⟩
    · rename_i hhead
      obtain ⟨rest', hrest, rfl⟩ := map_eq_some_iff.1 h
      rw [find?_cons, find?_cons, Bool.eq_false_iff.2 hhead]
      exact ih hrest

/-- The todos of the other ids stay as they are. -/
theorem find?_editTodos_of_ne {other : String} (hne : other ≠ todoId)
    (h : editTodos todoId artifactId nowIso todos = some todos') :
    todos'.find? (isTodo other) = todos.find? (isTodo other) := by
  induction todos generalizing todos' with
  | nil => cases h
  | cons head rest ih =>
    rw [editTodos] at h
    split at h
    · rename_i hhead
      injection h with h
      have hother : isTodo other head = false := by
        cases head with
        | obj fields =>
          simp only [isTodo, decide_eq_true_eq] at hhead
          simp only [isTodo, hhead]
          simpa using Ne.symm hne
        | _ => rfl
      rw [← h, find?_cons, find?_cons, isTodo_markDone, hother]
    · obtain ⟨rest', hrest, rfl⟩ := map_eq_some_iff.1 h
      rw [find?_cons, find?_cons, ih hrest]

/-- A marked todo has the artifact. -/
theorem attached_of_edit {a : Attach} (h : edit a.todoId a.artifactId a.nowIso data = some a.data) :
    Attached a.data a := by
  obtain ⟨todos, todos', htodos, hedit, hdata⟩ := edit_some h
  obtain ⟨todo, hfind, hfind'⟩ := find?_editTodos hedit
  have htodo : isTodo a.todoId todo = true := by simpa using find?_some hfind
  cases todo with
  | obj fields =>
    refine ⟨doneFields a.artifactId a.nowIso fields, ?_, ?_, ?_, ?_⟩
    · rw [hdata, todo?_set, hfind']
      rfl
    · simp [doneFields, Dict.get?_set]
    · simp [doneFields, Dict.get?_set]
    · simp [doneFields, Dict.get?_set]
  | _ => cases htodo

/-- It keeps it when another todo is marked. -/
theorem Attached.edit {a : Attach} (ha : Attached data a) (hne : a.todoId ≠ todoId)
    (h : edit todoId artifactId nowIso data = some data') : Attached data' a := by
  obtain ⟨todo, hfind, hkeys⟩ := ha
  obtain ⟨todos, todos', htodos, hedit, hdata⟩ := edit_some h
  refine ⟨todo, ?_, hkeys⟩
  rw [hdata, todo?_set, find?_editTodos_of_ne hne hedit, ← todo?_of_todos a.todoId htodos]
  exact hfind

/-! ## Runs -/

variable {s s' : System} {a : Attach}

/-- All that a step can do. -/
inductive Move (s : System) : System → Prop where
  | task (t : Nat) (pc : Pc) (hpc : ∀ a, pc ≠ .writing a) : Move s (s.goto t pc)
  | read (t : Nat) (todoId artifactId nowIso : String) (a : Attach)
      (hprepare : prepare s todoId artifactId nowIso = some a) : Move s (s.goto t (.writing a))
  | write (t : Nat) (a : Attach) (hpc : s.tasks t = .writing a) :
      Move s ((s.commit (.attach a)).goto t (.returned true))
  | other (w : Write) (hw : ∀ a, w ≠ .attach a) : Move s (s.commit w)

theorem step_move (s : System) (l : Label) : step s l = s ∨ Move s (step s l) := by
  cases l with
  | call t todoId artifactId =>
    unfold step
    dsimp only
    split
    · exact .inr (.task t _ nofun)
    · exact .inr (.task t _ nofun)
    · exact .inl rfl
    · exact .inl rfl
  | read t nowIso =>
    unfold step
    dsimp only
    split
    · rename_i todoId artifactId hpc
      cases hprepare : prepare s todoId artifactId nowIso with
      | none => exact .inr (.task t _ nofun)
      | some a => exact .inr (.read t todoId artifactId nowIso a hprepare)
    · exact .inl rfl
    · exact .inl rfl
    · exact .inl rfl
  | write t =>
    unfold step
    dsimp only
    split
    · rename_i a hpc
      exact .inr (.write t a hpc)
    · exact .inl rfl
    · exact .inl rfl
    · exact .inl rfl
  | finalize data | clear | setState state => exact .inr (.other _ nofun)
  | fails t => exact .inr (.task t _ nofun)

/-- What an attach has in hand is the minutes it has read, with its todo marked. -/
theorem prepare_eq (h : prepare s todoId artifactId nowIso = some a) : ∃ r data, s.row = some r ∧
      r.minutes = some data ∧ edit a.todoId a.artifactId a.nowIso data = some a.data ∧
      a.state = r.state ∧ a.readAt = s.writes.length := by
  obtain ⟨r, hrow, h⟩ := bind_eq_some_iff.1 h
  obtain ⟨data, hminutes, h⟩ := bind_eq_some_iff.1 h
  obtain ⟨data', hedit, rfl⟩ := map_eq_some_iff.1 h
  exact ⟨r, data, hrow, hminutes, hedit, rfl, rfl⟩

/-- The row as an attach has read it. -/
def Current (s : System) (a : Attach) : Prop :=
  ∃ r data, s.row = some r ∧ r.minutes = some data ∧
    edit a.todoId a.artifactId a.nowIso data = some a.data ∧ a.state = r.state

/-- What holds of an attach between its read and its write. -/
structure Pending (s : System) (a : Attach) : Prop where
  row : s.row.isSome = true
  edited : Attached a.data a
  readAt : a.readAt ≤ s.writes.length
  /-- With no write since, it has read the row. -/
  current : a.readAt = s.writes.length → Current s a

def Sound (s : System) : Prop := ∀ t a, s.tasks t = .writing a → Pending s a

theorem pending_of_prepare (h : prepare s todoId artifactId nowIso = some a) : Pending s a := by
  obtain ⟨r, data, hrow, hminutes, hedit, hstate, hread⟩ := prepare_eq h
  exact
    { row := by rw [hrow]; rfl
      edited := attached_of_edit hedit
      readAt := hread.le
      current := fun _ => ⟨r, data, hrow, hminutes, hedit, hstate⟩ }

theorem Pending.commit (h : Pending s a) (w : Write) : Pending (s.commit w) a where
  row := by
    rw [System.commit, isSome_map]
    exact h.row
  edited := h.edited
  readAt := by
    simp only [System.commit, length_append, length_singleton]
    exact Nat.le_succ_of_le h.readAt
  current heq := by
    have hle := h.readAt
    simp only [System.commit, length_append, length_singleton] at heq
    omega

theorem Pending.goto (h : Pending s a) (t : Nat) (pc : Pc) : Pending (s.goto t pc) a :=
  ⟨h.row, h.edited, h.readAt, h.current⟩

theorem tasks_goto (s : System) (t : Nat) (pc : Pc) (u : Nat) :
    (s.goto t pc).tasks u = if u = t then pc else s.tasks u := Function.update_apply _ _ _ _

theorem Move.sound (h : Move s s') (hs : Sound s) : Sound s' := by
  intro u b hu
  cases h with
  | task t pc hpc =>
    rw [tasks_goto] at hu
    split at hu
    · exact absurd hu (hpc b)
    · exact (hs u b hu).goto t _
  | read t todoId artifactId nowIso a hprepare =>
    rw [tasks_goto] at hu
    split at hu
    · injection hu with heq
      rw [← heq]
      exact pending_of_prepare hprepare
    · exact (hs u b hu).goto t _
  | write t a =>
    rw [tasks_goto] at hu
    split at hu
    · cases hu
    · exact ((hs u b hu).commit _).goto t _
  | other w => exact (hs u b hu).commit w

theorem sound_run (row : Option Row) (trace : List Label) :
    Sound (run step (System.initial row) trace) := by
  have hstep : ∀ s l, Sound s → Sound (step s l) := by
    intro s l hs
    rcases step_move s l with hsame | h
    · rw [hsame]
      exact hs
    · exact h.sound hs
  have hinit : Sound (System.initial row) := by
    intro t a h
    cases h
  exact run_invariant hstep hinit trace

/-! ## An attach and the writes after it -/

/-- The write replaces what an attach has written: the minutes are replaced or cleared, the same
todo is attached to again, or an attach wrote that had read before. -/
def Write.overrides (a : Attach) (written : Nat) : Write → Prop
  | .attach b => b.todoId = a.todoId ∨ b.readAt < written
  | .finalize _ | .clear => True
  | .setState _ => False

instance (a : Attach) (written : Nat) : (w : Write) → Decidable (w.overrides a written)
  | .attach _ => inferInstanceAs (Decidable (_ ∨ _))
  | .finalize _ | .clear => .isTrue trivial
  | .setState _ => .isFalse not_false

/-- The minutes have the artifact, and so does what the attaches have read since. -/
structure Stays (a : Attach) (written : Nat) (s : System) : Prop where
  length : written ≤ s.writes.length
  kept : Kept s.row a
  pending : ∀ t b, s.tasks t = .writing b → written ≤ b.readAt → b.todoId ≠ a.todoId →
    Attached b.data a

theorem Move.stays (h : Move s s') (hs : Stays a written s)
    (hspared : ∀ w ∈ s'.writes.drop written, ¬ w.overrides a written) : Stays a written s' := by
  cases h with
  | task t pc hpc =>
    refine ⟨hs.length, hs.kept, ?_⟩
    intro u b hu
    rw [tasks_goto] at hu
    split at hu
    · exact absurd hu (hpc b)
    · exact hs.pending u b hu
  | read t todoId artifactId nowIso a' hprepare =>
    refine ⟨hs.length, hs.kept, ?_⟩
    intro u b hu
    rw [tasks_goto] at hu
    split at hu
    · injection hu with heq
      rw [← heq]
      intro _ hne
      obtain ⟨r, data, hrow, hminutes, hedit, -⟩ := prepare_eq hprepare
      obtain ⟨r', data', hrow', hminutes', hattached⟩ := hs.kept
      rw [hrow] at hrow'
      injection hrow' with hr
      rw [← hr, hminutes] at hminutes'
      injection hminutes' with hdata
      rw [← hdata] at hattached
      exact hattached.edit hne.symm hedit
    · exact hs.pending u b hu
  | write t b hpc =>
    have hnot : ¬ (Write.attach b).overrides a written := by
      refine hspared _ ?_
      simp only [System.goto, System.commit]
      rw [drop_append_of_le_length hs.length]
      exact mem_append_right _ (mem_singleton_self _)
    simp only [Write.overrides, not_or, Nat.not_lt] at hnot
    obtain ⟨r, data, hrow, -⟩ := hs.kept
    refine ⟨?_, ?_, ?_⟩
    · simp only [System.goto, System.commit, length_append]
      exact Nat.le_add_right_of_le hs.length
    · refine ⟨r.write (.attach b), b.data, ?_, rfl, hs.pending t b hpc hnot.2 hnot.1⟩
      simp only [System.goto, System.commit]
      rw [hrow]
      rfl
    · intro u b' hu
      rw [tasks_goto] at hu
      split at hu
      · cases hu
      · exact hs.pending u b' hu
  | other w hw =>
    have hnot : ¬ w.overrides a written := by
      refine hspared _ ?_
      simp only [System.commit]
      rw [drop_append_of_le_length hs.length]
      exact mem_append_right _ (mem_singleton_self _)
    refine ⟨?_, ?_, hs.pending⟩
    · simp only [System.commit, length_append]
      exact Nat.le_add_right_of_le hs.length
    obtain ⟨r, data, hrow, hminutes, hattached⟩ := hs.kept
    cases w with
    | attach b => exact absurd rfl (hw b)
    | finalize | clear => exact absurd trivial hnot
    | setState state =>
      refine ⟨r.write (.setState state), data, ?_, hminutes, hattached⟩
      simp only [System.commit]
      rw [hrow]
      rfl

theorem stays_run (hs : Stays a written s) (trace : List Label)
    (hspared : ∀ w ∈ (run step s trace).writes.drop written, ¬ w.overrides a written) :
    Stays a written (run step s trace) := by
  induction trace using List.reverseRecOn with
  | nil => exact hs
  | append_singleton trace l ih =>
    rw [run_snoc] at hspared ⊢
    -- the writes only grow, so that the ones before the step are spared too
    have hprefix : (run step s trace).writes <+: (step (run step s trace) l).writes := by
      rcases step_move (run step s trace) l with hsame | h
      · rw [hsame]
      generalize step (run step s trace) l = s' at h
      cases h with
      | task | read => exact prefix_refl _
      | write | other => exact prefix_append _ _
    have hstays := ih fun w hw => hspared w ( ( hprefix.drop written).subset hw)
    rcases step_move (run step s trace) l with hsame | h
    · rw [hsame]
      exact hstays
    · exact h.stays hstays hspared

/-- Of an attach at its write: what it writes stays in the minutes as long as no later write
overrides it, and when nothing was committed since its read it changes nothing but its todo. -/
theorem attach_kept (row : Option Row) (before after : List Label) (t : Nat) (a : Attach)
    (hpc : (run step (System.initial row) before).tasks t = .writing a) :
    (step (run step (System.initial row) before) (.write t)).tasks t = .returned true ∧
    ((∀ w ∈ (run step (System.initial row) (before ++ .write t :: after)).writes.drop
        (step (run step (System.initial row) before) (.write t)).writes.length,
        ¬ w.overrides a (step (run step (System.initial row) before) (.write t)).writes.length) →
      Kept (run step (System.initial row) (before ++ .write t :: after)).row a) ∧
    (a.readAt = (run step (System.initial row) before).writes.length →
      ∃ r data, (run step (System.initial row) before).row = some r ∧ r.minutes = some data ∧
        edit a.todoId a.artifactId a.nowIso data = some a.data ∧
        (step (run step (System.initial row) before) (.write t)).row =
          some ⟨r.state, some a.data⟩) := by
  have hsound := sound_run row before
  rw [run_append, run_cons]
  generalize run step (System.initial row) before = s at hpc hsound
  have hpending := hsound t a hpc
  have hwrite : step s (.write t) = (s.commit (.attach a)).goto t (.returned true) := by
    unfold step
    dsimp only
    rw [hpc]
  rw [hwrite]
  obtain ⟨r, hrow⟩ := Option.isSome_iff_exists.1 hpending.row
  have hnew : (s.commit (.attach a)).row = some ⟨a.state, some a.data⟩ := by
    rw [System.commit, hrow]
    rfl
  refine ⟨?_, ?_, ?_⟩
  · rw [tasks_goto, if_pos rfl]
  · intro hspared
    refine (stays_run ?_ after hspared).kept
    refine ⟨le_rfl, ⟨_, a.data, hnew, rfl, hpending.edited⟩, ?_⟩
    -- whoever stands at its write has read before this one
    intro u b hu hread
    rw [tasks_goto] at hu
    split at hu
    · cases hu
    have hle := (hsound u b hu).readAt
    simp only [System.goto, System.commit, List.length_append, List.length_singleton] at hread
    omega
  · intro hread
    obtain ⟨r, data, hrow, hminutes, hedit, hstate⟩ := hpending.current hread
    refine ⟨r, data, hrow, hminutes, hedit, ?_⟩
    rw [← hstate]
    exact hnew

/-- The minutes of a meeting with two todos. -/
def twoTodos : Row :=
  ⟨.finalized, some [("todos", .arr [.obj [("id", .str "a")], .obj [("id", .str "b")]])]⟩

/-- Two artifacts are attached one after the other; the first call is at its write. -/
def inTurn : List Label := [.call 0 "a" "x", .read 0 "now"]

def first : Attach :=
  ⟨"a", "x", "now", .finalized, [("todos", .arr [.obj [("id", .str "a"), ("status", .str "done"),
    ("done_at", .str "now"), ("artifact_id", .str "x")], .obj [("id", .str "b")]])], 0⟩

theorem attach_kept_inTurn :
    (step (run step (System.initial twoTodos) inTurn) (.write 0)).tasks 0 = .returned true ∧
    ((∀ w ∈ (run step (System.initial twoTodos)
          (inTurn ++ .write 0 :: [.call 1 "b" "y", .read 1 "later", .write 1])).writes.drop
        (step (run step (System.initial twoTodos) inTurn) (.write 0)).writes.length,
        ¬ w.overrides first
          (step (run step (System.initial twoTodos) inTurn) (.write 0)).writes.length) →
      Kept (run step (System.initial twoTodos)
        (inTurn ++ .write 0 :: [.call 1 "b" "y", .read 1 "later", .write 1])).row first) ∧
    (first.readAt = (run step (System.initial twoTodos) inTurn).writes.length →
      ∃ r data, (run step (System.initial twoTodos) inTurn).row = some r ∧ r.minutes = some data ∧
        edit first.todoId first.artifactId first.nowIso data = some first.data ∧
        (step (run step (System.initial twoTodos) inTurn) (.write 0)).row =
          some ⟨r.state, some first.data⟩) :=
  attach_kept twoTodos inTurn [.call 1 "b" "y", .read 1 "later", .write 1] 0 first
    (by decide +kernel)

/-- Both calls read before either of them writes. -/
def atOnce : List Label := [.call 0 "a" "x", .call 1 "b" "y", .read 0 "now", .read 1 "now"]

theorem attach_breaks : ¬ ∀ (row : Option Row) (before after : List Label) (t : Nat) (a : Attach),
    (run step (System.initial row) before).tasks t = .writing a →
    (∀ l ∈ after, l ≠ .clear ∧ ∀ data, l ≠ .finalize data) →
    Kept (run step (System.initial row) (before ++ .write t :: after)).row a := by
  intro h
  have hkept := h twoTodos atOnce [.write 1] 0 first (by decide +kernel) (by
    intro l hl
    rw [List.mem_singleton.1 hl]
    exact ⟨nofun, nofun⟩)
  obtain ⟨r, data, hrow, hminutes, todo, htodo, hstatus, -⟩ := hkept
  have hlost : (run step (System.initial twoTodos) (atOnce ++ [.write 0, .write 1])).row =
      some ⟨.finalized, some [("todos", .arr [.obj [("id", .str "a")],
        .obj [("id", .str "b"), ("status", .str "done"), ("done_at", .str "now"),
          ("artifact_id", .str "y")]])]⟩ := by decide +kernel
  rw [hlost] at hrow
  injection hrow with hrow
  rw [← hrow] at hminutes
  injection hminutes with hdata
  have hfirst : todo? data "a" = some (.obj [("id", .str "a")]) := by
    rw [← hdata]
    decide
  have heq := some.inj (htodo.symm.trans hfirst)
  injection heq with heq
  rw [heq] at hstatus
  exact absurd hstatus (by decide)

end Minutes
