import EchoDesk.Agents.Recording
import EchoDesk.Agents.Submission
import EchoDesk.Workflow.Idempotency

/-! # The run of a task

A task is created with a run that carries the task's idempotency key, and a second creation that
writes over the row was answered with the same run. So the link of a task to its run never changes,
although `ON CONFLICT … DO UPDATE` assigns it.
-/

namespace Agents

open EchoDesk Workflow Transaction Runtime List Option

/-- The row names the run that carries the idempotency key of the task. -/
def Tied (db : Db AgentTables) (row : AgentTaskRow) : Prop :=
  ∃ runId, row.workflowRunId = some runId ∧ Keyed db row.scope (taskRunKey row.taskId) runId

/-- Every run stays with its key and its idempotency key. -/
def RunsStay (db db' : Db AgentTables) : Prop :=
  ∀ row ∈ db.runs, ∃ row' ∈ db'.runs, row'.key = row.key ∧ row'.idempotencyKey = row.idempotencyKey

variable {db db' : Db AgentTables} {runId : String} {settings : Settings}
variable {call : Creation} {row : AgentTaskRow} {scope : Scope} {key : String}

theorem keyed_of_stay (h : RunsStay db db') (hkeyed : Keyed db scope key runId) :
    Keyed db' scope key runId := by
  rcases hkeyed with ⟨row, hrow, rfl, hidem, rfl⟩
  rcases h row hrow with ⟨row', hrow', hkey, hidem'⟩
  exact ⟨row', hrow', congrArg RunKey.scope hkey, hidem'.trans hidem, congrArg RunKey.runId hkey⟩

theorem Tied.stay (h : RunsStay db db') (htied : Tied db row) : Tied db' row := by
  rcases htied with ⟨runId, hlink, hkeyed⟩
  exact ⟨runId, hlink, keyed_of_stay h hkeyed⟩

/-- Of one idempotency key there is one run. -/
theorem keyed_unique {a b : String} (ha : Keyed db scope key a) (hb : Keyed db scope key b) :
    a = b := by
  rcases ha with ⟨row, hrow, hscope, hidem, rfl⟩
  rcases hb with ⟨row', hrow', hscope', hidem', rfl⟩
  have hsame : row = row' := by
    refine Table.eq_of_conflict hrow hrow' (.inr (.inl ⟨hscope.trans hscope'.symm, ?_, ?_⟩))
    · rw [hidem]
      exact some_ne_none _
    · exact hidem.trans hidem'.symm
  rw [hsame]

/-- The link of a row by its key and its run alone. -/
theorem Tied.congr {row' : AgentTaskRow} (hkey : row'.key = row.key)
    (hlink : row'.workflowRunId = row.workflowRunId) (htied : Tied db row) : Tied db row' := by
  rcases htied with ⟨runId, hrun, hkeyed⟩
  have hscope : row'.scope = row.scope := congrArg TaskKey.scope hkey
  have htask : row'.taskId = row.taskId := congrArg TaskKey.taskId hkey
  refine ⟨runId, hlink.trans hrun, ?_⟩
  rwa [hscope, htask]

/-- The run of a tied task is stored. -/
theorem Tied.stored (htied : Tied db row) {run : RunKey} (hrun : row.run? = some run) :
    ∃ stored ∈ db.runs, stored.key = run ∧
      stored.idempotencyKey = some (taskRunKey row.taskId) := by
  rcases htied with ⟨runId, hlink, stored, hstored, hscope, hkey, hid⟩
  refine ⟨stored, hstored, ?_, hkey⟩
  simp only [AgentTaskRow.run?, hlink, map_eq_some_iff] at hrun
  rcases hrun with ⟨runId', htruthy, rfl⟩
  have hsame : runId = runId' := some.inj (filter_eq_some_iff.1 htruthy).1
  rw [← hsame, ← hid, ← hscope]
  rfl

theorem Tied.findRun (htied : Tied db row) {run : RunKey} (hrun : row.run? = some run) :
    db.findRun run ≠ none := by
  rcases htied.stored hrun with ⟨stored, hstored, hkey, -⟩
  exact fun hnone => Db.findRun_eq_none.1 hnone stored hstored hkey

/-! ## Still transactions -/

/-- A task was there with its link, or is tied to its run. -/
def TasksKnown (db db' : Db AgentTables) : Prop :=
  ∀ row' ∈ db'.domain.tasks, (∃ row ∈ db.domain.tasks,
    row.key = row'.key ∧ row.workflowRunId = row'.workflowRunId) ∨ Tied db' row'

/-- No delivery is appended and no event is marked; a task keeps its run, and a new one is tied to
its own. -/
structure Still (db db' : Db AgentTables) : Prop where
  deliveries : db'.deliveries = db.deliveries
  runs : RunsStay db db'
  tasks : ∀ row ∈ db.domain.tasks, ∃ row' ∈ db'.domain.tasks,
    row'.key = row.key ∧ row'.workflowRunId = row.workflowRunId
  known : TasksKnown db db'
  events : ∃ new, db'.domain.events.rows = db.domain.events.rows ++ new ∧
    ∀ row ∈ new, row.projectedAt = none

theorem Still.of_quiet (h : Quiet Grows db db') : Still db db' where
  __ := h
  tasks := h.domain.tasks
  known row' hrow' := .inl (h.domain.known row' hrow')
  events := h.domain.events

theorem Still.refl (db : Db AgentTables) : Still db db := .of_quiet (Std.Refl.refl db)

theorem Still.trans {a b c : Db AgentTables} (hab : Still a b) (hbc : Still b c) : Still a c := by
  refine ⟨hbc.deliveries.trans hab.deliveries, fun row hrow => ?_, fun row hrow => ?_,
    fun row hrow => ?_, ?_⟩
  · rcases hab.runs row hrow with ⟨row₁, hrow₁, hkey₁, hidem₁⟩
    rcases hbc.runs row₁ hrow₁ with ⟨row₂, hrow₂, hkey₂, hidem₂⟩
    exact ⟨row₂, hrow₂, hkey₂.trans hkey₁, hidem₂.trans hidem₁⟩
  · rcases hab.tasks row hrow with ⟨row₁, hrow₁, hkey₁, hrun₁⟩
    rcases hbc.tasks row₁ hrow₁ with ⟨row₂, hrow₂, hkey₂, hrun₂⟩
    exact ⟨row₂, hrow₂, hkey₂.trans hkey₁, hrun₂.trans hrun₁⟩
  · rcases hbc.known row hrow with ⟨row₁, hrow₁, hkey₁, hrun₁⟩ | htied
    · rcases hab.known row₁ hrow₁ with ⟨row₂, hrow₂, hkey₂, hrun₂⟩ | htied
      · exact .inl ⟨row₂, hrow₂, hkey₂.trans hkey₁, hrun₂.trans hrun₁⟩
      · exact .inr ((htied.stay hbc.runs).congr hkey₁.symm hrun₁.symm)
    · exact .inr htied
  rcases hab.events with ⟨new, hnew, hfresh⟩
  rcases hbc.events with ⟨new', hnew', hfresh'⟩
  refine ⟨new ++ new', ?_, fun row hrow => ?_⟩
  · rw [hnew', hnew, append_assoc]
  rcases mem_append.1 hrow with h | h
  · exact hfresh row h
  · exact hfresh' row h

instance : Std.Refl Still := ⟨Still.refl⟩

instance : IsTrans (Db AgentTables) Still := ⟨fun _ _ _ => Still.trans⟩

/-! ## Creations -/

/-- What a creation relies on: the run it goes on with carries the key of its task, and a row of the
task that came in between is tied to its run. -/
structure Creation.Sound (db : Db AgentTables) (call : Creation) : Prop where
  row : call.phase ≠ .lookupTask → ∀ row ∈ db.domain.tasks,
    row.key = ⟨call.ctx.scope, call.intent.echoTaskId⟩ → Tied db row
  run : ∀ runId, call.phase = .link runId →
    Keyed db call.ctx.scope (taskRunKey call.intent.echoTaskId) runId

theorem Creation.Sound.stay (hruns : RunsStay db db') (hknown : TasksKnown db db')
    (hsound : call.Sound db) : call.Sound db' where
  row hphase row' hrow' hkey := by
    rcases hknown row' hrow' with ⟨row, hrow, hsame, hlink⟩ | htied
    · exact ((hsound.row hphase row hrow (hsame.trans hkey)).stay hruns).congr hsame.symm hlink.symm
    · exact htied
  run runId hphase := keyed_of_stay hruns (hsound.run runId hphase)

/-- Writing the task row of a run that carries the task's key. -/
theorem insertTaskTx_still {ctx : Context} {intent : AgentIntent} {state : AgentTaskState}
    {u : Unit} (hrun : Keyed db ctx.scope (taskRunKey intent.echoTaskId) runId)
    (hrow : ∀ row ∈ db.domain.tasks, row.key = ⟨ctx.scope, intent.echoTaskId⟩ → Tied db row)
    (h : Returns (insertTaskTx settings ctx intent state (some runId)) db u db') :
    Still db db' := by
  simp only [insertTaskTx, returns_get_bind] at h
  obtain ⟨_, h⟩ := returns_guard.1 h
  split at h
  · -- the row is written over: it was tied to the run that carries the key, which is this one
    refine .of_quiet (keepsFrom_bind (keepsFrom_updateTask ?_) (fun _ _ _ => keepsFrom_pure _ _)
      _ _ h)
    intro row hmem hkey
    rcases hrow row hmem hkey with ⟨runId', hlink, hkeyed⟩
    have hscope : row.scope = ctx.scope := congrArg TaskKey.scope hkey
    have htask : row.taskId = intent.echoTaskId := congrArg TaskKey.taskId hkey
    rw [hscope, htask] at hkeyed
    rw [hlink, keyed_unique hkeyed hrun]
    exact ⟨rfl, rfl⟩
  split at h
  · exact (returns_throw.1 h).elim
  rename_i tasks htasks
  have hwrite := writeTables_returns.1 h
  have htied : Tied db' (taskRow settings ctx intent state (some runId)) := by
    rw [hwrite]
    exact ⟨runId, rfl, hrun⟩
  subst hwrite
  refine ⟨rfl, fun row hr => ⟨row, hr, rfl, rfl⟩, fun row hr => ?_, fun row hr => ?_, [], ?_, ?_⟩
  · exact ⟨row, (Table.mem_insert? htasks).2 (.inl hr), rfl, rfl⟩
  · rcases (Table.mem_insert? htasks).1 hr with hr | rfl
    · exact .inl ⟨row, hr, rfl, rfl⟩
    · exact .inr htied
  · exact (append_nil _).symm
  · intro row hnone
    exact absurd hnone not_mem_nil

theorem truthy_taskRunKey (taskId : String) :
    truthy (some (taskRunKey taskId)) = some (taskRunKey taskId) := by
  have hne : taskRunKey taskId ≠ "" := by
    intro h
    have hlength := congrArg String.length h
    rw [taskRunKey, String.length_append] at hlength
    exact absurd hlength (by simp)
  rw [truthy, filter_some, if_pos (decide_eq_true hne)]

theorem insertTaskWithRun_still {lib : Library} (hsound : call.Sound db)
    (hphase : call.phase ≠ .lookupTask) :
    KeepsFrom Still db (insertTaskWithRun lib settings call) := by
  refine keepsFrom_bind (fun _ _ hret => .of_quiet (insertNewRun_quiet hret).1)
    fun record db₁ hret => keepsFrom_bind (fun _ _ hins => ?_) fun _ _ _ => keepsFrom_pure _ _
  rcases insertNewRun_quiet (D := Grows) hret with ⟨hquiet, hrecord, hruns, -⟩
  have hkeyed : Keyed db₁ call.ctx.scope (taskRunKey call.intent.echoTaskId) record.runId := by
    refine ⟨call.ctx.row record, (Table.mem_insert? hruns).2 (.inr rfl), rfl, ?_, rfl⟩
    rw [hrecord]
    exact truthy_taskRunKey _
  have hstill : Still db db₁ := .of_quiet hquiet
  exact insertTaskTx_still hkeyed ((hsound.stay hstill.runs hstill.known).row hphase) hins

theorem linkTask_still (hsound : call.Sound db) (hphase : call.phase = .link runId) :
    KeepsFrom Still db (linkTask settings call runId) := by
  refine keepsFrom_bind (fun _ _ hins => ?_) fun _ _ _ => keepsFrom_pure _ _
  exact insertTaskTx_still (hsound.run runId hphase) (hsound.row (by simp [hphase])) hins

/-- The next statement of a creation. -/
theorem Creation.advance_still (lib : Library) (settings : Settings) (hsound : call.Sound db) :
    Still db (call.advance lib settings db).2 ∧
      ∀ call' ∈ (call.advance lib settings db).1, call'.Sound (call.advance lib settings db).2 := by
  unfold Creation.advance
  split
  · split
    · exact ⟨Still.refl db, by simp⟩
    -- the task has no row yet
    rename_i hnone
    refine ⟨Still.refl db, ?_⟩
    intro call' hcall'
    cases hcall'
    refine ⟨fun _ row hrow hkey => ?_, by simp⟩
    have hfound := AgentTables.findTask_eq_some.2 ⟨hrow, hkey⟩
    rw [hnone] at hfound
    cases hfound
  · rename_i hphase
    have hrow := hsound.row (by simp [hphase])
    split
    · rename_i row hlookup
      refine ⟨Still.refl db, ?_⟩
      intro call' hcall'
      cases hcall'
      refine ⟨fun _ => hrow, fun runId hlink => ?_⟩
      cases hlink
      exact lookupIdempotency_keyed hlookup (truthy_taskRunKey _)
    · refine ⟨Still.refl db, ?_⟩
      intro call' hcall'
      cases hcall'
      exact ⟨fun _ => hrow, by simp⟩
  · rename_i hphase
    exact ⟨keepsFrom_atomically (insertTaskWithRun_still hsound (by simp [hphase])), by simp⟩
  · rename_i runId hphase
    exact ⟨keepsFrom_atomically (linkTask_still hsound hphase), by simp⟩

end Agents
