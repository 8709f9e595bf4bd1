import EchoDesk.Foundations.Tally
import EchoDesk.Stt.Steps
import Mathlib.Data.List.Count

/-! # The capacity of the scheduler

Capacity is counted in several places: the accepted jobs, the slots reserved for
dispatch, the active jobs, and what each scope has in flight. They all count the
jobs that are outstanding: queued, or in the hands of a worker.
-/

namespace Stt

open Transition Tally List Scheduler

variable {config : Config} {s : Scheduler}
variable {phase : Phase}

/-- The job a worker has in hand. -/
def Phase.job : Phase → Option Nat
  | .taken job | .executing job _ | .acquiring job _ _ | .calling job _ _ _ => some job
  | _ => none

/-- The jobs in the hands of the workers. -/
def Scheduler.held (s : Scheduler) : List Nat := s.workers.filterMap Phase.job

/-- What the accounts are kept of. -/
structure Account where
  dispatchQueue : List Nat
  queue : List Nat
  dispatchReserved : Nat
  acceptedCount : Nat
  activeJobs : Nat
  inFlight : ScopeKey → Nat
  scopeKeys : List ScopeKey
  held : List Nat

/-- The account of a scheduler. -/
def Scheduler.account (s : Scheduler) : Account where
  dispatchQueue := s.dispatchQueue
  queue := s.queue
  dispatchReserved := s.dispatchReserved
  acceptedCount := s.acceptedCount
  activeJobs := s.activeJobs
  inFlight := fun key => (s.scopeStates key).inFlight
  scopeKeys := s.jobs.map Job.scopeKey
  held := s.held

/-- The jobs that were accepted and have not ended. -/
def Account.outstanding (a : Account) : List Nat := a.dispatchQueue ++ a.queue ++ a.held

/-- The job is one of the scope. -/
def Account.ofScope (a : Account) (key : ScopeKey) (job : Nat) : Bool :=
  a.scopeKeys[job]? == some key

/-- Every count is that of the jobs it is about, and within its limit. -/
structure Accounted (config : Config) (a : Account) : Prop where
  reserved : a.dispatchReserved = a.dispatchQueue.length
  active : a.activeJobs = a.held.length
  accepted : a.acceptedCount = a.outstanding.length
  capacity : a.acceptedCount ≤ config.maxConcurrency + config.queueSize
  known : ∀ job ∈ a.outstanding, job < a.scopeKeys.length
  nodup : a.outstanding.Nodup
  inFlight : ∀ key, a.inFlight key = a.outstanding.countP (a.ofScope key)
  limit : ∀ key, a.inFlight key ≤ config.scopeMaxConcurrency

/-! ## The account of one step -/

variable {a : Account}

variable {a' : Account} {w : Nat} {phase' : Phase}

section

variable (h : Accounted config a) (hreserved : a'.dispatchReserved = a'.dispatchQueue.length)
  (hactive : a'.activeJobs = a'.held.length)

include h hreserved hactive

/-- The account only depends on which jobs are outstanding. -/
theorem Accounted.of_perm (hperm : a'.outstanding.Perm a.outstanding)
    (hkeys : a'.scopeKeys = a.scopeKeys) (haccepted : a'.acceptedCount = a.acceptedCount)
    (hinFlight : a'.inFlight = a.inFlight) : Accounted config a' := by
  have hscope : a'.ofScope = a.ofScope := by
    funext key job
    rw [Account.ofScope, hkeys, Account.ofScope]
  constructor
  · exact hreserved
  · exact hactive
  · rw [haccepted, h.accepted, hperm.length_eq]
  · rw [haccepted]
    exact h.capacity
  · intro job hjob
    rw [hkeys]
    exact h.known job (hperm.mem_iff.1 hjob)
  · exact hperm.nodup_iff.2 h.nodup
  · intro key
    rw [hinFlight, hscope, hperm.countP_eq]
    exact h.inFlight key
  · rw [hinFlight]
    exact h.limit

/-- A new job is counted once, in its scope. -/
theorem Accounted.admits {key : ScopeKey}
    (hperm : a'.outstanding.Perm (a.scopeKeys.length :: a.outstanding))
    (hkeys : a'.scopeKeys = a.scopeKeys ++ [key])
    (haccepted : a'.acceptedCount = a.acceptedCount + 1)
    (hcapacity : a.acceptedCount < config.maxConcurrency + config.queueSize)
    (hinFlight : a'.inFlight = Function.update a.inFlight key (a.inFlight key + 1))
    (hlimit : a.inFlight key < config.scopeMaxConcurrency) : Accounted config a' := by
  have hlen : a'.scopeKeys.length = a.scopeKeys.length + 1 := by rw [hkeys, length_append]; rfl
  have hscope : ∀ key', a'.outstanding.countP (a'.ofScope key') =
      a.outstanding.countP (a.ofScope key') + if key' = key then 1 else 0 := by
    intro key'
    have hold : a.outstanding.countP (a'.ofScope key') = a.outstanding.countP (a.ofScope key') := by
      apply countP_congr
      intro job hjob
      rw [Account.ofScope, hkeys, getElem?_append_left (h.known job hjob), Account.ofScope]
    rw [hperm.countP_eq, countP_cons, hold]
    have hnew : a'.ofScope key' a.scopeKeys.length = decide (key' = key) := by
      rw [Account.ofScope, hkeys, getElem?_append_right (le_rfl), Nat.sub_self]
      by_cases heq : key' = key
      · simp [heq]
      · simp [heq, Ne.symm heq]
    rw [hnew]
    simp
  constructor
  · exact hreserved
  · exact hactive
  · rw [haccepted, h.accepted, hperm.length_eq, length_cons]
  · omega
  · intro job hjob
    rw [hlen]
    rcases mem_cons.1 (hperm.mem_iff.1 hjob) with rfl | hjob
    · exact Nat.lt_succ_self _
    · exact Nat.lt_succ_of_lt (h.known job hjob)
  · refine hperm.nodup_iff.2 (nodup_cons.2 ⟨fun hmem => ?_, h.nodup⟩)
    exact Nat.lt_irrefl _ (h.known _ hmem)
  · intro key'
    rw [hscope, hinFlight, ← h.inFlight key', Function.update_apply]
    split
    · rename_i heq
      rw [heq]
    · rfl
  · intro key'
    rw [hinFlight, Function.update_apply]
    split
    · exact hlimit
    · exact h.limit key'

/-- A job that ends is no longer counted. -/
theorem Accounted.ends {key : ScopeKey} {job : Nat}
    (hperm : (job :: a'.outstanding).Perm a.outstanding) (hkeys : a'.scopeKeys = a.scopeKeys)
    (hkey : a.scopeKeys[job]? = some key) (haccepted : a'.acceptedCount = a.acceptedCount - 1)
    (hinFlight : a'.inFlight = Function.update a.inFlight key (a.inFlight key - 1)) :
    Accounted config a' := by
  have hlen := hperm.length_eq
  rw [length_cons] at hlen
  have haccept := h.accepted
  have hscope : ∀ key', a.inFlight key' = a'.outstanding.countP (a'.ofScope key') +
      if key' = key then 1 else 0 := by
    intro key'
    have hof : a'.ofScope key' = a.ofScope key' := by
      funext job
      rw [Account.ofScope, hkeys, Account.ofScope]
    rw [h.inFlight key', ← hperm.countP_eq, countP_cons, hof]
    have hjob : a.ofScope key' job = decide (key' = key) := by
      rw [Account.ofScope, hkey]
      by_cases heq : key' = key
      · simp [heq]
      · simp [heq, Ne.symm heq]
    rw [hjob]
    simp
  constructor
  · exact hreserved
  · exact hactive
  · omega
  · have := h.capacity
    omega
  · intro j hj
    rw [hkeys]
    exact h.known j (hperm.mem_iff.1 (mem_cons_of_mem job hj))
  · exact (nodup_cons.1 (hperm.nodup_iff.2 h.nodup)).2
  · intro key'
    have := hscope key'
    rw [hinFlight, Function.update_apply]
    split
    · rename_i heq
      rw [if_pos heq] at this
      rw [← heq, this]
      rfl
    · rename_i hne
      rw [if_neg hne] at this
      exact this
  · intro key'
    have := h.limit key'
    rw [hinFlight, Function.update_apply]
    split
    · rename_i heq
      rw [← heq]
      omega
    · exact this

end

/-! ## The accounts of the operations -/

section

variable (h : s.workers[w]? = some phase)

include h

/-- A worker that keeps its job in hand keeps the account. -/
theorem account_setPhase (hjob : phase'.job = phase.job) :
    (s.setPhase w phase').account = s.account := by
  have hheld : (s.setPhase w phase').held = s.held := filterMap_set_of_eq Phase.job h hjob
  simp only [account, hheld]
  rfl

theorem account_awaitWork (hjob : phase.job = none) :
    (s.awaitWork w).account = s.account := by
  unfold awaitWork
  split
  · exact account_setPhase h hjob.symm
  · exact account_setPhase h hjob.symm

/-- A worker that has no job in hand takes one. -/
theorem held_take {job : Nat} (hnone : phase.job = none)
    (hjob : phase'.job = some job) : (s.setPhase w phase').held.Perm (job :: s.held) := by
  have hperm := filterMap_set_perm Phase.job h phase'
  rw [hnone, hjob] at hperm
  exact hperm

/-- A worker lets go of its job. -/
theorem held_end {job : Nat} (hjob : phase.job = some job)
    (hnone : phase'.job = none) : (job :: (s.setPhase w phase').held).Perm s.held := by
  have hperm := filterMap_set_perm Phase.job h phase'
  rw [hnone, hjob] at hperm
  exact hperm

end

theorem accounted_nextJob (h : Accounted config s.account) (hw : s.workers[w]? = some .next) :
    Accounted config (s.nextJob w).account := by
  have hres : s.dispatchReserved = s.dispatchQueue.length := h.reserved
  have hactive : s.activeJobs = s.held.length := h.active
  rcases nextJob_cases s w with ⟨job, rest, hdispatch, heq⟩ | ⟨job, rest, hdispatch, hqueue, heq⟩ |
    ⟨hdispatch, hqueue, heq⟩
  · have hheld := held_take hw rfl (rfl : (Phase.taken job).job = some job)
    rw [heq]
    refine h.of_perm ?_ ?_ ?_ rfl rfl rfl
    · rw [hres, hdispatch, length_cons]
      rfl
    · show s.activeJobs + 1 = (s.setPhase w (.taken job)).held.length
      rw [hheld.length_eq, length_cons, hactive]
    show (rest ++ s.queue ++ (s.setPhase w (.taken job)).held).Perm
      (s.dispatchQueue ++ s.queue ++ s.held)
    rw [hdispatch]
    exact (hheld.append_left _).trans perm_middle
  · have hheld := held_take hw rfl (rfl : (Phase.taken job).job = some job)
    rw [heq]
    refine h.of_perm hres ?_ ?_ rfl rfl rfl
    · show s.activeJobs + 1 = (s.setPhase w (.taken job)).held.length
      rw [hheld.length_eq, length_cons, hactive]
    show (s.dispatchQueue ++ rest ++ (s.setPhase w (.taken job)).held).Perm
      (s.dispatchQueue ++ s.queue ++ s.held)
    rw [hdispatch, hqueue]
    exact (hheld.append_left _).trans perm_middle
  · have haccount : (s.setPhase w (.waiting false)).account = s.account := account_setPhase hw rfl
    rw [heq]
    show Accounted config (s.setPhase w (.waiting false)).account
    rw [haccount]
    exact h

/-- The futures of the jobs are none of the account. -/
theorem map_scopeKey_modify (jobs : List Job) (i : Nat) {f : Job → Job}
    (hf : ∀ j, (f j).scopeKey = j.scopeKey) :
    (jobs.modify i f).map Job.scopeKey = jobs.map Job.scopeKey := by
  apply ext_getElem?
  intro k
  rw [getElem?_map, getElem?_map, getElem?_modify]
  cases jobs[k]? with
  | none => rfl
  | some j =>
    simp only [Option.map_eq_map, Option.map_some]
    split
    · rw [hf j]
    · rfl

section

variable (h : Accounted config s.account)

include h

/-- A job that ended is given back by its worker and by its scope. -/
theorem accounted_ended {job : Nat}
    (hw : s.workers[w]? = some phase) (hjob : phase.job = some job) (hnone : phase'.job = none)
    (result : JobEnd) : Accounted config ((s.ended job result).setPhase w phase').account := by
  have hheld := held_end (s := s) hw hjob hnone
  have hin : job ∈ s.account.outstanding :=
    mem_append_right _ (hheld.mem_iff.1 mem_cons_self)
  have hkeys : ((s.ended job result).setPhase w phase').account.scopeKeys = s.account.scopeKeys :=
    map_scopeKey_modify s.jobs job fun _ => rfl
  obtain ⟨j, hj⟩ : ∃ j, s.jobs[job]? = some j := by
    have hlt := h.known job hin
    simp only [account, length_map] at hlt
    exact ⟨_, getElem?_eq_getElem hlt⟩
  have hget : (s.jobs.modify job (Job.ended result))[job]? = some (j.ended result) := by
    rw [getElem?_modify_eq, hj]
    rfl
  have hkey : s.account.scopeKeys[job]? = some j.scopeKey := by
    show (s.jobs.map Job.scopeKey)[job]? = some j.scopeKey
    rw [getElem?_map, hj]
    rfl
  have hperm : (job :: ((s.ended job result).setPhase w phase').account.outstanding).Perm
      s.account.outstanding :=
    perm_middle.symm.trans (hheld.append_left (s.dispatchQueue ++ s.queue))
  refine h.ends h.reserved ?_ hperm hkeys hkey rfl ?_
  · have hlen := hheld.length_eq
    have hactive : s.activeJobs = s.held.length := h.active
    rw [length_cons] at hlen
    show s.activeJobs - 1 = (s.setPhase w phase').held.length
    omega
  funext key
  have hended : (j.ended result).scopeKey = j.scopeKey := rfl
  show ((s.ended job result).scopeStates key).inFlight = _
  simp only [ended, hget, hended]
  rw [Function.update_apply, Function.update_apply]
  by_cases heq : key = j.scopeKey
  · rw [if_pos heq, if_pos heq]
    rfl
  · rw [if_neg heq, if_neg heq]
    rfl

theorem accounted_endJob {job : Nat}
    (hw : s.workers[w]? = some phase) (hjob : phase.job = some job) (result : JobEnd) :
    Accounted config (s.endJob w job result).account := by
  rcases endJob_cases s w job result with ⟨heq, -, -⟩ | ⟨heq, -⟩
  · rw [heq]
    unfold awaitWork
    split
    · exact accounted_ended h hw hjob rfl result
    · exact accounted_ended h hw hjob rfl result
  · rw [heq]
    exact accounted_ended h hw hjob rfl result

theorem accounted_execute {job : Nat} {attempt : Attempt}
    (hw : s.workers[w]? = some (.executing job attempt)) (now selectedAt : Int) :
    Accounted config (s.execute config w job attempt now selectedAt).account := by
  rcases execute_cases config s w job attempt now selectedAt with
    ⟨error, heq⟩ | ⟨name, -, -, heq⟩
  · rw [heq]
    exact accounted_endJob h hw rfl _
  rw [heq]
  have haccount := account_setPhase (s := s.reserved config attempt.tried selectedAt name) hw
    (rfl : (Phase.acquiring job { attempt with tried := attempt.tried ++ [name] } name).job =
      some job)
  show Accounted config ((s.reserved config attempt.tried selectedAt name).setPhase w _).account
  rw [haccount]
  exact h

theorem accounted_callEnds {job : Nat}
    (hw : s.workers[w]? = some phase) (hjob : phase.job = some job) (attempt : Attempt)
    (name : String) (acquired : Bool) (outcome : CallOutcome) (now : Int) :
    Accounted config (s.callEnds config w job attempt name acquired outcome now).account := by
  rcases callEnds_cases config s w job attempt name acquired outcome now with
    ⟨result, -, -, -, heq⟩ | ⟨attempt', -, -, -, heq⟩
  · rw [heq]
    exact accounted_endJob (s := s.left config w name acquired outcome now) h hw hjob result
  rw [heq]
  have haccount := account_setPhase (s := s.left config w name acquired outcome now) hw
    (hjob ▸ rfl : (Phase.executing job attempt').job = phase.job)
  show Accounted config ((s.left config w name acquired outcome now).setPhase w _).account
  rw [haccount]
  exact h

end

/-! ## Admission -/

theorem held_setWorkAvailable (s : Scheduler) : s.setWorkAvailable.held = s.held := by
  unfold setWorkAvailable
  split
  · rfl
  simp only [held, filterMap_map]
  apply filterMap_congr
  intro phase _
  simp only [Function.comp_apply]
  split
  · rename_i hwaiting
    rw [hwaiting]
    rfl
  · rfl

theorem account_setWorkAvailable (s : Scheduler) : s.setWorkAvailable.account = s.account := by
  have hheld := held_setWorkAvailable s
  simp only [account, hheld]
  unfold setWorkAvailable
  split
  · rfl
  · rfl

theorem account_cancel (s : Scheduler) (job : Nat) : (s.cancel job).account = s.account := by
  have hheld : (s.cancel job).held = s.held := by
    simp only [held, cancel, filterMap_map]
    apply filterMap_congr
    intro phase _
    simp only [Function.comp_apply]
    cases phase with
    | calling j attempt name requested =>
      dsimp only
      split
      · rfl
      · rfl
    | _ => rfl
  have hkeys : (s.cancel job).jobs.map Job.scopeKey = s.jobs.map Job.scopeKey :=
    map_scopeKey_modify s.jobs job fun _ => rfl
  simp only [account, hheld, hkeys]
  rfl

/-- Once the checks of capacity are passed, the queue that `put_nowait` is called on has room. -/
theorem hasRoom_of_capacity (h : Accounted config s.account)
    (hcapacity : s.acceptedCount < config.maxConcurrency + config.queueSize) :
    s.hasRoom config = true := by
  have hres : s.dispatchReserved = s.dispatchQueue.length := h.reserved
  have hactive : s.activeJobs = s.held.length := h.active
  have haccepted : s.acceptedCount = (s.dispatchQueue ++ s.queue ++ s.held).length := h.accepted
  simp only [length_append] at haccepted
  unfold hasRoom
  split
  · exact decide_eq_true (by omega)
  · -- the running slots are used up, so the backlog has fewer jobs than it may
    exact decide_eq_true (by omega)

/-- A job that is admitted is counted. -/
theorem accounted_enqueue (h : Accounted config s.account) (request : Request)
    (fingerprint : String) (now : Int)
    (hcapacity : s.acceptedCount < config.maxConcurrency + config.queueSize)
    (hlimit : (s.scopeStates request.scopeKey).inFlight < config.scopeMaxConcurrency) :
    Accounted config (s.enqueueAdmittedJob config request fingerprint now).account := by
  have hres : s.dispatchReserved = s.dispatchQueue.length := h.reserved
  have hkeys : s.account.scopeKeys.length = s.jobs.length := length_map _
  unfold enqueueAdmittedJob
  rw [account_setWorkAvailable]
  by_cases hreserves : s.activeJobs + s.dispatchReserved < config.maxConcurrency
  · refine h.admits ?_ h.active ?_ map_append rfl hcapacity ?_ hlimit
    · show (if _ then _ else _) = List.length (if _ then _ else _)
      rw [if_pos hreserves, if_pos hreserves, length_append, hres]
      rfl
    · simp only [Account.outstanding, hkeys]
      show ((if _ then _ else _) ++ (if _ then _ else _) ++ s.held).Perm
        (s.jobs.length :: (s.dispatchQueue ++ s.queue ++ s.held))
      rw [if_pos hreserves, if_pos hreserves, append_assoc, append_assoc, append_assoc]
      exact perm_middle
    · funext key
      simp only [account, Function.update_apply]
      split
      · rfl
      · rfl
  refine h.admits ?_ h.active ?_ map_append rfl hcapacity ?_ hlimit
  · show (if _ then _ else _) = List.length (if _ then _ else _)
    rw [if_neg hreserves, if_neg hreserves]
    exact hres
  · simp only [Account.outstanding, hkeys]
    show ((if _ then _ else _) ++ (if _ then _ else _) ++ s.held).Perm
      (s.jobs.length :: (s.dispatchQueue ++ s.queue ++ s.held))
    rw [if_neg hreserves, if_neg hreserves, ← append_assoc, append_assoc]
    exact perm_middle
  · funext key
    simp only [account, Function.update_apply]
    split
    · rfl
    · rfl

/-- Pruning the times of a scope keeps the account. -/
theorem account_pruneScope (s : Scheduler) (key : ScopeKey) (now : Int) :
    (s.pruneScope key now).account = s.account := by
  have hinFlight : (fun k => (Function.update s.scopeStates key
      ((s.scopeStates key).prune now) k).inFlight) = fun k => (s.scopeStates k).inFlight := by
    funext k
    rw [Function.update_apply]
    split
    · rename_i heq
      rw [heq]
      rfl
    · rfl
  simp only [account, pruneScope, hinFlight]
  rfl

/-- An admission keeps the account, and never finds the queue full. -/
theorem accounted_admitNew (h : Accounted config s.account) (request : Request)
    (fingerprint : String) (now : Int) :
    Accounted config (s.admitNew config request fingerprint now).2.account ∧
      (s.admitNew config request fingerprint now).1 ≠ .putNowaitFull := by
  unfold admitNew
  by_cases heligible : s.hasEligibleCandidate config now = true
  · rw [if_neg (by simp [heligible])]
    have h' : Accounted config (s.pruneScope request.scopeKey now).account := by
      rw [account_pruneScope]
      exact h
    generalize s.pruneScope request.scopeKey now = s' at h'
    by_cases hlimit : config.scopeMaxConcurrency ≤ (s'.scopeStates request.scopeKey).inFlight
    · rw [if_pos hlimit]
      exact ⟨h', by simp⟩
    rw [if_neg hlimit]
    split
    · exact ⟨h', by simp⟩
    split
    · exact ⟨h', by simp⟩
    rename_i hcapacity
    have hcapacity' := Nat.lt_of_not_le hcapacity
    rw [if_neg (by simp [hasRoom_of_capacity h' hcapacity'])]
    exact ⟨accounted_enqueue h' request fingerprint now hcapacity' (by omega), by simp⟩
  · rw [if_pos (by simpa using heligible)]
    exact ⟨h, by simp⟩

theorem accounted_admit (h : Accounted config s.account) (request : Request) (now : Int) :
    Accounted config ( s.admit config request now).2.account ∧
      ( s.admit config request now).1 ≠ .putNowaitFull := by
  unfold Scheduler.admit
  cases request.fingerprint with
  | none => exact ⟨h, by simp⟩
  | some fingerprint =>
    have hprune : Accounted config (s.pruneIdempotency now).account := h
    generalize s.pruneIdempotency now = s' at hprune
    dsimp only
    split
    · exact ⟨hprune, by simp⟩
    split
    · split
      · exact ⟨hprune, by simp⟩
      · exact ⟨hprune, by simp⟩
    · exact accounted_admitNew hprune request fingerprint now

/-! ## Runs -/

/-- The invariant of the accounts. -/
structure Kept (config : Config) (s : Scheduler) : Prop where
  accounted : Accounted config s.account
  staffed : Staffed config s

theorem account_start (h : Kept config s) : (s.start config).account = s.account := by
  unfold start
  split
  · rfl
  split
  · rfl
  rename_i hstarted _
  have hnone : s.workers = [] := by
    have hstaffed := h.staffed
    rw [Staffed, if_neg hstarted] at hstaffed
    exact length_eq_zero_iff.1 hstaffed
  have hheld : s.held = [] := by rw [held, hnone]; rfl
  have hcreated : (List.replicate config.maxConcurrency Phase.created).filterMap Phase.job =
      [] := by
    rw [filterMap_replicate]
    rfl
  simp only [account, hheld]
  simp only [held, hcreated]

theorem accounted_transcribe (h : Kept config s) (request : Request) (now : Int) :
    Accounted config (s.transcribe config request now).2.account ∧
      (s.transcribe config request now).1 ≠ .putNowaitFull := by
  unfold transcribe
  split
  · exact ⟨h.accounted, by simp⟩
  apply accounted_admit
  rw [account_start h]
  exact h.accounted

theorem accounted_resume (h : Accounted config s.account) (w : Nat) (now selectedAt : Int) :
    Accounted config (s.resume config w now selectedAt).account := by
  unfold resume
  split
  · rename_i hw
    exact accounted_nextJob h hw
  · rename_i job hw
    split
    · exact accounted_endJob h hw rfl .skipped
    · rw [account_setPhase hw (rfl : (Phase.executing job ⟨0, [], none⟩).job = some job)]
      exact h
  · rename_i hw
    exact accounted_execute h hw now selectedAt
  · exact h

theorem accounted_idleStep (h : Kept config s) (l : Label) :
    Accounted config (s.idleStep config l).account := by
  have hacc := h.accounted
  cases l with
  | start =>
    show Accounted config (s.start config).account
    rw [account_start h]
    exact hacc
  | transcribe request now => exact (accounted_transcribe h request now).1
  | cancel job =>
    show Accounted config (s.cancel job).account
    rw [account_cancel]
    exact hacc
  | wake w =>
    dsimp only [idleStep]
    split
    · rename_i hw
      rw [account_awaitWork hw rfl]
      exact hacc
    · rename_i hw
      have haccount : (s.setPhase w .next).account = s.account := account_setPhase hw rfl
      show Accounted config (s.setPhase w .next).account
      rw [haccount]
      exact hacc
    · exact hacc
  | resume now selectedAt => exact hacc
  | acquired w =>
    dsimp only [idleStep]
    split
    · rename_i job attempt name hw
      split
      · have haccount : ((s.setState name ProviderState.acquire).setPhase w
            (.calling job attempt name false)).account = s.account :=
          account_setPhase (s := s.setState name ProviderState.acquire) hw rfl
        rw [haccount]
        exact hacc
      · exact hacc
    · exact hacc
  | acquireTimeout w now =>
    dsimp only [idleStep]
    split
    · rename_i hw
      exact accounted_callEnds hacc hw rfl _ _ _ _ _
    · exact hacc
  | callEnds w outcome now =>
    dsimp only [idleStep]
    split
    · rename_i hw
      split
      · exact hacc
      · exact accounted_callEnds hacc hw rfl _ _ _ _ _
    · exact hacc

/-- A step keeps the accounts. -/
theorem kept_step (h : Kept config s) (l : Label) : Kept config (step config s l) := by
  refine ⟨?_, staffed_step h.staffed l⟩
  unfold step
  split
  · exact accounted_resume h.accounted _ _ _
  · exact h.accounted
  · exact accounted_idleStep h _

theorem kept_init (config : Config) : Kept config (.init config) := by
  refine ⟨⟨rfl, rfl, rfl, Nat.zero_le _, ?_, nodup_nil, fun _ => rfl, fun _ => Nat.zero_le _⟩, rfl⟩
  intro job hjob
  cases hjob

/-- In every state of a run, the counts are those of the outstanding jobs and within their
limits, and no admission finds the queue full that it puts the job in. -/
theorem capacity_accounted (config : Config) (trace : List Label) :
    Accounted config (run (step config) (.init config) trace).account ∧
      ∀ request now, ((run (step config) (.init config) trace).transcribe config request now).1 ≠
        .putNowaitFull := by
  have hstep : ∀ s l, Kept config s → Kept config (step config s l) := fun _ l h => kept_step h l
  have hkept : Kept config (run (step config) (.init config) trace) :=
    run_invariant hstep (kept_init config) trace
  refine ⟨hkept.accounted, ?_⟩
  intro request now
  exact (accounted_transcribe hkept request now).2

end Stt
