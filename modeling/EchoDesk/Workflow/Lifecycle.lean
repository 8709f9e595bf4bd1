import EchoDesk.Workflow.Steps
import Mathlib.Data.List.Chain

/-! # The life of a run

The row of a run, its whole history and the transition table fit together: the
history starts with the creation in state `pending`, its states follow the
table, its last state is that of the row, and the row is finished exactly when
the state is terminal. From then on only the output may change.

Each entry of a journal keeps this of its run and leaves every other run alone
(`lives_effect`), so every step of the service does.
-/

namespace Workflow

open EchoDesk Transition OrderedLog Outbox List Entry

variable {δ : Type}
variable {new old row : RunRow}
variable {kind : ChangeKind} {event : EventRow}

/-- The states of two consecutive events. The one step the table does not have
is that of an `inlined` event, which completes a run in the transaction that
created it. -/
def Follows (inlined : EventRow → Prop) (a b : EventRow) : Prop :=
  b.state = a.state ∨ b.state ∈ a.state.legalTransitions ∨
    (a.state = .pending ∧ b.state = .succeeded ∧ inlined b)

/-- A row and the history it has. -/
structure Life (inlined : EventRow → Prop) (row : RunRow) (history : List EventRow) : Prop where
  numbered : Dense (fun event : EventRow => event.seq) history
  created : ∃ first rest, history = first :: rest ∧ first.eventType = "workflow.created" ∧
    first.state = .pending
  legal : history.IsChain (Follows inlined)
  last : ∃ event, history.getLast? = some event ∧ event.state = row.state
  finished : row.finishedAt ≠ none ↔ row.state.isTerminal = true

/-- Every stored run has lived so, and every event belongs to a stored run. -/
structure Lives (inlined : EventRow → Prop) (db : Db δ) : Prop where
  life : ∀ row ∈ db.runs, Life inlined row (db.history row.key)
  owned : ∀ event ∈ db.events, ∃ row ∈ db.runs, row.key = event.key

/-- The columns a terminal run keeps: all but its output, its revision and the
time of its last update. -/
def Settled (old new : RunRow) : Prop :=
  new = { old with output := new.output, updatedAt := new.updatedAt, revision := new.revision }

/-! ## One entry -/

variable {inlined : EventRow → Prop} {db db' : Db δ} {e : Entry} {es : List Entry}

/-- The first event of a new run. -/
theorem Life.of_created (hrow : NewRun row) (hseq : event.seq = 1)
    (hstate : event.state = row.state) (htype : event.eventType = "workflow.created") :
    Life inlined row [event] where
  numbered := by simp [OrderedLog.Dense, hseq]
  created := ⟨event, [], rfl, htype, hstate.trans hrow.state⟩
  legal := .singleton event
  last := ⟨event, rfl, hstate⟩
  finished := by simp [hrow.finished, hrow.state]; rfl

/-- An event continues a life when its state follows that of the old row. -/
theorem Life.concat {history : List EventRow} (h : Life inlined old history)
    (hseq : event.seq = maxPos (fun event : EventRow => event.seq) history + 1)
    (hstate : event.state = new.state)
    (hfollows : ∀ last : EventRow, last.state = old.state → Follows inlined last event)
    (hfinished : new.finishedAt ≠ none ↔ new.state.isTerminal = true) :
    Life inlined new (history ++ [event]) where
  numbered := h.numbered.concat hseq
  created := by
    rcases h.created with ⟨first, rest, rfl, hfirst⟩
    exact ⟨first, rest ++ [event], rfl, hfirst⟩
  legal := by
    refine isChain_append.2 ⟨h.legal, .singleton event, fun a ha b hb => ?_⟩
    rcases h.last with ⟨last, hlast, hls⟩
    rw [hlast] at ha
    cases ha
    cases hb
    exact hfollows _ hls
  last := ⟨event, getLast?_concat, hstate⟩
  finished := hfinished

/-- What a change does to the state follows the table, apart from an inline
completion. -/
theorem Change.follows (h : Change kind old new) {a b : EventRow}
    (hinline : kind = .inline → inlined b) (ha : a.state = old.state) (hb : b.state = new.state) :
    Follows inlined a b := by
  unfold Follows
  rw [ha, hb]
  have hallows := h.allows
  cases kind with
  | output => exact .inl hallows.1
  | transition => exact .inr (.inl hallows.1)
  | inline => exact .inr (.inr ⟨hallows.1, hallows.2.1, hinline rfl⟩)

theorem Change.finished (h : Change kind old new)
    (hold : old.finishedAt ≠ none ↔ old.state.isTerminal = true) :
    new.finishedAt ≠ none ↔ new.state.isTerminal = true := by
  have hallows := h.allows
  cases kind with
  | output => rw [hallows.1, hallows.2.2.2.1, hold]
  | transition =>
    rcases hallows with ⟨hlegal, hterminal, hactive⟩
    have hopen := WorkflowState.not_terminal_of_legal hlegal
    cases ht : new.state.isTerminal with
    | true => simpa using hterminal ht
    | false => simpa [hactive ht, hopen] using hold
  | inline =>
    rcases hallows with ⟨_, hstate, hfin⟩
    rw [hstate]
    exact ⟨fun _ => rfl, fun _ => hfin⟩

/-- An entry keeps the lives of all runs. -/
theorem lives_effect (h : Effect db e db')
    (hinline : ∀ old, e.report = .changed .inline old → inlined e.event) (hi : Lives inlined db) :
    Lives inlined db' := by
  have hseq := h.fits.seq
  have hstate := h.fits.state
  constructor
  · intro row hrow
    rw [h.history]
    rcases h.mem_runs.1 hrow with rfl | ⟨hmem, hne⟩
    swap
    · -- another run
      rw [if_neg (Ne.symm hne), append_nil]
      exact hi.life row hmem
    rw [if_pos rfl]
    cases hreport : e.report with
    | created =>
      rcases h.of_created hreport with ⟨hnew, hfresh⟩
      have hempty : db.history e.run.key = [] := by
        refine filter_eq_nil_iff.2 fun event hev hk => ?_
        rcases hi.owned event hev with ⟨r, hr, hrk⟩
        exact hfresh r hr (hrk.trans (of_decide_eq_true hk))
      have htype : e.event.eventType = "workflow.created" := by
        have := h.fits.named
        rwa [hreport] at this
      rw [hempty, nil_append]
      refine .of_created hnew ?_ hstate htype
      rw [hseq, Db.nextSeq, hempty]
      rfl
    | changed kind old =>
      rcases h.of_changed hreport with ⟨hstored, hchange⟩
      have hold := hi.life old hstored
      rw [← hchange.key] at hold
      exact hold.concat hseq hstate
        (fun last hlast => hchange.follows (fun hk => hinline old (hk ▸ hreport)) hlast hstate)
        (hchange.finished hold.finished)
    | noted =>
      have hold := hi.life _ (h.of_noted hreport)
      exact hold.concat hseq hstate (fun last hlast => .inl (hstate.trans hlast.symm)) hold.finished
  · intro event hev
    rcases h.mem_events.1 hev with hev | rfl
    · rcases hi.owned event hev with ⟨row, hrow, hk⟩
      by_cases hrk : row.key = e.run.key
      · exact ⟨e.run, h.mem_runs.2 (.inl rfl), hrk.symm.trans hk⟩
      · exact ⟨row, h.mem_runs.2 (.inr ⟨hrow, hrk⟩), hk⟩
    · exact ⟨e.run, h.mem_runs.2 (.inl rfl), h.fits.key.symm⟩

/-! ## Journals and steps -/

/-- Nothing but the runs and their events is spoken of. -/
theorem Lives.congr (hi : Lives inlined db) (hruns : db'.runs = db.runs)
    (hevents : db'.events = db.events) : Lives inlined db' := by
  have hhistory : ∀ key, db'.history key = db.history key := fun key => by
    rw [Db.history, hevents, Db.history]
  constructor
  · intro row hrow
    rw [hhistory]
    exact hi.life row (hruns ▸ hrow)
  · intro event hev
    rw [hruns]
    exact hi.owned event (hevents ▸ hev)

theorem Lives.mono {inlined' : EventRow → Prop} (h : ∀ event, inlined event → inlined' event)
    (hi : Lives inlined db) :
    Lives inlined' db where
  life row hrow :=
    let life := hi.life row hrow
    { life with
      legal := life.legal.imp fun _ _ hf =>
        hf.imp id (Or.imp id fun hin => ⟨hin.1, hin.2.1, h _ hin.2.2⟩) }
  owned := hi.owned

theorem lives_journal (h : Journal db es db')
    (hinline : ∀ e ∈ es, ∀ old, e.report = .changed .inline old → inlined e.event)
    (hi : Lives inlined db) : Lives inlined db' := by
  induction h with
  | nil => exact hi
  | entry effect _ ih =>
    exact ih (fun e he => hinline e (mem_cons_of_mem _ he))
      (lives_effect effect (hinline _ mem_cons_self) hi)
  | domain effect _ ih => exact ih hinline (hi.congr effect.runs effect.events)

/-- Only `complete_new_run_atomic` completes a run inline. -/
theorem inline_of_makes {s : Sys δ} {l : Lbl δ} (h : l.Makes s e)
    (hreport : e.report = .changed .inline old) :
    ∃ ctx body newRunId output domainWriter domainEvents message,
      l = .op ctx (.completeNewRunAtomic body newRunId output domainWriter domainEvents
        message) := by
  cases l with
  | op ctx operation =>
    cases operation <;> simp_all [Lbl.Makes, Op.Makes, Changes, Creates, Notes]
  | advance id => simp_all [Lbl.Makes, Creates]
  | _ => exact h.elim

variable (s : Sys δ) (l : Lbl δ)

theorem inlined_subset [DomainTables δ] : ∀ event ∈ s.inlined, event ∈ (step s l).inlined := by
  intro event hev
  cases l with
  | advance id =>
    simp only [step]
    split
    · exact hev
    · simpa using hev
  | op ctx operation => exact mem_append_left _ hev
  | claimRunForExecution ctx runId holderId ttlSeconds | outbox table =>
    simp only [step]
    split <;> exact hev
  | _ => exact hev

/-- Every step keeps the lives of all runs. -/
theorem lives_step [DomainTables δ] (s : Sys δ) (l : Lbl δ) (hi : Lives (· ∈ s.inlined) s.db) :
    Lives (· ∈ (step s l).inlined) (step s l).db := by
  have hi' := hi.mono (inlined_subset s l)
  cases step_cases s l with
  | same h => rw [h]; exact hi'
  | leases h => rw [h.rest]; exact hi'.congr rfl rfl
  | outbox table h => rw [h]; exact hi'.congr rfl rfl
  | journal es h entries =>
    refine lives_journal h (fun e he old hreport => ?_) hi'
    rcases inline_of_makes (entries e he) hreport with
      ⟨ctx, body, newRunId, output, domainWriter, domainEvents, message, rfl⟩
    have hrows := h.events_eq
    simp only [step] at hrows ⊢
    rw [hrows, drop_left]
    exact mem_append_right _ (mem_map_of_mem he)

theorem lives_start (domain : δ) (inlined : EventRow → Prop) : Lives inlined (Db.empty domain) where
  life row h := absurd h (Table.not_mem_empty row)
  owned event h := absurd h (Table.not_mem_empty event)

/-! ## Terminal runs -/

theorem Settled.refl (row : RunRow) : Settled row row := rfl

theorem Settled.trans {a b c : RunRow} (hab : Settled a b) (hbc : Settled b c) : Settled a c := by
  rw [Settled, hbc, hab]

theorem Settled.state (h : Settled old new) : new.state = old.state := by
  rw [h]

/-- A change of a terminal run is one of its output. -/
theorem Change.of_terminal (h : Change kind old new) (hterminal : old.state.isTerminal = true) :
    kind = .output ∧ Settled old new := by
  have hallows := h.allows
  cases kind with
  | output =>
    refine ⟨rfl, ?_⟩
    rcases hallows with ⟨hstate, herror, hstarted, hfinished, hcancel⟩
    rw [Settled, h.identity]
    simp [hstate, herror, hstarted, hfinished, hcancel]
  | transition => simp [WorkflowState.not_terminal_of_legal hallows.1] at hterminal
  | inline =>
    rw [hallows.1] at hterminal
    cases hterminal

section

variable (hrow : row ∈ db.runs) (hterminal : row.state.isTerminal = true)

include hrow hterminal

/-- An entry about a terminal run reports a change of its output, or none. -/
theorem Effect.of_terminal (h : Effect db e db') (hkey : row.key = e.run.key) :
    (e.report = .changed .output row ∧ Settled row e.run) ∨ e.run = row := by
  have hprior := h.runs.mem_prior.1 ⟨hrow, hkey⟩
  cases hreport : e.report with
  | created =>
    rw [hreport] at hprior
    cases hprior
  | changed kind old =>
    rw [hreport] at hprior
    cases hprior
    rcases (h.of_changed hreport).2.of_terminal hterminal with ⟨rfl, hsettled⟩
    exact .inl ⟨rfl, hsettled⟩
  | noted =>
    rw [hreport] at hprior
    exact .inr (Option.some.inj hprior)

theorem settled_journal (h : Journal db es db') : ∃ row' ∈ db'.runs, Settled row row' := by
  induction h generalizing row with
  | nil => exact ⟨row, hrow, .refl row⟩
  | domain effect _ ih => exact ih (effect.runs ▸ hrow) hterminal
  | @entry _ _ _ e _ effect _ ih =>
    by_cases hkey : row.key = e.run.key
    · have hsettled : Settled row e.run := by
        rcases effect.of_terminal hrow hterminal hkey with ⟨_, h⟩ | h
        · exact h
        · rw [h]
          exact .refl row
      rcases ih (effect.mem_runs.2 (.inl rfl)) (hsettled.state ▸ hterminal) with ⟨row', hr, hs⟩
      exact ⟨row', hr, hsettled.trans hs⟩
    · exact ih (effect.mem_runs.2 (.inr ⟨hrow, hkey⟩)) hterminal

/-- A terminal run stays as it is unless an entry changes its output. -/
theorem journal_keeps (h : Journal db es db')
    (hes : ∀ e ∈ es, e.run.key = row.key → ∀ old, e.report = .changed .output old →
      e.run.state.isTerminal = false) : row ∈ db'.runs := by
  induction h with
  | nil => exact hrow
  | domain effect _ ih => exact ih (effect.runs ▸ hrow) hes
  | @entry _ _ _ e _ effect _ ih =>
    refine ih ?_ fun e he => hes e (mem_cons_of_mem _ he)
    refine effect.mem_runs.2 ?_
    by_cases hkey : row.key = e.run.key
    · left
      rcases effect.of_terminal hrow hterminal hkey with ⟨hreport, hsettled⟩ | h
      · have := hes e mem_cons_self hkey.symm row hreport
        rw [hsettled.state, hterminal] at this
        cases this
      · exact h.symm
    · exact .inr ⟨hrow, hkey⟩

end

/-- The steps that may merge output into the run `key`. -/
def Lbl.MergesOutput (key : RunKey) : Lbl δ → Prop
  | .op ctx (.mergeOutput runId _ _ _ _ _) => key = ⟨ctx.scope, runId⟩
  | .op ctx (.mergeAgentOutputOnce _ runId _ _ _ _ _) => key = ⟨ctx.scope, runId⟩
  | _ => False

theorem output_of_makes {s : Sys δ} {l : Lbl δ} (h : l.Makes s e)
    (hreport : e.report = .changed .output old) :
    l.MergesOutput e.run.key ∨ e.run.state.isTerminal = false := by
  cases l with
  | op ctx operation =>
    cases operation <;> simp_all [Lbl.Makes, Op.Makes, Lbl.MergesOutput, Changes, Creates, Notes,
        WorkflowRunRecord.isTerminal]
  | advance id => simp_all [Lbl.Makes, Creates]
  | _ => exact h.elim

/-- A terminal run is changed by a merge of output and by nothing else. -/
theorem terminal_step [DomainTables δ] (hrow : row ∈ s.db.runs)
    (hterminal : row.state.isTerminal = true) :
    row ∈ (step s l).db.runs ∨ l.MergesOutput row.key := by
  by_cases hm : l.MergesOutput row.key
  · exact .inr hm
  left
  cases step_cases s l with
  | same h => rwa [h]
  | leases h => rwa [h.rest]
  | outbox table h => rwa [h]
  | journal es h entries =>
    refine journal_keeps hrow hterminal h fun e he hkey old hreport => ?_
    exact (output_of_makes (entries e he) hreport).resolve_left (hkey ▸ hm)

theorem settled_step [DomainTables δ] (hrow : row ∈ s.db.runs)
    (hterminal : row.state.isTerminal = true) : ∃ row' ∈ (step s l).db.runs, Settled row row' := by
  cases step_cases s l with
  | same h => exact ⟨row, h ▸ hrow, .refl row⟩
  | leases h => exact ⟨row, by rwa [h.rest], .refl row⟩
  | outbox table h => exact ⟨row, by rwa [h], .refl row⟩
  | journal es h entries => exact settled_journal hrow hterminal h

/-- What is terminal at the start of a run of the service is settled at its end. -/
theorem settled_run [DomainTables δ] (trace : List (Lbl δ)) (hrow : row ∈ s.db.runs)
    (hterminal : row.state.isTerminal = true) :
    ∃ row' ∈ (run step s trace).db.runs, Settled row row' := by
  refine @run_invariant _ _ step (fun t => ∃ row' ∈ t.db.runs, Settled row row') ?_ s
    ⟨row, hrow, .refl row⟩ trace
  rintro t l ⟨row₁, h₁, hs₁⟩
  rcases settled_step t l h₁ (hs₁.state ▸ hterminal) with ⟨row₂, h₂, hs₂⟩
  exact ⟨row₂, h₂, hs₁.trans hs₂⟩

/-! ## The life of every run of the service -/

/-- Along every run of the service, every stored run has a life by the
transition table, and a terminal run keeps all but its output, which only a
merge changes. -/
theorem runs_live [DomainTables δ] (domain : δ) (trace : List (Lbl δ)) :
    let s := run step (Sys.start domain) trace
    (∀ row ∈ s.db.runs, Life (· ∈ s.inlined) row (s.db.history row.key)) ∧
      (∀ event ∈ s.db.events, ∃ row ∈ s.db.runs, row.key = event.key) ∧
      ∀ row ∈ s.db.runs, row.state.isTerminal = true →
        (∀ more, ∃ row' ∈ (run step s more).db.runs, Settled row row') ∧
        ∀ l, row ∈ (step s l).db.runs ∨ l.MergesOutput row.key := by
  intro s
  have hlives : Lives (· ∈ s.inlined) s.db :=
    @run_invariant _ _ step (fun s : Sys δ => Lives (· ∈ s.inlined) s.db) lives_step _
      (lives_start domain _) trace
  exact ⟨hlives.life, hlives.owned, fun row hrow hterminal =>
    ⟨fun more => settled_run s more hrow hterminal, fun l => terminal_step s l hrow hterminal⟩⟩

end Workflow
