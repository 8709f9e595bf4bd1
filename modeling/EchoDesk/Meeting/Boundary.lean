import EchoDesk.Meeting.Steps

/-! # The formal boundary

`manual_start` closes an automatic meeting before it opens a formal one. It looks for one
before it has the lock, and gives back whatever is current when it has it.
-/

namespace Meeting

open EchoDesk Transition Option

variable {s s' : System} {t : Nat} {o : Outcome} {a : CurrentMeeting}
variable {trace : List Label}

/-! ## What becomes of a meeting that was current -/

/-- The meeting has ended, or is the active one and no other is current. -/
def Left (s : System) (a : CurrentMeeting) : Prop :=
  HasEnded s.rows a.meetingId ∨ (∃ row, active? s.rows = some row ∧ row.current = a) ∧
      (s.current = none ∨ s.current = some a)

theorem Left.endRow (h : Left s a) (id : String) (hrows : s'.rows = endRow s.rows id)
    (hcurrent : s'.current = s.current) : Left s' a := by
  rcases h with hended | ⟨⟨row, hrow, heq⟩, hleft⟩
  · left
    rw [hrows]
    exact hended.endRow id
  by_cases hid : row.id = id
  · left
    rw [hrows, ← heq, ← hid]
    exact hasEnded_endRow (by rw [get?_of_active? hrow]; rfl)
  · right
    rw [hrows, hcurrent]
    exact ⟨⟨row, active?_endRow_of_ne hrow hid, heq⟩, hleft⟩

theorem Left.create (h : Left s a) {id : String} {title : Option String} {autoStarted : Bool}
    {record : MeetingRow}
    (hcreate : createMeeting s.rows id title autoStarted = some (s'.rows, record))
    (hcurrent : s'.current = s.current) : Left s' a := by
  rcases h with hended | ⟨⟨row, hrow, heq⟩, hleft⟩
  · exact .inl (hended.create hcreate)
  right
  rcases (createMeeting_cases hcreate).2 with hsame | ⟨hnone, -, -⟩
  · rw [hsame, hcurrent]
    exact ⟨⟨row, hrow, heq⟩, hleft⟩
  · rw [hnone] at hrow
    cases hrow

theorem Left.congr (h : Left s a) (hrows : s'.rows = s.rows)
    (hcurrent : s'.current = s.current ∨ s'.current = none) : Left s' a := by
  rcases h with hended | ⟨hactive, hleft⟩
  · left
    rw [hrows]
    exact hended
  right
  rw [hrows]
  refine ⟨hactive, ?_⟩
  rcases hcurrent with hsame | hnone
  · rw [hsame]
    exact hleft
  · exact .inl hnone

/-- The meeting that starts is the active one. -/
theorem Left.start (h : Left s a) {s' : System} {record : MeetingRow}
    (hactive : active? s.rows = some record) (hrows : s'.rows = s.rows)
    (hcurrent : s'.current = some record.current) : Left s' a := by
  rcases h with hended | ⟨⟨row, hrow, heq⟩, -⟩
  · left
    rw [hrows]
    exact hended
  right
  rw [hrows, hcurrent]
  rw [hactive] at hrow
  injection hrow with hrow
  rw [hrow, heq]
  exact ⟨⟨row, by rw [hactive, hrow], heq⟩, .inr rfl⟩

theorem Move.left (h : Move s t o s') (hs : Guarded s) (ha : Left s a) : Left s' a := by
  have hrelies := hs.relies t
  cases h with
  | waits | takeEnd | takeStart | lowTake => exact ha.congr rfl (.inl rfl)
  | clearFinalized | clear => exact ha.congr rfl (.inr rfl)
  | lowClearFinalized | lowClear => exact ha.congr rfl (current_clearMatching ..)
  | commit | lowCommit => exact ha.endRow _ rfl rfl
  | updateFails _ _ happened | lowUpdateFails _ _ _ happened =>
    cases happened with
    | true => exact ha.endRow _ rfl rfl
    | false => exact ha.congr rfl (.inl rfl)
  | schedule => exact ha.congr (rows_publishIf ..) (.inl (current_publishIf ..))
  | create c rows record hpc hcreate => exact ha.create hcreate rfl
  | createFails c rows hpc hrows =>
    rcases hrows with hsame | ⟨record, hcreate⟩
    · exact ha.congr hsame (.inl rfl)
    · exact ha.create hcreate rfl
  | startManual title mid record hpc | startAuto mid reason record hpc =>
    rw [hpc] at hrelies
    exact ha.start hrelies.2.1 rfl rfl
  | _ =>
    exact ha.congr (rows_publishIf ..) (.inl (current_publishIf ..))

/-- The current meeting is the active one, or its row has ended. -/
def Known (s : System) : Prop := ∀ current, s.current = some current → Left s current

theorem known_hydrated (rows : Rows) : Known (System.hydrated rows) := by
  intro current hcurrent
  rw [System.hydrated, map_eq_some_iff] at hcurrent
  obtain ⟨row, hrow, heq⟩ := hcurrent
  refine .inr ⟨⟨row, hrow, heq⟩, .inr ?_⟩
  rw [System.hydrated, hrow, map_some, heq]

/-- A move that sets the current meeting sets it to the active one. -/
theorem Move.current (h : Move s t o s') (hs : Guarded s) :
    s'.current = s.current ∨ s'.current = none ∨
      ∃ record, active? s'.rows = some record ∧ s'.current = some record.current := by
  have hrelies := hs.relies t
  cases h with
  | waits | takeEnd | takeStart | commit | create | createFails | lowTake | lowCommit =>
    exact .inl rfl
  | clearFinalized | clear => exact .inr (.inl rfl)
  | lowClearFinalized | lowClear => exact (current_clearMatching ..).imp_right .inl
  | updateFails _ _ happened | lowUpdateFails _ _ _ happened =>
    cases happened with
    | true | false => exact .inl rfl
  | startManual title mid record hpc | startAuto mid reason record hpc =>
    rw [hpc] at hrelies
    exact .inr (.inr ⟨record, hrelies.2.1, rfl⟩)
  | _ =>
    exact .inl (current_publishIf ..)

theorem Move.known (h : Move s t o s') (hs : Guarded s) (hknown : Known s) : Known s' := by
  intro current hcurrent
  rcases h.current hs with hsame | hnone | ⟨record, hactive, hset⟩
  · rw [hsame] at hcurrent
    exact h.left hs (hknown current hcurrent)
  · rw [hnone] at hcurrent
    cases hcurrent
  · rw [hset] at hcurrent
    injection hcurrent with heq
    exact .inr ⟨⟨record, hactive, heq⟩, .inr (by rw [hset, heq])⟩

/-! ## Manual starts -/

/-- What a manual start finds: with the lock no automatic current meeting, and in
`create_meeting` no automatic active row. -/
def Pc.Undisturbed (s : System) : Pc → Prop
  | .lockStart (.manual _ _) => s.lock = none → ∀ current ∈ s.current, current.startedBy = .manual
  | .creating (.manual _ _) => ∀ row ∈ active? s.rows, row.autoStarted = false
  | _ => True

instance (s : System) : (pc : Pc) → Decidable (pc.Undisturbed s)
  | .lockStart (.manual _ _) =>
    inferInstanceAs (Decidable (_ → ∀ _ ∈ _, _ = _))
  | .creating (.manual _ _) =>
    inferInstanceAs (Decidable (∀ _ ∈ _, _ = _))
  | .lockStart (.auto _ _) | .creating (.auto _ _) | .idle | .manualStart _ _ | .manualEnd
  | .resolving _ | .lockEnd _ _ | .updating _ _ | .publishEnded _ _ | .notifyAuto _ _
  | .notify _ _ | .lowLock _ _ | .lowUpdating _ _ _ | .lowPublishEnded _ _ _ | .lowNotify _ _
  | .publishStarted _ _ | .detected _ _ | .announce _ _ | .returned _
  | .failed => .isTrue trivial

def Undisturbed (s : System) (a : Label) : Prop := (s.tasks a.task).Undisturbed s

instance (s : System) (a : Label) : Decidable (Undisturbed s a) :=
  inferInstanceAs (Decidable ((s.tasks a.task).Undisturbed s))

/-- What a manual start has in hand is not automatic. -/
def Pc.Formal : Pc → Prop
  | .publishStarted (.manual _ _) record => record.autoStarted = false
  | .announce (.manual _ _) current => current.startedBy = .manual
  | _ => True

theorem formal_of_waits {pc : Pc} (h : pc.waits = true) : pc.Formal := by
  cases pc with
  | idle | manualStart | manualEnd | resolving | lockEnd | lowLock | lockStart | returned
  | failed => trivial
  | _ => cases h

theorem Move.formal (h : Move s t o s') (hfree : (s.tasks t).Undisturbed s)
    (hs : (s.tasks t).Formal) : (s'.tasks t).Formal := by
  cases h with
  | waits pc hfrom hto =>
    rw [tasks_goto, if_pos rfl]
    exact formal_of_waits hto
  | clearFinalized | clear =>
    rw [System.clear, tasks_goto, if_pos rfl]
    split
    · trivial
    · trivial
  | lowClearFinalized | lowClear =>
    rw [System.clearMatching, tasks_goto, if_pos rfl]
    split
    · trivial
    · trivial
  | schedule e =>
    rw [tasks_goto, if_pos rfl]
    exact formal_of_waits (waits_afterEnd e)
  | create c rows record hpc hcreate =>
    rw [tasks_goto, if_pos rfl]
    cases c with
    | auto => trivial
    | manual title mid =>
      -- the row that comes back was active already, or is the one that was added
      rw [hpc] at hfree
      obtain ⟨hactive, hsame | ⟨hnone, -, hput⟩⟩ := createMeeting_cases hcreate
      · rw [hsame] at hactive
        exact hfree record hactive
      have hmem : record ∈ s.rows.put ⟨mid, title, .inMeeting, false⟩ := by
        have hput : rows = s.rows.put ⟨mid, title, .inMeeting, false⟩ := hput
        rw [← hput]
        exact List.mem_of_find?_eq_some hactive
      rw [Keyed.mem_put] at hmem
      rcases hmem with rfl | ⟨hmem, -⟩
      · rfl
      have hinactive := List.find?_eq_none.1 hnone record hmem
      rw [active?_state hactive] at hinactive
      exact absurd rfl hinactive
  | startManual title mid record hpc =>
    rw [hpc] at hs
    rw [tasks_goto, if_pos rfl]
    have hmanual : record.autoStarted = false := hs
    rw [MeetingRow.current, hmanual]
    rfl
  | startAuto | notifyAuto | detected | announceAuto | announceManual | lowNotify =>
    rw [tasks_goto, if_pos rfl]
    split
    · trivial
    · trivial
  | _ =>
    rw [tasks_goto, if_pos rfl]
    trivial

/-- What holds along a run of undisturbed manual starts. -/
structure Bounded (s : System) : Prop where
  guarded : Guarded s
  known : Known s
  formal : ∀ t, (s.tasks t).Formal

theorem bounded_step (s : System) (l : Label) (hl : Undisturbed s l) (hs : Bounded s) :
    Bounded (step s l) := by
  refine step_keeps hs ?_
  intro h
  refine ⟨h.guarded hs.guarded, h.known hs.guarded hs.known, ?_⟩
  intro u
  by_cases hu : u = l.task
  · rw [hu]
    exact h.formal hl (hs.formal l.task)
  · rw [h.tasks hu]
    exact hs.formal u

theorem bounded_run {rows : Rows} (h : Meets step Undisturbed (System.hydrated rows) trace) :
    Bounded (run step (System.hydrated rows) trace) :=
  run_invariant_of_meets bounded_step h
    ⟨guarded_hydrated rows, known_hydrated rows, fun _ => trivial⟩

/-- A meeting that was current once has ended, or is the active one and no other is current. -/
theorem left_run (hs : Bounded s) (ha : Left s a) (h : Meets step Undisturbed s trace) :
    Left (run step s trace) a := by
  have hstep : ∀ s l, Undisturbed s l → Bounded s ∧ Left s a →
      Bounded (step s l) ∧ Left (step s l) a := by
    rintro s l hl ⟨hs, ha⟩
    refine ⟨bounded_step s l hl hs, ?_⟩
    exact step_keeps (P := fun s => Left s a) ha fun h => h.left hs.guarded ha
  exact (run_invariant_of_meets hstep h ⟨hs, ha⟩).2

/-- The meeting that a manual start gives back is a manual one, and current. -/
theorem Move.returns (h : Move s t o s') (hs : Bounded s) (hfree : (s.tasks t).Undisturbed s)
    {m : CurrentMeeting} (hreturn : s'.tasks t = .returned (.started (some m))) :
    m.startedBy = .manual ∧ s'.current = some m := by
  have hrelies := hs.guarded.relies t
  have hformal := hs.formal t
  cases h with
  | waits pc hfrom hto hstarted =>
    rw [tasks_goto, if_pos rfl] at hreturn
    obtain ⟨hlock, hcurrent, title, mid, hpc⟩ := hstarted _ hreturn
    rw [hpc] at hfree
    exact ⟨hfree hlock m hcurrent, hcurrent⟩
  | clearFinalized | clear =>
    rw [System.clear, tasks_goto, if_pos rfl] at hreturn
    split at hreturn
    · cases hreturn
    · cases hreturn
  | lowClearFinalized | lowClear =>
    rw [System.clearMatching, tasks_goto, if_pos rfl] at hreturn
    split at hreturn
    · cases hreturn
    · cases hreturn
  | schedule e =>
    rw [tasks_goto, if_pos rfl] at hreturn
    exact absurd hreturn (afterEnd_ne_started e _)
  | startAuto | notifyAuto | detected | announceAuto | lowNotify =>
    rw [tasks_goto, if_pos rfl] at hreturn
    split at hreturn
    · cases hreturn
    · cases hreturn
  | announceManual title mid current hpc =>
    rw [hpc] at hrelies hformal
    rw [tasks_goto, if_pos rfl] at hreturn
    split at hreturn
    · cases hreturn
    injection hreturn with hreturn
    injection hreturn with hreturn
    have heq : current = m := some.inj (hrelies.symm.trans hreturn)
    rw [← heq]
    exact ⟨hformal, (current_publishIf ..).trans hrelies⟩
  | _ =>
    rw [tasks_goto, if_pos rfl] at hreturn
    cases hreturn

/-- Of a meeting that a manual start gives back: it is a manual one, it is current when the
lock is released, and every automatic meeting that was current before has ended. -/
theorem manualStart_manual (rows : Rows) (before during : List Label) (t : Nat) (o : Outcome)
    (m : CurrentMeeting)
    (hmeets : Meets step Undisturbed (System.hydrated rows) (before ++ during ++ [.advance t o]))
    (hcalled : (run step (System.hydrated rows) (before ++ during)).tasks t ≠
      .returned (.started (some m)))
    (hreturn : (run step (System.hydrated rows) (before ++ during ++ [.advance t o])).tasks t =
      .returned (.started (some m))) :
    m.startedBy = .manual ∧
      (run step (System.hydrated rows) (before ++ during ++ [.advance t o])).current = some m ∧
      ∀ a : CurrentMeeting, (run step (System.hydrated rows) before).current = some a →
        a.startedBy = .auto →
        HasEnded (run step (System.hydrated rows) (before ++ during ++ [.advance t o])).rows
          a.meetingId := by
  have hbefore := ((meets_append _ _ _).1 ((meets_append _ _ _).1 hmeets).1).1
  have hrest : Meets step Undisturbed (run step (System.hydrated rows) before)
      (during ++ [.advance t o]) := by
    rw [List.append_assoc, meets_append] at hmeets
    exact hmeets.2
  have hlast := ((meets_append _ _ _).1 hmeets).2.1
  have hstart := bounded_run hbefore
  have hs := bounded_run ((meets_append _ _ _).1 hmeets).1
  have hmanual : m.startedBy = .manual ∧
      (run step (System.hydrated rows) (before ++ during ++ [.advance t o])).current = some m := by
    rw [run_snoc] at hreturn ⊢
    rcases step_move (run step (System.hydrated rows) (before ++ during)) (.advance t o) with
      hsame | hmove
    · rw [hsame] at hreturn
      exact absurd hreturn hcalled
    · exact hmove.returns hs hlast hreturn
  refine ⟨hmanual.1, hmanual.2, ?_⟩
  intro a ha hauto
  have hleft := left_run hstart (hstart.known a ha) hrest
  rw [← run_append, ← List.append_assoc] at hleft
  rcases hleft with hended | ⟨-, hnone | hcurrent⟩
  · exact hended
  · rw [hmanual.2] at hnone
    cases hnone
  -- the automatic meeting would be the one that is given back
  rw [hmanual.2] at hcurrent
  injection hcurrent with heq
  rw [← heq, hmanual.1] at hauto
  cases hauto

/-- The detector starts a meeting. -/
def opened : List Label := .call 0 (.autoStart "auto-1" "speech") :: List.replicate 5 (.advance 0 .ok)

/-- The user starts a formal one then. -/
def taken : List Label := .call 1 (.manualStart none "m-1") :: List.replicate 10 (.advance 1 .ok)

theorem manualStart_manual_taken : StartReason.manual = .manual ∧
      (run step (System.hydrated Keyed.empty) (opened ++ taken ++ [.advance 1 .ok])).current =
        some ⟨"m-1", .manual⟩ ∧
      ∀ a : CurrentMeeting, (run step (System.hydrated Keyed.empty) opened).current = some a →
        a.startedBy = .auto →
        HasEnded (run step (System.hydrated Keyed.empty) (opened ++ taken ++ [.advance 1 .ok])).rows
          a.meetingId :=
  manualStart_manual Keyed.empty opened taken 1 .ok ⟨"m-1", .manual⟩ (by decide +kernel)
    (by decide +kernel) (by decide +kernel)

/-- The user starts a meeting when none is current; before it has the lock the detector starts
one, and the user is given that. -/
def outrun : List Label :=
  [.call 0 (.manualStart none "m-1"), .advance 0 .ok, .call 1 (.autoStart "auto-1" "speech"),
    .advance 1 .ok, .advance 1 .ok, .advance 1 .ok]

theorem manualStart_breaks : ¬ ∀ (rows : Rows) (trace : List Label) (t : Nat) (o : Outcome)
    (m : CurrentMeeting),
    (run step (System.hydrated rows) trace).tasks t ≠ .returned (.started (some m)) →
    (run step (System.hydrated rows) (trace ++ [.advance t o])).tasks t =
      .returned (.started (some m)) → m.startedBy = .manual := by
  intro h
  have hmanual := h Keyed.empty outrun 0 .ok ⟨"auto-1", .auto⟩ (by decide +kernel)
    (by decide +kernel)
  cases hmanual

end Meeting
