import EchoDesk.Events.GapFree
import EchoDesk.Events.Joining

/-! # Where the renderer is

What is known of a cursor, of the page and of what outlives it, whatever the bus does in the
meantime, and how each thing the handler can do keeps it.
-/

namespace Events

open EchoDesk Transition OrderedLog List

/-- A cursor in a stream: up to it nothing is missing, and what was applied is behind it, or is so
far ahead that the ring does not go on from here. -/
structure CursorAt (bounds : Bounds) (epochs : EpochSource) (scope : Scope) (bus : Bus)
    (log : List Effect) (epoch : String) (seq : Nat) : Prop where
  drawn : bus.Drawn epochs epoch
  le : seq ≤ (bus.events epoch).length
  covered : ∀ m, 0 < m → m ≤ seq → Covered log epoch m
  own : ∀ event ∈ numbered log, event.streamEpoch = epoch →
    event.seq ≤ seq ∨ seq + bounds.replayBuffer < (bus.events epoch).length
  others : ∀ event ∈ numbered log, event.streamEpoch ≠ epoch →
    bus.Left epochs scope event.streamEpoch
  turned : ∀ cursor, .saved cursor ∈ log → cursor.epoch ≠ some epoch →
    ∃ fence, .rehydrate (some epoch) fence ∈ log

inductive Placed (bounds : Bounds) (epochs : EpochSource) (scope : Scope) (bus : Bus)
    (log : List Effect) : Cursor → Prop where
  /-- Nothing was received. -/
  | fresh (hnumbered : numbered log = []) (hsaved : ∀ cursor, .saved cursor ∉ log) :
    Placed bounds epochs scope bus log ⟨none, 0⟩
  | inStream (epoch : String) (seq : Nat) (h : CursorAt bounds epochs scope bus log epoch seq) :
    Placed bounds epochs scope bus log ⟨some epoch, seq⟩

variable {cursor : Cursor} {x : Effect}
variable {event : BusEvent}

variable {epochs : EpochSource} {log : List Effect} {bounds : Bounds} {scope : Scope}

theorem Placed.cases_cursor {bus : Bus} (h : Placed bounds epochs scope bus log cursor) :
    (cursor = ⟨none, 0⟩ ∧ numbered log = []) ∨
      ∃ (epoch : String) (seq : Nat), cursor = ⟨some epoch, seq⟩ ∧
        CursorAt bounds epochs scope bus log epoch seq := by
  cases h with
  | fresh hnumbered hsaved => exact .inl ⟨rfl, hnumbered⟩
  | inStream epoch seq h => exact .inr ⟨epoch, seq, rfl, h⟩

/-- A cursor in a stream. -/
theorem Placed.inside {bus : Bus} {epoch : String} (h : Placed bounds epochs scope bus log cursor)
    (hepoch : cursor.epoch = some epoch) :
    ∃ seq : Nat, cursor = ⟨some epoch, seq⟩ ∧
      CursorAt bounds epochs scope bus log epoch seq := by
  rcases h.cases_cursor with ⟨rfl, -⟩ | ⟨epoch', seq, rfl, hat⟩
  · cases hepoch
  · cases hepoch
    exact ⟨seq, rfl, hat⟩

/-- The page, when it has its cursor. -/
structure Renderer.Page (bounds : Bounds) (epochs : EpochSource) (scope : Scope) (bus : Bus)
    (r : Renderer) : Prop where
  placed : Placed bounds epochs scope bus r.log r.cursor
  last : ∀ event ∈ sinceRehydrate r.log, r.cursor = ⟨some event.streamEpoch, event.seq⟩
  /-- The last request was for the stream of the cursor. -/
  requested : ∀ key ∈ r.lastRehydrateFence, ∃ (epoch : String) (fence : Nat),
    key = rehydrateKey (some epoch) fence ∧ r.cursor.epoch = some epoch ∧
      .rehydrate (some epoch) fence ∈ r.log
  /-- The cursor is past its fence, but for one the ring goes on from in any case. -/
  past : ∀ (epoch : String) (fence : Nat),
    r.lastRehydrateFence = some (rehydrateKey (some epoch) fence) → 0 < r.cursor.seq →
      (fence : Int) ≤ r.cursor.seq ∨ fence ≤ bounds.replayBuffer
  strictly : ∀ (epoch : String) (fence : Nat),
    r.lastRehydrateFence = some (rehydrateKey (some epoch) fence) →
      ∀ event ∈ sinceRehydrate r.log, fence < event.seq ∨ fence ≤ bounds.replayBuffer

structure Renderer.Sound (bounds : Bounds) (epochs : EpochSource) (scope : Scope) (bus : Bus)
    (r : Renderer) : Prop where
  gapFree : GapFree bus.published r.log
  published : ∀ event ∈ numbered r.log, event ∈ bus.published
  /-- A fence was a position of its stream. -/
  fences : ∀ (epoch : String) (fence : Int), .rehydrate (some epoch) fence ∈ r.log →
    fence ≤ (bus.events epoch).length
  stored : Placed bounds epochs scope bus r.log r.stored
  saved : lastSaved r.log = r.stored
  last : ∀ event ∈ sinceRehydrate r.log, r.stored = ⟨some event.streamEpoch, event.seq⟩
  page : r.keyed = true → r.Page bounds epochs scope bus

variable {bounds : Bounds} {epochs : EpochSource} {scope : Scope} {bus bus' : Bus}
  {log log' : List Effect} {r : Renderer} {epoch : String} {seq : Nat}

/-! ## The bus goes on -/

theorem CursorAt.mono (h : CursorAt bounds epochs scope bus log epoch seq)
    (hbus : Evolves epochs bus bus') : CursorAt bounds epochs scope bus' log epoch seq := by
  have hlength := hbus.events_length epoch
  constructor
  · exact hbus.drawn_of h.drawn
  · exact Nat.le_trans h.le hlength
  · exact h.covered
  · intro event hevent heq
    rcases h.own event hevent heq with hle | hlt
    · exact .inl hle
    · exact .inr (Nat.lt_of_lt_of_le hlt hlength)
  · exact fun event hevent hne => hbus.left (h.others event hevent hne)
  · exact h.turned

theorem Placed.mono (h : Placed bounds epochs scope bus log cursor) (hbus : Evolves epochs bus bus') :
    Placed bounds epochs scope bus' log cursor := by
  cases h with
  | fresh hnumbered hsaved => exact .fresh hnumbered hsaved
  | inStream epoch seq h => exact .inStream epoch seq (h.mono hbus)

theorem Renderer.Sound.mono (h : r.Sound bounds epochs scope bus)
    (hbus : Evolves epochs bus bus') : r.Sound bounds epochs scope bus' := by
  have hsub : bus.published ⊆ bus'.published := hbus.published.subset
  constructor
  · exact h.gapFree.mono hsub
  · exact fun event hevent => hsub (h.published event hevent)
  · intro epoch fence hfence
    have := h.fences epoch fence hfence
    have := hbus.events_length epoch
    omega
  · exact h.stored.mono hbus
  · exact h.saved
  · exact h.last
  · intro hkeyed
    have hpage := h.page hkeyed
    exact { hpage with placed := hpage.placed.mono hbus }

/-! ## Effects that apply no event of a stream -/

/-- The log goes on, but no event of a stream is applied. -/
structure Quiet (log log' : List Effect) : Prop where
  sub : log ⊆ log'
  numbered : numbered log' = Events.numbered log
  gapFree : ∀ published, GapFree published log → GapFree published log'

theorem Quiet.refl (log : List Effect) : Quiet log log := ⟨fun _ h => h, rfl, fun _ h => h⟩

theorem quiet_concat (log : List Effect) (hx : x.numbered? = none) : Quiet log (log ++ [x]) :=
  ⟨subset_append_left _ _, numbered_quiet hx, fun _ h => h.quiet hx⟩

theorem Quiet.covered (h : Quiet log log') (hcovered : Covered log epoch seq) :
    Covered log' epoch seq := by
  rcases hcovered with ⟨event, hevent, heq⟩ | ⟨fence, hfence, hle⟩
  · exact .inl ⟨event, h.numbered ▸ hevent, heq⟩
  · exact .inr ⟨fence, h.sub hfence, hle⟩

theorem CursorAt.quiet (h : CursorAt bounds epochs scope bus log epoch seq) (hlog : Quiet log log')
    (hsaved : ∀ cursor, .saved cursor ∈ log' → .saved cursor ∈ log ∨ cursor.epoch = some epoch) :
    CursorAt bounds epochs scope bus log' epoch seq := by
  constructor
  · exact h.drawn
  · exact h.le
  · exact fun m hpos hle => hlog.covered (h.covered m hpos hle)
  · rw [hlog.numbered]
    exact h.own
  · rw [hlog.numbered]
    exact h.others
  intro cursor hcursor hne
  rcases hsaved cursor hcursor with hold | heq
  · obtain ⟨fence, hfence⟩ := h.turned cursor hold hne
    exact ⟨fence, hlog.sub hfence⟩
  · exact absurd heq hne

/-- No cursor is saved either. -/
theorem Placed.quiet (h : Placed bounds epochs scope bus log cursor) (hlog : Quiet log log')
    (hsaved : ∀ cursor, .saved cursor ∈ log' → .saved cursor ∈ log) :
    Placed bounds epochs scope bus log' cursor := by
  cases h with
  | fresh hnumbered hnone =>
    exact .fresh (hlog.numbered.trans hnumbered) fun cursor hcursor =>
      hnone cursor (hsaved cursor hcursor)
  | inStream epoch seq h =>
    exact .inStream epoch seq (h.quiet hlog fun cursor hcursor => .inl (hsaved cursor hcursor))

theorem not_saved_of_concat (hx : ∀ cursor, x ≠ .saved cursor) (cursor : Cursor)
    (h : .saved cursor ∈ log ++ [x]) : .saved cursor ∈ log := by
  rcases mem_append.1 h with h | h
  · exact h
  · exact absurd (mem_singleton.1 h).symm (hx cursor)

/-- An effect that neither the cursors nor the requests see. -/
theorem Renderer.Sound.aside (h : r.Sound bounds epochs scope bus) (hquiet : x.numbered? = none)
    (hsaved : ∀ cursor, x ≠ .saved cursor)
    (hrehydrate : ∀ epoch fence, x ≠ .rehydrate epoch fence) :
    ({ r with log := r.log ++ [x] } : Renderer).Sound bounds epochs scope bus := by
  have hlog := quiet_concat r.log hquiet
  have hfollow : sinceRehydrate (r.log ++ [x]) = sinceRehydrate r.log := by
    rw [sinceRehydrate_concat]
    cases x with
    | reset | saved cursor => rfl
    | rehydrate epoch fence => exact absurd rfl (hrehydrate epoch fence)
    | applied event =>
      by_cases hpos : 0 < event.seq
      · simp [Effect.numbered?, hpos] at hquiet
      · exact if_neg hpos
  constructor
  · exact hlog.gapFree _ h.gapFree
  · rw [hlog.numbered]
    exact h.published
  · intro epoch fence hfence
    rcases mem_append.1 hfence with hfence | hfence
    · exact h.fences epoch fence hfence
    · exact absurd (mem_singleton.1 hfence).symm (hrehydrate _ _)
  · exact h.stored.quiet hlog fun cursor => not_saved_of_concat hsaved cursor
  · rw [lastSaved_concat, ← h.saved]
    cases x with
    | saved cursor => exact absurd rfl (hsaved cursor)
    | reset | rehydrate epoch fence | applied event => rfl
  · rw [hfollow]
    exact h.last
  intro hkeyed
  have hpage := h.page hkeyed
  constructor
  · exact hpage.placed.quiet hlog fun cursor => not_saved_of_concat hsaved cursor
  · rw [hfollow]
    exact hpage.last
  · intro key hkey
    obtain ⟨epoch, fence, heq, hepoch, hmem⟩ := hpage.requested key hkey
    exact ⟨epoch, fence, heq, hepoch, hlog.sub hmem⟩
  · exact hpage.past
  · rw [hfollow]
    exact hpage.strictly

theorem Renderer.Sound.reset (h : r.Sound bounds epochs scope bus) :
    r.reset.Sound bounds epochs scope bus :=
  h.aside rfl (fun _ => Effect.noConfusion) fun _ _ => Effect.noConfusion

/-! ## The cursor is loaded, moved and saved -/

theorem Renderer.Sound.reload (h : r.Sound bounds epochs scope bus) :
    r.reload.Sound bounds epochs scope bus := by
  refine ⟨h.gapFree, h.published, h.fences, h.stored, h.saved, h.last, ?_⟩
  intro hkeyed
  cases hkeyed

theorem keyed_load (r : Renderer) : r.load.keyed = true := by
  unfold Renderer.load
  split
  · assumption
  · rfl

theorem Renderer.Sound.load (h : r.Sound bounds epochs scope bus) :
    r.load.Sound bounds epochs scope bus := by
  unfold Renderer.load
  split
  · exact h
  refine ⟨h.gapFree, h.published, h.fences, h.stored, h.saved, h.last, fun _ => ?_⟩
  -- nothing was requested by the new page
  constructor
  · exact h.stored
  · exact h.last
  · intro key hkey
    cases hkey
  · intro epoch fence hkey
    cases hkey
  · intro epoch fence hkey
    cases hkey

theorem Renderer.Sound.persistCursor (h : r.Sound bounds epochs scope bus)
    (hepoch : r.cursor.epoch ≠ none) : r.persistCursor.Sound bounds epochs scope bus := by
  unfold Renderer.persistCursor
  split
  · rename_i hkeyed
    have hpage := h.page hkeyed
    have hlog : Quiet r.log (r.log ++ [.saved r.cursor]) := quiet_concat r.log rfl
    have hfollow : sinceRehydrate (r.log ++ [.saved r.cursor]) = sinceRehydrate r.log :=
      sinceRehydrate_concat _ _
    have hplaced : Placed bounds epochs scope bus (r.log ++ [.saved r.cursor]) r.cursor := by
      obtain ⟨epoch, hcurrent⟩ := Option.ne_none_iff_exists'.1 hepoch
      obtain ⟨seq, hcursor, hat⟩ := hpage.placed.inside hcurrent
      rw [hcursor] at hlog ⊢
      refine .inStream epoch seq (hat.quiet hlog ?_)
      intro cursor hmem
      rcases mem_append.1 hmem with hmem | hmem
      · exact .inl hmem
      · rw [Effect.saved.inj (mem_singleton.1 hmem)]
        exact .inr rfl
    constructor
    · exact hlog.gapFree _ h.gapFree
    · rw [hlog.numbered]
      exact h.published
    · intro epoch fence hfence
      rcases mem_append.1 hfence with hfence | hfence
      · exact h.fences epoch fence hfence
      · cases mem_singleton.1 hfence
    · exact hplaced
    · rw [lastSaved_concat]
      rfl
    · rw [hfollow]
      exact hpage.last
    intro _
    constructor
    · exact hplaced
    · rw [hfollow]
      exact hpage.last
    · intro key hkey
      obtain ⟨epoch, fence, heq, hepoch, hmem⟩ := hpage.requested key hkey
      exact ⟨epoch, fence, heq, hepoch, hlog.sub hmem⟩
    · exact hpage.past
    · rw [hfollow]
      exact hpage.strictly
  · exact h

/-- The page after its cursor was taken back to the start of a stream. -/
structure Turned (r r' : Renderer) (epoch : String) (fence : Nat) : Prop where
  cursor : r'.cursor = ⟨some epoch, 0⟩
  keyed : r'.keyed = r.keyed
  requested : r'.lastRehydrateFence = some (rehydrateKey (some epoch) fence)
  mem : .rehydrate (some epoch) fence ∈ r'.log
  last : sinceRehydrate r'.log = none
  numbered : numbered r'.log = Events.numbered r.log

/-- A request is left out when it is the last one; it is in the log all the same. -/
theorem Renderer.Sound.turn_cases (h : r.Sound bounds epochs scope bus) (hkeyed : r.keyed = true)
    (fence : Nat) (hlast : r.lastRehydrateFence = some (rehydrateKey (some epoch) fence) →
      sinceRehydrate r.log = none) :
    Turned r (r.turn epoch fence) epoch fence ∧ (r.turn epoch fence).stored = r.stored ∧
      ((r.turn epoch fence).log = r.log ∨
        (r.turn epoch fence).log = r.log ++ [.rehydrate (some epoch) fence]) := by
  unfold Renderer.turn Renderer.requestRehydrate
  split
  · rename_i hkey
    obtain ⟨epoch', fence', heq, -, hmem⟩ := (h.page hkeyed).requested _ hkey
    obtain ⟨rfl, rfl⟩ := rehydrateKey_inj heq
    exact ⟨⟨rfl, rfl, hkey, hmem, hlast hkey, rfl⟩, rfl, .inl rfl⟩
  · refine ⟨⟨rfl, rfl, rfl, mem_append_right _ (mem_singleton_self _), ?_, ?_⟩, rfl, .inr rfl⟩
    · exact sinceRehydrate_concat _ _
    · exact numbered_quiet rfl

theorem Renderer.Sound.turn (h : r.Sound bounds epochs scope bus) (hkeyed : r.keyed = true)
    {fence : Nat} (hdrawn : bus.Drawn epochs epoch) (hle : fence ≤ (bus.events epoch).length)
    (hown : ∀ event ∈ Events.numbered r.log, event.streamEpoch = epoch →
      bounds.replayBuffer < (bus.events epoch).length)
    (hothers : ∀ event ∈ Events.numbered r.log, event.streamEpoch ≠ epoch →
      bus.Left epochs scope event.streamEpoch)
    (hlast : r.lastRehydrateFence = some (rehydrateKey (some epoch) fence) →
      sinceRehydrate r.log = none) :
    (r.turn epoch fence).Sound bounds epochs scope bus := by
  obtain ⟨hturned, hstored, hlog⟩ := h.turn_cases hkeyed fence hlast
  generalize r.turn epoch fence = r' at *
  have hquiet : Quiet r.log r'.log := by
    rcases hlog with hlog | hlog
    · exact hlog ▸ Quiet.refl _
    · exact hlog ▸ quiet_concat _ rfl
  have hsaved : ∀ cursor, .saved cursor ∈ r'.log → .saved cursor ∈ r.log := by
    rcases hlog with hlog | hlog
    · exact hlog ▸ fun cursor hcursor => hcursor
    · exact hlog ▸ not_saved_of_concat fun _ => Effect.noConfusion
  have hlastSaved : lastSaved r'.log = lastSaved r.log := by
    rcases hlog with hlog | hlog
    · rw [hlog]
    · rw [hlog, lastSaved_concat]
      rfl
  constructor
  · exact hquiet.gapFree _ h.gapFree
  · rw [hquiet.numbered]
    exact h.published
  · intro epoch' fence' hmem
    have hcases : .rehydrate (some epoch') fence' ∈ r.log ∨
        Effect.rehydrate (some epoch') fence' = .rehydrate (some epoch) fence := by
      rcases hlog with hlog | hlog
      · exact .inl (hlog ▸ hmem)
      rw [hlog] at hmem
      rcases mem_append.1 hmem with hmem | hmem
      · exact .inl hmem
      · exact .inr (mem_singleton.1 hmem)
    rcases hcases with hmem | heq
    · exact h.fences epoch' fence' hmem
    obtain ⟨hepoch, rfl⟩ := Effect.rehydrate.inj heq
    cases hepoch
    exact_mod_cast hle
  · rw [hstored]
    exact h.stored.quiet hquiet hsaved
  · rw [hlastSaved, hstored]
    exact h.saved
  · intro event hevent
    rw [hturned.last] at hevent
    cases hevent
  intro _
  constructor
  · rw [hturned.cursor]
    refine .inStream epoch 0 ⟨hdrawn, Nat.zero_le _, ?_, ?_, ?_, ?_⟩
    · intro m hpos hzero
      omega
    · rw [hquiet.numbered]
      intro event hevent heq
      have := hown event hevent heq
      exact .inr (by omega)
    · rw [hquiet.numbered]
      exact hothers
    · exact fun cursor hcursor hne => ⟨fence, hturned.mem⟩
  · intro event hevent
    rw [hturned.last] at hevent
    cases hevent
  · intro key hkey
    rw [hturned.requested] at hkey
    cases hkey
    exact ⟨epoch, fence, rfl, by rw [hturned.cursor], hturned.mem⟩
  · intro epoch' fence' _ hpos
    rw [hturned.cursor] at hpos
    exact absurd hpos (Int.lt_irrefl 0)
  · intro epoch' fence' _ event hevent
    rw [hturned.last] at hevent
    cases hevent

/-! ## The next event is applied -/

/-- The cursor is stored as it is, and the events the stream goes on with are new. -/
structure Live (bounds : Bounds) (r : Renderer) (epoch : String) : Prop where
  current : r.cursor.epoch = some epoch
  stored : r.stored = r.cursor
  own : ∀ event ∈ Events.numbered r.log, event.streamEpoch = epoch →
    (event.seq : Int) ≤ r.cursor.seq
  past : ∀ fence : Nat, r.lastRehydrateFence = some (rehydrateKey (some epoch) fence) →
    (fence : Int) ≤ r.cursor.seq ∨ fence ≤ bounds.replayBuffer

theorem mem_events :
    event ∈ bus.events epoch ↔ event ∈ bus.published ∧ event.streamEpoch = epoch := by
  simp [Bus.events]

theorem Inv.seq_le (h : Inv bounds epochs bus) (hevent : event ∈ bus.events epoch) :
    event.seq ≤ (bus.events epoch).length := by
  rw [← (h.dense epoch).maxPos_eq]
  exact le_maxPos hevent

/-- The log with an event and its place. -/
def withEvent (log : List Effect) (event : BusEvent) : List Effect :=
  log ++ [.saved ⟨some event.streamEpoch, event.seq⟩] ++ [.applied event]

section WithEvent

variable {event : BusEvent}

theorem numbered_withEvent (hpos : 0 < event.seq) :
    numbered (withEvent log event) = numbered log ++ [event] := by
  rw [withEvent, numbered_applied hpos, numbered_quiet rfl]

theorem sinceRehydrate_withEvent (hpos : 0 < event.seq) :
    sinceRehydrate (withEvent log event) = some event := by
  rw [withEvent, sinceRehydrate_concat]
  exact if_pos hpos

theorem rehydrate_withEvent {epoch : Option String} {fence : Int} :
    .rehydrate epoch fence ∈ withEvent log event ↔ .rehydrate epoch fence ∈ log := by
  simp [withEvent]

theorem saved_withEvent {cursor : Cursor} (h : .saved cursor ∈ withEvent log event) :
    .saved cursor ∈ log ∨ cursor.epoch = some event.streamEpoch := by
  have hcases : .saved cursor ∈ log ∨ cursor = ⟨some event.streamEpoch, event.seq⟩ := by
    simpa [withEvent] using h
  rcases hcases with hold | rfl
  · exact .inl hold
  · exact .inr rfl

/-- The place of a new event. -/
theorem CursorAt.withEvent (h : CursorAt bounds epochs scope bus log event.streamEpoch seq)
    (hinv : Inv bounds epochs bus) (hevent : event ∈ bus.events event.streamEpoch)
    (hnext : event.seq = seq + 1)
    (hown : ∀ e ∈ numbered log, e.streamEpoch = event.streamEpoch → e.seq ≤ seq) :
    CursorAt bounds epochs scope bus (withEvent log event) event.streamEpoch event.seq := by
  have hpos : 0 < event.seq := by omega
  have hnumbered := @numbered_withEvent log event hpos
  constructor
  · exact h.drawn
  · exact hinv.seq_le hevent
  · intro m hm hle
    by_cases hlast : m = event.seq
    · left
      refine ⟨event, ?_, rfl, hlast.symm⟩
      rw [hnumbered]
      exact mem_append_right _ (mem_singleton_self _)
    · have hcovered := h.covered m hm (by omega)
      rw [Events.withEvent, append_assoc]
      exact hcovered.mono
  · intro e he heq
    rw [hnumbered] at he
    rcases mem_append.1 he with he | he
    · have := hown e he heq
      exact .inl (by omega)
    · rw [mem_singleton.1 he]
      exact .inl (le_rfl)
  · intro e he hne
    rw [hnumbered] at he
    rcases mem_append.1 he with he | he
    · exact h.others e he hne
    · rw [mem_singleton.1 he] at hne
      exact absurd rfl hne
  · intro cursor hcursor hne
    rcases saved_withEvent hcursor with hold | heq
    · obtain ⟨fence, hfence⟩ := h.turned cursor hold hne
      exact ⟨fence, rehydrate_withEvent.2 hfence⟩
    · exact absurd heq hne

end WithEvent

/-- The next event of the stream may be applied. -/
theorem Renderer.Sound.continues (h : r.Sound bounds epochs scope bus) (hkeyed : r.keyed = true)
    (hlive : Live bounds r event.streamEpoch) (hcursor : r.cursor = ⟨some event.streamEpoch, seq⟩)
    (hat : CursorAt bounds epochs scope bus r.log event.streamEpoch seq)
    (hevent : event ∈ bus.published) (hnext : event.seq = seq + 1) :
    Continues bus.published (r.log ++ [.saved ⟨some event.streamEpoch, event.seq⟩]) event := by
  have hquiet : Quiet r.log (r.log ++ [.saved ⟨some event.streamEpoch, event.seq⟩]) :=
    quiet_concat r.log rfl
  constructor
  · exact hevent
  · refine ⟨r.log, rfl, ?_⟩
    have hplace : ((seq + 1 : Nat) : Int) - 1 = seq := by omega
    rw [h.saved, hlive.stored, hcursor, hnext, hplace]
  · intro last hlast
    rw [sinceRehydrate_concat] at hlast
    have heq := (h.page hkeyed).last last hlast
    rw [hcursor] at heq
    obtain ⟨hepoch, hseq⟩ := Cursor.mk.inj heq
    exact ⟨(Option.some.inj hepoch).symm, by omega⟩
  · intro m hpos hlt
    exact hquiet.covered (hat.covered m hpos (by omega))
  intro cursor hmem hne
  rcases mem_append.1 hmem with hmem | hmem
  · obtain ⟨fence, hfence⟩ := hat.turned cursor hmem hne
    exact ⟨fence, hquiet.sub hfence⟩
  · rw [Effect.saved.inj (mem_singleton.1 hmem)] at hne
    exact absurd rfl hne

theorem Renderer.Sound.applyNext (h : r.Sound bounds epochs scope bus) (hkeyed : r.keyed = true)
    (hinv : Inv bounds epochs bus) (hlive : Live bounds r event.streamEpoch)
    (hevent : event ∈ bus.events event.streamEpoch) (hnext : (event.seq : Int) = r.cursor.seq + 1) :
    let r' := ({ r with
      cursor := ⟨some event.streamEpoch, event.seq⟩ }.persistCursor).applyEvent event
    r'.Sound bounds epochs scope bus ∧ Live bounds r' event.streamEpoch ∧ r'.keyed = true := by
  obtain ⟨seq, hcursor, hat⟩ := (h.page hkeyed).placed.inside hlive.current
  have hseq : r.cursor.seq = seq := by rw [hcursor]
  have hplace : event.seq = seq + 1 := by omega
  have hpos : 0 < event.seq := by omega
  have hpublished := (mem_events.1 hevent).1
  -- what was shown of the epoch comes before the event
  have hown : ∀ e ∈ numbered r.log, e.streamEpoch = event.streamEpoch → e.seq ≤ seq := by
    intro e he heq
    have := hlive.own e he heq
    omega
  have hnumbered := @numbered_withEvent r.log event hpos
  have hfollow := @sinceRehydrate_withEvent r.log event hpos
  have hnew : CursorAt bounds epochs scope bus (withEvent r.log event) event.streamEpoch event.seq :=
    hat.withEvent hinv hevent hplace hown
  have hfence : ∀ fence : Nat,
      r.lastRehydrateFence = some (rehydrateKey (some event.streamEpoch) fence) →
        fence < event.seq ∨ fence ≤ bounds.replayBuffer := by
    intro fence hkey
    have := hlive.past fence hkey
    omega
  have hrequested := (h.page hkeyed).requested
  dsimp only
  unfold Renderer.persistCursor
  rw [if_pos hkeyed]
  refine ⟨?_, ?_, hkeyed⟩
  · constructor
    · refine (h.gapFree.quiet rfl).applied hpos ?_ ?_
      · exact h.continues hkeyed hlive hcursor hat hpublished hplace
      rw [numbered_quiet rfl]
      intro e he heq
      have := hown e he heq
      omega
    · intro e he
      have hmem : e ∈ numbered r.log ++ [event] := hnumbered ▸ he
      rcases mem_append.1 hmem with hmem | hmem
      · exact h.published e hmem
      · rw [mem_singleton.1 hmem]
        exact hpublished
    · exact fun epoch fence hmem => h.fences epoch fence (rehydrate_withEvent.1 hmem)
    · exact .inStream _ _ hnew
    · show lastSaved (_ ++ [.applied event]) = _
      rw [lastSaved_concat, lastSaved_concat]
      rfl
    · intro last hlast
      have hlast : last ∈ some event := hfollow ▸ hlast
      cases hlast
      rfl
    intro _
    constructor
    · exact .inStream _ _ hnew
    · intro last hlast
      have hlast : last ∈ some event := hfollow ▸ hlast
      cases hlast
      rfl
    · intro key hkey
      obtain ⟨epoch, fence, heq, hepoch, hmem⟩ := hrequested key hkey
      rw [hcursor] at hepoch
      exact ⟨epoch, fence, heq, hepoch, rehydrate_withEvent.2 hmem⟩
    · intro epoch fence hkey _
      obtain ⟨epoch', fence', heq, hepoch, -⟩ := hrequested _ hkey
      obtain ⟨rfl, rfl⟩ := rehydrateKey_inj heq
      rw [hcursor] at hepoch
      cases hepoch
      have := hfence fence hkey
      show (fence : Int) ≤ event.seq ∨ _
      omega
    intro epoch fence hkey last hlast
    have hlast : last ∈ some event := hfollow ▸ hlast
    cases hlast
    obtain ⟨epoch', fence', heq, hepoch, -⟩ := hrequested _ hkey
    obtain ⟨rfl, rfl⟩ := rehydrateKey_inj heq
    rw [hcursor] at hepoch
    cases hepoch
    exact hfence fence hkey
  · constructor
    · rfl
    · rfl
    · intro e he heq
      have hmem : e ∈ numbered r.log ++ [event] := hnumbered ▸ he
      show (e.seq : Int) ≤ event.seq
      rcases mem_append.1 hmem with hmem | hmem
      · have := hown e hmem heq
        omega
      · exact Int.le_of_eq (by rw [mem_singleton.1 hmem])
    · intro fence hkey
      have := hfence fence hkey
      show (fence : Int) ≤ event.seq ∨ _
      omega

end Events
