import EchoDesk.Runtime.ScopedRegistry

/-! # Leases on runtimes

A lease holds its runtime when the entry that the second critical section of its acquire
counts it on is the one that the first one has returned. This is not checked: between the
two, an eviction or a sweep may close the runtime and another acquire may make a new one.
The laws hold along a run exactly when that never happens, and when no factory raises after
another entry has been taken away for it.
-/

namespace ScopedRegistry

open Transition List Option Keyed Registry Entry

variable {K : Type} {cfg : Settings} {r r' : Registry K} {leases : List (Lease K)}
  {taken : List Nat} {drawn : Nat} {e : Entry K} {key : K}
variable {now : Int} {error : RegistryError} {x : Entry K}

/-! ## The registry with its leases -/

/-- The runtimes of the entries and those that wait to be closed. -/
def Registry.values (r : Registry K) : List Nat :=
  r.entries.rows.map Entry.value ++ r.pendingClose

/-- Each entry counts the leases of its runtime, each lease has the entry of its runtime, and
no runtime is anywhere twice. -/
structure Registry.Sound (leases : List (Lease K)) (taken : List Nat) (drawn : Nat)
    (r : Registry K) : Prop where
  count : ∀ e ∈ r.entries, e.activeLeases = leases.countP fun l => l.value = e.value
  held : ∀ l ∈ leases, ∃ e ∈ r.entries, e.key = l.key ∧ e.value = l.value
  nodup : (r.values ++ taken).Nodup
  drawn : ∀ v ∈ r.values ++ taken, v < drawn

variable {e' : Entry K}

theorem Registry.Sound.eq_of_value (h : r.Sound leases taken drawn) (he : e ∈ r.entries)
    (he' : e' ∈ r.entries) (hvalue : e.value = e'.value) : e = e' := by
  have hnodup := (nodup_append.1 (nodup_append.1 h.nodup).1).1
  exact inj_on_of_nodup_map hnodup he he' hvalue

theorem Registry.Sound.eq_of_key (he : e ∈ r.entries) (he' : e' ∈ r.entries) (hkey : e.key = e'.key) :
    e = e' :=
  inj_on_of_nodup_map r.entries.nodup he he' hkey

/-- The order of the entries does not matter. -/
theorem Registry.Sound.of_mem (h : r.Sound leases taken drawn)
    (hmem : ∀ x, x ∈ r'.entries ↔ x ∈ r.entries) (hpending : r'.pendingClose = r.pendingClose) :
    r'.Sound leases taken drawn := by
  have hrows : r'.entries.rows.Perm r.entries.rows :=
    (perm_ext_iff_of_nodup (r'.entries.nodup.of_map _) (r.entries.nodup.of_map _)).2 hmem
  have hperm : (r'.values ++ taken).Perm (r.values ++ taken) := by
    apply List.Perm.append_right
    unfold values
    rw [hpending]
    exact (hrows.map _).append_right _
  constructor
  · intro x hx
    exact h.count x ((hmem x).1 hx)
  · intro l hl
    obtain ⟨x, hx, hx'⟩ := h.held l hl
    exact ⟨x, (hmem x).2 hx, hx'⟩
  · exact hperm.nodup_iff.2 h.nodup
  · intro v hv
    exact h.drawn v (hperm.subset hv)

theorem Registry.Sound.succ (h : r.Sound leases taken drawn) : r.Sound leases taken (drawn + 1) :=
  ⟨h.count, h.held, h.nodup, fun v hv => Nat.lt_succ_of_lt (h.drawn v hv)⟩

/-- What waits to be closed is moved. -/
theorem Registry.Sound.move {taken' : List Nat} (h : r.Sound leases taken drawn)
    (hentries : r'.entries = r.entries)
    (hperm : (r'.pendingClose ++ taken').Perm (r.pendingClose ++ taken)) :
    r'.Sound leases taken' drawn := by
  have hall : (r'.values ++ taken').Perm (r.values ++ taken) := by
    unfold values
    rw [hentries, append_assoc, append_assoc]
    exact hperm.append_left _
  constructor
  · rw [hentries]
    exact h.count
  · rw [hentries]
    exact h.held
  · exact hall.nodup_iff.2 h.nodup
  · intro v hv
    exact h.drawn v (hall.subset hv)

variable [DecidableEq K]

theorem rows_perm (he : e ∈ r.entries) :
    r.entries.rows.Perm (e :: (r.entries.erase e.key).rows) := by
  have hput := put_self (mem_get?.2 ⟨he, rfl⟩)
  have hperm := perm_put r.entries e
  rwa [hput] at hperm

/-- The rows after an entry is put in the place of the one of its key. -/
theorem values_put (he : e ∈ r.entries) (hkey : e'.key = e.key) (hvalue : e'.value = e.value) :
    ((r.entries.put e').rows.map value).Perm (r.entries.rows.map value) := by
  have hnew := (perm_put r.entries e').map value
  have hold := (rows_perm he).map value
  rw [hkey, map_cons, hvalue] at hnew
  exact hnew.trans hold.symm

theorem mem_pop (he : e ∈ r.entries) : x ∈ (r.pop e.key).entries ↔ x ∈ r.entries ∧ x ≠ e := by
  have hget : r.entries.get? e.key = some e := mem_get?.2 ⟨he, rfl⟩
  rw [pop, hget]
  rw [mem_erase]
  constructor
  · rintro ⟨hx, hne⟩
    exact ⟨hx, fun heq => hne (congrArg key heq)⟩
  · rintro ⟨hx, hne⟩
    exact ⟨hx, fun hkey => hne (Sound.eq_of_key hx he hkey)⟩

theorem values_pop (he : e ∈ r.entries) : (r.pop e.key).values.Perm r.values := by
  have hget : r.entries.get? e.key = some e := mem_get?.2 ⟨he, rfl⟩
  have hold := (rows_perm he).map value
  rw [pop, hget]
  show ((r.entries.erase e.key).rows.map value ++ (r.pendingClose ++ [e.value])).Perm _
  rw [← append_assoc]
  refine perm_append_singleton _ _ |>.trans ?_
  rw [← cons_append]
  exact hold.symm.append_right _

/-- An entry without a lease is taken away. -/
theorem Registry.Sound.pop (h : r.Sound leases taken drawn) (he : e ∈ r.entries)
    (hidle : e.activeLeases = 0) : (r.pop e.key).Sound leases taken drawn := by
  have hperm := (values_pop he).append_right taken
  constructor
  · intro x hx
    exact h.count x ((mem_pop he).1 hx).1
  · intro l hl
    obtain ⟨x, hx, hkey, hvalue⟩ := h.held l hl
    refine ⟨x, (mem_pop he).2 ⟨hx, ?_⟩, hkey, hvalue⟩
    rintro rfl
    rw [h.count x hx, countP_eq_zero] at hidle
    exact hidle l hl (decide_eq_true hvalue.symm)
  · exact hperm.nodup_iff.2 h.nodup
  · intro v hv
    exact h.drawn v (hperm.subset hv)

/-- An entry is written that keeps its runtime and its count. -/
theorem Registry.Sound.put (h : r.Sound leases taken drawn) (he : e ∈ r.entries) (e' : Entry K)
    {leases' : List (Lease K)} (hkey : e'.key = e.key) (hvalue : e'.value = e.value)
    (hcount : e'.activeLeases = leases'.countP fun l => l.value = e.value)
    (hothers : ∀ v, v ≠ e.value → leases'.countP (fun l => l.value = v) =
      leases.countP fun l => l.value = v)
    (hheld : ∀ l ∈ leases', l ∈ leases ∨ l.key = e.key ∧ l.value = e.value) :
    Sound leases' taken drawn { r with entries := r.entries.put e' } := by
  have hmem : ∀ x, x ∈ r.entries.put e' ↔ x = e' ∨ x ∈ r.entries ∧ x.key ≠ e.key := by
    intro x
    rw [mem_put, hkey]
  have hperm : (({ r with entries := r.entries.put e' } : Registry K).values ++ taken).Perm
      (r.values ++ taken) :=
    ((values_put he hkey hvalue).append_right _).append_right _
  constructor
  · intro x hx
    rcases (hmem x).1 hx with rfl | ⟨hx, hne⟩
    · rw [hcount, hvalue]
    rw [hothers, h.count x hx]
    intro hsame
    exact hne (congrArg key (h.eq_of_value hx he hsame))
  · intro l hl
    have hat : l.key = e.key ∧ l.value = e.value →
        ∃ x ∈ r.entries.put e', x.key = l.key ∧ x.value = l.value := by
      rintro ⟨hlkey, hlvalue⟩
      exact ⟨e', (hmem e').2 (.inl rfl), hkey.trans hlkey.symm, hvalue.trans hlvalue.symm⟩
    rcases hheld l hl with hl | hl
    · obtain ⟨x, hx, hxkey, hxvalue⟩ := h.held l hl
      by_cases hsame : x.key = e.key
      · have heq := Sound.eq_of_key hx he hsame
        rw [heq] at hxkey hxvalue
        exact hat ⟨hxkey.symm, hxvalue.symm⟩
      · exact ⟨x, (hmem x).2 (.inr ⟨hx, hsame⟩), hxkey, hxvalue⟩
    · exact hat hl
  · exact hperm.nodup_iff.2 h.nodup
  · intro v hv
    exact h.drawn v (hperm.subset hv)

theorem mem_store : x ∈ (r.store e').entries ↔ x ∈ r.entries.put e' := by
  show x ∈ (r.entries.erase e'.key).put e' ↔ _
  rw [mem_put, mem_put, mem_erase]
  constructor
  · rintro (rfl | ⟨⟨hx, hne⟩, -⟩)
    · exact .inl rfl
    · exact .inr ⟨hx, hne⟩
  · rintro (rfl | ⟨hx, hne⟩)
    · exact .inl rfl
    · exact .inr ⟨⟨hx, hne⟩, hne⟩

/-- The entry of a runtime that was just made. -/
theorem Registry.Sound.insert (h : r.Sound leases taken drawn) (hnone : r.entries.get? key = none)
    (now : Int) :
    (r.store ⟨key, drawn, now, 0, false⟩).Sound leases taken (drawn + 1) := by
  have hfresh : ∀ v ∈ r.values ++ taken, v ≠ drawn := fun v hv => Nat.ne_of_lt (h.drawn v hv)
  have hmem : ∀ x, x ∈ (r.store ⟨key, drawn, now, 0, false⟩).entries ↔
      x = ⟨key, drawn, now, 0, false⟩ ∨ x ∈ r.entries := by
    intro x
    rw [mem_store, mem_put]
    constructor
    · rintro (rfl | ⟨hx, -⟩)
      · exact .inl rfl
      · exact .inr hx
    · rintro (rfl | hx)
      · exact .inl rfl
      · exact .inr ⟨hx, get?_eq_none.1 hnone x hx⟩
  have hvalue : ∀ x ∈ r.entries, x.value ∈ r.values ++ taken := by
    intro x hx
    exact mem_append_left _ (mem_append_left _ (mem_map_of_mem hx))
  have hperm : ((r.store ⟨key, drawn, now, 0, false⟩).values ++ taken).Perm
      (drawn :: (r.values ++ taken)) := by
    have hput := (perm_put (r.entries.erase key) (⟨key, drawn, now, 0, false⟩ : Entry K)).map value
    rw [erase_of_get?_none hnone, map_cons, erase_of_get?_none hnone] at hput
    unfold values store
    rw [erase_of_get?_none hnone]
    exact (hput.append_right _).append_right _
  constructor
  · intro x hx
    rcases (hmem x).1 hx with rfl | hx
    · symm
      rw [countP_eq_zero]
      intro l hl hsame
      obtain ⟨x, hx, -, hxvalue⟩ := h.held l hl
      exact hfresh _ (hvalue x hx) (hxvalue.trans (of_decide_eq_true hsame))
    · exact h.count x hx
  · intro l hl
    obtain ⟨x, hx, hx'⟩ := h.held l hl
    exact ⟨x, (hmem x).2 (.inr hx), hx'⟩
  · rw [hperm.nodup_iff, nodup_cons]
    exact ⟨fun hmem => hfresh _ hmem rfl, h.nodup⟩
  · intro v hv
    rcases mem_cons.1 (hperm.subset hv) with rfl | hv
    · exact Nat.lt_succ_self _
    · exact Nat.lt_succ_of_lt (h.drawn v hv)

/-! ## What the critical sections keep -/

/-- An entry is written whose runtime and whose count stay. -/
theorem Registry.Sound.touch (h : r.Sound leases taken drawn) (he : e ∈ r.entries) (e' : Entry K)
    (hkey : e'.key = e.key) (hvalue : e'.value = e.value)
    (hcount : e'.activeLeases = e.activeLeases) :
    Sound leases taken drawn { r with entries := r.entries.put e' } :=
  h.put he e' hkey hvalue (hcount.trans (h.count e he)) (fun _ _ => rfl) fun _ hl => .inl hl

theorem Registry.Sound.evictOne (h : r.Sound leases taken drawn) (hevict : evictOne r = some r') :
    r'.Sound leases taken drawn := by
  obtain ⟨e, he, rfl⟩ := map_eq_some_iff.1 hevict
  have hidle : e.idle = true := find?_some he
  exact h.pop (mem_of_find?_eq_some he) (of_decide_eq_true hidle)

theorem evictOne_get?_none (hnone : r.entries.get? key = none) (hevict : evictOne r = some r') :
    r'.entries.get? key = none := by
  obtain ⟨e, he, rfl⟩ := map_eq_some_iff.1 hevict
  rw [get?_eq_none] at hnone ⊢
  intro x hx
  exact hnone x ((mem_pop (mem_of_find?_eq_some he)).1 hx).1

section

variable (h : r.Sound leases taken drawn)

include h

theorem Registry.Sound.getOrCreate (key : K) (now : Int) (made : Bool) :
    (getOrCreate cfg r key now (if made then some drawn else none)).1.Sound leases taken
      (drawn + 1) := by
  unfold ScopedRegistry.getOrCreate
  split
  · rename_i e hget
    obtain ⟨he, -⟩ := Keyed.mem_get?.1 hget
    have htouch := h.touch he { e with lastUsed := now } rfl rfl rfl
    exact (htouch.of_mem (fun x => mem_store) rfl).succ
  rename_i hnone
  unfold create
  split
  · exact h.succ
  rename_i r₁ hroom
  have h₁ : r₁.Sound leases taken drawn ∧ r₁.entries.get? key = none := by
    split at hroom
    · exact ⟨h.evictOne hroom, evictOne_get?_none hnone hroom⟩
    · cases hroom
      exact ⟨h, hnone⟩
  cases made with
  | true => exact h₁.1.insert h₁.2 now
  | false => exact h₁.1.succ

/-- A lease is taken on the runtime that the entry has. -/
theorem Registry.Sound.acquire {value : Nat} (hget : r.entries.get? key = some e)
    (hvalue : e.value = value) (hacquire : acquire r key now = .ok r') :
    r'.Sound (leases ++ [⟨key, value⟩]) taken drawn := by
  obtain ⟨he, hkey⟩ := Keyed.mem_get?.1 hget
  unfold ScopedRegistry.acquire at hacquire
  rw [hget] at hacquire
  cases hacquire
  apply h.put he { e with activeLeases := e.activeLeases + 1, lastUsed := now } rfl rfl
  · show e.activeLeases + 1 = _
    rw [countP_append, ← h.count e he]
    simp [hvalue]
  · intro v hv
    rw [countP_append]
    simp [← hvalue, Ne.symm hv]
  intro l hl
  rcases mem_append.1 hl with hl | hl
  · exact .inl hl
  rw [mem_singleton] at hl
  rw [hl]
  exact .inr ⟨hkey.symm, hvalue.symm⟩

theorem Registry.Sound.release {index : Nat} {l : Lease K} (hl : leases[index]? = some l)
    (now : Int) : (release r l.key now).Sound (leases.eraseIdx index) taken drawn := by
  obtain ⟨hlt, hat⟩ := List.getElem?_eq_some_iff.1 hl
  have hperm : (l :: leases.eraseIdx index).Perm leases := by
    rw [← hat]
    exact getElem_cons_eraseIdx_perm hlt
  obtain ⟨e, he, hkey, hvalue⟩ := h.held l (hperm.subset mem_cons_self)
  have hget : r.entries.get? l.key = some e := Keyed.mem_get?.2 ⟨he, hkey⟩
  have hcount : ∀ v, leases.countP (fun l => l.value = v) =
      (leases.eraseIdx index).countP (fun l => l.value = v) + if l.value = v then 1 else 0 := by
    intro v
    rw [← hperm.countP_eq, countP_cons]
    simp
  have hput : Registry.Sound (leases.eraseIdx index) taken drawn { r with
      entries := r.entries.put { e with activeLeases := e.activeLeases - 1, lastUsed := now } } := by
    apply h.put he { e with activeLeases := e.activeLeases - 1, lastUsed := now } rfl rfl
    · show e.activeLeases - 1 = _
      rw [h.count e he, hcount, if_pos hvalue.symm, Nat.add_sub_cancel]
    · intro v hv
      rw [hcount v, if_neg (fun hsame => hv (hsame.symm.trans hvalue.symm)), Nat.add_zero]
    · intro l' hl'
      exact .inl (hperm.subset (mem_cons_of_mem _ hl'))
  unfold ScopedRegistry.release
  rw [hget]
  dsimp only
  split
  · rename_i hterminal
    have hmem : ({ e with activeLeases := e.activeLeases - 1, lastUsed := now } : Entry K) ∈
        r.entries.put { e with activeLeases := e.activeLeases - 1, lastUsed := now } :=
      Keyed.mem_put.2 (.inl rfl)
    have hpop := hput.pop hmem hterminal.2
    rw [← hkey]
    exact hpop
  · exact hput

theorem Registry.Sound.markTerminal (key : K) : (markTerminal r key).Sound leases taken drawn := by
  unfold ScopedRegistry.markTerminal
  split
  · exact h
  rename_i e hget
  obtain ⟨he, hkey⟩ := Keyed.mem_get?.1 hget
  have hput := h.touch he { e with terminal := true } rfl rfl rfl
  dsimp only
  split
  · rename_i hidle
    have hmem : ({ e with terminal := true } : Entry K) ∈
        r.entries.put { e with terminal := true } := Keyed.mem_put.2 (.inl rfl)
    have hpop := hput.pop hmem hidle
    rw [← hkey]
    exact hpop
  · exact hput

theorem Registry.Sound.sweepEntries (now : Int) {es : List (Entry K)}
    (hmem : ∀ e ∈ es, e ∈ r.entries) (hdistinct : es.Nodup) (removed : Nat) :
    (sweepEntries cfg now es removed r).1.Sound leases taken drawn := by
  induction es generalizing r removed with
  | nil => exact h
  | cons e es ih =>
    obtain ⟨hnot, hdistinct⟩ := nodup_cons.1 hdistinct
    unfold ScopedRegistry.sweepEntries
    split
    · exact ih h (fun x hx => hmem x (mem_cons_of_mem _ hx)) hdistinct _
    rename_i hstale
    rw [not_or, not_not] at hstale
    have he := hmem e mem_cons_self
    apply ih (h.pop he hstale.1) _ hdistinct
    intro x hx
    refine (mem_pop he).2 ⟨hmem x (mem_cons_of_mem _ hx), ?_⟩
    rintro rfl
    exact hnot hx

theorem Registry.Sound.sweep (now : Int) : (sweep cfg r now).1.Sound leases taken drawn :=
  h.sweepEntries now (fun _ he => he) (r.entries.nodup.of_map _) 0

end

/-! ## The laws -/

/-- The laws of a state: no runtime with a lease is closed or taken away, the entries count
their leases, and no runtime is closed twice. -/
structure System.Lawful (s : System K) : Prop where
  count : ∀ e ∈ s.registry.entries, e.activeLeases = s.leases.countP fun l => l.value = e.value
  held : ∀ l ∈ s.leases, ∃ e ∈ s.registry.entries, e.key = l.key ∧ e.value = l.value
  unclosed : ∀ l ∈ s.leases,
    ¬ l.value ∈ s.registry.pendingClose ∧ ¬ l.value ∈ s.closing ∧ ¬ l.value ∈ s.closed
  once : s.closed.Nodup

/-- The laws of a critical section: an acquire that fails has changed no other entry, and a
release changes the entry of its own runtime only. -/
def StepLaw (cfg : Settings) (s : System K) : Label K → Prop
  | .acquire key now made =>
    ∀ error, (s.getOrCreate cfg key now made).2 = .error error → ∀ k, k ≠ key →
      (s.getOrCreate cfg key now made).1.entries.get? k = s.registry.entries.get? k
  | .lease index now => ∀ a, s.acquiring[index]? = some a →
      ∀ error, acquire s.registry a.key now = .error error → a.evicted = false
  | .release index now => ∀ l, s.leases[index]? = some l →
      ∀ e ∈ s.registry.entries, e.value ≠ l.value → e ∈ (release s.registry l.key now).entries
  | _ => True

/-- The critical section is lawful, and so is what it leaves. -/
def Law (cfg : Settings) (s : System K) (l : Label K) : Prop :=
  StepLaw cfg s l ∧ (step cfg s l).Lawful

/-- The factory of an acquire does not raise after an eviction for it, and the second critical section of an acquire
finds the entry that the first one has returned, or none when it has evicted none. -/
def Undisturbed (cfg : Settings) (s : System K) : Label K → Prop
  | .acquire key _ made => made = false → s.registry.evicts cfg key = false
  | .lease index _ => ∀ a, s.acquiring[index]? = some a →
      (∀ e, s.registry.entries.get? a.key = some e → e.value = a.value) ∧
        (s.registry.entries.get? a.key = none → a.evicted = false)
  | _ => True

/-- The registry of the state with its leases. -/
def System.Sound (s : System K) : Prop :=
  s.registry.Sound s.leases (s.closing ++ s.closed) s.drawn

variable {s : System K}

omit [DecidableEq K] in
theorem System.Sound.lawful (h : s.Sound) : s.Lawful where
  __ := h
  unclosed l hl := by
    obtain ⟨e, he, -, hvalue⟩ := h.held l hl
    have hmem : l.value ∈ s.registry.entries.rows.map value :=
      hvalue ▸ mem_map_of_mem he
    obtain ⟨hvalues, -, htaken⟩ := nodup_append.1 h.nodup
    have hpending := (nodup_append.1 hvalues).2.2
    refine ⟨fun hin => hpending _ hmem _ hin rfl, fun hin => ?_, fun hin => ?_⟩
    · exact htaken _ (mem_append_left _ hmem) _ (mem_append_left _ hin) rfl
    · exact htaken _ (mem_append_left _ hmem) _ (mem_append_right _ hin) rfl
  once := (nodup_append.1 (nodup_append.1 h.nodup).2.1).2.1

theorem sound_step (s : System K) (l : Label K) (hundisturbed : Undisturbed cfg s l)
    (h : s.Sound) : (step cfg s l).Sound := by
  cases l with
  | getOrCreate key now made | acquire key now made =>
    exact Sound.getOrCreate h key now made
  | lease index now =>
    unfold step
    dsimp only
    split
    · exact h
    rename_i a ha
    split
    · exact h
    rename_i r hacquire
    cases hget : s.registry.entries.get? a.key with
    | none =>
      unfold acquire at hacquire
      rw [hget] at hacquire
      cases hacquire
    | some e => exact Sound.acquire h hget ((hundisturbed a ha).1 e hget) hacquire
  | release index now =>
    unfold step
    dsimp only
    split
    · exact h
    rename_i l hl
    exact Sound.release h hl now
  | markTerminal key => exact Sound.markTerminal h key
  | sweep now => exact Sound.sweep h now
  | flush =>
    refine Sound.move h rfl ?_
    show (s.closing ++ s.registry.pendingClose ++ s.closed).Perm _
    rw [append_assoc]
    exact perm_append_comm_assoc _ _ _
  | close value =>
    unfold step
    dsimp only
    split
    · rename_i hmem
      refine Sound.move h rfl (List.Perm.append_left _ ?_)
      rw [← append_assoc]
      refine (perm_append_singleton _ _).trans ?_
      rw [← cons_append]
      exact (perm_cons_erase hmem).symm.append_right _
    · exact h

theorem getOrCreate_of_unevicted {made : Bool}
    (h : made = false → s.registry.evicts cfg key = false)
    (herror : (s.getOrCreate cfg key now made).2 = .error error) :
    (s.getOrCreate cfg key now made).1 = s.registry := by
  unfold System.getOrCreate getOrCreate create at herror ⊢
  cases hget : s.registry.entries.get? key with
  | some e =>
    rw [hget] at herror
    cases herror
  | none =>
    rw [hget] at herror
    by_cases hfull : cfg.maxEntries ≤ s.registry.entries.rows.length
    · rw [if_pos hfull] at herror ⊢
      cases hevict : evictOne s.registry with
      | none => rfl
      | some r =>
        rw [hevict] at herror
        cases made with
        | true => cases herror
        | false =>
          -- The entry that was taken away is what the condition excludes.
          obtain ⟨e, he, -⟩ := map_eq_some_iff.1 hevict
          have hnone := h rfl
          rw [evicts, hget, he, decide_eq_false_iff_not] at hnone
          exact absurd ⟨rfl, hfull, rfl⟩ hnone
    · rw [if_neg hfull] at herror ⊢
      cases made with
      | true => cases herror
      | false => rfl

/-- An entry of another key is gone when the factory raises after an eviction. -/
theorem getOrCreate_of_evicted (h : s.registry.evicts cfg key = true) :
    (s.getOrCreate cfg key now false).2 = .error .factory ∧ ∃ k, k ≠ key ∧
      (s.getOrCreate cfg key now false).1.entries.get? k ≠ s.registry.entries.get? k := by
  obtain ⟨hnone, hfull, hidle⟩ := of_decide_eq_true h
  obtain ⟨e, he⟩ := isSome_iff_exists.1 hidle
  rw [isNone_iff_eq_none] at hnone
  have hmem : e ∈ s.registry.entries := mem_of_find?_eq_some he
  unfold System.getOrCreate getOrCreate create
  rw [hnone, if_pos hfull, evictOne, he]
  refine ⟨rfl, e.key, get?_eq_none.1 hnone e hmem, ?_⟩
  have hget : s.registry.entries.get? e.key = some e := mem_get?.2 ⟨hmem, rfl⟩
  show (s.registry.pop e.key).entries.get? e.key ≠ _
  rw [pop, hget]
  rw [get?_erase, if_pos rfl]
  exact fun h => by cases h

theorem acquire_eq_error (h : acquire r key now = .error error) : r.entries.get? key = none := by
  unfold acquire at h
  split at h
  · assumption
  · cases h

/-- A release leaves the entries of the other keys. -/
theorem mem_release (now : Int) (he : e ∈ r.entries) (hne : e.key ≠ key) :
    e ∈ (release r key now).entries := by
  unfold release
  split
  · exact he
  rename_i x hget
  obtain ⟨hx, hkey⟩ := mem_get?.1 hget
  have hput : e ∈ r.entries.put { x with activeLeases := x.activeLeases - 1, lastUsed := now } :=
    mem_put.2 (.inr ⟨he, fun hsame => hne (hsame.trans hkey)⟩)
  dsimp only
  split
  · unfold pop
    split
    · exact hput
    · exact mem_erase.2 ⟨hput, hne⟩
  · exact hput

/-- In a state whose entries count their leases, a critical section is lawful exactly when it
is not disturbed. -/
theorem law_iff (h : s.Sound) (l : Label K) : Law cfg s l ↔ Undisturbed cfg s l := by
  constructor
  · rintro ⟨hstep, hlawful⟩
    cases l with
    | acquire key now made =>
      rintro rfl
      by_contra hevicts
      rw [Bool.not_eq_false] at hevicts
      have hevicted : (s.getOrCreate cfg key now false).2 = .error .factory ∧ ∃ k, k ≠ key ∧
          (s.getOrCreate cfg key now false).1.entries.get? k ≠ s.registry.entries.get? k :=
        getOrCreate_of_evicted hevicts
      obtain ⟨herror, k, hk, hne⟩ := hevicted
      exact hne (hstep _ herror k hk)
    | lease index now =>
      intro a ha
      constructor
      · intro e hget
        have hacquire : acquire s.registry a.key now = .ok { s.registry with
            entries := s.registry.entries.put
              { e with activeLeases := e.activeLeases + 1, lastUsed := now } } := by
          unfold acquire
          rw [hget]
        unfold step at hlawful
        dsimp only at hlawful
        rw [ha] at hlawful
        dsimp only at hlawful
        rw [hacquire] at hlawful
        obtain ⟨x, hx, hkey, hvalue⟩ := hlawful.held ⟨a.key, a.value⟩
          (mem_append_right _ (mem_singleton_self _))
        -- The entry of the key has the runtime that it had.
        rcases mem_put.1 hx with rfl | ⟨-, hne⟩
        · exact hvalue
        · exact absurd (hkey.trans (mem_get?.1 hget).2.symm) hne
      · intro hnone
        have hacquire : acquire s.registry a.key now = .error .keyError := by
          unfold acquire
          rw [hnone]
        exact hstep a ha _ hacquire
    | _ => trivial
  · intro hundisturbed
    refine ⟨?_, (sound_step s l hundisturbed h).lawful⟩
    cases l with
    | acquire key now made =>
      intro error herror k _
      rw [getOrCreate_of_unevicted hundisturbed herror]
    | lease index now =>
      intro a ha error herror
      exact (hundisturbed a ha).2 (acquire_eq_error herror)
    | release index now =>
      intro l hl e he hne
      apply mem_release now he
      intro hkey
      obtain ⟨x, hx, hxkey, hxvalue⟩ := h.held l (mem_of_getElem? hl)
      have heq : e = x := Sound.eq_of_key he hx (hkey.trans hxkey.symm)
      exact hne (heq ▸ hxvalue)
    | _ => trivial

omit [DecidableEq K] in
theorem sound_init : (System.init : System K).Sound where
  count e he := absurd he (not_mem_empty e)
  held l hl := by cases hl
  nodup := nodup_nil
  drawn v hv := by cases hv

/-- The laws hold of every critical section of a run exactly when no acquire of it is
disturbed. -/
theorem leases_held (cfg : Settings) (trace : List (Label K)) :
    Meets (step cfg) (Law cfg) System.init trace ↔
      Meets (step cfg) (Undisturbed cfg) System.init trace :=
  meets_congr (fun _ l hs => law_iff hs l) (fun s l hl hs => sound_step s l hl hs) sound_init trace

/-- A registry of one runtime. -/
def Settings.single : Settings := ⟨1, 10, by decide⟩

/-- Between the critical sections of an acquire, two other threads acquire. -/
def overtaken : List (Label String) :=
  [.acquire "a" 0 true, .acquire "b" 0 true, .acquire "a" 0 true, .lease 0 0]

/-- The first thread has a lease on a runtime that waits to be closed. -/
theorem overtaken_breaks : ¬ ∀ (cfg : Settings) (trace : List (Label String)),
    Meets (step cfg) (Law cfg) System.init trace := by
  intro h
  have hsplit := (meets_iff_forall_split _ _).1 (h .single overtaken)
    [.acquire "a" 0 true, .acquire "b" 0 true, .acquire "a" 0 true] (.lease 0 0) [] rfl
  have hlease : (⟨"a", 0⟩ : Lease String) ∈ (run (step .single) System.init overtaken).leases := by
    decide
  have hclosing : 0 ∈ (run (step .single) System.init overtaken).registry.pendingClose := by decide
  exact (hsplit.2.unclosed _ hlease).1 hclosing

end ScopedRegistry
