import Mathlib.Data.List.Perm.Basic
import Mathlib.Data.List.Nodup

/-! # Tables with one row for each key

A table that is only written by its key: a row is put in the place of the one with its
key, or added. What a key holds, and which rows there are, is all the rules speak of.
-/

universe u v

/-- Rows `ρ`, no two of the same key. -/
structure Keyed {ρ : Type u} {κ : Type v} (key : ρ → κ) where
  rows : List ρ
  nodup : (rows.map key).Nodup

namespace Keyed

open List

variable {ρ : Type u} {κ : Type v} {key : ρ → κ}

instance : Membership ρ (Keyed key) := ⟨fun t r => r ∈ t.rows⟩

variable {t : Keyed key} {r : ρ} {k : κ}

theorem mem_def : r ∈ t ↔ r ∈ t.rows := Iff.rfl

instance {p : ρ → Prop} [DecidablePred p] (t : Keyed key) : Decidable (∀ r ∈ t, p r) :=
  inferInstanceAs (Decidable (∀ _ ∈ _, _))

/-- The table without rows. -/
def empty : Keyed key := ⟨[], List.nodup_nil⟩

@[simp] theorem not_mem_empty (r : ρ) : r ∉ (empty : Keyed key) := not_mem_nil

/-- A pass that keeps some of the rows, as they are or changed. -/
def filterMap (t : Keyed key) (f : ρ → Option ρ) (hf : ∀ a b, f a = some b → key b = key a) :
    Keyed key where
  rows := t.rows.filterMap f
  nodup := by
    have hkeys : ∀ rows : List ρ, ((rows.filterMap f).map key).Sublist (rows.map key) := by
      intro rows
      induction rows with
      | nil => exact .slnil
      | cons a rows ih =>
        cases ha : f a with
        | none =>
          rw [List.filterMap_cons_none ha]
          exact ih.cons _
        | some b =>
          rw [List.filterMap_cons_some ha, List.map_cons, List.map_cons, hf a b ha]
          exact ih.cons_cons _
    exact t.nodup.sublist (hkeys t.rows)

/-- The rows from the end, up to a bound. -/
def takeLast (t : Keyed key) (bound : Nat) : Keyed key where
  rows := t.rows.drop (t.rows.length - bound)
  nodup := t.nodup.sublist ((List.drop_sublist _ _).map key)

/-- Within the bound, all of them. -/
theorem takeLast_of_le {bound : Nat} (h : t.rows.length ≤ bound) : t.takeLast bound = t := by
  have hzero : t.rows.length - bound = 0 := by omega
  unfold takeLast
  simp only [hzero, drop_zero]

variable [DecidableEq κ]

/-- The row of a key. -/
def get? (t : Keyed key) (k : κ) : Option ρ := t.rows.find? fun r => key r = k

/-- `DELETE … WHERE key = k`. -/
def erase (t : Keyed key) (k : κ) : Keyed key where
  rows := t.rows.filter fun r => key r ≠ k
  nodup := t.nodup.sublist (List.filter_sublist.map key)

theorem mem_get? : t.get? k = some r ↔ r ∈ t ∧ key r = k := by
  constructor
  · intro h
    exact ⟨mem_of_find?_eq_some h, by simpa using find?_some h⟩
  rintro ⟨hr, rfl⟩
  cases hfound : t.get? (key r) with
  | none =>
    have := find?_eq_none.1 hfound r hr
    simp at this
  | some a =>
    have ha : a ∈ t.rows := mem_of_find?_eq_some hfound
    have hkey : key a = key r := by simpa using find?_some hfound
    rw [inj_on_of_nodup_map t.nodup ha hr hkey]

theorem get?_eq_none : t.get? k = none ↔ ∀ r ∈ t, key r ≠ k := by
  simp [get?, find?_eq_none, mem_def]

theorem mem_erase : r ∈ t.erase k ↔ r ∈ t ∧ key r ≠ k := by
  rw [mem_def, erase, mem_filter, mem_def]
  simp

/-- The rows after a write: in the place of the row of its key, or added. -/
def putRows (t : Keyed key) (r : ρ) : List ρ :=
  if (t.get? (key r)).isSome then t.rows.map fun a => if key a = key r then r else a
  else t.rows ++ [r]

theorem nodup_putRows (t : Keyed key) (r : ρ) : ((t.putRows r).map key).Nodup := by
  unfold putRows
  split
  · have hkeys : (t.rows.map fun a => if key a = key r then r else a).map key = t.rows.map key := by
      rw [map_map]
      apply map_congr_left
      intro a _
      simp only [Function.comp_apply]
      split
      · rename_i heq
        exact heq.symm
      · rfl
    rw [hkeys]
    exact t.nodup
  · rename_i hnone
    rw [Option.not_isSome_iff_eq_none, get?_eq_none] at hnone
    rw [map_append, nodup_append]
    refine ⟨t.nodup, nodup_singleton _, ?_⟩
    intro k hk k' hk' heq
    obtain ⟨a, ha, rfl⟩ := mem_map.1 hk
    rw [map_singleton, mem_singleton] at hk'
    exact hnone a ha (heq.trans hk')

/-- `INSERT … ON CONFLICT (key) DO UPDATE`. -/
def put (t : Keyed key) (r : ρ) : Keyed key := ⟨t.putRows r, t.nodup_putRows r⟩

theorem mem_put {a : ρ} : r ∈ t.put a ↔ r = a ∨ r ∈ t ∧ key r ≠ key a := by
  show r ∈ t.putRows a ↔ _
  unfold putRows
  split
  · rename_i hsome
    obtain ⟨old, hold⟩ := Option.isSome_iff_exists.1 hsome
    obtain ⟨hmem, hkey⟩ := mem_get?.1 hold
    rw [mem_map]
    constructor
    · rintro ⟨b, hb, rfl⟩
      split
      · exact .inl rfl
      · rename_i hne
        exact .inr ⟨hb, hne⟩
    · rintro (rfl | ⟨hr, hne⟩)
      · exact ⟨old, hmem, if_pos hkey⟩
      · exact ⟨r, hr, if_neg hne⟩
  · rename_i hnone
    rw [Option.not_isSome_iff_eq_none, get?_eq_none] at hnone
    rw [mem_append, mem_singleton]
    constructor
    · rintro (hr | rfl)
      · exact .inr ⟨hr, hnone r hr⟩
      · exact .inl rfl
    · rintro (rfl | ⟨hr, -⟩)
      · exact .inr rfl
      · exact .inl hr

theorem get?_erase (t : Keyed key) (k k' : κ) :
    (t.erase k).get? k' = if k' = k then none else t.get? k' := by
  split
  · rename_i heq
    rw [get?_eq_none]
    intro r hr
    rw [heq]
    exact (mem_erase.1 hr).2
  rename_i hne
  ext r
  rw [mem_get?, mem_erase, mem_get?]
  constructor
  · rintro ⟨⟨hr, -⟩, hkey⟩
    exact ⟨hr, hkey⟩
  · rintro ⟨hr, rfl⟩
    exact ⟨⟨hr, hne⟩, rfl⟩

theorem get?_put (t : Keyed key) (a : ρ) (k : κ) :
    (t.put a).get? k = if k = key a then some a else t.get? k := by
  ext r
  rw [mem_get?, mem_put]
  split
  · rename_i heq
    subst heq
    constructor
    · rintro ⟨rfl | ⟨-, hne⟩, hkey⟩
      · rfl
      · exact absurd hkey hne
    · intro h
      cases h
      exact ⟨.inl rfl, rfl⟩
  · rename_i hne
    rw [mem_get?]
    constructor
    · rintro ⟨rfl | ⟨hr, -⟩, rfl⟩
      · exact absurd rfl hne
      · exact ⟨hr, rfl⟩
    · rintro ⟨hr, rfl⟩
      exact ⟨.inr ⟨hr, hne⟩, rfl⟩

/-- Without a row of the key, nothing is erased. -/
theorem erase_of_get?_none (h : t.get? k = none) : t.erase k = t := by
  have hrows : t.rows.filter (fun r => key r ≠ k) = t.rows := by
    rw [filter_eq_self]
    intro r hr
    simpa using get?_eq_none.1 h r hr
  cases t
  simp only [erase, mk.injEq]
  exact hrows

/-- A row that is there is put in its own place. -/
theorem put_self {a : ρ} (h : t.get? (key a) = some a) : t.put a = t := by
  have hrows : t.putRows a = t.rows := by
    rw [putRows, if_pos (by rw [h]; rfl)]
    calc t.rows.map (fun b => if key b = key a then a else b) = t.rows.map id := by
          apply map_congr_left
          intro b hb
          split
          · rename_i heq
            exact inj_on_of_nodup_map t.nodup (mem_get?.1 h).1 hb heq.symm
          · rfl
      _ = t.rows := map_id _
  cases t
  simp only [put, mk.injEq]
  exact hrows

/-- The row that is put, and the rows of the other keys. -/
theorem perm_put (t : Keyed key) (a : ρ) : (t.put a).rows.Perm (a :: (t.erase (key a)).rows) := by
  rw [perm_ext_iff_of_nodup]
  · intro r
    rw [mem_cons, ← mem_def, ← mem_def, mem_put, mem_erase]
  · exact (t.put a).nodup.of_map key
  rw [nodup_cons]
  refine ⟨?_, (t.erase (key a)).nodup.of_map key⟩
  rw [← mem_def, mem_erase]
  exact fun h => h.2 rfl

/-- The first row of a kind stays the first one when a row of another key is put that is not of
the kind. -/
theorem find?_put_of_ne {a : ρ} {p : ρ → Bool} (hr : t.rows.find? p = some r) (ha : p a = false)
    (hne : key r ≠ key a) : (t.put a).rows.find? p = some r := by
  show (t.putRows a).find? p = some r
  unfold putRows
  split
  · generalize t.rows = l at hr
    induction l with
    | nil => cases hr
    | cons b l ih =>
      rw [find?_cons] at hr
      rw [map_cons, find?_cons]
      cases hb : p b with
      | true =>
        rw [hb] at hr
        injection hr with hr
        rw [hr, if_neg hne, ← hr, hb]
      | false =>
        rw [hb] at hr
        have hskip : p (if key b = key a then a else b) = false := by
          split
          · exact ha
          · exact hb
        rw [hskip]
        exact ih hr
  · rw [find?_append, hr]
    rfl

theorem get?_filterMap (t : Keyed key) (f : ρ → Option ρ)
    (hf : ∀ a b, f a = some b → key b = key a) (k : κ) :
    (t.filterMap f hf).get? k = (t.get? k).bind f := by
  ext r
  rw [mem_get?, Option.bind_eq_some_iff]
  constructor
  · rintro ⟨hr, rfl⟩
    obtain ⟨a, ha, har⟩ := mem_filterMap.1 hr
    exact ⟨a, mem_get?.2 ⟨ha, (hf a r har).symm⟩, har⟩
  · rintro ⟨a, ha, har⟩
    obtain ⟨hmem, hkey⟩ := mem_get?.1 ha
    exact ⟨mem_filterMap.2 ⟨a, hmem, har⟩, (hf a r har).trans hkey⟩

/-- A row of another key is added at the end. -/
theorem length_put_erase (t : Keyed key) (a : ρ) :
    ((t.erase (key a)).put a).rows.length = (t.erase (key a)).rows.length + 1 := by
  have hlength := (perm_put (t.erase (key a)) a).length_eq
  have hself : (t.erase (key a)).erase (key a) = t.erase (key a) :=
    erase_of_get?_none (by rw [get?_erase, if_pos rfl])
  rw [hself, length_cons] at hlength
  exact hlength

end Keyed
