import Mathlib.Data.List.Basic
import Mathlib.Data.List.Pairwise

/-! # Tables with unique indexes

A table is the list of its rows in insertion order, together with the proof
that no two of them collide on a unique index. `conflict` says which pairs of
rows the indexes forbid; the rules of the table never look inside it.

An insert or an update that would break an index is refused (`none`), as a
database refuses it with an integrity error.
-/

universe u

/-- A table of rows `ρ` in which no two rows stand in `conflict`. -/
structure Table (ρ : Type u) (conflict : ρ → ρ → Prop) where
  rows : List ρ
  sound : rows.Pairwise fun a b => ¬ conflict a b

namespace Table

open List

variable {ρ : Type u} {conflict : ρ → ρ → Prop}
variable {t t' : Table ρ conflict} {sel : ρ → Bool} {r : ρ}
variable {f : ρ → ρ} {a : ρ}

instance : Membership ρ (Table ρ conflict) := ⟨fun t r => r ∈ t.rows⟩

theorem mem_def : r ∈ t ↔ r ∈ t.rows := Iff.rfl

/-- The table without rows. -/
def empty : Table ρ conflict := ⟨[], List.Pairwise.nil⟩

@[simp] theorem not_mem_empty (r : ρ) : ¬ r ∈ (empty : Table ρ conflict) := not_mem_nil

/-- Two rows of a table that collide are one row. -/
theorem eq_of_conflict [Std.Symm conflict] {b : ρ} (ha : a ∈ t) (hb : b ∈ t) (h : conflict a b) :
    a = b := by
  by_contra hne
  have : Std.Symm fun a b => ¬ conflict a b := ⟨fun a b hab hba => hab (symm hba)⟩
  exact t.sound.forall ha hb hne h

/-- `SELECT … WHERE sel LIMIT 1` for a selection that an index makes unique. -/
def lookup (t : Table ρ conflict) (sel : ρ → Bool) : Option ρ := t.rows.find? sel

theorem mem_of_lookup (h : t.lookup sel = some r) : r ∈ t ∧ sel r = true :=
  ⟨mem_of_find?_eq_some h, find?_some h⟩

theorem lookup_eq_none : t.lookup sel = none ↔ ∀ r ∈ t, sel r = false := by
  simp [lookup, find?_eq_none, mem_def]

/-- When any two selected rows collide, a selected row is what the lookup finds. -/
theorem lookup_eq_some [Std.Symm conflict]
    (hsel : ∀ a b, sel a = true → sel b = true → conflict a b) :
    t.lookup sel = some r ↔ r ∈ t ∧ sel r = true := by
  refine ⟨mem_of_lookup, ?_⟩
  rintro ⟨hr, hs⟩
  cases hfound : t.lookup sel with
  | none => simp [lookup_eq_none.1 hfound r hr] at hs
  | some a =>
    have ha := mem_of_lookup hfound
    rw [eq_of_conflict ha.1 hr (hsel a r ha.2 hs)]

/-- `DELETE … WHERE sel`. -/
def delete (t : Table ρ conflict) (sel : ρ → Bool) : Table ρ conflict :=
  ⟨t.rows.filter fun r => !sel r, t.sound.filter _⟩

theorem mem_delete : r ∈ t.delete sel ↔ r ∈ t ∧ sel r = false := by
  show r ∈ t.rows.filter _ ↔ _
  rw [mem_filter, mem_def, Bool.not_eq_true']

variable [DecidableRel conflict]

/-- `INSERT`: refused when a stored row collides with the new one. -/
def insert? (t : Table ρ conflict) (r : ρ) : Option (Table ρ conflict) :=
  if h : (t.rows ++ [r]).Pairwise fun a b => ¬ conflict a b then some ⟨t.rows ++ [r], h⟩ else none

/-- `UPDATE … SET … WHERE sel`: refused when the new rows collide. -/
def update? (t : Table ρ conflict) (sel : ρ → Bool) (f : ρ → ρ) : Option (Table ρ conflict) :=
  if h : (t.rows.map fun r => if sel r then f r else r).Pairwise fun a b => ¬ conflict a b then
    some ⟨_, h⟩
  else none

theorem rows_of_insert? (h : t.insert? r = some t') : t'.rows = t.rows ++ [r] := by
  unfold insert? at h
  split at h
  · injection h with h
    rw [← h]
  · cases h

theorem rows_of_update? (h : t.update? sel f = some t') :
    t'.rows = t.rows.map fun r => if sel r then f r else r := by
  unfold update? at h
  split at h
  · injection h with h
    rw [← h]
  · cases h

/-- An update that makes no stored rows collide is done. -/
theorem exists_update?_of_mem (t : Table ρ conflict) (sel : ρ → Bool) (f : ρ → ρ)
    (h : ∀ a ∈ t, ∀ b ∈ t, conflict (if sel a then f a else a) (if sel b then f b else b) →
      conflict a b) : ∃ t', t.update? sel f = some t' := by
  have hpair : (t.rows.map fun r => if sel r then f r else r).Pairwise fun a b =>
      ¬ conflict a b := by
    rw [pairwise_map]
    refine t.sound.imp_of_mem ?_
    intro a b ha hb hab hconflict
    exact hab (h a ha b hb hconflict)
  exact ⟨⟨_, hpair⟩, dif_pos hpair⟩

/-- An update that makes no rows collide is done. -/
theorem exists_update? (t : Table ρ conflict) (sel : ρ → Bool) (f : ρ → ρ)
    (h : ∀ a b, conflict (if sel a then f a else a) (if sel b then f b else b) → conflict a b) :
    ∃ t', t.update? sel f = some t' :=
  t.exists_update?_of_mem sel f fun a _ b _ => h a b

theorem mem_insert? (h : t.insert? r = some t') : a ∈ t' ↔ a ∈ t ∨ a = r := by
  simp [mem_def, rows_of_insert? h]

/-- An insert is refused when the new row collides with a stored one. -/
theorem insert?_eq_none [Std.Symm conflict] (h : t.insert? r = none) : ∃ a ∈ t, conflict a r := by
  unfold insert? at h
  split at h
  · cases h
  rename_i hpair
  by_contra hfree
  refine hpair (pairwise_append.2 ⟨t.sound, pairwise_singleton _ _, ?_⟩)
  intro a ha b hb hab
  rw [mem_singleton.1 hb] at hab
  exact hfree ⟨a, ha, hab⟩

/-- A row that collides with no stored row is inserted. -/
theorem insert?_of_fresh [Std.Symm conflict] (h : ∀ a ∈ t, ¬ conflict a r) :
    ∃ t', t.insert? r = some t' := by
  rcases hins : t.insert? r with _ | t'
  · obtain ⟨a, ha, hconflict⟩ := insert?_eq_none hins
    exact absurd hconflict (h a ha)
  · exact ⟨t', rfl⟩

/-- The new row of an insert collided with no stored row. -/
theorem fresh_of_insert? (h : t.insert? r = some t') {a : ρ} (ha : a ∈ t) : ¬ conflict a r := by
  have hs := t'.sound
  rw [rows_of_insert? h, pairwise_append] at hs
  exact hs.2.2 a ha r (mem_singleton_self r)

theorem mem_update? (h : t.update? sel f = some t') :
    a ∈ t' ↔ ∃ r ∈ t, a = if sel r then f r else r := by
  rw [mem_def, rows_of_update? h, mem_map]
  constructor
  · rintro ⟨r, hr, rfl⟩
    exact ⟨r, hr, rfl⟩
  · rintro ⟨r, hr, rfl⟩
    exact ⟨r, hr, rfl⟩

/-- A row after an update is an updated one, or one that was not selected. -/
theorem update?_cases (h : t.update? sel f = some t') (ha : a ∈ t') :
    (∃ r ∈ t, sel r = true ∧ a = f r) ∨ (a ∈ t ∧ sel a ≠ true) := by
  obtain ⟨r, hr, rfl⟩ := (mem_update? h).1 ha
  split
  · rename_i hs
    exact .inl ⟨r, hr, hs, rfl⟩
  · rename_i hs
    exact .inr ⟨hr, hs⟩

/-- An update relates the rows before and after as it relates the ones it selects. -/
theorem update?_related {P : ρ → ρ → Prop} (h : t.update? sel f = some t') (hrefl : ∀ r, P r r)
    (hf : ∀ r, P r (f r)) : (∀ a ∈ t', ∃ r ∈ t, P r a) ∧ ∀ r ∈ t, ∃ a ∈ t', P r a := by
  have hrelated : ∀ r, P r (if sel r then f r else r) := by
    intro r
    split
    · exact hf r
    · exact hrefl r
  constructor
  · intro a ha
    obtain ⟨r, hr, rfl⟩ := (mem_update? h).1 ha
    exact ⟨r, hr, hrelated r⟩
  · exact fun r hr => ⟨_, (mem_update? h).2 ⟨r, hr, rfl⟩, hrelated r⟩

/-- Where the indexes make the selected row unique, its update writes this row
and keeps all others. -/
theorem mem_update?_of_unique [Std.Symm conflict]
    (hsel : ∀ a b, sel a = true → sel b = true → conflict a b) (h : t.update? sel f = some t')
    (hr : r ∈ t) (hs : sel r = true) : a ∈ t' ↔ a = f r ∨ (a ∈ t ∧ a ≠ r) := by
  rw [mem_update? h]
  constructor
  · rintro ⟨b, hb, rfl⟩
    by_cases hsb : sel b = true
    · rw [eq_of_conflict hb hr (hsel b r hsb hs), if_pos hs]
      exact .inl rfl
    · rw [if_neg hsb]
      exact .inr ⟨hb, fun hbr => hsb (hbr ▸ hs)⟩
  · rintro (rfl | ⟨ha, hne⟩)
    · exact ⟨r, hr, by rw [if_pos hs]⟩
    · have hns : ¬ sel a = true := fun hsa => hne (eq_of_conflict ha hr (hsel a r hsa hs))
      exact ⟨a, ha, by rw [if_neg hns]⟩

end Table
