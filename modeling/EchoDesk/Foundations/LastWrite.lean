import Mathlib.Data.List.Induction
import Mathlib.Data.List.Nodup

/-! # Last write wins

A log of entries, each with a key. A reader that stores every entry under its
key keeps, for each key, the last entry of the log: as a function (`lastOf`) and
as the dictionary that `d[key] = entry` builds in a loop (`latest`), whose
entries stay where their key was first seen.
-/

universe u v

namespace LastWrite

open List Function

variable {α : Type u} {κ : Type v} [DecidableEq κ] (key : α → κ)
variable {a : α} {d l log : List α}

/-- The last entry of a key. -/
def lastOf (log : List α) (k : κ) : Option α := (log.filter fun a => key a = k).getLast?

/-- `d[key] = a`. -/
def remember (latest : List α) (a : α) : List α :=
  if latest.any fun b => key b = key a then latest.map fun b => if key b = key a then a else b
  else latest ++ [a]

/-- The dictionary of a log. -/
def latest (log : List α) : List α := log.foldl (remember key) []

variable {key}

theorem lastOf_concat (log : List α) (a : α) (k : κ) :
    lastOf key (log ++ [a]) k = if key a = k then some a else lastOf key log k := by
  rw [lastOf, filter_append]
  by_cases h : key a = k
  · rw [if_pos h, filter_cons_of_pos (by simpa using h), filter_nil, getLast?_concat]
  · rw [if_neg h, filter_cons_of_neg (by simpa using h), filter_nil, append_nil]
    rfl

theorem lastOf_mem {k : κ} (h : lastOf key log k = some a) : a ∈ log ∧ key a = k := by
  have hmem := mem_filter.1 (mem_of_getLast? h)
  exact ⟨hmem.1, of_decide_eq_true hmem.2⟩

theorem mem_remember {b : α} : b ∈ remember key d a ↔ b = a ∨ b ∈ d ∧ key b ≠ key a := by
  unfold remember
  split
  · rename_i hany
    obtain ⟨c, hc, hkey⟩ := any_eq_true.1 hany
    rw [mem_map]
    constructor
    · rintro ⟨e, he, rfl⟩
      by_cases h : key e = key a
      · exact .inl (if_pos h)
      · rw [if_neg h]
        exact .inr ⟨he, h⟩
    · rintro (rfl | ⟨hb, hne⟩)
      · exact ⟨c, hc, if_pos (of_decide_eq_true hkey)⟩
      · exact ⟨b, hb, if_neg hne⟩
  · rename_i hany
    have hfresh : ∀ e ∈ d, key e ≠ key a := by simpa using hany
    rw [mem_append, mem_singleton]
    constructor
    · rintro (hb | rfl)
      · exact .inr ⟨hb, hfresh b hb⟩
      · exact .inl rfl
    · rintro (rfl | ⟨hb, -⟩)
      · exact .inr rfl
      · exact .inl hb

/-- The dictionary holds the last entry of each key. -/
theorem mem_latest : a ∈ latest key log ↔ lastOf key log (key a) = some a := by
  induction log using List.reverseRecOn with
  | nil => simp [latest, lastOf]
  | append_singleton log b ih =>
    have hstep : latest key (log ++ [b]) = remember key (latest key log) b := by
      simp [latest, foldl_append]
    rw [hstep, mem_remember, lastOf_concat, ih]
    by_cases h : key b = key a
    · rw [if_pos h]
      constructor
      · rintro (rfl | ⟨-, hne⟩)
        · rfl
        · exact absurd h.symm hne
      · intro hba
        exact .inl (Option.some.inj hba).symm
    rw [if_neg h]
    constructor
    · rintro (rfl | ⟨ha, -⟩)
      · exact absurd rfl h
      · exact ha
    · intro ha
      exact .inr ⟨ha, fun hab => h hab.symm⟩

theorem map_key_remember :
    (remember key d a).map key = if key a ∈ d.map key then d.map key else d.map key ++ [key a] := by
  have hany : (d.any fun b => key b = key a) = true ↔ key a ∈ d.map key := by simp
  unfold remember
  by_cases h : key a ∈ d.map key
  · rw [if_pos (hany.2 h), if_pos h, map_map]
    refine map_congr_left fun b _ => ?_
    rw [comp_apply]
    by_cases hb : key b = key a
    · rw [if_pos hb, hb]
    · rw [if_neg hb]
  · rw [if_neg (fun hs => h (hany.1 hs)), if_neg h, map_append]
    rfl

/-- No key has two entries. -/
theorem nodup_latest (log : List α) : ((latest key log).map key).Nodup := by
  induction log using List.reverseRecOn with
  | nil => exact nodup_nil
  | append_singleton log b ih =>
    have hstep : latest key (log ++ [b]) = remember key (latest key log) b := by
      simp [latest, foldl_append]
    rw [hstep, map_key_remember]
    split
    · exact ih
    rename_i h
    rw [nodup_append]
    refine ⟨ih, nodup_singleton _, fun k hk k' hk' hkk => ?_⟩
    rw [mem_singleton.1 hk'] at hkk
    exact h (hkk ▸ hk)

/-- Where no key has two entries, the entries of a key are its entry. -/
theorem filter_key (hl : (l.map key).Nodup) (ha : a ∈ l) :
    l.filter (fun b => key b = key a) = [a] := by
  induction l with
  | nil => cases ha
  | cons b l ih =>
    rw [map_cons, nodup_cons] at hl
    rcases mem_cons.1 ha with rfl | ha
    · have hrest : l.filter (fun b => key b = key a) = [] := by
        rw [filter_eq_nil_iff]
        intro b hb hkey
        exact hl.1 (of_decide_eq_true hkey ▸ mem_map_of_mem hb)
      rw [filter_cons_of_pos (by simp), hrest]
    · have hne : key b ≠ key a := fun hkey => hl.1 (hkey ▸ mem_map_of_mem ha)
      rw [filter_cons_of_neg (by simpa using hne)]
      exact ih hl.2 ha

theorem find?_key (hl : (l.map key).Nodup) {k : κ} :
    (l.find? fun b => key b = k) = some a ↔ a ∈ l ∧ key a = k := by
  constructor
  · intro h
    have hkey := find?_some h
    exact ⟨mem_of_find?_eq_some h, of_decide_eq_true hkey⟩
  · rintro ⟨ha, rfl⟩
    rw [← head?_filter, filter_key hl ha]
    rfl

theorem lastOf_map {β : Type*} {key' : β → κ} (f : α → β) (hf : ∀ a, key' (f a) = key a)
    (log : List α) (k : κ) : lastOf key' (log.map f) k = (lastOf key log k).map f := by
  rw [lastOf, filter_map, getLast?_map]
  congr 2
  exact filter_congr fun a _ => by rw [comp_apply, hf]

end LastWrite
