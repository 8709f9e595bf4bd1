import Mathlib.Data.List.Sort

/-! # Entries sorted by their keys

Entries with distinct keys are sorted in two orders. The sorted lists are one list exactly when the
entries are the same and the orders agree on the keys.
-/

namespace SortedEntries

open List

variable {κ α : Type}

/-- An order of keys as an order of entries. -/
def byKey (r : κ → κ → Prop) (a b : κ × α) : Prop := r a.1 b.1

instance (r : κ → κ → Prop) [DecidableRel r] : DecidableRel (byKey (α := α) r) :=
  fun a b => inferInstanceAs (Decidable (r a.1 b.1))

/-- A linear order, as a bundle of its laws. -/
structure Linear (r : κ → κ → Prop) : Prop where
  total : ∀ a b, r a b ∨ r b a
  trans : ∀ a b c, r a b → r b c → r a c
  antisymm : ∀ a b, r a b → r b a → a = b

theorem Linear.refl {r : κ → κ → Prop} (h : Linear r) (a : κ) : r a a := (h.total a a).elim id id

/-- On a list that is sorted in two orders, the orders agree. -/
theorem agree_of_pairwise {r s : κ → κ → Prop} {keys : List κ} (hr : Linear r) (hs : Linear s)
    (hpr : keys.Pairwise r) (hps : keys.Pairwise s) :
    ∀ a ∈ keys, ∀ b ∈ keys, r a b ↔ s a b := by
  induction keys with
  | nil =>
    intro a ha
    cases ha
  | cons key keys ih =>
    obtain ⟨hrkey, hrkeys⟩ := pairwise_cons.1 hpr
    obtain ⟨hskey, hskeys⟩ := pairwise_cons.1 hps
    intro a ha b hb
    rcases mem_cons.1 ha with rfl | hakeys <;> rcases mem_cons.1 hb with rfl | hbkeys
    · exact ⟨fun _ => hs.refl _, fun _ => hr.refl _⟩
    · exact ⟨fun _ => hskey b hbkeys, fun _ => hrkey b hbkeys⟩
    · -- the first key is below the others, so the other way round the keys are equal
      constructor
      · intro hab
        rw [hr.antisymm a b hab (hrkey a hakeys)]
        exact hs.refl b
      · intro hab
        rw [hs.antisymm a b hab (hskey a hakeys)]
        exact hr.refl b
    · exact ih hrkeys hskeys a hakeys b hbkeys

def sortEntries (r : κ → κ → Prop) [DecidableRel r] (entries : List (κ × α)) : List (κ × α) :=
  entries.insertionSort (byKey r)

variable {r s : κ → κ → Prop} [DecidableRel r] [DecidableRel s] {entries entries' : List (κ × α)}

variable (r entries) in
theorem perm_sortEntries : (sortEntries r entries).Perm entries :=
  perm_insertionSort _ _

/-- Only the keys decide where an entry goes. -/
theorem map_sortEntries {β : Type} (f : α → β) :
    (sortEntries r entries).map (fun e => (e.1, f e.2)) =
      sortEntries r (entries.map fun e => (e.1, f e.2)) :=
  map_insertionSort (byKey r) (byKey r) _ _ fun _ _ _ _ => Iff.rfl

theorem pairwise_sortEntries (hr : Linear r) : (sortEntries r entries).Pairwise (byKey r) := by
  have : Std.Total (byKey (α := α) r) := ⟨fun a b => hr.total a.1 b.1⟩
  have : IsTrans (κ × α) (byKey r) := ⟨fun a b c => hr.trans a.1 b.1 c.1⟩
  exact pairwise_insertionSort _ _

/-- Lists of entries under the same keys that are rearrangements of each other are equal. -/
theorem eq_of_perm (hkeys : entries.map Prod.fst = entries'.map Prod.fst)
    (hnodup : (entries.map Prod.fst).Nodup) (h : entries.Perm entries') : entries = entries' := by
  induction entries generalizing entries' with
  | nil => exact h.nil_eq
  | cons entry entries ih =>
    cases entries' with
    | nil => cases hkeys
    | cons entry' entries' =>
      obtain ⟨hkey, hrest⟩ := cons.inj hkeys
      obtain ⟨hfresh, hnodup'⟩ := nodup_cons.1 hnodup
      have hentry : entry = entry' := by
        rcases mem_cons.1 (h.subset (mem_cons_self ..)) with heq | hmem
        · exact heq
        -- another entry has another key
        refine absurd ?_ hfresh
        have hmap : entries.map Prod.fst = entries'.map Prod.fst := hrest
        rw [hmap]
        exact mem_map_of_mem hmem
      subst hentry
      rw [ih hrest hnodup' (perm_cons entry |>.1 h)]

/-- Sorting gives the same list for every order that agrees on the keys. -/
theorem sortEntries_congr (hr : Linear r) (hs : Linear s) (hnodup : (entries.map Prod.fst).Nodup)
    (hagree : ∀ a ∈ entries.map Prod.fst, ∀ b ∈ entries.map Prod.fst, r a b ↔ s a b) :
    sortEntries r entries = sortEntries s entries := by
  have hperm := (perm_sortEntries r entries).trans (perm_sortEntries s entries).symm
  have hmem : ∀ e ∈ sortEntries s entries, e ∈ entries := fun e he =>
    (perm_sortEntries s entries).subset he
  have hsorted : (sortEntries s entries).Pairwise (byKey r) := by
    refine (pairwise_sortEntries hs).imp_of_mem ?_
    intro a b ha hb hab
    exact (hagree a.1 (mem_map_of_mem (hmem a ha)) b.1 (mem_map_of_mem (hmem b hb))).2 hab
  refine hperm.eq_of_pairwise ?_ (pairwise_sortEntries hr) hsorted
  intro a b ha hb hab hba
  have hkey : a.1 = b.1 := hr.antisymm a.1 b.1 hab hba
  exact inj_on_of_nodup_map hnodup ((perm_sortEntries r entries).subset ha) (hmem b hb) hkey

theorem sortEntries_eq_iff (hr : Linear r) (hs : Linear s)
    (hkeys : entries.map Prod.fst = entries'.map Prod.fst)
    (hnodup : (entries.map Prod.fst).Nodup) :
    sortEntries r entries = sortEntries s entries' ↔ entries = entries' ∧
        ∀ a ∈ entries.map Prod.fst, ∀ b ∈ entries.map Prod.fst, r a b ↔ s a b := by
  constructor
  · intro h
    have hperm : entries.Perm entries' := by
      have hsort := (perm_sortEntries r entries).symm
      rw [h] at hsort
      exact hsort.trans (perm_sortEntries s entries')
    refine ⟨eq_of_perm hkeys hnodup hperm, ?_⟩
    have hpr : ((sortEntries r entries).map Prod.fst).Pairwise r :=
      pairwise_map.2 (pairwise_sortEntries hr)
    have hps : ((sortEntries r entries).map Prod.fst).Pairwise s := by
      rw [h]
      exact pairwise_map.2 (pairwise_sortEntries hs)
    have hsame : ∀ a, a ∈ (sortEntries r entries).map Prod.fst ↔ a ∈ entries.map Prod.fst :=
      fun a => ((perm_sortEntries r entries).map Prod.fst).mem_iff
    intro a ha b hb
    exact agree_of_pairwise hr hs hpr hps a ((hsame a).2 ha) b ((hsame b).2 hb)
  · rintro ⟨rfl, hagree⟩
    exact sortEntries_congr hr hs hnodup hagree

/-- The order in which the entries were given does not matter. -/
theorem sortEntries_of_perm (hr : Linear r) (hnodup : (entries.map Prod.fst).Nodup)
    (h : entries.Perm entries') : sortEntries r entries = sortEntries r entries' := by
  have hperm := ((perm_sortEntries r entries).trans h).trans (perm_sortEntries r entries').symm
  refine hperm.eq_of_pairwise ?_ (pairwise_sortEntries hr) (pairwise_sortEntries hr)
  intro a b ha hb hab hba
  have hkey : a.1 = b.1 := hr.antisymm a.1 b.1 hab hba
  exact inj_on_of_nodup_map hnodup ((perm_sortEntries r entries).subset ha)
    (h.symm.subset ((perm_sortEntries r entries').subset hb)) hkey

end SortedEntries
