import Mathlib.Data.List.Perm.Basic
import Mathlib.Data.List.Nodup

/-! # Obligations that are met once

An obligation is incurred, borne by one party and met. `Handover` says that none is lost and
none is met twice; the rules are what may happen to one.
-/

universe u v

variable {κ : Type u} {ι : Type v}

/-- Every obligation in `incurred` is in `met`, or is borne by one party. -/
structure Handover (incurred met : List κ) (bears : ι → Option κ) : Prop where
  incurred_nodup : incurred.Nodup
  met_nodup : met.Nodup
  incurred_of_met : ∀ k ∈ met, k ∈ incurred
  borne : ∀ i k, bears i = some k → k ∈ incurred ∧ k ∉ met
  unique : ∀ i j k, bears i = some k → bears j = some k → i = j
  kept : ∀ k ∈ incurred, k ∈ met ∨ ∃ i, bears i = some k

namespace Handover

open List Function

variable {incurred met : List κ} {bears : ι → Option κ} {i : ι} {k : κ}

theorem init : Handover ([] : List κ) [] fun _ : ι => none where
  incurred_nodup := nodup_nil
  met_nodup := nodup_nil
  incurred_of_met := nofun
  borne := nofun
  unique := nofun
  kept := nofun

/-- With no party bearing one, what was met is what was incurred. -/
theorem perm (h : Handover incurred met bears) (hnone : ∀ i, bears i = none) :
    met.Perm incurred := by
  rw [perm_ext_iff_of_nodup h.met_nodup h.incurred_nodup]
  intro a
  refine ⟨h.incurred_of_met a, ?_⟩
  intro ha
  rcases h.kept a ha with hmet | ⟨j, hj⟩
  · exact hmet
  · rw [hnone j] at hj
    cases hj

variable [DecidableEq ι]

/-- A party without one incurs an obligation that there never was. -/
theorem incur (h : Handover incurred met bears) (hi : bears i = none) (hk : k ∉ incurred) :
    Handover (incurred ++ [k]) met (Function.update bears i (some k)) where
  incurred_nodup := by
    rw [nodup_append]
    refine ⟨h.incurred_nodup, nodup_singleton k, ?_⟩
    intro a ha b hb heq
    rw [mem_singleton] at hb
    rw [heq, hb] at ha
    exact hk ha
  met_nodup := h.met_nodup
  incurred_of_met a ha := mem_append_left _ (h.incurred_of_met a ha)
  borne j a hj := by
    rw [update_apply] at hj
    split at hj
    · injection hj with heq
      rw [← heq]
      refine ⟨mem_append_right _ (mem_singleton_self k), ?_⟩
      intro hmet
      exact hk (h.incurred_of_met k hmet)
    · exact ⟨mem_append_left _ (h.borne j a hj).1, (h.borne j a hj).2⟩
  unique j j' a hj hj' := by
    rw [update_apply] at hj hj'
    split at hj
    · rename_i heq
      split at hj'
      · rename_i heq'
        rw [heq, heq']
      · injection hj with hj
        rw [← hj] at hj'
        exact absurd (h.borne j' k hj').1 hk
    · split at hj'
      · injection hj' with hj'
        rw [← hj'] at hj
        exact absurd (h.borne j k hj).1 hk
      · exact h.unique j j' a hj hj'
  kept a ha := by
    rw [mem_append, mem_singleton] at ha
    rcases ha with ha | rfl
    · rcases h.kept a ha with hmet | ⟨j, hj⟩
      · exact .inl hmet
      refine .inr ⟨j, ?_⟩
      have hne : j ≠ i := by
        intro heq
        rw [heq, hi] at hj
        cases hj
      rw [update_of_ne hne]
      exact hj
    · exact .inr ⟨i, update_self ..⟩

/-- The party meets its obligation. -/
theorem meet (h : Handover incurred met bears) (hi : bears i = some k) :
    Handover incurred (met ++ [k]) (Function.update bears i none) where
  incurred_nodup := h.incurred_nodup
  met_nodup := by
    rw [nodup_append]
    refine ⟨h.met_nodup, nodup_singleton k, ?_⟩
    intro a ha b hb heq
    rw [mem_singleton] at hb
    rw [heq, hb] at ha
    exact (h.borne i k hi).2 ha
  incurred_of_met a ha := by
    rw [mem_append, mem_singleton] at ha
    rcases ha with ha | rfl
    · exact h.incurred_of_met a ha
    · exact (h.borne i a hi).1
  borne j a hj := by
    rw [update_apply] at hj
    split at hj
    · cases hj
    rename_i hne
    refine ⟨(h.borne j a hj).1, ?_⟩
    rw [mem_append, mem_singleton]
    rintro (hmet | rfl)
    · exact (h.borne j a hj).2 hmet
    · exact hne (h.unique j i a hj hi)
  unique j j' a hj hj' := by
    rw [update_apply] at hj hj'
    split at hj
    · cases hj
    split at hj'
    · cases hj'
    · exact h.unique j j' a hj hj'
  kept a ha := by
    rcases h.kept a ha with hmet | ⟨j, hj⟩
    · exact .inl (mem_append_left _ hmet)
    by_cases heq : j = i
    · rw [heq, hi] at hj
      injection hj with hj
      exact .inl (mem_append_right _ (mem_singleton.2 hj.symm))
    · refine .inr ⟨j, ?_⟩
      rw [update_of_ne heq]
      exact hj

end Handover
