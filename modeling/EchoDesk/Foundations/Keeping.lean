import EchoDesk.Foundations.Transaction

/-! # What a transaction body keeps

`KeepsFrom R s m` says that whenever the body `m` returns from the store `s`, the store it leaves
stands in the relation `R` to `s`. For a reflexive and transitive `R` the rules below take a body
apart one bind at a time, so that what a whole transaction keeps follows from what each of its
statements keeps.
-/

namespace Transaction

universe u

variable {σ ε α β : Type u} {R : σ → σ → Prop}
variable {m n : Tx σ ε α} {body : Tx σ ε (Exit α)} {f : α → Tx σ ε β} {s : σ}

/-- Where `m` returns from `s`, it leaves a store that is `R`-related to `s`. -/
def KeepsFrom (R : σ → σ → Prop) (s : σ) (m : Tx σ ε α) : Prop :=
  ∀ a s', Returns m s a s' → R s s'

/-- The same from every store. -/
def Keeps (R : σ → σ → Prop) (m : Tx σ ε α) : Prop := ∀ s, KeepsFrom R s m

theorem keepsFrom_pure [Std.Refl R] (s : σ) (a : α) : KeepsFrom R s (pure a : Tx σ ε α) := by
  intro b s' h
  obtain ⟨-, rfl⟩ := returns_pure.1 h
  exact Std.Refl.refl s

theorem keepsFrom_throw (s : σ) (e : ε) : KeepsFrom R s (throw e : Tx σ ε α) := by
  intro b s' h
  exact (returns_throw.1 h).elim

theorem keepsFrom_set {σ ε : Type} {R : σ → σ → Prop} {s t : σ} (h : R s t) :
    KeepsFrom R s (set t : Tx σ ε PUnit) := by
  intro b s' hret
  rwa [← returns_set.1 hret]

theorem keepsFrom_bind [IsTrans σ R] (hm : KeepsFrom R s m)
    (hf : ∀ a s₁, Returns m s a s₁ → KeepsFrom R s₁ (f a)) : KeepsFrom R s (m >>= f) := by
  intro b s' h
  obtain ⟨a, s₁, hret, hrest⟩ := returns_bind.1 h
  exact IsTrans.trans _ _ _ (hm a s₁ hret) (hf a s₁ hret b s' hrest)

/-- Reading the store comes before a body that was checked from this very store. -/
theorem keepsFrom_get_bind {f : σ → Tx σ ε β} (h : KeepsFrom R s (f s)) :
    KeepsFrom R s (get >>= f) := by
  intro b s' hret
  exact h b s' (returns_get_bind.1 hret)

theorem keeps_pure [Std.Refl R] (a : α) : Keeps R (pure a : Tx σ ε α) := fun s => keepsFrom_pure s a

theorem keeps_throw (e : ε) : Keeps R (throw e : Tx σ ε α) := fun s => keepsFrom_throw s e

theorem keeps_bind [IsTrans σ R] (hm : Keeps R m) (hf : ∀ a, Keeps R (f a)) : Keeps R (m >>= f) :=
  fun s => keepsFrom_bind (hm s) fun a s₁ _ => hf a s₁

theorem keeps_ite {c : Prop} [Decidable c] (hm : c → Keeps R m) (hn : ¬ c → Keeps R n) :
    Keeps R (if c then m else n) := by
  by_cases h : c
  · rw [if_pos h]
    exact hm h
  · rw [if_neg h]
    exact hn h

/-- A transaction keeps what its body keeps. -/
theorem keepsFrom_atomically [Std.Refl R] (h : KeepsFrom R s body) : R s (atomically body s).2 := by
  rcases atomically_cases body s with hsame | ⟨a, s', hret, hcommit⟩
  · rw [hsame]
    exact Std.Refl.refl s
  · rw [hcommit]
    exact h _ s' hret

theorem keeps_atomically [Std.Refl R] (h : Keeps R body) (s : σ) :
    R s (atomically body s).2 := keepsFrom_atomically (h s)

end Transaction
