import Mathlib.Data.List.Induction
import Mathlib.Data.List.Basic

/-! # Transactions that keep partial writes until the rollback

A transaction body is a program over a store that may raise after some of its
writes. The exception leaves the partial writes behind (`ExceptT` over a state
monad, not the other way round); undoing them is the job of `atomically`, which
models the context manager around the body. That the store is unchanged after a
failure is therefore a theorem about `atomically`, not a feature of the monad.

`Returns m s a s'` says that `m` runs to its end from `s`, with value `a` and
store `s'`; its simp lemmas take a body apart one bind at a time.
-/

namespace Transaction

open List

universe u

variable {σ ε α β : Type u}
variable {b : β} {c : Prop} {o : Option α}

/-- A transaction body over the store `σ` that raises in `ε`. -/
abbrev Tx (σ ε α : Type u) : Type u := ExceptT ε (StateM σ) α

/-- How a body that did not raise leaves its transaction: with a commit, or by
a rollback (or a close) that was no error. -/
inductive Exit (α : Type u) where
  | commit (a : α)
  | abandon (a : α)

/-- The value handed to the caller. -/
def Exit.value : Exit α → α
  | .commit a => a
  | .abandon a => a

/-- The body runs from `s` to its end, with value `a` and store `s'`. -/
def Returns (m : Tx σ ε α) (s : σ) (a : α) (s' : σ) : Prop :=
  m.run.run s = (Except.ok a, s')

/-! ## Taking a body apart -/

variable {a : α} {s s' : σ} {e : ε} {m : Tx σ ε α} {x : Except ε α} {f : α → Except ε β}
variable {l : List α} {body : Tx σ ε (Exit α)}
variable {n : Tx σ ε α}

@[simp] theorem returns_pure {b : α} : Returns (pure a : Tx σ ε α) s b s' ↔ a = b ∧ s = s' := by
  constructor
  · intro h
    injection h with ha hs
    injection ha with ha
    exact ⟨ha, hs⟩
  · rintro ⟨rfl, rfl⟩
    rfl

@[simp] theorem returns_throw {b : α} : Returns (throw e : Tx σ ε α) s b s' ↔ False := by
  constructor
  · intro h
    injection h with ha _
    cases ha
  · exact False.elim

/-- The run of a bind, by the outcome of its first part. -/
theorem run_bind (m : Tx σ ε α) (f : α → Tx σ ε β) (s : σ) : (m >>= f).run.run s =
      match m.run.run s with
      | (.ok a, s₁) => (f a).run.run s₁
      | (.error e, s₁) => (.error e, s₁) := by
  rw [ExceptT.run_bind, StateT.run_bind]
  rcases m.run.run s with ⟨_ | a, s₁⟩ <;> rfl

@[simp] theorem returns_bind {f : α → Tx σ ε β} :
    Returns (m >>= f) s b s' ↔ ∃ a s₁, Returns m s a s₁ ∧ Returns (f a) s₁ b s' := by
  unfold Returns
  rw [run_bind]
  constructor
  · intro h
    rcases hm : m.run.run s with ⟨_ | a, s₁⟩
    · rw [hm] at h
      injection h with h _
      cases h
    · rw [hm] at h
      exact ⟨a, s₁, rfl, h⟩
  · rintro ⟨a, s₁, hm, hf⟩
    rw [hm]
    exact hf

@[simp] theorem returns_get {a : σ} : Returns (get : Tx σ ε σ) s a s' ↔ s = a ∧ s = s' := by
  constructor
  · intro h
    injection h with ha hs
    injection ha with ha
    exact ⟨ha, hs⟩
  · rintro ⟨rfl, rfl⟩
    rfl

/-- What a body reads first is the store it runs from. -/
theorem returns_get_bind {f : σ → Tx σ ε β} :
    Returns (get >>= f) s b s' ↔ Returns (f s) s b s' := by
  rw [returns_bind]
  constructor
  · rintro ⟨_, _, hget, h⟩
    obtain ⟨rfl, rfl⟩ := returns_get.1 hget
    exact h
  · intro h
    exact ⟨s, s, returns_get.2 ⟨rfl, rfl⟩, h⟩

@[simp] theorem returns_set {σ ε : Type} {t s s' : σ} {a : PUnit} :
    Returns (set t : Tx σ ε PUnit) s a s' ↔ t = s' := by
  constructor
  · intro h
    injection h with _ hs
  · rintro rfl
    rfl

/-- An `if` in a body is an `if` on what it returns. -/
theorem returns_ite [Decidable c] :
    Returns (if c then m else n) s a s' ↔ (c ∧ Returns m s a s') ∨ (¬ c ∧ Returns n s a s') := by
  by_cases h : c <;> simp [h]

/-- What returns has passed its guards. -/
theorem returns_guard [Decidable c] :
    Returns (if c then throw e else m) s a s' ↔ ¬ c ∧ Returns m s a s' := by
  rw [returns_ite, returns_throw, and_false, false_or]

/-- `raise e` unless there is a value. -/
def orRaise (e : ε) : Option α → Tx σ ε α
  | some a => pure a
  | none => throw e

/-- Run a function that touches no store, and let its exception pass. -/
def fromExcept : Except ε α → Tx σ ε α
  | .ok a => pure a
  | .error e => throw e

@[simp] theorem returns_orRaise : Returns (orRaise e o) s a s' ↔ o = some a ∧ s = s' := by
  cases o <;> simp [orRaise]

@[simp] theorem returns_fromExcept : Returns (fromExcept x) s a s' ↔ x = .ok a ∧ s = s' := by
  cases x <;> simp [fromExcept]

/-- The body raises `e` when it runs from `s`. -/
def Raises (m : Tx σ ε α) (s : σ) (e : ε) : Prop := ∃ s', m.run.run s = (.error e, s')

@[simp] theorem raises_pure : Raises (pure a : Tx σ ε α) s e ↔ False :=
  ⟨fun ⟨_, h⟩ => (by injection h with h _; cases h), False.elim⟩

@[simp] theorem raises_throw {e' : ε} : Raises (throw e : Tx σ ε α) s e' ↔ e = e' := by
  constructor
  · rintro ⟨_, h⟩
    injection h with h _
    injection h
  · rintro rfl
    exact ⟨s, rfl⟩

@[simp] theorem raises_get : Raises (get : Tx σ ε σ) s e ↔ False :=
  ⟨fun ⟨_, h⟩ => (by injection h with h _; cases h), False.elim⟩

@[simp] theorem raises_set {σ ε : Type} {t s : σ} {e : ε} :
    Raises (set t : Tx σ ε PUnit) s e ↔ False :=
  ⟨fun ⟨_, h⟩ => (by injection h with h _; cases h), False.elim⟩

/-- A bind raises in its first part, or in the rest of it. -/
@[simp] theorem raises_bind {f : α → Tx σ ε β} :
    Raises (m >>= f) s e ↔ Raises m s e ∨ ∃ a s₁, Returns m s a s₁ ∧ Raises (f a) s₁ e := by
  unfold Raises Returns
  rw [run_bind]
  rcases hm : m.run.run s with ⟨e' | a, s₁⟩
  · constructor
    · rintro ⟨s', h⟩
      injection h with h hs
      exact .inl ⟨s₁, by rw [Except.error.inj h]⟩
    · rintro (⟨s', h⟩ | ⟨a, s₂, h, -⟩)
      · injection h with h hs
        exact ⟨s₁, by rw [Except.error.inj h]⟩
      · injection h with h _
        cases h
  constructor
  · intro h
    exact .inr ⟨a, s₁, rfl, h⟩
  rintro (⟨s', h⟩ | ⟨b, s₂, h, hf⟩)
  · injection h with h _
    cases h
  · injection h with hb hs
    rw [Except.ok.inj hb, hs]
    exact hf

theorem raises_get_bind {f : σ → Tx σ ε β} : Raises (get >>= f) s e ↔ Raises (f s) s e := by
  rw [raises_bind, raises_get, false_or]
  constructor
  · rintro ⟨_, _, hget, h⟩
    obtain ⟨rfl, rfl⟩ := returns_get.1 hget
    exact h
  · intro h
    exact ⟨s, s, returns_get.2 ⟨rfl, rfl⟩, h⟩

theorem raises_ite [Decidable c] :
    Raises (if c then m else n) s e ↔ (c ∧ Raises m s e) ∨ (¬ c ∧ Raises n s e) := by
  by_cases h : c <;> simp [h]

@[simp] theorem raises_orRaise {e' : ε} : Raises (orRaise e o) s e' ↔ o = none ∧ e = e' := by
  cases o <;> simp [orRaise]

@[simp] theorem raises_fromExcept : Raises (fromExcept x) s e ↔ x = .error e := by
  cases x <;> simp [fromExcept]

/-- A sequence of functions that may raise succeeds when each of them does. -/
theorem bind_eq_ok : (x >>= f) = .ok b ↔ ∃ a, x = .ok a ∧ f a = .ok b := by
  cases x with
  | error e => exact ⟨fun h => (by cases h), fun ⟨_, h, _⟩ => (by cases h)⟩
  | ok a => exact ⟨fun h => ⟨a, rfl, h⟩, fun ⟨_, h, hf⟩ => (by cases h; exact hf)⟩

/-- A sequence whose second function gives the result for one argument only. -/
theorem bind_eq_ok_of_stop {a : α} (hstop : ∀ a', a' ≠ a → f a' ≠ .ok b) :
    (x >>= f) = .ok b ↔ x = .ok a ∧ f a = .ok b := by
  rw [bind_eq_ok]
  constructor
  · rintro ⟨a', hx, hf⟩
    by_cases heq : a' = a
    · rw [← heq]
      exact ⟨hx, hf⟩
    · exact absurd hf (hstop a' heq)
  · exact fun h => ⟨a, h⟩

theorem mapM_ok_of_forall (h : ∀ a ∈ l, ∃ b, f a = .ok b) : ∃ bs, l.mapM f = .ok bs := by
  induction l with
  | nil => exact ⟨[], rfl⟩
  | cons a l ih =>
    obtain ⟨b, hb⟩ := h a mem_cons_self
    obtain ⟨bs, hbs⟩ := ih fun c hc => h c (mem_cons_of_mem _ hc)
    refine ⟨b :: bs, ?_⟩
    rw [mapM_cons, hb]
    rw [hbs]
    rfl

theorem mapM_of_fixed {f : α → Except ε α} {l : List α} (h : ∀ a ∈ l, f a = .ok a) :
    l.mapM f = .ok l := by
  induction l with
  | nil => rfl
  | cons a l ih =>
    rw [mapM_cons, h a mem_cons_self, ih fun c hc => h c (mem_cons_of_mem _ hc)]
    rfl

theorem mem_of_mapM_ok {bs : List β} (h : l.mapM f = .ok bs) (hb : b ∈ bs) :
    ∃ a ∈ l, f a = .ok b := by
  induction l generalizing bs with
  | nil =>
    rw [mapM_nil] at h
    cases h
    cases hb
  | cons a l ih =>
    rw [mapM_cons] at h
    simp only [bind_eq_ok] at h
    obtain ⟨b', hb', rest, hrest, h⟩ := h
    cases h
    rcases mem_cons.1 hb with rfl | hb
    · exact ⟨a, mem_cons_self, hb'⟩
    · obtain ⟨c, hc, hf⟩ := ih hrest hb
      exact ⟨c, mem_cons_of_mem _ hc, hf⟩

theorem exists_of_mapM_ok {bs : List β} (h : l.mapM f = .ok bs) {a : α} (ha : a ∈ l) :
    ∃ b ∈ bs, f a = .ok b := by
  induction l generalizing bs with
  | nil => cases ha
  | cons c l ih =>
    rw [mapM_cons] at h
    simp only [bind_eq_ok] at h
    obtain ⟨b, hb, rest, hrest, h⟩ := h
    cases h
    rcases mem_cons.1 ha with rfl | ha
    · exact ⟨b, mem_cons_self, hb⟩
    · obtain ⟨b', hmem, hf⟩ := ih hrest ha
      exact ⟨b', mem_cons_of_mem _ hmem, hf⟩

/-- What a loop that may raise has gathered when it ends without raising. -/
theorem foldlM_ok {motive : List α → β → Prop} {f : β → α → Except ε β} {init out : β}
    (hnil : motive [] init)
    (hsnoc : ∀ l a acc acc', motive l acc → f acc a = .ok acc' → motive (l ++ [a]) acc')
    (h : l.foldlM f init = .ok out) : motive l out := by
  induction l using List.reverseRecOn generalizing out with
  | nil =>
    cases h
    exact hnil
  | append_singleton l a ih =>
    rw [foldlM_append] at h
    obtain ⟨acc, hacc, h⟩ := bind_eq_ok.1 h
    rw [foldlM_cons] at h
    obtain ⟨acc', hstep, h⟩ := bind_eq_ok.1 h
    cases h
    exact hsnoc l a acc _ (ih hacc) hstep

/-! ## The context manager around a body -/

/-- Run a body as one transaction: its writes stay only when it commits. -/
def atomically (body : Tx σ ε (Exit α)) (s : σ) : Except ε α × σ :=
  match body.run.run s with
  | (.ok (.commit a), s') => (.ok a, s')
  | (.ok (.abandon a), _) => (.ok a, s)
  | (.error e, _) => (.error e, s)

/-- A transaction that commits ran its body to the end. -/
theorem atomically_of_commit (h : Returns body s (.commit a) s') :
    atomically body s = (.ok a, s') := by
  unfold atomically
  rw [show body.run.run s = (Except.ok (.commit a), s') from h]

/-- A transaction that raises leaves the store as it was. -/
theorem atomically_error (h : (atomically body s).1 = .error e) : (atomically body s).2 = s := by
  unfold atomically at h ⊢
  generalize body.run.run s = out at h ⊢
  rcases out with ⟨_ | b | b, s'⟩
  · rfl
  · cases h
  · rfl

/-- A transaction raises what its body raises. -/
theorem atomically_raises : (atomically body s).1 = .error e ↔ Raises body s e := by
  unfold atomically Raises
  rcases body.run.run s with ⟨e' | a | a, s'⟩
  · constructor
    · intro h
      exact ⟨s', by rw [Except.error.inj h]⟩
    · rintro ⟨_, h⟩
      injection h with h _
      exact congrArg Except.error (Except.error.inj h)
  · exact ⟨fun h => (by cases h), fun ⟨_, h⟩ => (by injection h with h _; cases h)⟩
  · exact ⟨fun h => (by cases h), fun ⟨_, h⟩ => (by injection h with h _; cases h)⟩

/-- What a transaction can do: leave the store as it was, or commit its body. -/
theorem atomically_cases (body : Tx σ ε (Exit α)) (s : σ) : (atomically body s).2 = s ∨
      ∃ a s', Returns body s (.commit a) s' ∧ atomically body s = (.ok a, s') := by
  unfold atomically Returns
  rcases hrun : body.run.run s with ⟨e | a | a, s'⟩
  · exact .inl rfl
  · exact .inr ⟨a, s', rfl, rfl⟩
  · exact .inl rfl

/-- The same, told apart by the value: a value comes from a commit or from an
exit without one. -/
theorem atomically_ok (h : atomically body s = (.ok a, s')) :
    Returns body s (.commit a) s' ∨ (∃ s₁, Returns body s (.abandon a) s₁) ∧ s' = s := by
  unfold atomically at h
  unfold Returns
  rcases hrun : body.run.run s with ⟨e | b | b, s₁⟩ <;> rw [hrun] at h <;> simp at h
  · rcases h with ⟨rfl, rfl⟩
    exact .inl rfl
  · rcases h with ⟨rfl, rfl⟩
    exact .inr ⟨⟨s₁, rfl⟩, rfl⟩

/-- A transaction that always commits succeeds when its body does. -/
theorem atomically_commit_iff :
    atomically (do let a ← m; return Exit.commit a) s = (.ok a, s') ↔ Returns m s a s' := by
  constructor
  · intro h
    rcases atomically_ok h with hret | ⟨⟨_, hret⟩, -⟩
    · obtain ⟨_, _, hm, hret⟩ := returns_bind.1 hret
      obtain ⟨hexit, rfl⟩ := returns_pure.1 hret
      cases hexit
      exact hm
    · obtain ⟨_, _, -, hret⟩ := returns_bind.1 hret
      cases (returns_pure.1 hret).1
  · intro h
    exact atomically_of_commit (returns_bind.2 ⟨a, s', h, returns_pure.2 ⟨rfl, rfl⟩⟩)

end Transaction
