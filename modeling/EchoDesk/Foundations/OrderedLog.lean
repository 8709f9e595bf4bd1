import Mathlib.Data.List.Basic
import Mathlib.Data.List.Pairwise

/-! # Logs in position order, read by pages

A log is a list of entries with strictly increasing positions. A reader asks for
the first `n` entries that satisfy a condition (`page`), most often the next `n`
past a cursor (`window`). A page is a prefix of the selected entries: it holds
every selected entry up to any position it reaches, and when it is shorter than
asked for, it holds them all.
-/

namespace OrderedLog

open List

universe u

variable {α : Type u} (pos : α → Nat)
variable {after : Nat}

/-- The entries stand in strictly increasing position. -/
def Sorted (l : List α) : Prop := l.Pairwise fun a b => pos a < pos b

/-- `SELECT … WHERE sel ORDER BY pos ASC LIMIT n`. -/
def page (sel : α → Bool) (n : Nat) (l : List α) : List α := (l.filter sel).take n

/-- `SELECT … WHERE pos > after ORDER BY pos ASC LIMIT n`. -/
def window (after n : Nat) (l : List α) : List α := page (fun a => after < pos a) n l

/-- The position of the last entry, or `default` for an empty list. -/
def lastPos (default : Nat) (l : List α) : Nat := (l.getLast?.map pos).getD default

/-- `SELECT COALESCE(MAX(pos), 0)`. -/
def maxPos (l : List α) : Nat := (l.map pos).foldr max 0

/-- The positions are 1, 2, 3, … -/
def Dense (l : List α) : Prop := l.map pos = List.range' 1 l.length

variable {pos}

variable {l : List α} {n : Nat} {a b : α} {sel : α → Bool}

theorem maxPos_le : maxPos pos l ≤ n ↔ ∀ a ∈ l, pos a ≤ n := by
  induction l with
  | nil => simp [maxPos]
  | cons a l ih =>
    rw [forall_mem_cons, ← ih]
    exact Nat.max_le

theorem le_maxPos {l : List α} {a : α} (ha : a ∈ l) : pos a ≤ maxPos pos l :=
  maxPos_le.1 (Nat.le_refl _) a ha

theorem Dense.nil : Dense pos [] := rfl

/-- The positions of a dense log are positive. -/
theorem Dense.pos_of_mem (h : Dense pos l) (ha : a ∈ l) : 0 < pos a := by
  have hmem : pos a ∈ l.map pos := mem_map_of_mem ha
  rw [h, mem_range'_1] at hmem
  omega

/-- The largest position of a dense log is its length. -/
theorem Dense.maxPos_eq (h : Dense pos l) : maxPos pos l = l.length := by
  refine Nat.le_antisymm (maxPos_le.2 fun a ha => ?_) ?_
  · have hmem : pos a ∈ l.map pos := mem_map_of_mem ha
    rw [h, mem_range'_1] at hmem
    omega
  rcases Nat.eq_zero_or_pos l.length with h0 | hpos
  · omega
  have hlast : l.length ∈ l.map pos := by
    rw [h, mem_range'_1]
    omega
  rcases mem_map.1 hlast with ⟨a, ha, hal⟩
  rw [← hal]
  exact le_maxPos ha

/-- The entries of a dense log past a position are those behind it. -/
theorem Dense.filter_lt (h : Dense pos l) (after : Nat) :
    l.filter (fun a => after < pos a) = l.drop after := by
  have hfrom : ∀ (l : List α) (start after : Nat), l.map pos = List.range' start l.length →
      start ≤ after + 1 →
      l.filter (fun a => after < pos a) = l.drop (after + 1 - start) := by
    intro l
    induction l with
    | nil => intro start after _ _; rw [filter_nil, drop_nil]
    | cons a l ih =>
      intro start after hl hstart
      rw [map_cons, length_cons, range'_succ] at hl
      obtain ⟨ha, hl⟩ := cons.inj hl
      by_cases hlt : after < start
      · -- the log starts behind the position
        obtain rfl : start = after + 1 := by omega
        rw [Nat.sub_self, drop_zero, filter_eq_self]
        intro b hb
        rcases mem_cons.1 hb with rfl | hb
        · exact decide_eq_true (by omega)
        have hmem : pos b ∈ l.map pos := mem_map_of_mem hb
        rw [hl, mem_range'_1] at hmem
        exact decide_eq_true (by omega)
      · rw [filter_cons_of_neg (by rw [ha]; simpa using hlt), ih (start + 1) after hl (by omega),
          show after + 1 - start = after + 1 - (start + 1) + 1 by omega, drop_succ_cons]
  exact hfrom l 1 after h (Nat.le_add_left 1 after)

theorem Dense.window_eq (h : Dense pos l) (after n : Nat) :
    window pos after n l = (l.drop after).take n := by
  rw [window, page, h.filter_lt]

/-- The last position of a page of a dense log. -/
theorem Dense.lastPos_of_isPrefix {p : List α} (h : Dense pos l) (hp : p <+: l.drop after)
    (hne : p ≠ []) (d : Nat) : lastPos pos d p = after + p.length := by
  have hlength := hp.length_le
  rw [length_drop] at hlength
  have hpositive := length_pos_of_ne_nil hne
  have hlast : p.getLast?.map pos = some (after + p.length) := by
    rw [← getLast?_map, getLast?_eq_getElem?, length_map]
    calc (p.map pos)[p.length - 1]? = (((l.map pos).drop after).take p.length)[p.length - 1]? := by
          rw [← map_drop, ← map_take, ← prefix_iff_eq_take.1 hp]
      _ = (List.range' 1 l.length)[after + (p.length - 1)]? := by
          rw [getElem?_take_of_lt (by omega), getElem?_drop, h]
      _ = some (after + p.length) := by
          rw [getElem?_range' (by omega)]
          exact congrArg some (by omega)
  rw [lastPos, hlast, Option.getD_some]

/-- The position after the largest one continues a dense log. -/
theorem Dense.concat (h : Dense pos l) (ha : pos a = maxPos pos l + 1) : Dense pos (l ++ [a]) := by
  rw [h.maxPos_eq] at ha
  rw [Dense, map_append, length_append, h, length_singleton, range'_concat]
  simp [ha, Nat.add_comm]

theorem Sorted.filter (h : Sorted pos l) (p : α → Bool) : Sorted pos (l.filter p) :=
  List.Pairwise.filter p h

theorem sorted_append {m : List α} :
    Sorted pos (l ++ m) ↔ Sorted pos l ∧ Sorted pos m ∧ ∀ a ∈ l, ∀ b ∈ m, pos a < pos b :=
  pairwise_append

/-- An entry past the last position may be appended. -/
theorem Sorted.concat (h : Sorted pos l) (ha : maxPos pos l < pos a) : Sorted pos (l ++ [a]) := by
  refine sorted_append.2 ⟨h, pairwise_singleton _ _, ?_⟩
  intro b hb c hc
  rw [mem_singleton.1 hc]
  exact Nat.lt_of_le_of_lt (le_maxPos hb) ha

/-- Entries of a sorted log with one position are one entry. -/
theorem Sorted.eq_of_pos_eq (h : Sorted pos l) (ha : a ∈ l) (hb : b ∈ l) (hpos : pos a = pos b) :
    a = b := by
  by_contra hne
  have : Std.Symm fun a b : α => pos a ≠ pos b := ⟨fun _ _ h => h.symm⟩
  exact (h.imp fun hlt => Nat.ne_of_lt hlt).forall ha hb hne hpos

/-- A prefix of a sorted log is closed under smaller positions. -/
theorem Sorted.mem_take (h : Sorted pos l) (ha : a ∈ l) (hb : b ∈ l.take n) (hle : pos a ≤ pos b) :
    a ∈ l.take n := by
  rw [← take_append_drop n l, sorted_append] at h
  rw [← take_append_drop n l, mem_append] at ha
  rcases ha with ha | ha
  · exact ha
  · exact absurd (h.2.2 b hb a ha) (Nat.not_lt.2 hle)

theorem mem_of_mem_page (h : a ∈ page sel n l) : a ∈ l ∧ sel a = true :=
  mem_filter.1 (mem_of_mem_take h)

/-- A page holds every selected entry up to any position it reaches. -/
theorem mem_page (h : Sorted pos l) (ha : a ∈ l) (hsel : sel a = true) (hb : b ∈ page sel n l)
    (hle : pos a ≤ pos b) :
    a ∈ page sel n l :=
  (h.filter _).mem_take (mem_filter.2 ⟨ha, hsel⟩) hb hle

/-- A page shorter than asked for holds every selected entry. -/
theorem mem_page_of_short (hshort : (page sel n l).length < n) (ha : a ∈ l) (hsel : sel a = true) :
    a ∈ page sel n l := by
  have hlen : (l.filter sel).length ≤ n := by
    by_contra hlt
    have : (page sel n l).length = n := by
      simp [page, length_take, Nat.min_eq_left (Nat.le_of_not_le hlt)]
    omega
  rw [page, take_of_length_le hlen]
  exact mem_filter.2 ⟨ha, hsel⟩

theorem page_sorted (h : Sorted pos l) (sel : α → Bool) (n : Nat) : Sorted pos (page sel n l) :=
  List.Pairwise.sublist (take_sublist _ _) (h.filter _)

theorem mem_of_mem_window (h : a ∈ window pos after n l) : a ∈ l ∧ after < pos a := by
  have := mem_of_mem_page h
  exact ⟨this.1, of_decide_eq_true this.2⟩

/-- A window holds everything past the cursor up to any position it reaches. -/
theorem mem_window (h : Sorted pos l) (ha : a ∈ l) (hafter : after < pos a)
    (hb : b ∈ window pos after n l) (hle : pos a ≤ pos b) : a ∈ window pos after n l :=
  mem_page h ha (decide_eq_true hafter) hb hle

/-- An empty window of a positive size says that nothing lies past the cursor. -/
theorem window_eq_nil (hn : 0 < n) (h : window pos after n l = []) (ha : a ∈ l) :
    pos a ≤ after := by
  by_contra hlt
  have hshort : (window pos after n l).length < n := by simpa [h] using hn
  have hmem : a ∈ window pos after n l := mem_page_of_short hshort ha (decide_eq_true (Nat.lt_of_not_le hlt))
  rw [h] at hmem
  exact absurd hmem not_mem_nil

theorem window_sorted (h : Sorted pos l) (after n : Nat) :
    Sorted pos (window pos after n l) := page_sorted h _ n

/-- The first entry of a sorted log that satisfies a condition has the least
position among them. -/
theorem Sorted.find?_le (h : Sorted pos l) {p : α → Bool} (hfound : l.find? p = some a) (hb : b ∈ l)
    (hpb : p b = true) : pos a ≤ pos b := by
  rcases find?_eq_some_iff_append.1 hfound with ⟨_, before, after, rfl, hnone⟩
  rcases mem_append.1 hb with hb | hb
  · -- nothing before the found entry satisfies the condition
    have := hnone b hb
    simp [hpb] at this
  · rcases mem_cons.1 hb with rfl | hb
    · exact Nat.le_refl _
    · exact Nat.le_of_lt (rel_of_pairwise_cons (sorted_append.1 h).2.1 hb)

theorem lastPos_of_getLast? (h : l.getLast? = some a) (d : Nat) : lastPos pos d l = pos a := by
  simp [lastPos, h]

/-- Nothing in a sorted log lies past its last position. -/
theorem Sorted.le_lastPos (h : Sorted pos l) (ha : a ∈ l) (d : Nat) : pos a ≤ lastPos pos d l := by
  obtain ⟨init, b, rfl⟩ : ∃ init b, l = init ++ [b] :=
    ⟨l.dropLast, l.getLast (ne_nil_of_mem ha), (dropLast_append_getLast _).symm⟩
  rw [lastPos_of_getLast? getLast?_concat]
  rcases mem_append.1 ha with ha | ha
  · exact Nat.le_of_lt ((sorted_append.1 h).2.2 a ha b (mem_singleton_self b))
  · exact Nat.le_of_eq (congrArg pos (mem_singleton.1 ha))

/-- The last position of a non-empty log is reached. -/
theorem exists_pos_eq_lastPos {l : List α} (hne : l ≠ []) (d : Nat) :
    ∃ a ∈ l, pos a = lastPos pos d l :=
  ⟨l.getLast hne, getLast_mem hne, by simp [lastPos, getLast?_eq_some_getLast hne]⟩

end OrderedLog
