import Mathlib.Data.List.Infix

/-! # Paths by their text

A rooted path is what is left of its segments when empty ones and dots are dropped and each
double dot takes the segment before it away. The rules say when a text is normal, and that
two anchors of one path are anchors of one another.
-/

namespace LexicalPath

open List

variable {sep : Char} {segs : List (List Char)} {seg cs : List Char}

/-! ## Normal segments -/

/-- A segment is added to those before it. -/
def push (segs : List (List Char)) (seg : List Char) : List (List Char) :=
  if seg = [] ∨ seg = ['.'] then segs
  else if seg = ['.', '.'] then segs.dropLast
  else segs ++ [seg]

def normSegments (segs : List (List Char)) : List (List Char) := segs.foldl push []

/-- The segment is a name. -/
def Plain (seg : List Char) : Prop := seg ≠ [] ∧ seg ≠ ['.'] ∧ seg ≠ ['.', '.']

instance (seg : List Char) : Decidable (Plain seg) := inferInstanceAs (Decidable (_ ∧ _ ∧ _))

theorem push_of_plain (h : Plain seg) : push segs seg = segs ++ [seg] := by
  unfold push
  rw [if_neg (by simp [h.1, h.2.1]), if_neg h.2.2]

variable {x : List Char} {c : Char}

theorem mem_push (h : x ∈ push segs seg) : x ∈ segs ∨ x = seg ∧ Plain seg := by
  unfold push at h
  split at h
  · exact .inl h
  rename_i hdot
  rw [not_or] at hdot
  split at h
  · exact .inl (mem_of_mem_dropLast h)
  rename_i hdots
  rcases mem_append.1 h with h | h
  · exact .inl h
  · exact .inr ⟨mem_singleton.1 h, hdot.1, hdot.2, hdots⟩

theorem mem_foldl_push {before : List (List Char)} (h : x ∈ segs.foldl push before) :
    x ∈ before ∨ x ∈ segs ∧ Plain x := by
  induction segs generalizing before with
  | nil => exact .inl h
  | cons seg segs ih =>
    rcases ih h with h | ⟨hmem, hplain⟩
    · rcases mem_push h with h | ⟨rfl, hplain⟩
      · exact .inl h
      · exact .inr ⟨mem_cons_self, hplain⟩
    · exact .inr ⟨mem_cons_of_mem _ hmem, hplain⟩

/-- The normal segments are names, and they are among the given ones. -/
theorem mem_normSegments (h : x ∈ normSegments segs) : x ∈ segs ∧ Plain x := by
  rcases mem_foldl_push h with h | h
  · cases h
  · exact h

theorem foldl_push_of_plain (h : ∀ x ∈ segs, Plain x) (before : List (List Char)) :
    segs.foldl push before = before ++ segs := by
  induction segs generalizing before with
  | nil => simp
  | cons seg segs ih =>
    rw [foldl_cons, push_of_plain (h seg mem_cons_self),
      ih (fun x hx => h x (mem_cons_of_mem _ hx)), append_assoc]
    rfl

/-- Without a double dot, the names are left. -/
theorem foldl_push_of_no_dots (h : ∀ x ∈ segs, x ≠ ['.', '.']) (before : List (List Char)) :
    segs.foldl push before = before ++ segs.filter fun x => Plain x := by
  induction segs generalizing before with
  | nil => simp
  | cons seg segs ih =>
    rw [foldl_cons, ih (fun x hx => h x (mem_cons_of_mem _ hx))]
    by_cases hplain : Plain seg
    · rw [push_of_plain hplain, filter_cons_of_pos (by simpa using hplain)]
      simp
    have hdot : seg = [] ∨ seg = ['.'] := by
      by_contra hnot
      rw [not_or] at hnot
      exact hplain ⟨hnot.1, hnot.2, h seg mem_cons_self⟩
    rw [filter_cons_of_neg (by simpa using hplain), push, if_pos hdot]

theorem normSegments_of_no_dots (h : ∀ x ∈ segs, x ≠ ['.', '.']) :
    normSegments segs = segs.filter fun x => Plain x :=
  (foldl_push_of_no_dots h []).trans (nil_append _)

/-! ## Normal texts -/

theorem not_mem_of_mem_splitOn (h : x ∈ cs.splitOn sep) : sep ∉ x := by
  induction cs generalizing x with
  | nil =>
    rw [splitOn_nil, mem_singleton] at h
    rw [h]
    exact not_mem_nil
  | cons c cs ih =>
    rw [splitOn_cons_eq_if_modifyHead] at h
    split at h
    · rcases mem_cons.1 h with rfl | h
      · exact not_mem_nil
      · exact ih h
    rename_i hne
    obtain ⟨first, rest, hsplit⟩ := exists_cons_of_ne_nil (splitOn_ne_nil sep cs)
    rw [hsplit] at h ih
    rcases mem_cons.1 h with rfl | h
    · rw [mem_cons, not_or]
      exact ⟨fun heq => hne (by simp [heq]), ih mem_cons_self⟩
    · exact ih (mem_cons_of_mem _ h)

/-- A path under its root, in its normal form. -/
def normal (sep : Char) (cs : List Char) : List Char :=
  [sep].intercalate (normSegments (cs.splitOn sep))

/-- The segments of a joined text that are names. -/
theorem normSegments_splitOn_intercalate (h : ∀ x ∈ segs, Plain x ∧ sep ∉ x) :
    normSegments (([sep].intercalate segs).splitOn sep) = segs := by
  by_cases hnil : segs = []
  · rw [hnil, intercalate_nil, splitOn_nil]
    rfl
  · rw [splitOn_intercalate sep (fun x hx => (h x hx).2) hnil]
    exact (foldl_push_of_plain (fun x hx => (h x hx).1) []).trans (nil_append segs)

theorem normal_normal (cs : List Char) : normal sep (normal sep cs) = normal sep cs := by
  unfold normal
  rw [normSegments_splitOn_intercalate]
  intro x hx
  obtain ⟨hmem, hplain⟩ := mem_normSegments hx
  exact ⟨hplain, not_mem_of_mem_splitOn hmem⟩

/-- Leading separators do not matter. -/
theorem normal_cons_sep (cs : List Char) : normal sep (sep :: cs) = normal sep cs := by
  have hsplit : (sep :: cs).splitOn sep = [] :: cs.splitOn sep :=
    splitOn_append_cons_self_of_not_mem (not_mem_nil : sep ∉ []) cs
  unfold normal normSegments
  rw [hsplit]
  rfl

/-- A text that is joined of names neither starts nor ends with the separator. -/
theorem ends_intercalate (h : ∀ x ∈ segs, x ≠ [] ∧ sep ∉ x) :
    ¬ [sep] <+: [sep].intercalate segs ∧ ¬ [sep] <:+ [sep].intercalate segs := by
  induction segs with
  | nil => simp
  | cons x xs ih =>
    obtain ⟨hne, hsep⟩ := h x mem_cons_self
    obtain ⟨-, hlast⟩ := ih fun y hy => h y (mem_cons_of_mem _ hy)
    have hprefix : ∀ rest, ¬ [sep] <+: x ++ rest := by
      rintro rest ⟨after, hafter⟩
      obtain ⟨c, x', rfl⟩ := exists_cons_of_ne_nil hne
      rw [cons_append] at hafter
      exact hsep ((cons.inj hafter).1 ▸ mem_cons_self)
    by_cases hnil : xs = []
    · rw [hnil, intercalate_singleton]
      refine ⟨by simpa using hprefix [], fun hsuffix => hsep ?_⟩
      exact hsuffix.subset mem_cons_self
    rw [intercalate_cons_of_ne_nil hnil, append_assoc]
    refine ⟨ hprefix _, fun hsuffix => hlast ?_⟩
    have hrest : [sep].intercalate xs ≠ [] := by
      obtain ⟨y, ys, rfl⟩ := exists_cons_of_ne_nil hnil
      obtain ⟨hyne, -⟩ := h y (mem_cons_of_mem _ mem_cons_self)
      by_cases hys : ys = []
      · rw [hys, intercalate_singleton]
        exact hyne
      · rw [intercalate_cons_of_ne_nil hys]
        simp
    rw [← append_assoc] at hsuffix
    refine suffix_of_suffix_length_le hsuffix (suffix_append _ _) ?_
    exact length_pos_iff.2 hrest

theorem ends_normal (cs : List Char) : ¬ [sep] <+: normal sep cs ∧ ¬ [sep] <:+ normal sep cs := by
  refine ends_intercalate fun x hx => ?_
  obtain ⟨hmem, hplain⟩ := mem_normSegments hx
  exact ⟨hplain.1, not_mem_of_mem_splitOn hmem⟩

/-- The segments of a text that are neither empty nor a dot. -/
def parts (sep : Char) (cs : List Char) : List (List Char) :=
  (cs.splitOn sep).filter fun seg => seg ≠ [] ∧ seg ≠ ['.']

theorem parts_append_cons (cs ds : List Char) :
    parts sep (cs ++ sep :: ds) = parts sep cs ++ parts sep ds := by
  unfold parts
  rw [splitOn_append_cons_self, filter_append]

theorem mem_parts (h : x ∈ parts sep cs) : x ≠ [] ∧ sep ∉ x := by
  obtain ⟨hmem, hnamed⟩ := mem_filter.1 h
  exact ⟨(of_decide_eq_true hnamed).1, not_mem_of_mem_splitOn hmem⟩

/-- Without a double dot, the parts are left. -/
theorem normSegments_eq_parts (h : ['.', '.'] ∉ cs.splitOn sep) :
    normSegments (cs.splitOn sep) = parts sep cs := by
  rw [normSegments_of_no_dots fun x hx heq => h (heq ▸ hx)]
  refine filter_congr fun x hx => ?_
  have hdots : x ≠ ['.', '.'] := fun heq => h (heq ▸ hx)
  simp [Plain, hdots]

theorem splitOn_normal (h : normSegments (cs.splitOn sep) ≠ []) :
    (normal sep cs).splitOn sep = normSegments (cs.splitOn sep) := by
  refine splitOn_intercalate sep (fun x hx => ?_) h
  exact not_mem_of_mem_splitOn (mem_normSegments hx).1

/-- The parts of a normal text make it up. -/
theorem parts_normal (cs : List Char) :
    parts sep (normal sep cs) = normSegments (cs.splitOn sep) := by
  by_cases hnil : normSegments (cs.splitOn sep) = []
  · unfold normal
    rw [hnil]
    rfl
  · rw [parts, splitOn_normal hnil, filter_eq_self]
    intro x hx
    obtain ⟨-, hplain⟩ := mem_normSegments hx
    simp [hplain.1, hplain.2.1]

theorem mem_intercalate (h : c ∈ [sep].intercalate segs) : c = sep ∨ ∃ x ∈ segs, c ∈ x := by
  induction segs with
  | nil => cases h
  | cons x xs ih =>
    by_cases hnil : xs = []
    · rw [hnil, intercalate_singleton] at h
      exact .inr ⟨x, mem_cons_self, h⟩
    rw [intercalate_cons_of_ne_nil hnil, mem_append, mem_append] at h
    rcases h with (h | h) | h
    · exact .inr ⟨x, mem_cons_self, h⟩
    · exact .inl (mem_singleton.1 h)
    rcases ih h with h | ⟨y, hy, hc⟩
    · exact .inl h
    · exact .inr ⟨y, mem_cons_of_mem _ hy, hc⟩

/-- A character of a text is a separator or in a segment. -/
theorem mem_splitOn (sep : Char) (h : c ∈ cs) : c = sep ∨ ∃ x ∈ cs.splitOn sep, c ∈ x := by
  have hjoin : [sep].intercalate (cs.splitOn sep) = cs := intercalate_splitOn sep
  rw [← hjoin] at h
  exact mem_intercalate h

theorem mem_of_mem_splitOn (hx : x ∈ cs.splitOn sep) (hc : c ∈ x) : c ∈ cs := by
  induction cs generalizing x with
  | nil =>
    rw [splitOn_nil, mem_singleton] at hx
    rwa [hx] at hc
  | cons d cs ih =>
    rw [splitOn_cons_eq_if_modifyHead] at hx
    split at hx
    · rcases mem_cons.1 hx with rfl | hx
      · cases hc
      · exact mem_cons_of_mem _ (ih hx hc)
    obtain ⟨first, rest, hsplit⟩ := exists_cons_of_ne_nil (splitOn_ne_nil sep cs)
    rw [hsplit] at hx ih
    rcases mem_cons.1 hx with rfl | hx
    · rcases mem_cons.1 hc with rfl | hc
      · exact mem_cons_self
      · exact mem_cons_of_mem _ (ih mem_cons_self hc)
    · exact mem_cons_of_mem _ (ih (mem_cons_of_mem _ hx) hc)

/-- A character of a normal text is a separator or one of the text. -/
theorem mem_normal (h : c ∈ normal sep cs) : c = sep ∨ c ∈ cs := by
  rcases mem_intercalate h with h | ⟨x, hx, hc⟩
  · exact .inl h
  · exact .inr (mem_of_mem_splitOn (mem_normSegments hx).1 hc)

/-! ## Anchors -/

/-- The text that the paths under an anchor start with. -/
def under (sep : Char) (isSep : Char → Bool) (anchor : List Char) : List Char :=
  if anchor.getLast?.any isSep then anchor else anchor ++ [sep]

/-- The path is the anchor or lies under it. -/
def Within (sep : Char) (isSep : Char → Bool) (anchor path : List Char) : Prop :=
  path = anchor ∨ under sep isSep anchor <+: path

instance {isSep : Char → Bool} (anchor path : List Char) : Decidable (Within sep isSep anchor path) :=
  inferInstanceAs (Decidable (_ ∨ _))

variable {isSep : Char → Bool} {a b path : List Char}

/-- The shorter one of two anchors has the other one within it. -/
theorem within_of_prefix (h : under sep isSep a <+: under sep isSep b) :
    Within sep isSep a b ∨ Within sep isSep b a := by
  by_cases hb : b.getLast?.any isSep = true
  · left
    right
    have hunder : under sep isSep b = b := if_pos hb
    rwa [hunder] at h
  have hunder : under sep isSep b = b ++ [sep] := if_neg hb
  rw [hunder, prefix_concat_iff] at h
  rcases h with h | h
  · by_cases ha : a.getLast?.any isSep = true
    · have haunder : under sep isSep a = a := if_pos ha
      right
      right
      rw [hunder, ← h, haunder]
    · have haunder : under sep isSep a = a ++ [sep] := if_neg ha
      rw [haunder] at h
      left
      left
      exact (append_cancel_right h).symm
  · exact .inl (.inr h)

/-- Two anchors of a path are anchors of one another. -/
theorem within_comparable (ha : Within sep isSep a path) (hb : Within sep isSep b path) :
    Within sep isSep a b ∨ Within sep isSep b a := by
  rcases ha with rfl | ha
  · exact .inr hb
  rcases hb with rfl | hb
  · exact .inl (.inr ha)
  rcases prefix_or_prefix_of_prefix ha hb with h | h
  · exact within_of_prefix h
  · exact ( within_of_prefix h).symm

/-! ## Anchors by their segments -/

theorem intercalate_append {xs ys : List (List Char)} (hx : xs ≠ []) (hy : ys ≠ []) :
    [sep].intercalate (xs ++ ys) = [sep].intercalate xs ++ sep :: [sep].intercalate ys := by
  induction xs with
  | nil => exact absurd rfl hx
  | cons x xs ih =>
    rw [cons_append, intercalate_cons_of_ne_nil (by simp [hy])]
    by_cases hnil : xs = []
    · simp [hnil]
    · rw [ih hnil, intercalate_cons_of_ne_nil hnil]
      simp

/-- One list of segments starts another if its text is the other's, up to a separator. -/
theorem splitOn_prefix_splitOn {as bs : List Char} :
    as.splitOn sep <+: bs.splitOn sep ↔ bs = as ∨ as ++ [sep] <+: bs := by
  constructor
  · rintro ⟨more, hmore⟩
    have hjoin : [sep].intercalate (as.splitOn sep ++ more) = bs := by
      rw [hmore, intercalate_splitOn]
    by_cases hnil : more = []
    · left
      rw [← hjoin, hnil, append_nil, intercalate_splitOn]
    · right
      rw [← hjoin, intercalate_append (splitOn_ne_nil _ _) hnil, intercalate_splitOn]
      exact ⟨[sep].intercalate more, by simp⟩
  · rintro (rfl | ⟨rest, rfl⟩)
    · exact prefix_rfl
    have hform : as ++ [sep] ++ rest = as ++ sep :: rest := by simp
    rw [hform, splitOn_append_cons_self]
    exact prefix_append _ _

/-- A path without the separator that it ends with. -/
def unended (sep : Char) (cs : List Char) : List Char :=
  if cs.getLast? = some sep then cs.dropLast else cs

theorem unended_concat (cs : List Char) : unended sep (cs ++ [sep]) = cs := by
  simp [unended]

theorem unended_of_ne (h : cs.getLast? ≠ some sep) : unended sep cs = cs := if_neg h

theorem exists_unended (sep : Char) (cs : List Char) :
    cs.getLast? = some sep ∧ cs = unended sep cs ++ [sep] ∨
      cs.getLast? ≠ some sep ∧ cs = unended sep cs := by
  by_cases h : cs.getLast? = some sep
  · left
    refine ⟨h, ?_⟩
    rw [unended, if_pos h]
    exact (dropLast_append_getLast? _ h).symm
  · exact .inr ⟨h, (unended_of_ne h).symm⟩

/-- A path is within an anchor if its segments start with those of the anchor. -/
theorem within_iff_segments {isSep : Char → Bool} {anchor path : List Char}
    (hlast : anchor.getLast?.any isSep = true ↔ anchor.getLast? = some sep)
    (hpath : path ≠ unended sep anchor ∨ anchor.getLast? ≠ some sep) :
    Within sep isSep anchor path ↔
      (unended sep anchor).splitOn sep <+: (unended sep path).splitOn sep := by
  have hbelow : ∀ x : List Char, x ++ [sep] <+: path ↔
      path = x ++ [sep] ∨ x ++ [sep] <+: unended sep path := by
    intro x
    rcases exists_unended sep path with ⟨-, hends⟩ | ⟨hends, hself⟩
    · rw [hends, unended_concat, prefix_concat_iff, eq_comm (a := x ++ [sep])]
    rw [← hself, or_iff_right_of_imp]
    rintro rfl
    simp at hends
  have hsame : ∀ x : List Char, unended sep path = x ↔
      path = x ++ [sep] ∨ path = x ∧ x.getLast? ≠ some sep := by
    intro x
    constructor
    · rintro rfl
      rcases exists_unended sep path with ⟨-, hends⟩ | ⟨hends, hself⟩
      · exact .inl hends
      · exact .inr ⟨hself, hself ▸ hends⟩
    · rintro (rfl | ⟨rfl, hends⟩)
      · exact unended_concat x
      · exact unended_of_ne hends
  unfold Within under
  rw [splitOn_prefix_splitOn, hsame]
  rcases exists_unended sep anchor with ⟨hends, heq⟩ | ⟨hends, heq⟩
  · have hne : path ≠ unended sep anchor := hpath.resolve_right (fun h => h hends)
    rw [if_pos (hlast.2 hends)]
    rw [heq] at hne ⊢
    rw [unended_concat] at hne ⊢
    rw [hbelow]
    simp only [hne, false_and, or_false, or_self_left]
  · rw [if_neg (fun h => hends (hlast.1 h)), ← heq, hbelow]
    simp only [hends, ne_eq, not_false_eq_true, and_true]
    rw [or_assoc, or_left_comm]
    

theorem getLast?_normal (front : List Char) {rest : List Char} (h : normal sep rest ≠ []) :
    (front ++ sep :: normal sep rest).getLast? ≠ some sep := by
  intro hlast
  apply (@ends_normal sep rest).2
  rw [getLast?_append_of_ne_nil _ (cons_ne_nil _ _), getLast?_cons,
    getLast?_eq_some_getLast h] at hlast
  refine ⟨_, dropLast_append_getLast? _ ?_⟩
  rw [getLast?_eq_some_getLast h]
  exact hlast

theorem not_mem_append_normal {front rest : List Char} (hfront : c ∉ front) (hsep : c ≠ sep)
    (hrest : c ∉ rest) : c ∉ front ++ sep :: normal sep rest := by
  rw [mem_append, mem_cons, not_or, not_or]
  exact ⟨hfront, hsep, fun hmem => (mem_normal hmem).elim hsep hrest⟩

/-- The segments of a path that is normal after its front. -/
theorem splitOn_unended_normal (front rest : List Char) :
    (unended sep (front ++ sep :: normal sep rest)).splitOn sep =
      front.splitOn sep ++ normSegments (rest.splitOn sep) := by
  by_cases hnil : normSegments (rest.splitOn sep) = []
  · have hnormal : normal sep rest = [] := by
      rw [normal, hnil]
      rfl
    rw [hnormal, hnil, unended_concat, append_nil]
  have hsplit := splitOn_normal hnil
  have hne : normal sep rest ≠ [] := by
    intro heq
    rw [heq, splitOn_nil] at hsplit
    have hmem : [] ∈ normSegments (rest.splitOn sep) := hsplit ▸ mem_cons_self
    exact (mem_normSegments hmem).2.1 rfl
  rw [unended_of_ne (getLast?_normal front hne), splitOn_append_cons_self, hsplit]

end LexicalPath
