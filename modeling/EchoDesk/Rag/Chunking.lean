import EchoDesk.Core.Python
import Mathlib.Data.List.Chain

/-! # The chunks of a text

`_chunk_text` of `app/adapters/rag/bm25.py`. The settings put no bounds on the size of a
chunk and on the overlap of two of them, so both range over all integers here. The loop is
run with fuel: it ends where some fuel is enough for it.
-/

namespace Rag

open EchoDesk List Option Bool

namespace Chunking

/-- `text[start:stop]`: a negative index counts from the end. -/
def pySlice (text : List Char) (start stop : Int) : List Char :=
  let index (i : Int) : Nat := (if i < 0 then max 0 (i + text.length) else min i text.length).toNat
  (text.drop (index start)).take (index stop - index start)

/-- `re.sub(r"\s+", " ", text).strip()`. -/
def normalized (text : String) : List Char :=
  stripChars isSpace (collapse isSpace ' ' text.toList)

/-- The loop of `_chunk_text` from the index `i` on: the chunks, each with the index it was cut
at. -/
def chunksFrom (text : List Char) (size overlap : Int) : Nat → Int → Option (List (Int × List Char))
  | 0, _ => none
  | fuel + 1, i =>
    if i < text.length then
      let sub := pySlice text i (i + size)
      let out := if stripChars isSpace sub = [] then [] else [(i, sub)]
      if text.length ≤ i + size then some out
      else (chunksFrom text size overlap fuel (i + (size - overlap))).map fun rest => out ++ rest
    else some []

/-- `_chunk_text`. -/
def chunkText (fuel : Nat) (text : String) (size overlap : Int) : Option (List (Int × List Char)) :=
  chunksFrom (normalized text) size overlap fuel 0

/-! ## The promise -/

/-- The chunks show every character of the text that is no space. -/
def Covers (text : List Char) (chunks : List (Int × List Char)) : Prop :=
  ∀ (p : Nat) (c : Char), text[p]? = some c → isSpace c = false →
    ∃ chunk ∈ chunks, ∃ k : Nat, (p : Int) = chunk.1 + k ∧ chunk.2[k]? = some c

/-- What is promised of the chunks. -/
structure Chunked (text : List Char) (size overlap : Int) (chunks : List (Int × List Char)) :
    Prop where
  sized : ∀ chunk ∈ chunks, (chunk.2.length : Int) ≤ size
  spaced : chunks.IsChain fun a b => b.1 = a.1 + (size - overlap)
  covers : Covers text chunks

/-- `_chunk_text` ends, with chunks as they are promised. -/
def Keeps (text : String) (size overlap : Int) : Prop :=
  ∃ fuel chunks, chunkText fuel text size overlap = some chunks ∧
    Chunked (normalized text) size overlap chunks

/-! ## The condition -/

/-- The text is empty or one chunk long; or the stride is positive, only spaces lie between two
chunks, and chunks of one character that follow on each other meet no space at all. -/
def Fits (text : List Char) (size overlap : Int) : Prop :=
  text = [] ∨ 0 < size ∧ ((text.length : Int) ≤ size ∨ overlap < size ∧
    (∀ (p : Nat) (c : Char), text[p]? = some c → size ≤ p % (size - overlap) → isSpace c = true) ∧
    (size = 1 → overlap = 0 → ∀ c ∈ text, isSpace c = false))

/-! ## Normalized texts -/

/-- No space at either end, and no two of them side by side. -/
structure Normal (text : List Char) : Prop where
  first : ∀ c ∈ text.head?, isSpace c = false
  last : ∀ c ∈ text.getLast?, isSpace c = false
  single : text.IsChain fun a b => isSpace a = false ∨ isSpace b = false

theorem collapse_single (p : Char → Bool) (c : Char) (cs : List Char) :
    (collapse p c cs).IsChain fun a b => p a = false ∨ p b = false := by
  fun_induction collapse p c cs with
  | case1 => exact .nil
  | case2 d hd => exact .singleton c
  | case3 d hd e es he ih => exact ih
  | case4 d hd e es he ih =>
    -- the run ends here, and what follows begins with a character that stays
    refine ih.cons ?_
    intro a ha
    right
    rw [collapse.eq_def] at ha
    dsimp only at ha
    rw [if_neg he, head?_cons, mem_some_iff] at ha
    rw [← ha]
    exact eq_false_iff.2 he
  | case5 d ds hd ih =>
    refine ih.cons ?_
    intro a _
    exact .inl (eq_false_iff.2 hd)

theorem stripChars_subset (p : Char → Bool) (cs : List Char) : stripChars p cs ⊆ cs :=
  fun _ hc => (dropWhile_sublist p).subset ((stripChars_front p cs).subset hc)

theorem isChain_stripChars {R : Char → Char → Prop} (p : Char → Bool) {cs : List Char}
    (h : cs.IsChain R) : (stripChars p cs).IsChain R := by
  obtain ⟨rest, hrest⟩ := stripChars_front p cs
  have hchain := h.suffix (dropWhile_suffix p)
  rw [← hrest] at hchain
  exact hchain.left_of_append

theorem normal_normalized (text : String) : Normal (normalized text) where
  first := head?_stripChars isSpace _
  last := getLast?_stripChars isSpace _
  single := isChain_stripChars isSpace (collapse_single isSpace ' ' text.toList)

variable {text : List Char}
variable {chunks : List (Int × List Char)}
variable {p size stride : Nat}

/-- One of two neighbours is no space. -/
theorem Normal.neighbours (h : Normal text) {a b : Char} (ha : text[p]? = some a)
    (hb : text[p + 1]? = some b) : isSpace a = false ∨ isSpace b = false := by
  have hp : p + 1 < text.length := (List.getElem?_eq_some_iff.1 hb).1
  have hchain := isChain_iff_getElem.1 h.single p hp
  rw [List.getElem?_eq_some_iff] at ha hb
  obtain ⟨-, rfl⟩ := ha
  obtain ⟨-, rfl⟩ := hb
  exact hchain

/-! ## Slices -/

/-- A slice between two indices that are not negative. -/
theorem pySlice_natCast (text : List Char) (i k : Nat) :
    pySlice text i (i + k : Int) = (text.drop i).take k := by
  have hindex : ∀ j : Nat, (if (j : Int) < 0 then max 0 ((j : Int) + text.length)
      else min (j : Int) text.length).toNat = min j text.length := by
    intro j
    rw [if_neg (by omega)]
    omega
  have hsum : (i + k : Int) = ((i + k : Nat) : Int) := by omega
  unfold pySlice
  dsimp only
  rw [hsum, hindex, hindex]
  by_cases hi : i ≤ text.length
  · rw [Nat.min_eq_left hi, take_eq_take_iff, length_drop]
    omega
  · have hle : text.length ≤ i := by omega
    rw [Nat.min_eq_right hle, drop_length, drop_eq_nil_of_le hle, take_nil, take_nil]

/-- The character `k` of the slice. -/
theorem getElem?_pySlice {i k : Nat} (hk : k < size) :
    (pySlice text i (i + size : Int))[k]? = text[i + k]? := by
  rw [pySlice_natCast, getElem?_take, if_pos hk, getElem?_drop]

theorem length_pySlice_le (text : List Char) (i size : Nat) :
    (pySlice text i (i + size : Int)).length ≤ size := by
  rw [pySlice_natCast]
  exact length_take_le _ _

theorem stripChars_ne_nil {sub : List Char} :
    stripChars isSpace sub ≠ [] ↔ ∃ c ∈ sub, isSpace c = false := by
  constructor
  · intro hne
    obtain ⟨c, cs, heq⟩ := exists_cons_of_ne_nil hne
    refine ⟨c, stripChars_subset isSpace sub ?_, head?_stripChars isSpace sub c ?_⟩
    · rw [heq]
      exact mem_cons_self
    · rw [heq]
      rfl
  · rintro ⟨c, hc, hspace⟩ hnil
    rw [stripChars_eq_nil hnil c hc] at hspace
    cases hspace

/-! ## The loop -/

section Loop

variable {text : List Char} {size overlap : Int}

/-- A loop whose index does not grow and does not come near the end does not end. -/
theorem chunksFrom_none (hstride : size ≤ overlap) (hlong : size < text.length)
    (htext : text ≠ []) (fuel : Nat) {i : Int} (hi : i ≤ 0) :
    chunksFrom text size overlap fuel i = none := by
  have hpos := length_pos_iff.2 htext
  induction fuel generalizing i with
  | zero => rfl
  | succ fuel ih =>
    have hnext : i + (size - overlap) ≤ 0 := by omega
    unfold chunksFrom
    rw [if_pos (by omega)]
    rw [if_neg (by omega), ih hnext]
    rfl

/-- Each chunk is a slice that is not blank, a number of strides further on. -/
theorem mem_chunksFrom {fuel : Nat} {i : Int}
    (h : chunksFrom text size overlap fuel i = some chunks) :
    ∀ chunk ∈ chunks, (∃ k : Nat, chunk.1 = i + k * (size - overlap)) ∧
      chunk.2 = pySlice text chunk.1 (chunk.1 + size) ∧ stripChars isSpace chunk.2 ≠ [] := by
  induction fuel generalizing i chunks with
  | zero => cases h
  | succ fuel ih =>
    unfold chunksFrom at h
    split at h
    · -- the chunk that this pass adds, if it adds one
      have hout : ∀ chunk ∈ (if stripChars isSpace (pySlice text i (i + size)) = [] then []
          else [(i, pySlice text i (i + size))]),
          (∃ k : Nat, chunk.1 = i + k * (size - overlap)) ∧
            chunk.2 = pySlice text chunk.1 (chunk.1 + size) ∧
            stripChars isSpace chunk.2 ≠ [] := by
        intro chunk hchunk
        split at hchunk
        · cases hchunk
        rename_i hne
        obtain rfl := mem_singleton.1 hchunk
        exact ⟨⟨0, by simp⟩, rfl, hne⟩
      split at h
      · cases h
        exact hout
      obtain ⟨rest, hrest, rfl⟩ := map_eq_some_iff.1 h
      intro chunk hchunk
      rcases mem_append.1 hchunk with hchunk | hchunk
      · exact hout chunk hchunk
      obtain ⟨⟨k, hk⟩, hslice⟩ := ih hrest chunk hchunk
      refine ⟨⟨k + 1, ?_⟩, hslice⟩
      rw [hk, Int.natCast_add, Int.add_mul, Int.natCast_one, Int.one_mul]
      omega
    · cases h
      intro chunk hchunk
      cases hchunk

end Loop

/-- A loop that moves on by a positive stride over slices that are not blank. -/
theorem chunksFrom_written (hstride : 0 < stride)
    (hwritten : ∀ j : Nat, j % stride = 0 → j < text.length →
      stripChars isSpace (pySlice text j (j + size : Int)) ≠ []) {fuel i : Nat}
    (hfuel : text.length - i < fuel) (hi : i % stride = 0) :
    ∃ chunks, chunksFrom text size (size - stride) fuel i = some chunks ∧
      (∀ chunk ∈ chunks.head?, chunk.1 = i) ∧
      (∀ chunk ∈ chunks, (chunk.2.length : Int) ≤ size) ∧
      chunks.IsChain (fun a b => b.1 = a.1 + (stride : Int)) ∧
      ∀ (p : Nat) (c : Char), text[p]? = some c → i ≤ p → p % stride < size →
        ∃ chunk ∈ chunks, ∃ k : Nat, (p : Int) = chunk.1 + k ∧ chunk.2[k]? = some c := by
  induction fuel generalizing i with
  | zero => omega
  | succ fuel ih =>
    unfold chunksFrom
    by_cases hlt : i < text.length
    · rw [if_pos (by omega)]
      dsimp only
      rw [if_neg (hwritten i hi hlt)]
      have hhere : ∀ (p : Nat) (c : Char), text[p]? = some c → i ≤ p → p < i + size →
          ∃ k : Nat, (p : Int) = i + k ∧ (pySlice text i (i + size : Int))[k]? = some c := by
        intro p c hc hip hlt
        refine ⟨p - i, by omega, ?_⟩
        rw [getElem?_pySlice (by omega), Nat.add_sub_cancel' hip]
        exact hc
      have hsize := length_pySlice_le text i size
      split
      · refine ⟨_, rfl, ?_, ?_, .singleton _, ?_⟩
        · intro chunk hchunk
          cases hchunk
          rfl
        · intro chunk hchunk
          obtain rfl := mem_singleton.1 hchunk
          exact Int.ofNat_le.2 hsize
        · intro p c hc hip _
          have hp := (List.getElem?_eq_some_iff.1 hc).1
          exact ⟨_, mem_singleton.2 rfl, hhere p c hc hip (by omega)⟩
      have hnext : (i : Int) + (size - (size - stride)) = ((i + stride : Nat) : Int) := by omega
      obtain ⟨rest, hrest, hhead, hsized, hchain, hcovers⟩ :=
        ih (i := i + stride) (by omega) (by rw [Nat.add_mod_right, hi])
      rw [hnext, hrest]
      refine ⟨_, rfl, ?_, ?_, ?_, ?_⟩
      · intro chunk hchunk
        cases hchunk
        rfl
      · intro chunk hchunk
        rcases mem_cons.1 hchunk with rfl | hchunk
        · exact Int.ofNat_le.2 hsize
        · exact hsized chunk hchunk
      · refine hchain.cons ?_
        intro chunk hchunk
        rw [hhead chunk hchunk]
        omega
      intro p c hc hip hmod
      by_cases hnear : p < i + size
      · exact ⟨_, mem_cons_self, hhere p c hc hip hnear⟩
      -- a position past the slice is past the gap behind it, too
      have hfar : i + stride ≤ p := by
        by_contra hgap
        have hsplit : p = (p - i) + i := by omega
        rw [hsplit, Nat.add_mod, hi, Nat.add_zero, Nat.mod_mod, Nat.mod_eq_of_lt (by omega)] at hmod
        omega
      obtain ⟨chunk, hchunk, hshows⟩ := hcovers p c hc hfar hmod
      exact ⟨chunk, mem_cons_of_mem _ hchunk, hshows⟩
    · rw [if_neg (by omega)]
      refine ⟨[], rfl, nofun, nofun, .nil, ?_⟩
      intro p c hc hip
      have hp := (List.getElem?_eq_some_iff.1 hc).1
      omega

/-! ## The law -/

/-- Of a text without two spaces side by side, no slice of the loop is blank where only spaces
lie between the slices. -/
theorem written_of_gaps (hnormal : Normal text) (hsize : 0 < size) (hstride : 0 < stride)
    (hgaps : ∀ (p : Nat) (c : Char), text[p]? = some c → size ≤ p % stride → isSpace c = true)
    (hone : size = 1 → stride = 1 → ∀ c ∈ text, isSpace c = false) {j : Nat} (hj : j % stride = 0)
    (hlt : j < text.length) : stripChars isSpace (pySlice text j (j + size : Int)) ≠ [] := by
  rw [stripChars_ne_nil]
  have hat : ∀ k, k < size → ∀ c, text[j + k]? = some c → isSpace c = false →
      ∃ c ∈ pySlice text j (j + size : Int), isSpace c = false := by
    intro k hk c hc hspace
    refine ⟨c, mem_of_getElem? (i := k) ?_, hspace⟩
    rw [getElem?_pySlice hk]
    exact hc
  obtain ⟨c, hc⟩ : ∃ c, text[j]? = some c := ⟨_, getElem?_eq_getElem hlt⟩
  by_cases hspace : isSpace c = false
  · exact hat 0 hsize c hc hspace
  by_cases hnext : j + 1 < text.length
  · obtain ⟨d, hd⟩ : ∃ d, text[j + 1]? = some d := ⟨_, getElem?_eq_getElem hnext⟩
    have hother : isSpace d = false := (hnormal.neighbours hc hd).resolve_left hspace
    by_cases hlong : 1 < size
    · exact hat 1 hlong d hd hother
    -- a slice of one space: it is not the first, and the gap before it is a space, too
    exfalso
    by_cases hone' : stride = 1
    · exact hspace (hone (by omega) hone' c (mem_of_getElem? hc))
    obtain ⟨m, rfl⟩ := Nat.dvd_of_mod_eq_zero hj
    cases m with
    | zero =>
      rw [Nat.mul_zero, ← head?_eq_getElem?] at hc
      exact hspace (hnormal.first c hc)
    | succ m =>
      have hbefore : stride * (m + 1) = stride * m + (stride - 1) + 1 := by
        rw [Nat.mul_succ]
        omega
      obtain ⟨d, hd⟩ : ∃ d, text[stride * m + (stride - 1)]? = some d :=
        ⟨_, getElem?_eq_getElem (by omega)⟩
      have hgap : isSpace d = true := by
        refine hgaps _ d hd ?_
        rw [Nat.mul_add_mod, Nat.mod_eq_of_lt (by omega)]
        omega
      rw [hbefore] at hc
      rcases hnormal.neighbours hd hc with hfree | hfree
      · rw [hgap] at hfree
        cases hfree
      · exact hspace hfree
  · -- the text does not end with a space
    have hend : j = text.length - 1 := by omega
    rw [hend, ← getLast?_eq_getElem?] at hc
    exact absurd (hnormal.last c hc) hspace

/-- Where each chunk is one further on than the one before it, chunk `i` is `i` further on than
the first. -/
theorem start_of_chain (h : chunks.IsChain fun a b => b.1 = a.1 + 1) :
    ∃ first : Int, ∀ (i : Nat) (hi : i < chunks.length), chunks[i].1 = first + i := by
  cases chunks with
  | nil => exact ⟨0, nofun⟩
  | cons chunk rest =>
    refine ⟨chunk.1, ?_⟩
    intro i hi
    induction i with
    | zero => simp
    | succ i ih =>
      rw [isChain_iff_getElem.1 h i hi, ih (by omega)]
      omega

/-- With a stride of one there is a chunk at every index between two chunks. -/
theorem exists_chunk_between (h : chunks.IsChain fun a b => b.1 = a.1 + 1) {a b : Int × List Char}
    (ha : a ∈ chunks) (hb : b ∈ chunks) {p : Int} (hap : a.1 ≤ p) (hpb : p ≤ b.1) :
    ∃ e ∈ chunks, e.1 = p := by
  obtain ⟨i, hi, rfl⟩ := getElem_of_mem ha
  obtain ⟨j, hj, rfl⟩ := getElem_of_mem hb
  obtain ⟨first, hstart⟩ := start_of_chain h
  have hi' := hstart i hi
  have hj' := hstart j hj
  have hk : i + (p - chunks[i].1).toNat < chunks.length := by omega
  refine ⟨_, getElem_mem hk, ?_⟩
  rw [hstart _ hk]
  omega

section Law

variable {text : List Char} {size overlap : Int} {fuel : Nat} {chunks : List (Int × List Char)}

/-- What the chunks of a text that is not empty show of it, at their indices. -/
theorem Chunked.shows (h : Chunked text size overlap chunks) {c : Char} (hc : text[p]? = some c)
    (hspace : isSpace c = false) : ∃ chunk ∈ chunks, chunk.1 ≤ p ∧ p < chunk.1 + size := by
  obtain ⟨chunk, hchunk, k, hk, hshown⟩ := h.covers p c hc hspace
  have hlength := (List.getElem?_eq_some_iff.1 hshown).1
  have hsized := h.sized chunk hchunk
  exact ⟨chunk, hchunk, by omega, by omega⟩

/-- The chunks leave out only spaces. -/
theorem Chunked.gaps (h : Chunked text size overlap chunks) (hstride : overlap < size)
    (hrun : chunksFrom text size overlap fuel 0 = some chunks) {c : Char} (hc : text[p]? = some c)
    (hgap : size ≤ p % (size - overlap)) : isSpace c = true := by
  by_contra hspace
  rw [not_eq_true] at hspace
  obtain ⟨chunk, hchunk, hle, hlt⟩ := h.shows hc hspace
  obtain ⟨⟨k, hk⟩, -⟩ := mem_chunksFrom hrun chunk hchunk
  have hmod : (p : Int) % (size - overlap) = (p - chunk.1) % (size - overlap) := by
    have hsum : (p : Int) = (p - chunk.1) + k * (size - overlap) := by omega
    rw [hsum, Int.add_mul_emod_self_right]
    congr 1
    omega
  by_cases hshort : (p : Int) - chunk.1 < size - overlap
  · have heq := Int.emod_eq_of_lt (by omega : 0 ≤ (p : Int) - chunk.1) hshort
    omega
  · have hbound := Int.emod_lt_of_pos ((p : Int) - chunk.1) (by omega : 0 < size - overlap)
    omega

/-- Chunks of one character that follow on each other leave out nothing. -/
theorem Chunked.unspaced (h : Chunked text 1 0 chunks) (hnormal : Normal text)
    (hrun : chunksFrom text 1 0 fuel 0 = some chunks) : ∀ c ∈ text, isSpace c = false := by
  intro c hc
  by_contra hspace
  obtain ⟨p, hp⟩ := getElem?_of_mem hc
  have hlt := (List.getElem?_eq_some_iff.1 hp).1
  have hfirst : p ≠ 0 := by
    rintro rfl
    rw [← head?_eq_getElem?] at hp
    exact hspace (hnormal.first c hp)
  have hlast : p + 1 < text.length := by
    by_contra hend
    have hend : p = text.length - 1 := by omega
    rw [hend, ← getLast?_eq_getElem?] at hp
    exact hspace (hnormal.last c hp)
  obtain ⟨q, rfl⟩ : ∃ q, p = q + 1 := ⟨p - 1, by omega⟩
  -- the characters on both sides are shown, so there is a chunk at the space, too
  obtain ⟨b, hb⟩ : ∃ b, text[q]? = some b := ⟨_, getElem?_eq_getElem (by omega)⟩
  obtain ⟨d, hd⟩ : ∃ d, text[q + 1 + 1]? = some d := ⟨_, getElem?_eq_getElem hlast⟩
  have hbefore : isSpace b = false := (hnormal.neighbours hb hp).resolve_right hspace
  have hafter : isSpace d = false := (hnormal.neighbours hp hd).resolve_left hspace
  obtain ⟨chunk, hchunk, hle, -⟩ := h.shows hb hbefore
  obtain ⟨chunk', hchunk', -, hlt'⟩ := h.shows hd hafter
  obtain ⟨e, he, hstart⟩ := exists_chunk_between h.spaced hchunk hchunk'
    (by omega : chunk.1 ≤ ((q + 1 : Nat) : Int)) (by omega)
  obtain ⟨-, hslice, hwritten⟩ := mem_chunksFrom hrun e he
  have hshort : pySlice text ((q + 1 : Nat) : Int) (((q + 1 : Nat) : Int) + 1) = [c] := by
    refine (pySlice_natCast text (q + 1) 1).trans ?_
    rw [take_one, head?_drop, hp]
    rfl
  rw [hslice, hstart, hshort, stripChars_ne_nil] at hwritten
  obtain ⟨a, ha, hfree⟩ := hwritten
  rw [mem_singleton.1 ha] at hfree
  exact hspace hfree

theorem fits_of_chunked (hnormal : Normal text) (h : Chunked text size overlap chunks)
    (hrun : chunksFrom text size overlap fuel 0 = some chunks) : Fits text size overlap := by
  by_cases hempty : text = []
  · exact .inl hempty
  right
  obtain ⟨c, cs, rfl⟩ := exists_cons_of_ne_nil hempty
  obtain ⟨chunk, -, hle, hlt⟩ := h.shows (p := 0) rfl (hnormal.first c rfl)
  refine ⟨by omega, ?_⟩
  by_cases hshort : ((c :: cs).length : Int) ≤ size
  · exact .inl hshort
  right
  have hstride : overlap < size := by
    by_contra hstride
    rw [chunksFrom_none (by omega) (by omega) hempty fuel (Int.le_refl 0)] at hrun
    cases hrun
  refine ⟨hstride, fun p d hd hgap => h.gaps hstride hrun hd hgap, ?_⟩
  rintro rfl rfl
  exact h.unspaced hnormal hrun

theorem chunked_of_fits (hnormal : Normal text) (h : Fits text size overlap) :
    ∃ fuel chunks, chunksFrom text size overlap fuel 0 = some chunks ∧
      Chunked text size overlap chunks := by
  rcases h with rfl | ⟨hsize, hshort | ⟨hstride, hgaps, hone⟩⟩
  · refine ⟨1, [], rfl, nofun, .nil, ?_⟩
    intro p c hc
    cases hc
  · by_cases hempty : text = []
    · subst hempty
      refine ⟨1, [], rfl, nofun, .nil, ?_⟩
      intro p c hc
      cases hc
    -- one pass cuts the whole text
    have hpos := length_pos_iff.2 hempty
    obtain ⟨c, cs, rfl⟩ := exists_cons_of_ne_nil hempty
    obtain ⟨s, rfl⟩ := Int.eq_ofNat_of_zero_le (Int.le_of_lt hsize)
    have hwhole : pySlice (c :: cs) 0 (0 + (s : Int)) = c :: cs := by
      refine (pySlice_natCast (c :: cs) 0 s).trans ?_
      rw [drop_zero, take_of_length_le (by omega)]
    have hwritten : stripChars isSpace (c :: cs) ≠ [] :=
      stripChars_ne_nil.2 ⟨c, mem_cons_self, hnormal.first c rfl⟩
    refine ⟨1, [(0, c :: cs)], ?_, ?_, .singleton _, ?_⟩
    · unfold chunksFrom
      rw [if_pos (by omega), if_pos (by omega), hwhole, if_neg hwritten]
    · intro chunk hchunk
      rw [mem_singleton.1 hchunk]
      exact hshort
    · intro p d hd _
      exact ⟨_, mem_singleton.2 rfl, p, (Int.zero_add _).symm, hd⟩
  obtain ⟨s, rfl⟩ := Int.eq_ofNat_of_zero_le (Int.le_of_lt hsize)
  obtain ⟨d, hd⟩ := Int.eq_ofNat_of_zero_le (by omega : 0 ≤ (s : Int) - overlap)
  have hoverlap : overlap = (s : Int) - d := by omega
  have hgaps' : ∀ (p : Nat) (c : Char), text[p]? = some c → s ≤ p % d → isSpace c = true := by
    intro p c hc hgap
    refine hgaps p c hc ?_
    rw [hd, ← Int.natCast_emod]
    exact Int.ofNat_le.2 hgap
  have hone' : s = 1 → d = 1 → ∀ c ∈ text, isSpace c = false := by
    intro hs hd
    exact hone (by omega) (by omega)
  obtain ⟨chunks, hrun, -, hsized, hchain, hcovers⟩ := chunksFrom_written (by omega : 0 < d)
    (fun j hj hlt => written_of_gaps hnormal (by omega) (by omega) hgaps' hone' hj hlt)
    (Nat.lt_succ_self (text.length - 0)) (Nat.zero_mod d)
  rw [← hoverlap] at hrun
  refine ⟨_, chunks, hrun, hsized, ?_, ?_⟩
  · rw [hd]
    exact hchain
  intro p c hc hspace
  refine hcovers p c hc (Nat.zero_le p) ?_
  by_contra hgap
  rw [hgaps' p c hc (by omega)] at hspace
  cases hspace

end Law

/-- For every text, chunk size and overlap, the loop ends with chunks as they are promised just
when the text fits. -/
theorem chunks_iff (text : String) (size overlap : Int) :
    Keeps text size overlap ↔ Fits (normalized text) size overlap := by
  constructor
  · rintro ⟨fuel, chunks, hrun, hchunked⟩
    exact fits_of_chunked (normal_normalized text) hchunked hrun
  · intro hfits
    obtain ⟨fuel, chunks, hrun, hchunked⟩ := chunked_of_fits (normal_normalized text) hfits
    exact ⟨fuel, chunks, hrun, hchunked⟩

/-! Where the overlap is as large as the chunks, a text of two characters is never done. -/

theorem chunks_endless : ¬ Keeps "ab" 1 1 := by
  rintro ⟨fuel, chunks, hrun, -⟩
  have hnone : chunkText fuel "ab" 1 1 = none :=
    chunksFrom_none (Int.le_refl 1) (by decide +kernel) (by decide +kernel) fuel (Int.le_refl 0)
  rw [hnone] at hrun
  cases hrun

end Chunking

end Rag
