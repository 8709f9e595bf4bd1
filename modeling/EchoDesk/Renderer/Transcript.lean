import EchoDesk.Core.KeyOrder
import EchoDesk.Renderer.SyncProtocol

/-! # The transcript of a meeting in the renderer

`mergeSegments` of `store.ts`: how the segment list of a meeting takes in segments that arrive
again, nearly again, or beyond its cap. A time is an integer here, as the backend sends it.
-/

namespace Renderer

open EchoDesk List

structure TranscriptSegment where
  text : String
  startMs : Int
  endMs : Int
  speakerId : Option String := none
  speakerLabel : Option String := none

def segmentKey (s : TranscriptSegment) : String :=
  "\x01".intercalate
    [toString s.startMs, toString s.endMs, s.text, s.speakerId.getD "", s.speakerLabel.getD ""]

/-- A row of the distances after the unit `x`, from the row before and the cell on its left. -/
def distanceRow (x : Nat) : List Nat → List Nat → Nat → List Nat
  | y :: ys, diagonal :: above :: prev, left =>
    let cell := min (left + 1) (min (above + 1) (diagonal + if x = y then 0 else 1))
    cell :: distanceRow x ys (above :: prev) cell
  | _, _, _ => []

def editDistance (a b : List Nat) : Nat :=
  if a = b then 0
  else if a = [] then b.length
  else if b = [] then a.length
  else
    let rows := a.zipIdx.foldl (fun prev x => (x.2 + 1) :: distanceRow x.1 b prev (x.2 + 1))
      (List.range (b.length + 1))
    rows.getLastD 0

/-- The similarity is compared with 0.82 exactly: up to a length of 80 rounding changes nothing. -/
def likelySameTranscript (a b : List Nat) : Bool :=
  let shorter := if a.length ≤ b.length then a else b
  let longer := if b.length < a.length then a else b
  if a = [] ∨ b = [] then false
  else if a = b then true
  else if 8 ≤ shorter.length ∧ longer.tails.any shorter.isPrefixOf then true
  else if 80 < longer.length then false
  else 100 * editDistance a b ≤ 18 * longer.length

def MAX_PERSISTED_SEGMENTS_PER_MEETING : Nat := 800

section Merge

-- `String.prototype.toLowerCase`
variable (toLowerCase : String → String)

def normalizeSegmentText (text : String) : List Nat :=
  let kept := text.toList.filter fun c =>
    !isTrimmed c && c ∉ "，。！？、,.!?;；:\"“”'‘’（）()[]【】<>《》".toList
  KeyOrder.units (toLowerCase (String.ofList kept))

def isNearDuplicateSegment (existing incoming : TranscriptSegment) : Bool :=
  let a := normalizeSegmentText toLowerCase existing.text
  let b := normalizeSegmentText toLowerCase incoming.text
  let sameSpeaker := (existing.speakerLabel <|> existing.speakerId).getD "" =
    (incoming.speakerLabel <|> incoming.speakerId).getD ""
  let near := (existing.startMs - incoming.startMs).natAbs ≤ 6000 ∨
    (existing.endMs - incoming.endMs).natAbs ≤ 6000
  likelySameTranscript a b && near && (a = b || sameSpeaker)

/-- A round of the loop; the set `seen` holds the keys of `merged`. -/
def mergeSegment (merged : List TranscriptSegment) (seg : TranscriptSegment) :
    List TranscriptSegment :=
  if segmentKey seg ∈ merged.map segmentKey then merged
  else if merged.any fun item => isNearDuplicateSegment toLowerCase item seg then merged
  else merged ++ [seg]

/-- The list before it is cut to the cap. -/
def collectSegments (existing incoming : List TranscriptSegment) : List TranscriptSegment :=
  incoming.foldl (mergeSegment toLowerCase) existing

def mergeSegments (existing incoming : List TranscriptSegment) : List TranscriptSegment :=
  if incoming = [] then existing
  else
    let merged := collectSegments toLowerCase existing incoming
    merged.drop (merged.length - MAX_PERSISTED_SEGMENTS_PER_MEETING)

/-- The list has a segment that equals this one or is its near duplicate. -/
def Holds (list : List TranscriptSegment) (seg : TranscriptSegment) : Prop :=
  ∃ item ∈ list, segmentKey item = segmentKey seg ∨
    isNearDuplicateSegment toLowerCase item seg = true

/-! ## Collecting -/

variable {toLowerCase} {existing incoming list : List TranscriptSegment} {seg : TranscriptSegment}

theorem mergeSegment_of_holds (h : Holds toLowerCase list seg) :
    mergeSegment toLowerCase list seg = list := by
  obtain ⟨item, hitem, hkey | hnear⟩ := h
  · rw [mergeSegment, if_pos (hkey ▸ mem_map_of_mem hitem)]
  unfold mergeSegment
  split
  · rfl
  · rw [if_pos (any_eq_true.2 ⟨item, hitem, hnear⟩)]

theorem mergeSegment_of_not_holds (h : ¬ Holds toLowerCase list seg) :
    mergeSegment toLowerCase list seg = list ++ [seg] := by
  have hkey : segmentKey seg ∉ list.map segmentKey := by
    intro hmem
    obtain ⟨item, hitem, heq⟩ := mem_map.1 hmem
    exact h ⟨item, hitem, .inl heq⟩
  have hnear : ¬ (list.any fun item => isNearDuplicateSegment toLowerCase item seg) = true := by
    intro hany
    obtain ⟨item, hitem, hnear⟩ := any_eq_true.1 hany
    exact h ⟨item, hitem, .inr hnear⟩
  rw [mergeSegment, if_neg hkey, if_neg hnear]

theorem Holds.append (h : Holds toLowerCase list seg) (more : List TranscriptSegment) :
    Holds toLowerCase (list ++ more) seg := by
  obtain ⟨item, hitem, hsame⟩ := h
  exact ⟨item, mem_append_left _ hitem, hsame⟩

variable (toLowerCase) in
/-- What is new goes behind the list, in the order it came in. -/
theorem collectSegments_append (existing incoming : List TranscriptSegment) :
    ∃ added, collectSegments toLowerCase existing incoming = existing ++ added ∧
      added.Sublist incoming := by
  induction incoming generalizing existing with
  | nil => exact ⟨[], by simp [collectSegments], List.Sublist.refl _⟩
  | cons seg rest ih =>
    by_cases hold : Holds toLowerCase existing seg
    · obtain ⟨added, heq, hsub⟩ := ih existing
      refine ⟨added, ?_, hsub.cons seg⟩
      rw [← heq, collectSegments, foldl_cons, mergeSegment_of_holds hold, collectSegments]
    · obtain ⟨added, heq, hsub⟩ := ih (existing ++ [seg])
      refine ⟨seg :: added, ?_, hsub.cons_cons seg⟩
      rw [collectSegments, foldl_cons, mergeSegment_of_not_holds hold]
      rw [collectSegments, append_assoc] at heq
      exact heq

variable (toLowerCase incoming) in
theorem collectSegments_keys (hkeys : (existing.map segmentKey).Nodup) :
    ((collectSegments toLowerCase existing incoming).map segmentKey).Nodup := by
  induction incoming generalizing existing with
  | nil => exact hkeys
  | cons seg rest ih =>
    refine ih ?_
    by_cases hold : Holds toLowerCase existing seg
    · rw [mergeSegment_of_holds hold]
      exact hkeys
    rw [mergeSegment_of_not_holds hold, map_append, nodup_append]
    refine ⟨hkeys, nodup_singleton _, ?_⟩
    rintro _ hmem _ hseg rfl
    obtain ⟨item, hitem, heq⟩ := mem_map.1 hmem
    exact hold ⟨item, hitem, .inl (heq.trans (mem_singleton.1 hseg))⟩

theorem holds_collectSegments (h : seg ∈ incoming) :
    Holds toLowerCase (collectSegments toLowerCase existing incoming) seg := by
  obtain ⟨before, after, rfl⟩ := append_of_mem h
  rw [collectSegments, foldl_append, foldl_cons]
  obtain ⟨later, heq, -⟩ := collectSegments_append toLowerCase
    (mergeSegment toLowerCase (before.foldl (mergeSegment toLowerCase) existing) seg) after
  rw [collectSegments] at heq
  rw [heq]
  refine Holds.append ?_ later
  by_cases hold : Holds toLowerCase (before.foldl (mergeSegment toLowerCase) existing) seg
  · rw [mergeSegment_of_holds hold]
    exact hold
  · rw [mergeSegment_of_not_holds hold]
    exact ⟨seg, mem_append_right _ (mem_singleton_self _), .inl rfl⟩

/-- Nothing is collected from segments that the list holds. -/
theorem collectSegments_eq_self (h : ∀ seg ∈ incoming, Holds toLowerCase existing seg) :
    collectSegments toLowerCase existing incoming = existing := by
  induction incoming with
  | nil => rfl
  | cons seg rest ih =>
    rw [collectSegments, foldl_cons, mergeSegment_of_holds (h seg mem_cons_self)]
    exact ih fun other hother => h other (mem_cons_of_mem _ hother)

/-! ## The cap -/

variable (toLowerCase existing incoming) in
/-- What a merge into a list within the cap gives. -/
structure MergesOnce (merged : List TranscriptSegment) : Prop where
  keys : (merged.map segmentKey).Nodup
  order : ∃ gone added, merged = existing.drop gone ++ added ∧ added.Sublist incoming
  accounted : ∀ before seg after, incoming = before ++ seg :: after →
    seg ∈ merged ∨ Holds toLowerCase (collectSegments toLowerCase existing before) seg ∨
    merged.length = MAX_PERSISTED_SEGMENTS_PER_MEETING ∧ merged.Sublist after

section

variable (hcap : existing.length ≤ MAX_PERSISTED_SEGMENTS_PER_MEETING)

include hcap

theorem mergeSegments_eq : mergeSegments toLowerCase existing incoming =
    (collectSegments toLowerCase existing incoming).drop
      ((collectSegments toLowerCase existing incoming).length -
        MAX_PERSISTED_SEGMENTS_PER_MEETING) := by
  unfold mergeSegments
  split
  · rename_i hnil
    rw [hnil, collectSegments, foldl_nil, Nat.sub_eq_zero_of_le hcap, drop_zero]
  · rfl

theorem length_mergeSegments :
    (mergeSegments toLowerCase existing incoming).length ≤ MAX_PERSISTED_SEGMENTS_PER_MEETING := by
  rw [mergeSegments_eq hcap, length_drop]
  omega

variable (toLowerCase incoming) (hkeys : (existing.map segmentKey).Nodup)

include hkeys

/-- Merging changes nothing exactly when the list holds all that comes in. -/
theorem mergeSegments_eq_self_iff : mergeSegments toLowerCase existing incoming = existing ↔
    ∀ seg ∈ incoming, Holds toLowerCase existing seg := by
  constructor
  · intro heq
    obtain ⟨added, hadded, -⟩ := collectSegments_append toLowerCase existing incoming
    have hnil : added = [] := by
      -- The last new segment would be the last one of the list too, and its key there twice.
      by_contra hne
      rw [mergeSegments_eq hcap, hadded] at heq
      have hlast := congrArg List.getLast? heq
      have hmem : added.getLast hne ∈ existing := by
        apply mem_of_getLast?
        rw [← hlast, getLast?_drop, if_neg, getLast?_append, getLast?_eq_some_getLast hne]
        · rfl
        have := length_pos_iff.2 hne
        simp only [length_append, MAX_PERSISTED_SEGMENTS_PER_MEETING]
        omega
      have hnodup := collectSegments_keys toLowerCase incoming hkeys
      rw [hadded, map_append, nodup_append] at hnodup
      exact hnodup.2.2 _ (mem_map_of_mem hmem) _ (mem_map_of_mem (getLast_mem hne)) rfl
    rw [hnil, append_nil] at hadded
    intro seg hseg
    rw [← hadded]
    exact holds_collectSegments hseg
  · intro h
    rw [mergeSegments_eq hcap, collectSegments_eq_self h, Nat.sub_eq_zero_of_le hcap, drop_zero]

theorem mergesOnce : MergesOnce toLowerCase existing incoming
    (mergeSegments toLowerCase existing incoming) := by
  constructor
  · rw [mergeSegments_eq hcap, map_drop]
    exact (collectSegments_keys toLowerCase incoming hkeys).sublist (drop_sublist _ _)
  · obtain ⟨added, heq, hsub⟩ := collectSegments_append toLowerCase existing incoming
    rw [mergeSegments_eq hcap, heq, drop_append]
    exact ⟨_, _, rfl, (drop_sublist _ _).trans hsub⟩
  rintro before seg after rfl
  by_cases hold : Holds toLowerCase (collectSegments toLowerCase existing before) seg
  · exact .inr (.inl hold)
  obtain ⟨later, heq, hsub⟩ := collectSegments_append toLowerCase
    (collectSegments toLowerCase existing before ++ [seg]) after
  have hall : collectSegments toLowerCase existing (before ++ seg :: after) =
      collectSegments toLowerCase existing before ++ seg :: later := by
    rw [append_cons _ seg later, ← heq, ← mergeSegment_of_not_holds hold]
    simp only [collectSegments, foldl_append, foldl_cons]
  rw [mergeSegments_eq hcap, hall]
  generalize collectSegments toLowerCase existing before = first
  generalize hgone : (first ++ seg :: later).length - MAX_PERSISTED_SEGMENTS_PER_MEETING = gone
  rw [length_append, length_cons] at hgone
  by_cases hkept : gone ≤ first.length
  · rw [drop_append_of_le_length hkept]
    exact .inl (mem_append_right _ mem_cons_self)
  -- The cut lies behind the segment, so what is left came in after it.
  have hcut : (first ++ seg :: later).drop gone = later.drop (gone - first.length - 1) := by
    rw [drop_append, drop_eq_nil_of_le (by omega), nil_append]
    obtain ⟨n, hn⟩ : ∃ n, gone - first.length = n + 1 := ⟨gone - first.length - 1, by omega⟩
    rw [hn, drop_succ_cons, Nat.add_sub_cancel]
  rw [hcut, length_drop]
  exact .inr (.inr ⟨by omega, (drop_sublist _ _).trans hsub⟩)

end

/-- A list within the cap takes a delivery in once, and a second one changes nothing exactly when
every segment of it is still there or has its near duplicate there; so it is where the first
delivery displaced nothing. -/
theorem mergeSegments_again (toLowerCase : String → String)
    (existing incoming : List TranscriptSegment)
    (hcap : existing.length ≤ MAX_PERSISTED_SEGMENTS_PER_MEETING)
    (hkeys : (existing.map segmentKey).Nodup) :
    MergesOnce toLowerCase existing incoming (mergeSegments toLowerCase existing incoming) ∧
    (mergeSegments toLowerCase (mergeSegments toLowerCase existing incoming) incoming =
        mergeSegments toLowerCase existing incoming ↔
      ∀ seg ∈ incoming, Holds toLowerCase (mergeSegments toLowerCase existing incoming) seg) ∧
    ((collectSegments toLowerCase existing incoming).length ≤ MAX_PERSISTED_SEGMENTS_PER_MEETING →
      mergeSegments toLowerCase (mergeSegments toLowerCase existing incoming) incoming =
        mergeSegments toLowerCase existing incoming) := by
  have hmerges := mergesOnce toLowerCase incoming hcap hkeys
  have hagain := mergeSegments_eq_self_iff toLowerCase incoming (length_mergeSegments hcap)
    hmerges.keys
  refine ⟨hmerges, hagain, ?_⟩
  intro hfits
  rw [hagain, mergeSegments_eq hcap, Nat.sub_eq_zero_of_le hfits, List.drop_zero]
  intro seg hseg
  exact holds_collectSegments hseg

end Merge

/-- A pause, transcribed as points. -/
def pause (i : Nat) : TranscriptSegment where
  text := String.ofList (List.replicate i '.')
  startMs := 0
  endMs := 1000

theorem pause_key_injective : Function.Injective fun i => segmentKey (pause i) := by
  intro i j heq
  have hlength := congrArg (fun key => key.toList.length) heq
  simpa [segmentKey, pause, String.toList_intercalate] using hlength

theorem pause_holds {is : List Nat} {j : Nat} (h : Holds id (is.map pause) (pause j)) : j ∈ is := by
  obtain ⟨item, hitem, hsame⟩ := h
  obtain ⟨i, hi, rfl⟩ := mem_map.1 hitem
  rcases hsame with hkey | hnear
  · exact pause_key_injective hkey ▸ hi
  -- Points are no letters: nothing is left of the texts to compare.
  have hempty : normalizeSegmentText id (pause i).text = [] := by
    simp [normalizeSegmentText, pause, isTrimmed, KeyOrder.units]
  simp [isNearDuplicateSegment, likelySameTranscript, hempty] at hnear

/-- A full list loses its first segment to a new one; the same delivery again brings it back at
the end, and the second one is lost. -/
theorem merge_displaced : ¬ ∀ (toLowerCase : String → String)
    (existing incoming : List TranscriptSegment),
    existing.length ≤ MAX_PERSISTED_SEGMENTS_PER_MEETING → (existing.map segmentKey).Nodup →
    MergesOnce toLowerCase existing incoming (mergeSegments toLowerCase existing incoming) ∧
    mergeSegments toLowerCase (mergeSegments toLowerCase existing incoming) incoming =
      mergeSegments toLowerCase existing incoming := by
  intro h
  have hcap : ((List.range 800).map pause).length ≤ MAX_PERSISTED_SEGMENTS_PER_MEETING := by
    rw [List.length_map, List.length_range, MAX_PERSISTED_SEGMENTS_PER_MEETING]
  have hkeys : (((List.range 800).map pause).map segmentKey).Nodup := by
    rw [List.map_map]
    exact List.nodup_range.map pause_key_injective
  have hmerged : mergeSegments id ((List.range 800).map pause) [pause 0, pause 800] =
      ((List.range 801).drop 1).map pause := by
    have hfirst : Holds id ((List.range 800).map pause) (pause 0) :=
      ⟨pause 0, List.mem_map_of_mem (List.mem_range.2 (by omega)), .inl rfl⟩
    have hlast : ¬ Holds id ((List.range 800).map pause) (pause 800) := by
      intro hold
      exact absurd (List.mem_range.1 (pause_holds hold)) (by omega)
    have hall : (List.range 800).map pause ++ [pause 800] = (List.range 801).map pause := by
      rw [List.range_succ (n := 800), List.map_append, List.map_singleton]
    rw [mergeSegments_eq hcap, collectSegments, List.foldl_cons, mergeSegment_of_holds hfirst,
      List.foldl_cons, mergeSegment_of_not_holds hlast, List.foldl_nil, hall, List.length_map,
      List.length_range, List.map_drop, MAX_PERSISTED_SEGMENTS_PER_MEETING]
  obtain ⟨hmerges, heq⟩ := h id _ [pause 0, pause 800] hcap hkeys
  rw [mergeSegments_eq_self_iff _ _ (length_mergeSegments hcap) hmerges.keys, hmerged] at heq
  have hzero := pause_holds (heq (pause 0) List.mem_cons_self)
  obtain ⟨i, hi, hget⟩ := List.mem_iff_getElem.1 hzero
  rw [List.getElem_drop, List.getElem_range] at hget
  omega

theorem mergeSegments_again_pauses :
    mergeSegments id (mergeSegments id [] [pause 0, pause 1]) [pause 0, pause 1] =
      mergeSegments id [] [pause 0, pause 1] :=
  (mergeSegments_again id [] [pause 0, pause 1] (Nat.zero_le _) List.nodup_nil).2.2 (by decide)

end Renderer
