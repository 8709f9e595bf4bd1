import EchoDesk.Capabilities.Catalog
import EchoDesk.Capabilities.Roots

/-! # Two readings of a path

The catalog compares paths by their segments, whatever their separators; the policy compares
the normal form of a platform. Where both read a path and a root, a path that the catalog finds
in the root is in it for the policy too.
-/

namespace Capabilities

open EchoDesk LexicalPath Transaction List

variable {lib : Library} {cs ds : List Char} {drive : List Char} {path : String} {r q : List (List Char)}
variable {sep : Char}
variable {names : List (List Char)} {request : PathRequest} {platform text : String}
  {tail : List Char} {root : PathRoot}

/-! ## Slashes -/

theorem map_slash_of_no_backslash (h : '\\' ∉ cs) : cs.map slash = cs := by
  conv_rhs => rw [← map_id cs]
  apply map_congr_left
  intro c hc
  unfold slash
  rw [if_neg]
  · rfl
  · rintro rfl
    exact h hc

theorem map_slash_backslash (cs : List Char) : (cs.map backslash).map slash = cs.map slash := by
  rw [map_map]
  apply map_congr_left
  intro c _
  unfold Function.comp slash backslash
  by_cases hslash : c = '/'
  · rw [hslash]
    rfl
  · rw [if_neg hslash]

theorem map_backslash_slash (h : '/' ∉ cs) : (cs.map slash).map backslash = cs := by
  rw [map_map]
  conv_rhs => rw [← map_id cs]
  apply map_congr_left
  intro c hc
  have hslash : c ≠ '/' := by
    rintro rfl
    exact h hc
  unfold Function.comp slash backslash
  by_cases hback : c = '\\'
  · rw [hback]
    rfl
  · rw [if_neg hback, if_neg hslash]
    rfl

/-- The segments are the same between slashes as between backslashes. -/
theorem splitOn_map_slash (h : '/' ∉ cs) : (cs.map slash).splitOn '/' = cs.splitOn '\\' := by
  induction cs with
  | nil => rfl
  | cons c cs ih =>
    rw [mem_cons, not_or] at h
    rw [map_cons, splitOn_cons_eq_if_modifyHead, splitOn_cons_eq_if_modifyHead, ih h.2]
    by_cases hback : c = '\\'
    · rw [hback]
      rfl
    · have hkeep : slash c = c := if_neg hback
      rw [hkeep, if_neg (by simpa using Ne.symm h.1), if_neg (by simpa using hback)]

theorem parts_map_slash (h : '/' ∉ cs) : parts '/' (cs.map slash) = parts '\\' cs := by
  unfold parts
  rw [splitOn_map_slash h]

/-! ## Folded texts -/

/-- A text, each character folded. -/
def fold (lib : Library) (cs : List Char) : List Char := cs.flatMap lib.foldChar

theorem toList_casefold (text : String) : (lib.casefold text).toList = fold lib text.toList :=
  String.toList_ofList

theorem fold_append (cs ds : List Char) : fold lib (cs ++ ds) = fold lib cs ++ fold lib ds :=
  flatMap_append

theorem fold_cons (c : Char) (cs : List Char) :
    fold lib (c :: cs) = lib.foldChar c ++ fold lib cs :=
  flatMap_cons

theorem fold_eq_nil : fold lib cs = [] ↔ cs = [] := by
  cases cs with
  | nil => exact iff_of_true rfl rfl
  | cons c cs => simp [fold_cons, lib.foldChar_ne_nil c]

section

variable (hsep : sep = '/' ∨ sep = '\\')

include hsep

theorem no_sep_fold (h : sep ∉ cs) : sep ∉ fold lib cs := by
  intro hmem
  obtain ⟨c, hc, hfold⟩ := mem_flatMap.1 hmem
  rw [← lib.eq_of_mem_foldChar c _ hfold hsep] at hc
  exact h hc

/-- The segments of a folded text are those of the text, folded. -/
theorem splitOn_fold (cs : List Char) :
    (fold lib cs).splitOn sep = (cs.splitOn sep).map (fold lib) := by
  have hjoin : ∀ segs : List (List Char),
      fold lib ([sep].intercalate segs) = [sep].intercalate (segs.map (fold lib)) := by
    intro segs
    induction segs with
    | nil => rfl
    | cons seg segs ih =>
      by_cases hnil : segs = []
      · simp [hnil]
      rw [map_cons, intercalate_cons_of_ne_nil hnil,
        intercalate_cons_of_ne_nil (by simpa using hnil), fold_append, fold_append, ih]
      simp [fold, lib.foldChar_sep _ hsep]
  have hcs : [sep].intercalate (cs.splitOn sep) = cs := intercalate_splitOn sep
  conv_lhs => rw [← hcs, hjoin]
  refine splitOn_intercalate sep ?_ (by simp [splitOn_ne_nil sep cs])
  intro x hx
  obtain ⟨seg, hseg, rfl⟩ := mem_map.1 hx
  exact no_sep_fold hsep (not_mem_of_mem_splitOn hseg)

theorem getLast?_fold :
    (fold lib cs).getLast? = some sep ↔ cs.getLast? = some sep := by
  rcases eq_nil_or_concat cs with rfl | ⟨front, c, rfl⟩
  · simp [fold]
  obtain ⟨more, d, hfold⟩ :=
    (eq_nil_or_concat (lib.foldChar c)).resolve_left (lib.foldChar_ne_nil c)
  have hsame : d = sep ↔ c = sep := by
    constructor
    · rintro rfl
      refine (lib.eq_of_mem_foldChar c _ ?_ hsep).symm
      rw [hfold]
      simp
    · rintro rfl
      rw [lib.foldChar_sep _ hsep] at hfold
      simpa using (congrArg List.getLast? hfold).symm
  rw [concat_eq_append, fold_append, fold_cons, hfold]
  simpa [fold] using hsame

theorem unended_fold (cs : List Char) :
    unended sep (fold lib cs) = fold lib (unended sep cs) := by
  rcases exists_unended sep cs with ⟨-, hcs⟩ | ⟨hlast, hcs⟩
  · rw [hcs, unended_concat, fold_append, fold_cons, lib.foldChar_sep _ hsep]
    exact unended_concat _
  · rw [← hcs, unended_of_ne fun hends => hlast ((getLast?_fold hsep).1 hends)]

end

/-! ## Components -/

/-- The components of a path in its normal form; the first one of a path that starts with its
separator is empty. -/
def components (platform : Platform) (path : String) : List (List Char) :=
  (unended platform.sep path.toList).splitOn platform.sep

/-- A component as it is compared on a platform. -/
def comparedPart (lib : Library) : Platform → List Char → List Char
  | .posix => id
  | .windows => fold lib

/-- The components of the root are the first ones of the path. -/
def ComponentsWithin (lib : Library) (root : PathRoot) (request : PathRequest) : Prop :=
  (components root.platform root.root).map (comparedPart lib root.platform) <+:
    (components root.platform request.path).map (comparedPart lib root.platform)

/-! ## The policy's reading -/

theorem splitOn_letter (c : Char) :
    [c, ':'].splitOn '\\' = if c = '\\' then [[], [':']] else [[c, ':']] := by
  split <;> rename_i hc <;> simp [splitOn_cons_eq_if_modifyHead, hc]

theorem splitOn_share (cs : List Char) :
    ('\\' :: '\\' :: cs).splitOn '\\' = [] :: [] :: cs.splitOn '\\' := by
  simp [splitOn_cons_eq_if_modifyHead]

/-- The segments of a drive: a letter's are one or two, a share's are four. -/
theorem splitOn_drive (h : Drive drive) :
    (∃ c, drive.splitOn '\\' = [[c, ':']]) ∨ drive.splitOn '\\' = [[], [':']] ∨
      ∃ host share, drive.splitOn '\\' = [[], [], host, share] := by
  cases h with
  | letter c =>
    rw [splitOn_letter]
    split
    · exact .inr (.inl rfl)
    · exact .inl ⟨c, rfl⟩
  | @share host share hhost hshare =>
    refine .inr (.inr ⟨host, share, ?_⟩)
    rw [splitOn_share, splitOn_append_cons_self, splitOn_eq_singleton hhost,
      splitOn_eq_singleton hshare]
    rfl

/-- A drive is not folded as a longer path is. -/
theorem fold_drive_ne {drive' more : List Char} (h : Drive drive) (h' : Drive drive') :
    fold lib drive ≠ fold lib (drive' ++ '\\' :: more) := by
  intro heq
  have hsegs := congrArg (List.splitOn '\\') heq
  rw [splitOn_fold (.inr rfl), splitOn_fold (.inr rfl), splitOn_append_cons_self] at hsegs
  have hmore := splitOn_ne_nil '\\' more
  have hnil : fold lib [] = [] := rfl
  have hnil' : ∀ cs, [] = fold lib cs ↔ cs = [] := fun cs => eq_comm.trans fold_eq_nil
  rcases splitOn_drive h with ⟨c, hdrive⟩ | hdrive | ⟨host, share, hdrive⟩ <;>
  rcases splitOn_drive h' with ⟨c', hdrive'⟩ | hdrive' | ⟨host', share', hdrive'⟩ <;>
  · rw [hdrive, hdrive'] at hsegs
    simp [hmore, hnil, hnil', fold_eq_nil] at hsegs

/-- A path with one kind of separator ends with any as it ends with that one. -/
theorem any_isSep (h : sep = '/' ∧ '\\' ∉ cs ∨ sep = '\\' ∧ '/' ∉ cs) :
    cs.getLast?.any isSep = true ↔ cs.getLast? = some sep := by
  cases hlast : cs.getLast? with
  | none => simp
  | some c =>
    have hmem : c ∈ cs := mem_of_getLast? hlast
    rcases h with ⟨rfl, hnone⟩ | ⟨rfl, hnone⟩
    · have hc : c ≠ '\\' := fun heq => hnone (heq ▸ hmem)
      simp [isSep, hc]
    · have hc : c ≠ '/' := fun heq => hnone (heq ▸ hmem)
      simp [isSep, hc]

theorem within_iff_posix {r q : List Char} (hr : posixRoot cs = .ok r) (hq : posixRoot ds = .ok q) :
    Within '/' isSep r q ↔ (unended '/' r).splitOn '/' <+: (unended '/' q).splitOn '/' := by
  obtain ⟨a, -, -, haback, hr⟩ := exists_rest hr
  obtain ⟨b, -, -, -, hq⟩ := exists_rest hq
  have hback : '\\' ∉ r := hr ▸ not_mem_append_normal not_mem_nil (by decide) haback
  apply within_iff_segments (any_isSep (.inl ⟨rfl, hback⟩))
  by_cases hnil : normal '/' a = []
  · left
    rw [hr, hnil, hq]
    exact cons_ne_nil _ _
  · right
    rw [hr]
    exact getLast?_normal [] hnil

theorem within_iff_windows {r q : List Char} (hr : windowsRoot cs = .ok r)
    (hq : windowsRoot ds = .ok q) :
    Within '\\' isSep (fold lib r) (fold lib q) ↔ ((unended '\\' r).splitOn '\\').map (fold lib) <+:
        ((unended '\\' q).splitOn '\\').map (fold lib) := by
  obtain ⟨drive, tail, hdrive, hslash, htail, -, hr, -⟩ := exists_drive hr
  obtain ⟨drive', tail', hdrive', hslash', htail', -, hq, -⟩ := exists_drive hq
  have hrslash : '/' ∉ fold lib r :=
    no_sep_fold (.inl rfl) (hr ▸ not_mem_append_normal hslash (by decide) htail)
  rw [← splitOn_fold (.inr rfl), ← splitOn_fold (.inr rfl), ← unended_fold (.inr rfl),
    ← unended_fold (.inr rfl)]
  apply within_iff_segments (any_isSep (.inr ⟨rfl, hrslash⟩))
  rw [unended_fold (.inr rfl)]
  by_cases hnil : normal '\\' tail = []
  · left
    rw [hr, hnil, unended_concat, hq]
    exact fun heq => fold_drive_ne hdrive hdrive' heq.symm
  · right
    rw [ne_eq, getLast?_fold (.inr rfl), hr]
    exact getLast?_normal drive hnil

theorem normalizePathRequest_eq_ok {platform : Platform}
    (h : normalizePathRequest path platform.value = .ok request) :
    request.platform = platform ∧
      normalizePathRoot path platform.value = .ok ⟨platform, request.path⟩ := by
  obtain ⟨root, hroot, hreturn⟩ := bind_eq_ok.1 h
  cases hreturn
  have hplatform := (normalizePathRoot_eq_ok hroot).1
  rw [parsePlatform_value] at hplatform
  cases hplatform
  exact ⟨rfl, hroot⟩

theorem pathIsWithinRoot_iff {root : PathRoot} {request : PathRequest} {text path : String}
    (hroot : normalizePathRoot text root.platform.value = .ok root)
    (hrequest : normalizePathRequest path root.platform.value = .ok request) :
    pathIsWithinRoot lib root request = true ↔ ComponentsWithin lib root request := by
  obtain ⟨-, hr⟩ := normalizePathRoot_eq_ok hroot
  obtain ⟨hplatform, hother⟩ := normalizePathRequest_eq_ok hrequest
  obtain ⟨-, hq⟩ := normalizePathRoot_eq_ok hother
  refine decide_eq_true_iff.trans ?_
  rw [and_iff_right hplatform]
  obtain ⟨platform, r⟩ := root
  cases platform with
  | posix =>
    refine (within_iff_posix hr hq).trans ?_
    unfold ComponentsWithin comparedPart
    rw [map_id, map_id]
    rfl
  | windows =>
    show Within '\\' isSep (lib.casefold r).toList (lib.casefold request.path).toList ↔ _
    rw [toList_casefold, toList_casefold]
    exact within_iff_windows hr hq

/-! ## The catalog's normal form -/

/-- The normal form of a path whose separators are slashes. -/
def slashedNormal (cs : List Char) : List Char :=
  cs.take (prefixLength cs) ++ ['/'].intercalate (parts '/' (cs.drop (prefixLength cs)))

theorem normalisePath_eq (cs : List Char) : normalisePath cs = slashedNormal (cs.map slash) := rfl

theorem prefixLength_single (h : ¬ ['/'] <+: cs) : prefixLength ('/' :: cs) = 1 := by
  have hslashes : ¬ ['/', '/'] <+: '/' :: cs := by
    rw [cons_prefix_cons]
    exact fun hboth => h hboth.2
  have hdrive : startsWithDrive ('/' :: cs) = false := by
    unfold startsWithDrive
    split
    · rename_i heq
      obtain ⟨rfl, -⟩ := cons.inj heq
      simp
    · rfl
  unfold prefixLength
  rw [if_neg hslashes, hdrive, if_neg (by decide), if_pos (by simp)]

theorem chop_of_not_suffix (hne : cs ≠ []) (h : ¬ ['/'] <:+ cs) : chop cs = cs := by
  have hdrop : cs.reverse.dropWhile (fun c => c = '/') = cs.reverse := by
    cases hrev : cs.reverse with
    | nil => rfl
    | cons c rest =>
      rw [dropWhile_cons_of_neg]
      intro hc
      apply h
      rw [← reverse_prefix, hrev, of_decide_eq_true hc]
      exact ⟨rest, rfl⟩
  unfold chop
  rw [hdrop, reverse_reverse, if_neg hne]

theorem chop_concat (hne : cs ≠ []) (h : ¬ ['/'] <:+ cs) : chop (cs ++ ['/']) = cs := by
  have hstep : chop (cs ++ ['/']) = chop cs := by
    unfold chop
    rw [reverse_append, reverse_singleton, singleton_append, dropWhile_cons_of_pos (by rfl)]
  rw [hstep, chop_of_not_suffix hne h]

def isNamed (seg : List Char) : Bool := seg ≠ [] ∧ seg ≠ ['.']

/-- The components that the catalog finds in a path: it gives the filesystem root one more, and
leaves the nameless ones of a share out. -/
def shown : Platform → List (List Char) → List (List Char)
  | .posix, segs => if segs = [[]] then [[], []] else segs
  | .windows, segs =>
    if [[], []] <+: segs then [] :: [] :: (segs.drop 2).filter isNamed else segs

theorem shown_posix (segs : List (List Char)) :
    shown .posix segs = if segs = [[]] then [[], []] else segs := rfl

theorem shown_share (segs : List (List Char)) :
    shown .windows ([] :: [] :: segs) = [] :: [] :: segs.filter isNamed := by
  unfold shown
  exact if_pos ⟨segs, rfl⟩

theorem shown_of_not_share {segs : List (List Char)} (h : ¬ [[], []] <+: segs) :
    shown .windows segs = segs := if_neg h

theorem splitOn_chop (h : ∀ x ∈ names, x ≠ [] ∧ '/' ∉ x) (hne : names ≠ []) (front : List Char) :
    (chop (front ++ ['/'].intercalate names)).splitOn '/' =
      (front ++ ['/'].intercalate names).splitOn '/' := by
  have hjoin : ['/'].intercalate names ≠ [] := by
    intro hnil
    have hsplit := splitOn_intercalate '/' (fun x hx => (h x hx).2) hne
    rw [hnil, splitOn_nil] at hsplit
    exact (h [] (hsplit ▸ mem_cons_self)).1 rfl
  rw [chop_of_not_suffix (by simp [hjoin])]
  intro hsuffix
  apply (ends_intercalate h).2
  refine suffix_of_suffix_length_le hsuffix (suffix_append _ _) ?_
  exact length_pos_iff.2 hjoin

theorem splitOn_chop_cons (h : ∀ x ∈ names, x ≠ [] ∧ '/' ∉ x) (hne : names ≠ [])
    (front : List Char) :
    (chop (front ++ '/' :: ['/'].intercalate names)).splitOn '/' = front.splitOn '/' ++ names := by
  have hsplit := splitOn_chop h hne (front ++ ['/'])
  rw [append_assoc, singleton_append] at hsplit
  rw [hsplit, splitOn_append_cons_self, splitOn_intercalate _ (fun x hx => (h x hx).2) hne]

theorem splitOn_slashedNormal_posix {rest : List Char} (h : ¬ ['/'] <+: rest) :
    (chop (slashedNormal ('/' :: rest))).splitOn '/' = shown .posix ([] :: parts '/' rest) := by
  unfold slashedNormal
  rw [prefixLength_single h]
  show (chop ([] ++ '/' :: ['/'].intercalate (parts '/' rest))).splitOn '/' = _
  by_cases hnil : parts '/' rest = []
  · rw [hnil]
    decide
  · rw [splitOn_chop_cons (fun x hx => mem_parts hx) hnil, shown, if_neg (by simpa using hnil)]
    rfl

theorem splitOn_slashedNormal_share (rest : List Char) :
    (chop (slashedNormal ('/' :: '/' :: rest))).splitOn '/' = [] :: [] :: parts '/' rest := by
  have htwo : prefixLength ('/' :: '/' :: rest) = 2 := if_pos ⟨rest, rfl⟩
  unfold slashedNormal
  rw [htwo]
  show (chop (['/'] ++ '/' :: ['/'].intercalate (parts '/' rest))).splitOn '/' = _
  by_cases hnil : parts '/' rest = []
  · rw [hnil]
    decide
  · rw [splitOn_chop_cons (fun x hx => mem_parts hx) hnil]
    rfl

theorem splitOn_slashedNormal_letter {c : Char} (hc : c ≠ '/') (rest : List Char) :
    (chop (slashedNormal (slash c :: ':' :: '/' :: rest))).splitOn '/' =
      [c, ':'].splitOn '\\' ++ parts '/' rest := by
  have hparts : ∀ x : List Char, x ≠ [] → x ≠ ['.'] → '/' ∉ x →
      parts '/' (x ++ '/' :: rest) = x :: parts '/' rest := by
    intro x hne hdot hsep
    rw [parts_append_cons, parts, splitOn_eq_singleton hsep]
    simp [hne, hdot]
  by_cases hback : c = '\\'
  · have hslash : slash c = '/' := if_pos hback
    have hsegs := @splitOn_slashedNormal_posix ([':'] ++ '/' :: rest) (by simp)
    rw [hparts _ (by simp) (by simp) (by decide), shown, if_neg (by simp)] at hsegs
    rw [hslash, hback]
    exact hsegs
  have hslash : slash c = c := if_neg hback
  have hsingle : [c, ':'].splitOn '\\' = [[c, ':']] := by
    apply splitOn_eq_singleton
    simp [Ne.symm hback]
  have hslashes : ¬ ['/', '/'] <+: c :: ':' :: '/' :: rest := by simp [Ne.symm hc]
  rw [hslash, hsingle]
  by_cases halpha : c.isAlpha = true
  · have hthree : prefixLength (c :: ':' :: '/' :: rest) = 3 := by
      simp [prefixLength, startsWithDrive, hslashes, halpha]
    unfold slashedNormal
    rw [hthree]
    show (chop ([c, ':'] ++ '/' :: ['/'].intercalate (parts '/' rest))).splitOn '/' = _
    by_cases hnil : parts '/' rest = []
    · rw [hnil, intercalate_nil, chop_concat (by simp) (by simp [suffix_cons_iff]),
        splitOn_eq_singleton (by simp [Ne.symm hc]), append_nil]
    · rw [splitOn_chop_cons (fun x hx => mem_parts hx) hnil,
        splitOn_eq_singleton (by simp [Ne.symm hc])]
  have hzero : prefixLength (c :: ':' :: '/' :: rest) = 0 := by
    simp [prefixLength, startsWithDrive, hslashes, halpha, Ne.symm hc]
  have hnames := hparts [c, ':'] (by simp) (by simp) (by simp [Ne.symm hc])
  have hall : ∀ x ∈ [c, ':'] :: parts '/' rest, x ≠ [] ∧ '/' ∉ x := by
    rw [← hnames]
    exact fun x hx => mem_parts hx
  have hsegs := splitOn_chop hall (cons_ne_nil _ _) []
  rw [nil_append, splitOn_intercalate _ (fun x hx => (hall x hx).2) (cons_ne_nil _ _)] at hsegs
  unfold slashedNormal
  rw [hzero, take_zero, drop_zero, nil_append]
  show (chop (['/'].intercalate (parts '/' ([c, ':'] ++ '/' :: rest)))).splitOn '/' = _
  rw [hnames]
  exact hsegs

/-- The catalog reads these components as those of a Windows path. -/
def Folded (segs : List (List Char)) : Prop :=
  (∃ c rest, c.isAlpha = true ∧ rest ≠ [] ∧ segs = [c, ':'] :: rest) ∨
    ∃ rest, rest ≠ [] ∧ segs = [] :: [] :: rest

theorem isWindowsPath_iff (cs : List Char) : isWindowsPath cs = true ↔ Folded (cs.splitOn '/') := by
  have hjoin : ['/'].intercalate (cs.splitOn '/') = cs := intercalate_splitOn '/'
  constructor
  · intro h
    rcases of_decide_eq_true h with h | ⟨rest, rfl⟩
    · unfold startsWithDrive at h
      split at h
      · rename_i a b c rest _
        obtain ⟨halpha, rfl, rfl⟩ := of_decide_eq_true h
        refine .inl ⟨a, rest.splitOn '/', halpha, splitOn_ne_nil _ _, ?_⟩
        have hne : a ≠ '/' := by
          rintro rfl
          cases halpha
        simp [splitOn_cons_eq_if_modifyHead, hne]
      · cases h
    · refine .inr ⟨rest.splitOn '/', splitOn_ne_nil _ _, ?_⟩
      simp [splitOn_cons_eq_if_modifyHead]
  · rintro (⟨c, rest, halpha, hne, hsegs⟩ | ⟨rest, hne, hsegs⟩)
    · rw [hsegs, intercalate_cons_of_ne_nil hne] at hjoin
      rw [← hjoin]
      simp [isWindowsPath, startsWithDrive, halpha]
    · rw [hsegs, intercalate_cons_of_ne_nil (by simp), intercalate_cons_of_ne_nil hne] at hjoin
      rw [← hjoin]
      simp [isWindowsPath]

theorem isValueWithin_iff (root path : List Char) : isValueWithin lib root path = true ↔
      (Folded (root.splitOn '/') ∨ Folded (path.splitOn '/')) ∧
          (root.splitOn '/').map (fold lib) <+: (path.splitOn '/').map (fold lib) ∨
        ¬ (Folded (root.splitOn '/') ∨ Folded (path.splitOn '/')) ∧
          root.splitOn '/' <+: path.splitOn '/' := by
  unfold isValueWithin
  rw [← isWindowsPath_iff, ← isWindowsPath_iff, ← splitOn_fold (.inl rfl),
    ← splitOn_fold (.inl rfl), splitOn_prefix_splitOn, splitOn_prefix_splitOn]
  by_cases hwindows : isWindowsPath root = true ∨ isWindowsPath path = true
  · simp [hwindows, fold]
  · simp [hwindows]

theorem segments_posix {rest : List Char} (hsep : ¬ ['/'] <+: rest)
    (hslashed : cs.map slash = '/' :: rest) :
    (chop (normalisePath cs)).splitOn '/' = shown .posix ([] :: parts '/' rest) := by
  rw [normalisePath_eq, hslashed]
  exact splitOn_slashedNormal_posix hsep

theorem segments_windows (hdrive : Drive drive) (hslash : '/' ∉ drive) (htail : '/' ∉ tail)
    (hslashed : cs.map slash = drive.map slash ++ '/' :: tail.map slash) :
    (chop (normalisePath cs)).splitOn '/' =
      shown .windows (drive.splitOn '\\' ++ parts '\\' tail) := by
  rw [normalisePath_eq, hslashed]
  cases hdrive with
  | letter c =>
    have hc : c ≠ '/' := fun heq => hslash (heq ▸ mem_cons_self)
    rw [shown_of_not_share, ← parts_map_slash htail]
    · exact splitOn_slashedNormal_letter hc _
    · rw [splitOn_letter]
      split <;> simp
  | @share host share hhost hshare =>
    have hrest : '/' ∉ host ++ '\\' :: share := fun hmem =>
      hslash (mem_cons_of_mem _ (mem_cons_of_mem _ hmem))
    have hform : ('\\' :: '\\' :: (host ++ '\\' :: share)).map slash ++ '/' :: tail.map slash =
        '/' :: '/' :: (host ++ '\\' :: share ++ '\\' :: tail).map slash := by
      simp [slash]
    rw [hform, splitOn_slashedNormal_share, parts_map_slash, parts_append_cons,
      splitOn_share, cons_append, cons_append, shown_share]
    · have hparts : ∀ cs, parts '\\' cs = (cs.splitOn '\\').filter isNamed := fun _ => rfl
      simp [hparts]
    · rw [mem_append, mem_cons, not_or, not_or]
      exact ⟨hrest, by decide, htail⟩

/-- How the components of a rooted path start. -/
def Rooted : Platform → List (List Char) → Prop
  | .posix, segs => ∃ names, segs = [] :: names ∧ [] ∉ names
  | .windows, segs => segs ≠ [] ∧ segs ≠ [[]]

/-- What the catalog and the policy find in an accepted path and in its normal form. -/
structure Reads (platform : Platform) (text path : String) (raw : List (List Char)) : Prop where
  shown : (lexicalValue text).splitOn '/' = shown platform raw
  normal : (lexicalValue path).splitOn '/' = Capabilities.shown platform (components platform path)
  components : ['.', '.'] ∉ raw → components platform path = raw
  dots : hasParentSegment text = true ↔ ['.', '.'] ∈ raw
  rooted : Rooted platform raw ∧ Rooted platform (Capabilities.components platform path)

theorem dots_mem_parts : ['.', '.'] ∈ parts sep cs ↔ ['.', '.'] ∈ cs.splitOn sep := by
  simp [parts]

theorem exists_reads (h : normalizePathRoot text platform = .ok root) :
    ∃ raw, Reads root.platform text root.root raw := by
  obtain ⟨-, hnormal⟩ := normalizePathRoot_eq_ok h
  obtain ⟨platform, path⟩ := root
  cases platform with
  | posix =>
    obtain ⟨rest, htext, hsep, hback, hpath⟩ := exists_rest hnormal
    have hslashed : ∀ cs : List Char, '\\' ∉ cs → ('/' :: cs).map slash = '/' :: cs :=
      fun cs hcs => map_slash_of_no_backslash (by simp [hcs])
    have hparts : components .posix path = [] :: normSegments (rest.splitOn '/') :=
      (congrArg (fun cs => (unended '/' cs).splitOn '/') hpath).trans
        (splitOn_unended_normal [] rest)
    refine ⟨[] :: parts '/' rest, ?_, ?_, ?_, ?_, ?_⟩
    · exact segments_posix hsep (htext ▸ hslashed rest hback)
    · rw [hparts, ← parts_normal]
      refine segments_posix (ends_normal rest).1 ?_
      rw [hpath]
      exact hslashed _ fun hmem => (mem_normal hmem).elim (by decide) hback
    · intro hdots
      rw [mem_cons, not_or, dots_mem_parts] at hdots
      rw [← normSegments_eq_parts hdots.2, hparts]
    · have hsplit : ('/' :: rest).splitOn '/' = [] :: rest.splitOn '/' :=
        splitOn_append_cons_self [] rest
      unfold hasParentSegment
      rw [decide_eq_true_iff, htext, hslashed rest hback, hsplit, mem_cons, mem_cons,
        dots_mem_parts]
    · rw [hparts, ← parts_normal]
      exact ⟨⟨_, rfl, fun hmem => (mem_parts hmem).1 rfl⟩, _, rfl, fun hmem => (mem_parts hmem).1 rfl⟩
  | windows =>
    obtain ⟨drive, tail, hdrive, hslash, htail, htext, hpath, -⟩ := exists_drive hnormal
    have hslashed : text.toList.map slash = drive.map slash ++ '/' :: tail.map slash := by
      rw [← map_slash_backslash, htext, map_append]
      rfl
    have hparts : components .windows path =
        drive.splitOn '\\' ++ normSegments (tail.splitOn '\\') :=
      (congrArg (fun cs => (unended '\\' cs).splitOn '\\') hpath).trans
        (splitOn_unended_normal drive tail)
    have hrooted : ∀ segs, Rooted .windows (drive.splitOn '\\' ++ segs) := by
      intro segs
      rcases splitOn_drive hdrive with ⟨c, h⟩ | h | ⟨host, share, h⟩ <;> simp [Rooted, h]
    refine ⟨drive.splitOn '\\' ++ parts '\\' tail, ?_, ?_, ?_, ?_, hrooted _, hparts ▸ hrooted _⟩
    · exact segments_windows hdrive hslash htail hslashed
    · rw [hparts, ← parts_normal]
      refine segments_windows hdrive hslash ?_ ?_
      · exact fun hmem => (mem_normal hmem).elim (by decide) htail
      · rw [hpath, map_append]
        rfl
    · intro hdots
      rw [mem_append, not_or, dots_mem_parts] at hdots
      rw [← normSegments_eq_parts hdots.2, hparts]
    · unfold hasParentSegment
      rw [decide_eq_true_iff, hslashed, splitOn_append_cons_self, splitOn_map_slash hslash,
        splitOn_map_slash htail, mem_append, mem_append, dots_mem_parts]

/-- The catalog's comparison of components. -/
def Found (lib : Library) (r q : List (List Char)) : Prop :=
  (Folded r ∨ Folded q) ∧ r.map (fold lib) <+: q.map (fold lib) ∨ ¬ (Folded r ∨ Folded q) ∧ r <+: q

theorem Found.folded (h : Found lib r q) : r.map (fold lib) <+: q.map (fold lib) := by
  rcases h with ⟨-, h⟩ | ⟨-, h⟩
  · exact h
  · exact h.map (fold lib)

/-- On POSIX the catalog compares components, but nothing else is in the filesystem root. -/
theorem found_posix (hr : Rooted .posix r) (hq : Rooted .posix q) :
    Found lib (shown .posix r) (shown .posix q) ↔ r <+: q ∧ (r = [[]] → q = [[]]) := by
  obtain ⟨names, rfl, hnames⟩ := hr
  obtain ⟨names', rfl, hnames'⟩ := hq
  have hfolded : ∀ names : List (List Char), [] ∉ names → ¬ Folded (shown .posix ([] :: names)) := by
    intro names hnames hfolded
    rw [shown_posix] at hfolded
    split at hfolded
    · rcases hfolded with ⟨c, rest, -, -, h⟩ | ⟨rest, hne, h⟩
      · simp at h
      · simp [hne.symm] at h
    · rcases hfolded with ⟨c, rest, -, -, h⟩ | ⟨rest, -, h⟩
      · simp at h
      · exact hnames (by simp [(cons.inj h).2])
  have hfound : Found lib (shown .posix ([] :: names)) (shown .posix ([] :: names')) ↔
      shown .posix ([] :: names) <+: shown .posix ([] :: names') := by
    simp [Found, hfolded _ hnames, hfolded _ hnames']
  rw [hfound, shown_posix, shown_posix]
  match names, names' with
  | [], [] => simp
  | [], n :: _ =>
    have hn : [] ≠ n := fun heq => hnames' (heq ▸ mem_cons_self)
    simp [hn]
  | n :: _, [] =>
    have hn : n ≠ [] := fun heq => hnames (heq ▸ mem_cons_self)
    simp [hn]
  | _ :: _, _ :: _ => simp

theorem two_le_drive (h : Drive drive) : 2 ≤ drive.length := by
  cases h with
  | letter c => exact Nat.le_refl 2
  | share => simp

/-- The drive of a path that is nothing else does not end with a separator. -/
theorem drive_of_bare (hdrive : Drive drive) (hslash : '/' ∉ drive)
    (hshare : ¬ (['\\', '\\'] <+: drive ++ ['\\'] ∧
      ((((drive ++ ['\\']).drop 2).splitOn '\\').filter fun part => part ≠ []).length < 2)) :
    ¬ ['/'] <:+ drive.map slash := by
  have hlast : ¬ ['\\'] <:+ drive := by
    cases hdrive with
    | letter c =>
      intro hsuffix
      rcases suffix_cons_iff.1 hsuffix with heq | hsuffix
      · cases heq
      rcases suffix_cons_iff.1 hsuffix with heq | hsuffix
      · cases heq
      · cases suffix_nil.1 hsuffix
    | @share host share hhost hsharename =>
      intro hsuffix
      apply hshare
      refine ⟨⟨host ++ '\\' :: share ++ ['\\'], by simp⟩, ?_⟩
      have hform : ('\\' :: '\\' :: (host ++ '\\' :: share) ++ ['\\']).drop 2 =
          host ++ '\\' :: (share ++ '\\' :: []) := by simp
      -- A share that ends with the separator is empty.
      have hempty : share = [] := by
        by_contra hne
        have hshort : ['\\'] <:+ share := by
          refine suffix_of_suffix_length_le hsuffix ⟨'\\' :: '\\' :: (host ++ ['\\']), by simp⟩ ?_
          exact length_pos_iff.2 hne
        exact hsharename (hshort.subset mem_cons_self)
      rw [hform, splitOn_append_cons_self, splitOn_append_cons_self,
        splitOn_eq_singleton hhost, hempty]
      by_cases hne : host = [] <;> simp [hne]
  rintro ⟨before, hbefore⟩
  apply hlast
  have hback : drive = before.map backslash ++ ['\\'] := by
    rw [← map_backslash_slash hslash, ← hbefore, map_append]
    rfl
  exact ⟨_, hback.symm⟩

/-- The end of a normal Windows path. -/
theorem chop_windows (hdrive : Drive drive) (hslash : '/' ∉ drive) (htail : '/' ∉ tail)
    (hshare : ¬ (['\\', '\\'] <+: drive ++ '\\' :: normal '\\' tail ∧
      ((((drive ++ '\\' :: normal '\\' tail).drop 2).splitOn '\\').filter
        fun part => part ≠ []).length < 2)) :
    chop ((drive ++ '\\' :: normal '\\' tail).map slash) =
      if normal '\\' tail = [] then drive.map slash
      else (drive ++ '\\' :: normal '\\' tail).map slash := by
  have hne : drive.map slash ≠ [] := by
    intro hnil
    have hlength := two_le_drive hdrive
    rw [map_eq_nil_iff.1 hnil] at hlength
    cases hlength
  split
  · rename_i hnil
    rw [hnil] at hshare ⊢
    rw [map_append]
    exact chop_concat hne (drive_of_bare hdrive hslash hshare)
  rename_i hnil
  refine chop_of_not_suffix (by simp) fun hsuffix => ?_
  rw [map_append, map_cons] at hsuffix
  have hrest : ['/'] <:+ (normal '\\' tail).map slash := by
    refine suffix_of_suffix_length_le hsuffix ?_ ?_
    · exact ⟨drive.map slash ++ [slash '\\'], by simp⟩
    · rw [length_map]
      exact length_pos_iff.2 hnil
  have hnone : '/' ∉ normal '\\' tail := by
    intro hmem
    rcases mem_normal hmem with heq | hmem
    · cases heq
    · exact htail hmem
  obtain ⟨before, hbefore⟩ := hrest
  have hends : ¬ ['\\'] <:+ normal '\\' tail := (ends_normal tail).2
  apply hends
  refine ⟨before.map backslash, ?_⟩
  rw [← map_backslash_slash hnone, ← hbefore, map_append]
  rfl

/-- The catalog keeps the text of the path, up to its separators and the last one. -/
def Legible (path : String) : Prop := lexicalValue path = chop (path.toList.map slash)

instance (path : String) : Decidable (Legible path) := inferInstanceAs (Decidable (_ = _))

/-- What is legible of a normal Windows path are its components. -/
theorem shown_of_legible (h : normalizePathRoot text platform = .ok ⟨.windows, path⟩)
    (hlegible : Legible path) :
    shown .windows (components .windows path) = components .windows path := by
  obtain ⟨raw, hread⟩ := exists_reads h
  obtain ⟨drive, tail, hdrive, hslash, htail, -, hpath, hshare⟩ :=
    exists_drive (normalizePathRoot_eq_ok h).2
  have hnone := not_mem_append_normal hslash (by decide : '/' ≠ '\\') htail
  dsimp only at hpath
  rw [hpath] at hshare
  rw [← hread.normal, hlegible, hpath, chop_windows hdrive hslash htail hshare]
  show _ = (unended '\\' path.toList).splitOn '\\'
  rw [hpath]
  split
  · rename_i hnil
    rw [splitOn_map_slash hslash, hnil, unended_concat]
  · rename_i hnil
    rw [splitOn_map_slash hnone, unended_of_ne (getLast?_normal drive hnil)]

theorem isLexicallyWithin_iff {platform : Platform} {root : String}
    (hroot : (lexicalValue root).splitOn '/' = shown platform r)
    (hpath : (lexicalValue path).splitOn '/' = shown platform q) :
    isLexicallyWithin lib root path = true ↔ Found lib (shown platform r) (shown platform q) := by
  unfold isLexicallyWithin
  rw [isValueWithin_iff, hroot, hpath]
  rfl

/-- A path that the catalog finds in a root is in it for the policy, where it reads both. -/
theorem pathIsWithinRoot_of_lexically (hroot : root.Normal)
    (hrequest : normalizePathRequest path root.platform.value = .ok request)
    (hdots : hasParentSegment path = false)
    (hlegible : root.platform = .windows → Legible root.root ∧ Legible request.path)
    (h : isLexicallyWithin lib root.root path = true) :
    pathIsWithinRoot lib root request = true := by
  obtain ⟨rootText, platform, hnormal⟩ := hroot
  obtain rfl := parsePlatform_eq_ok (normalizePathRoot_eq_ok hnormal).1
  rw [pathIsWithinRoot_iff hnormal hrequest]
  obtain ⟨-, hother⟩ := normalizePathRequest_eq_ok hrequest
  obtain ⟨r, hr⟩ := exists_reads hnormal
  obtain ⟨q, hq⟩ := exists_reads hother
  have hqdots : ['.', '.'] ∉ q := by
    rw [← hq.dots, hdots]
    decide
  rw [isLexicallyWithin_iff hr.normal hq.shown, ← hq.components hqdots] at h
  obtain ⟨platform, root⟩ := root
  unfold ComponentsWithin
  cases platform with
  | posix =>
    unfold comparedPart
    rw [map_id, map_id]
    exact ((found_posix hr.rooted.2 hq.rooted.2).1 h).1
  | windows =>
    obtain ⟨hrlegible, hqlegible⟩ := hlegible rfl
    have hfolded := h.folded
    rw [shown_of_legible hnormal hrlegible, shown_of_legible hother hqlegible] at hfolded
    exact hfolded

end Capabilities
