import EchoDesk.Capabilities.Policy
import EchoDesk.Foundations.Transaction

/-! # Normal roots

The normal form of a root is its own normal form, where it has one; so two roots that have a
path in common are roots of one another.
-/

namespace Capabilities

open EchoDesk LexicalPath Transaction List

variable {lib : Library} {cs ds es : List Char}
variable {platform root : String} {r r' : PathRoot} {rest tail x : List Char}

/-! ## Windows paths -/

@[simp] theorem backslash_backslash (c : Char) : backslash (backslash c) = backslash c := by
  unfold backslash
  split <;> rfl

theorem map_backslash_map (cs : List Char) :
    (cs.map backslash).map backslash = cs.map backslash := by
  simp [map_map, Function.comp_def]

theorem map_backslash_of_no_slash (h : '/' ∉ cs) : cs.map backslash = cs := by
  conv_rhs => rw [← map_id cs]
  apply map_congr_left
  intro c hc
  unfold backslash
  rw [if_neg]
  · rfl
  · rintro rfl
    exact h hc

theorem no_slash_map (cs : List Char) : '/' ∉ cs.map backslash := by
  rw [mem_map]
  rintro ⟨c, -, hc⟩
  unfold backslash at hc
  split at hc
  · cases hc
  · exact absurd hc ‹_›

theorem ntSplitdrive_map (cs : List Char) : ntSplitdrive (cs.map backslash) =
      ((ntSplitdrive cs).1.map backslash, (ntSplitdrive cs).2.map backslash) := by
  unfold ntSplitdrive
  rw [map_backslash_map]
  split
  · dsimp only
    split
    · rfl
    · simp [map_take, map_drop]
  · simp [map_take, map_drop]
  · rfl

/-- The drive and the rest make up the path. -/
theorem ntSplitdrive_join (cs : List Char) : (ntSplitdrive cs).1 ++ (ntSplitdrive cs).2 = cs := by
  unfold ntSplitdrive
  split
  · dsimp only
    split
    · exact append_nil cs
    · exact take_append_drop _ cs
  · exact take_append_drop _ cs
  · rfl

theorem fromBackslash_append {part : List Char} (h : '\\' ∉ part) :
    fromBackslash (part ++ '\\' :: rest) = '\\' :: rest := by
  unfold fromBackslash
  rw [dropWhile_append_of_pos]
  · rfl
  · intro c hc
    exact decide_eq_true fun heq => h (heq ▸ hc)

theorem exists_fromBackslash (h : fromBackslash rest = tail) (hne : tail ≠ []) :
    ∃ part after, '\\' ∉ part ∧ tail = '\\' :: after ∧ rest = part ++ '\\' :: after := by
  have hsplit := takeWhile_append_dropWhile (p := fun c => Decidable.decide (c ≠ '\\')) (l := rest)
  obtain ⟨c, after, hafter⟩ := exists_cons_of_ne_nil hne
  have hc : c = '\\' := by
    have htail : rest.dropWhile (fun c => Decidable.decide (c ≠ '\\')) = c :: after :=
      h.trans hafter
    have hhead := head?_dropWhile_not (fun c => Decidable.decide (c ≠ '\\')) rest
    rw [htail] at hhead
    simpa using hhead
  refine ⟨rest.takeWhile fun c => c ≠ '\\', after, ?_, by rw [hafter, hc], ?_⟩
  · intro hmem
    have hne := mem_takeWhile_imp hmem
    simp at hne
  · rw [hc] at hafter
    rw [← hafter, ← h]
    exact hsplit.symm

/-- The drive of a UNC path. -/
theorem ntSplitdrive_unc {server share after : List Char} (hserver : '\\' ∉ server)
    (hshare : '\\' ∉ share)
    (hslash : '/' ∉ '\\' :: '\\' :: (server ++ '\\' :: (share ++ '\\' :: after))) :
    ntSplitdrive ('\\' :: '\\' :: (server ++ '\\' :: (share ++ '\\' :: after))) =
      ('\\' :: '\\' :: (server ++ '\\' :: share), '\\' :: after) := by
  have hlength : ('\\' :: '\\' :: (server ++ '\\' :: (share ++ '\\' :: after))).length -
      ('\\' :: after).length = ('\\' :: '\\' :: (server ++ '\\' :: share)).length := by
    simp only [length_cons, length_append]
    omega
  have hform : '\\' :: '\\' :: (server ++ '\\' :: (share ++ '\\' :: after)) =
      '\\' :: '\\' :: (server ++ '\\' :: share) ++ '\\' :: after := by simp
  have htail : fromBackslash ((fromBackslash (server ++ '\\' :: (share ++ '\\' :: after))).drop 1) =
      '\\' :: after := by
    rw [fromBackslash_append hserver, drop_one, tail_cons, fromBackslash_append hshare]
  unfold ntSplitdrive
  rw [map_backslash_of_no_slash hslash]
  show (if fromBackslash ((fromBackslash (server ++ '\\' :: (share ++ '\\' :: after))).drop 1) = []
    then _ else _) = _
  rw [htail, if_neg (cons_ne_nil _ _), hlength, hform, take_left, drop_left]

/-! ## Normal forms -/

/-- A drive: a letter, or a host and a share. -/
inductive Drive : List Char → Prop
  | letter (c : Char) : Drive [c, ':']
  | share {host share : List Char} (hhost : '\\' ∉ host) (hshare : '\\' ∉ share) :
      Drive ('\\' :: '\\' :: (host ++ '\\' :: share))

variable {drive : List Char} {path : String}

/-- A drive that a separator follows is the drive of the path. -/
theorem ntSplitdrive_drive (h : Drive drive) (hnone : '/' ∉ drive ++ '\\' :: x) :
    ntSplitdrive (drive ++ '\\' :: x) = (drive, '\\' :: x) := by
  cases h with
  | letter a =>
    have hnone' : '/' ∉ a :: ':' :: '\\' :: x := hnone
    show ntSplitdrive (a :: ':' :: '\\' :: x) = _
    unfold ntSplitdrive
    rw [map_backslash_of_no_slash hnone']
    split
    · rename_i heq
      injection heq with _ htail
      injection htail with hcolon
      exact absurd hcolon (by decide)
    · rfl
    · rename_i hnot
      exact absurd rfl (hnot a _)
  | @share host share hhost hshare =>
    have hform : '\\' :: '\\' :: (host ++ '\\' :: share) ++ '\\' :: x =
        '\\' :: '\\' :: (host ++ '\\' :: (share ++ '\\' :: x)) := by simp
    rw [hform] at hnone ⊢
    exact ntSplitdrive_unc hhost hshare hnone

theorem no_slash_ntSplitdrive (cs : List Char) :
    '/' ∉ (ntSplitdrive (cs.map backslash)).1 ∧ '/' ∉ (ntSplitdrive (cs.map backslash)).2 := by
  rw [ntSplitdrive_map]
  exact ⟨no_slash_map _, no_slash_map _⟩

theorem drive_of_ntSplitdrive (hcs : '/' ∉ cs) (hsplit : ntSplitdrive cs = (drive, '\\' :: tail))
    (hdrive : drive ≠ []) : Drive drive ∧ cs = drive ++ '\\' :: tail := by
  have hjoin := ntSplitdrive_join cs
  rw [hsplit] at hjoin
  refine ⟨?_, hjoin.symm⟩
  have horig := hsplit
  unfold ntSplitdrive at hsplit
  rw [map_backslash_of_no_slash hcs] at hsplit
  split at hsplit
  · rename_i rest
    dsimp only at hsplit
    split at hsplit
    · cases hsplit
    rename_i htail
    obtain ⟨share, after, hshare, -, hrest'⟩ := exists_fromBackslash rfl htail
    have hne : fromBackslash rest ≠ [] := by
      intro hnil
      rw [hnil] at hrest'
      simp at hrest'
    obtain ⟨host, rest', hhost, hfrom, hrest⟩ := exists_fromBackslash rfl hne
    rw [hfrom, drop_one, tail_cons] at hrest'
    rw [hrest, hrest'] at horig hcs
    rw [ntSplitdrive_unc hhost hshare hcs] at horig
    have heq : _ = drive := congrArg Prod.fst horig
    rw [← heq]
    exact .share hhost hshare
  · rename_i c rest
    have heq : [c, ':'] = drive := congrArg Prod.fst hsplit
    rw [← heq]
    exact .letter c
  · exact absurd (congrArg Prod.fst hsplit).symm hdrive

/-- What a rooted Windows path and its normal form consist of. -/
theorem exists_drive (h : windowsRoot cs = .ok ds) :
    ∃ drive tail, Drive drive ∧ '/' ∉ drive ∧ '/' ∉ tail ∧
      cs.map backslash = drive ++ '\\' :: tail ∧ ds = drive ++ '\\' :: normal '\\' tail ∧
      ¬ (['\\', '\\'] <+: ds ∧
        (((ds.drop 2).splitOn '\\').filter fun part => part ≠ []).length < 2) := by
  unfold windowsRoot at h
  split at h
  · cases h
  split at h
  · cases h
  rename_i hrooted
  rw [not_or, not_not] at hrooted
  split at h
  · cases h
  rename_i hshare
  have hds := Except.ok.inj h
  rw [hds] at hshare
  obtain ⟨hnone₁, hnone₂⟩ := no_slash_ntSplitdrive cs
  obtain ⟨tail, htail⟩ : ∃ tail, (ntSplitdrive (cs.map backslash)).2 = '\\' :: tail := by
    rw [ntSplitdrive_map]
    rcases hrooted.2 with ⟨tail, htail⟩ | ⟨tail, htail⟩
    · exact ⟨tail.map backslash, by rw [← htail]; rfl⟩
    · exact ⟨tail.map backslash, by rw [← htail]; rfl⟩
  have hne : (ntSplitdrive (cs.map backslash)).1 ≠ [] := by
    rw [ntSplitdrive_map]
    simpa using hrooted.1
  obtain ⟨hdrive, hjoin⟩ := drive_of_ntSplitdrive (no_slash_map cs) (Prod.ext rfl htail) hne
  refine ⟨_, tail, hdrive, hnone₁, ?_, hjoin, ?_, hshare⟩
  · rw [htail] at hnone₂
    exact fun hmem => hnone₂ (mem_cons_of_mem _ hmem)
  · rw [← hds]
    show _ ++ '\\' :: normal '\\' (ntSplitdrive (cs.map backslash)).2 = _
    rw [htail, normal_cons_sep]

theorem exists_rest (h : posixRoot cs = .ok ds) :
    ∃ rest, cs = '/' :: rest ∧ ¬ ['/'] <+: rest ∧ '\\' ∉ rest ∧ ds = '/' :: normal '/' rest := by
  unfold posixRoot at h
  split at h
  · cases h
  rename_i hform
  simp only [not_or, not_not] at hform
  obtain ⟨⟨rest, hrest⟩, hslashes, hback⟩ := hform
  have hrest : cs = '/' :: rest := hrest.symm
  subst hrest
  refine ⟨rest, rfl, ?_, ?_, ?_⟩
  · intro hprefix
    exact hslashes (cons_prefix_cons.2 ⟨rfl, hprefix⟩)
  · exact fun hmem => hback (mem_cons_of_mem _ hmem)
  · rw [← Except.ok.inj h, posixNormpath, normal_cons_sep]

/-- A device path of Windows, with whichever separators it is spelled. -/
def isDevice (cs : List Char) : Prop := ['\\', '\\', '.', '\\'] <+: cs.map backslash

/-- Whether a path is one of a device is seen in its drive. -/
theorem isDevice_congr (h : Drive drive) {y : List Char}
    (hcs : cs.map backslash = drive ++ '\\' :: x) (hds : ds.map backslash = drive ++ '\\' :: y) :
    isDevice cs ↔ isDevice ds := by
  unfold isDevice
  rw [hcs, hds]
  cases h with
  | letter c => simp [cons_prefix_cons]
  | @share host share hhost hshare =>
    -- The prefix ends in the separator after the drive at the latest.
    have hlong : ∀ z, ['\\', '\\', '.', '\\'] <+: '\\' :: '\\' :: (host ++ '\\' :: share) ++ '\\' :: z ↔
        ['\\', '\\', '.', '\\'] <+: '\\' :: '\\' :: (host ++ '\\' :: share) ++ ['\\'] := by
      intro z
      rw [append_cons]
      constructor
      · intro hprefix
        refine prefix_of_prefix_length_le hprefix (prefix_append _ z) ?_
        simp only [length_cons, length_append, length_nil]
        omega
      · exact fun hprefix => hprefix.trans (prefix_append _ z)
    rw [hlong x, hlong y]

theorem posixRoot_again (h : posixRoot cs = .ok ds) : posixRoot ds = .ok ds := by
  obtain ⟨rest, -, -, hback, rfl⟩ := exists_rest h
  unfold posixRoot
  rw [if_neg, posixNormpath, normal_cons_sep, normal_normal]
  rintro (hslash | hslashes | hmem)
  · exact hslash (prefix_append ['/'] _)
  · exact (ends_normal rest).1 (cons_prefix_cons.1 hslashes).2
  rcases mem_cons.1 hmem with hmem | hmem
  · exact absurd hmem (by decide)
  · exact (mem_normal hmem).elim (by decide) hback

/-- The normal form of a Windows root is its own unless it is a device path, which the text it
was made from was not seen to be. -/
theorem windowsRoot_again (h : windowsRoot cs = .ok ds) (hquestion : '?' ∉ ds) :
    windowsRoot ds = .ok es ↔ ¬ isDevice cs ∧ ds = es := by
  obtain ⟨drive, tail, hdrive, hslash, htail, htext, hds, hshare⟩ := exists_drive h
  have hnone : '/' ∉ ds := hds ▸ not_mem_append_normal hslash (by decide) htail
  have hsame : ds.map backslash = ds := map_backslash_of_no_slash hnone
  have hsplit : ntSplitdrive ds = (drive, '\\' :: normal '\\' tail) := by
    rw [hds]
    exact ntSplitdrive_drive hdrive (hds ▸ hnone)
  have hnormal : ntNormpath ds = ds := by
    unfold ntNormpath
    rw [hsame, hsplit]
    show drive ++ '\\' :: normal '\\' ('\\' :: normal '\\' tail) = ds
    rw [normal_cons_sep, normal_normal, hds]
  rw [isDevice_congr hdrive htext (hsame.trans hds), isDevice, hsame]
  by_cases hdevice : ['\\', '\\', '.', '\\'] <+: ds
  · unfold windowsRoot
    rw [if_pos (.inr hdevice)]
    exact ⟨fun hok => (by cases hok), fun hnot => absurd hdevice hnot.1⟩
  have hok : windowsRoot ds = .ok ds := by
    unfold windowsRoot
    rw [if_neg, hsplit, if_neg, hnormal, if_neg hshare]
    · rintro (hnil | hnot)
      · cases hdrive <;> cases hnil
      · exact hnot (.inl (prefix_append ['\\'] _))
    · rintro (hmark | hdevice')
      · exact hquestion (hmark.subset (by decide))
      · exact hdevice hdevice'
  rw [hok, Except.ok.injEq, and_iff_right hdevice]

theorem parsePlatform_value (platform : Platform) : parsePlatform platform.value = .ok platform := by
  cases platform <;> rfl

theorem parsePlatform_eq_ok {value : String} {platform : Platform}
    (h : parsePlatform value = .ok platform) : value = platform.value := by
  unfold parsePlatform at h
  split at h
  · cases h
    assumption
  split at h
  · cases h
    assumption
  · cases h

theorem normalizePathRoot_ok_iff :
    normalizePathRoot root platform = .ok r ↔ parsePlatform platform = .ok r.platform ∧
      (root ≠ "" ∧ ∀ c ∈ root.toList, c ∉ shellAmbiguous ∧ c ∉ expansion) ∧
      r.platform.normalRoot root.toList = .ok r.root.toList := by
  unfold normalizePathRoot
  constructor
  · intro h
    obtain ⟨platform', hplatform, h⟩ := bind_eq_ok.1 h
    split at h
    · cases h
    rename_i htext
    split at h
    · cases h
    rename_i hexpansion
    obtain ⟨cs, hcs, h⟩ := bind_eq_ok.1 h
    cases h
    rw [not_or, not_exists] at htext
    rw [not_exists] at hexpansion
    refine ⟨hplatform, ⟨htext.1, fun c hc => ?_⟩, ?_⟩
    · exact ⟨fun hmem => htext.2 c ⟨hc, hmem⟩, fun hmem => hexpansion c ⟨hc, hmem⟩⟩
    · rw [String.toList_ofList]
      exact hcs
  · rintro ⟨hplatform, ⟨hne, hchars⟩, hroot⟩
    rw [hplatform]
    show (if _ then _ else _) = _
    rw [if_neg, if_neg, hroot]
    · show Except.ok (PathRoot.mk r.platform (String.ofList r.root.toList)) = _
      rw [String.ofList_toList]
    · rintro ⟨c, hc, hmem⟩
      exact (hchars c hc).2 hmem
    · rintro (hnil | ⟨c, hc, hmem⟩)
      · exact hne hnil
      · exact (hchars c hc).1 hmem

theorem normalizePathRoot_eq_ok (h : normalizePathRoot root platform = .ok r) :
    parsePlatform platform = .ok r.platform ∧
      r.platform.normalRoot root.toList = .ok r.root.toList :=
  (normalizePathRoot_ok_iff.1 h).imp_right And.right

/-- The characters of a normal form. -/
theorem mem_normalRoot {platform : Platform} {c : Char} (h : platform.normalRoot cs = .ok ds)
    (hc : c ∈ ds) : isSep c = true ∨ c ∈ cs := by
  cases platform with
  | posix =>
    obtain ⟨rest, rfl, -, -, rfl⟩ := exists_rest h
    rcases mem_cons.1 hc with rfl | hc
    · exact .inl rfl
    · exact (mem_normal hc).imp (fun heq => by rw [heq]; rfl) (mem_cons_of_mem _)
  | windows =>
    obtain ⟨drive, tail, -, -, -, htext, rfl, -⟩ := exists_drive h
    have hmem : c = '\\' ∨ c ∈ cs.map backslash := by
      rw [htext, mem_append, mem_cons]
      rcases mem_append.1 hc with hc | hc
      · exact .inr (.inl hc)
      rcases mem_cons.1 hc with rfl | hc
      · exact .inl rfl
      · exact (mem_normal hc).imp_right fun hc => .inr (.inr hc)
    rcases hmem with rfl | hmem
    · exact .inl rfl
    obtain ⟨d, hd, rfl⟩ := mem_map.1 hmem
    unfold backslash
    split
    · exact .inl rfl
    · exact .inr hd

/-- A root in its normal form that is normalized is left as it is, and it is refused when it was
a device path. -/
theorem normalizePathRoot_again_iff (h : normalizePathRoot root platform = .ok r) :
    normalizePathRoot r.root r.platform.value = .ok r' ↔
      ¬ (r.platform = .windows ∧ isDevice root.toList) ∧ r = r' := by
  obtain ⟨-, ⟨-, hchars⟩, hroot⟩ := normalizePathRoot_ok_iff.1 h
  obtain ⟨platform, path⟩ := r
  obtain ⟨platform', path'⟩ := r'
  have hplain : ∀ c ∈ path.toList, c ∉ shellAmbiguous ∧ c ∉ expansion := by
    intro c hc
    rcases mem_normalRoot hroot hc with hsep | hmem
    · rcases of_decide_eq_true hsep with rfl | rfl <;> decide
    · exact hchars c hmem
  have hne : path ≠ "" := by
    rintro rfl
    cases platform with
    | posix =>
      obtain ⟨_, -, -, -, hnil⟩ := exists_rest hroot
      cases hnil
    | windows =>
      obtain ⟨drive, _, -, -, -, -, hnil, -⟩ := exists_drive hroot
      cases drive <;> cases hnil
  have hagain : platform.normalRoot path.toList = .ok path'.toList ↔
      ¬ (platform = .windows ∧ isDevice root.toList) ∧ path = path' := by
    rw [← String.toList_inj]
    cases platform with
    | posix =>
      have hok : Platform.posix.normalRoot path.toList = .ok path.toList := posixRoot_again hroot
      have hposix : ¬ (Platform.posix = .windows ∧ isDevice root.toList) := by simp
      rw [hok, Except.ok.injEq, and_iff_right hposix]
    | windows =>
      rw [and_iff_right (rfl : Platform.windows = Platform.windows)]
      exact windowsRoot_again hroot fun hmem => (hplain _ hmem).2 (by decide)
  rw [normalizePathRoot_ok_iff, parsePlatform_value, Except.ok.injEq, PathRoot.mk.injEq]
  constructor
  · rintro ⟨rfl, -, hok⟩
    obtain ⟨hdevice, rfl⟩ := hagain.1 hok
    exact ⟨hdevice, rfl, rfl⟩
  · rintro ⟨hdevice, rfl, rfl⟩
    exact ⟨rfl, ⟨hne, hplain⟩, hagain.2 ⟨hdevice, rfl⟩⟩

/-- A root that has a normal form. -/
def PathRoot.Normal (r : PathRoot) : Prop := ∃ root platform, normalizePathRoot root platform = .ok r

/-- Of two roots with a path in common, one is within the other. -/
theorem not_within_both {a b : PathRoot} {request : PathRequest} (ha : a.Normal) (hb : b.Normal)
    (hrequest : pathIsWithinRoot lib a request = true)
    (hrequest' : pathIsWithinRoot lib b request = true)
    (hab : pathTextIsWithinRoot lib a b.root = .ok false)
    (hba : pathTextIsWithinRoot lib b a.root = .ok false) : False := by
  obtain ⟨hplatform, hwithin⟩ := of_decide_eq_true hrequest
  obtain ⟨hplatform', hwithin'⟩ := of_decide_eq_true hrequest'
  have hsame : a.platform = b.platform := hplatform.symm.trans hplatform'
  have hagain : ∀ {a b : PathRoot}, a.platform = b.platform → b.Normal →
      pathTextIsWithinRoot lib a b.root = .ok false →
      ¬ Within a.platform.sep isSep (compared lib a.platform a.root)
        (compared lib a.platform b.root) := by
    intro a b hsame hnormal hfalse hin
    obtain ⟨request, hnormalize, hanswer⟩ := bind_eq_ok.1 hfalse
    obtain ⟨b', hb', hreturn⟩ := bind_eq_ok.1 hnormalize
    cases hreturn
    obtain ⟨root, platform, hroot⟩ := hnormal
    rw [hsame] at hb'
    have heq := ((normalizePathRoot_again_iff hroot).1 hb').2.symm
    subst heq
    have hnot : pathIsWithinRoot lib a ⟨b'.platform, b'.root⟩ = false := Except.ok.inj hanswer
    exact of_decide_eq_false hnot ⟨hsame.symm, hin⟩
  rw [← hsame] at hwithin'
  rcases within_comparable hwithin hwithin' with hin | hin
  · exact hagain hsame hb hab hin
  apply hagain hsame.symm ha hba
  rw [← hsame]
  exact hin

end Capabilities
