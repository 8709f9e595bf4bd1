import EchoDesk.Capabilities.CatalogPaths

/-! # Where the two readings of a path agree

Both say of a path and a root whether the components of the root are the first ones of the
path. The policy always says so; the catalog does unless it compares the root in its own way.
-/

namespace Capabilities

open EchoDesk LexicalPath Transaction List

variable {lib : Library} {cs : List Char} {r q : List (List Char)}

/-- A full stop is folded to itself, and nothing else is. -/
structure Library.KeepsStops (lib : Library) : Prop where
  self : lib.foldChar '.' = ['.']
  alone : ∀ c, '.' ∈ lib.foldChar c → c = '.'

theorem fold_eq_stops (hstops : lib.KeepsStops) {n : Nat} :
    fold lib cs = List.replicate n '.' ↔ cs = List.replicate n '.' := by
  have hself : ∀ n, fold lib (List.replicate n '.') = List.replicate n '.' := by
    intro n
    unfold fold
    simp [flatMap_replicate, hstops.self]
  constructor
  · intro h
    have hall : ∀ c ∈ cs, c = '.' := by
      intro c hc
      obtain ⟨d, more, hfold⟩ := exists_cons_of_ne_nil (lib.foldChar_ne_nil c)
      have hmem : d ∈ fold lib cs :=
        mem_flatMap.2 ⟨c, hc, hfold ▸ mem_cons_self⟩
      rw [h, mem_replicate] at hmem
      apply hstops.alone
      rw [hfold, hmem.2]
      exact mem_cons_self
    have hcs : cs = List.replicate cs.length '.' := eq_replicate_iff.2 ⟨rfl, hall⟩
    rw [hcs, hself] at h
    exact hcs.trans h
  · rintro rfl
    exact hself n

/-- A folded share starts as the share does. -/
theorem share_of_starts (hr : r ≠ [] ∧ r ≠ [[]]) (h : r.map (fold lib) <+: q.map (fold lib)) :
    [[], []] <+: r ↔ [[], []] <+: q := by
  match r, q with
  | [], _ => exact absurd rfl hr.1
  | [x], [] => simp at h
  | [x], [y] => simp
  | [x], y :: z :: q =>
    have hxy : fold lib x = fold lib y := by simpa using h
    have hx : x ≠ [] := by
      rintro rfl
      exact hr.2 rfl
    have hy : y ≠ [] := fun hy => hx (fold_eq_nil.1 (hxy.trans (fold_eq_nil.2 hy)))
    simp [hy.symm]
  | x :: x' :: r, [] => simp at h
  | x :: x' :: r, [y] => simp at h
  | x :: x' :: r, y :: y' :: q =>
    have hxy : fold lib x = fold lib y ∧ fold lib x' = fold lib y' := by
      simp only [map_cons, cons_prefix_cons] at h
      exact ⟨h.1, h.2.1⟩
    have hsame : ∀ a b : List Char, fold lib a = fold lib b → (a = [] ↔ b = []) := by
      intro a b hab
      exact ⟨fun ha => fold_eq_nil.1 (hab.symm.trans (fold_eq_nil.2 ha)),
        fun hb => fold_eq_nil.1 (hab.trans (fold_eq_nil.2 hb))⟩
    simp [cons_prefix_cons, eq_comm (a := ([] : List Char)), hsame _ _ hxy.1, hsame _ _ hxy.2]

/-- Leaving the nameless components out keeps a prefix. -/
theorem shown_prefix (hstops : lib.KeepsStops) (hr : r ≠ [] ∧ r ≠ [[]])
    (h : r.map (fold lib) <+: q.map (fold lib)) :
    (shown .windows r).map (fold lib) <+: (shown .windows q).map (fold lib) := by
  have hshare := share_of_starts hr h
  by_cases hr' : [[], []] <+: r
  · obtain ⟨r, rfl⟩ := hr'
    obtain ⟨q, rfl⟩ := hshare.1 (prefix_append _ _)
    have hkeep : isNamed ∘ fold lib = isNamed := by
      funext seg
      have hdot : fold lib seg = ['.'] ↔ seg = ['.'] := fold_eq_stops hstops (n := 1)
      simp [isNamed, fold_eq_nil, hdot]
    have hrest : r.map (fold lib) <+: q.map (fold lib) := by simpa using h
    have hfilter := hrest.filter isNamed
    rw [filter_map, filter_map, hkeep] at hfilter
    simpa [shown_share] using hfilter
  · rw [shown_of_not_share hr', shown_of_not_share fun hq => hr' (hshare.2 hq)]
    exact h

theorem found_of_prefix (h : r <+: q) : Found lib r q := by
  by_cases hfolded : Folded r ∨ Folded q
  · exact .inl ⟨hfolded, h.map (fold lib)⟩
  · exact .inr ⟨hfolded, h⟩

/-- A component that is below the drive of a letter. -/
def BelowLetter (segs : List (List Char)) : Prop :=
  ∃ c rest, c.isAlpha = true ∧ rest ≠ [] ∧ segs = [c, ':'] :: rest

/-- Shares are compared without case. -/
theorem found_of_share (hr : [[], []] <+: r)
    (h : (shown .windows r).map (fold lib) <+: (shown .windows q).map (fold lib)) :
    Found lib (shown .windows r) (shown .windows q) := by
  by_cases hfolded : Folded (shown .windows r) ∨ Folded (shown .windows q)
  · exact .inl ⟨hfolded, h⟩
  refine .inr ⟨hfolded, ?_⟩
  obtain ⟨r, rfl⟩ := hr
  have hnil : r.filter isNamed = [] := by
    by_contra hne
    exact hfolded (.inl (.inr ⟨_, hne, shown_share r⟩))
  have hform : shown .windows ([[], []] ++ r) = [[], []] := (shown_share r).trans (by rw [hnil])
  rw [hform] at h ⊢
  match shown .windows q, h with
  | [], h => simp at h
  | [y], h => simp at h
  | y :: z :: more, h =>
    have hyz : fold lib y = [] ∧ fold lib z = [] := by
      simpa [cons_prefix_cons, fold, eq_comm (a := ([] : List Char))] using h
    rw [fold_eq_nil.1 hyz.1, fold_eq_nil.1 hyz.2]
    exact ⟨more, rfl⟩

/-- On Windows the catalog agrees with the components unless it heeds case or nameless ones. -/
theorem found_windows_iff (hstops : lib.KeepsStops) (hr : r ≠ [] ∧ r ≠ [[]]) :
    (Found lib (shown .windows r) (shown .windows q) ↔ r.map (fold lib) <+: q.map (fold lib)) ↔
      (r.map (fold lib) <+: q.map (fold lib) →
        r <+: q ∨ [[], []] <+: r ∨ BelowLetter r ∨ BelowLetter q) ∧
      ((shown .windows r).map (fold lib) <+: (shown .windows q).map (fold lib) →
        r.map (fold lib) <+: q.map (fold lib)) := by
  by_cases hshare : [[], []] <+: r
  · have hfound : Found lib (shown .windows r) (shown .windows q) ↔
        (shown .windows r).map (fold lib) <+: (shown .windows q).map (fold lib) :=
      ⟨Found.folded, found_of_share hshare⟩
    rw [hfound]
    constructor
    · exact fun h => ⟨fun _ => .inr (.inl hshare), h.1⟩
    · exact fun h => ⟨h.2, shown_prefix hstops hr⟩
  have hr' : shown .windows r = r := shown_of_not_share hshare
  have hq' : ∀ s, s = q ∨ s = shown .windows q → r.map (fold lib) <+: s.map (fold lib) →
      ¬ [[], []] <+: q := by
    rintro s (rfl | rfl) h hq
    · exact hshare ((share_of_starts hr h).2 hq)
    obtain ⟨q, rfl⟩ := hq
    rw [cons_append, cons_append, shown_share] at h
    exact hshare ((share_of_starts hr h).2 ⟨_, rfl⟩)
  have hletters : Folded r ∨ Folded q → ¬ [[], []] <+: q → BelowLetter r ∨ BelowLetter q := by
    rintro ((h | ⟨rest, -, rfl⟩) | (h | ⟨rest, -, rfl⟩)) hq
    · exact .inl h
    · exact absurd ⟨rest, rfl⟩ hshare
    · exact .inr h
    · exact absurd ⟨rest, rfl⟩ hq
  rw [hr']
  constructor
  · intro h
    refine ⟨fun hwithin => ?_, fun hshown => ?_⟩
    · have hq := hq' q (.inl rfl) hwithin
      rcases h.2 hwithin with ⟨hfolded, -⟩ | ⟨-, hprefix⟩
      · rw [shown_of_not_share hq] at hfolded
        exact .inr (.inr (hletters hfolded hq))
      · rw [shown_of_not_share hq] at hprefix
        exact .inl hprefix
    · rwa [shown_of_not_share (hq' _ (.inr rfl) hshown)] at hshown
  · rintro ⟨hcase, hshown⟩
    refine ⟨fun h => hshown h.folded, fun hwithin => ?_⟩
    rw [shown_of_not_share (hq' q (.inl rfl) hwithin)]
    rcases hcase hwithin with hprefix | h | h | h
    · exact found_of_prefix hprefix
    · exact absurd h hshare
    · exact .inl ⟨.inl (.inl h), hwithin⟩
    · exact .inl ⟨.inr (.inl h), hwithin⟩

theorem dots_mem_shown (platform : Platform) (segs : List (List Char)) :
    ['.', '.'] ∈ shown platform segs ↔ ['.', '.'] ∈ segs := by
  cases platform with
  | posix =>
    rw [shown_posix]
    split
    · rename_i hsegs
      simp [hsegs]
    · rfl
  | windows =>
    by_cases hshare : [[], []] <+: segs
    · obtain ⟨rest, rfl⟩ := hshare
      rw [cons_append, cons_append, shown_share]
      simp [isNamed]
    · rw [shown_of_not_share hshare]

/-- A root that the path leaves is no root to the catalog. -/
theorem not_found_of_dots (hstops : lib.KeepsStops) {platform : Platform}
    (hr : ['.', '.'] ∈ r) (hq : ['.', '.'] ∉ q) :
    ¬ Found lib (shown platform r) (shown platform q) := by
  intro hfound
  have hmem := hfound.folded.subset (mem_map_of_mem ((dots_mem_shown platform r).2 hr))
  obtain ⟨seg, hseg, hfold⟩ := mem_map.1 hmem
  have hself : fold lib ['.', '.'] = ['.', '.'] := (fold_eq_stops hstops (n := 2)).2 rfl
  rw [hself] at hfold
  have hdots : seg = ['.', '.'] := (fold_eq_stops hstops (n := 2)).1 hfold
  rw [hdots, dots_mem_shown] at hseg
  exact hq hseg

/-- The catalog, the policy and the components say the same of a path and a root. -/
def Agree (lib : Library) (rootText path : String) (root : PathRoot) (request : PathRequest) :
    Prop :=
  (isLexicallyWithin lib rootText path = true ↔ pathIsWithinRoot lib root request = true) ∧
    (pathIsWithinRoot lib root request = true ↔ ComponentsWithin lib root request)

/-- The root is none that the catalog compares in its own way: one that goes up, that of the
filesystem, one that only case and a drive tell from the path, or one whose share has a nameless
component. -/
def Comparable (lib : Library) (rootText : String) (root : PathRoot) (request : PathRequest) :
    Prop :=
  if hasParentSegment rootText = true then ¬ ComponentsWithin lib root request
  else
    match root.platform with
    | .posix => root.root = "/" → request.path = "/"
    | .windows =>
      let r := components .windows root.root
      let q := components .windows request.path
      (ComponentsWithin lib root request →
        r <+: q ∨ [[], []] <+: r ∨ BelowLetter r ∨ BelowLetter q) ∧
      ((shown .windows r).map (fold lib) <+: (shown .windows q).map (fold lib) →
        ComponentsWithin lib root request)

theorem components_posix_iff {text path : String}
    (h : normalizePathRoot text "posix" = .ok ⟨.posix, path⟩) :
    components .posix path = [[]] ↔ path = "/" := by
  constructor
  · intro hone
    have hjoin : ['/'].intercalate (components .posix path) = unended '/' path.toList :=
      intercalate_splitOn '/'
    rw [hone, intercalate_singleton] at hjoin
    obtain ⟨_, -, -, -, hpath⟩ := exists_rest (normalizePathRoot_eq_ok h).2
    rcases exists_unended '/' path.toList with ⟨-, hends⟩ | ⟨-, hends⟩
    · rw [← hjoin] at hends
      exact String.toList_injective hends
    · rw [← hjoin] at hends
      exact absurd (hpath.symm.trans hends) (cons_ne_nil _ _)
  · rintro rfl
    rfl

/-- The two checks agree exactly on what they both compare by components. -/
theorem contained_iff (lib : Library) (hstops : lib.KeepsStops) {rootText path platform : String}
    {root : PathRoot} {request : PathRequest} (hroot : normalizePathRoot rootText platform = .ok root)
    (hrequest : normalizePathRequest path platform = .ok request)
    (hdots : hasParentSegment path = false) :
    Agree lib rootText path root request ↔ Comparable lib rootText root request := by
  obtain rfl := parsePlatform_eq_ok (normalizePathRoot_eq_ok hroot).1
  have hpolicy := @pathIsWithinRoot_iff lib _ _ _ _ hroot hrequest
  obtain ⟨-, hother⟩ := normalizePathRequest_eq_ok hrequest
  obtain ⟨r, hr⟩ := exists_reads hroot
  obtain ⟨q, hq⟩ := exists_reads hother
  have hqdots : ['.', '.'] ∉ q := by
    rw [← hq.dots, hdots]
    decide
  have hcatalog := @isLexicallyWithin_iff lib _ _ _ _ _ hr.shown hq.shown
  unfold Agree Comparable
  rw [and_iff_left hpolicy, hcatalog, hpolicy]
  split
  · rename_i hup
    rw [iff_false_left (not_found_of_dots hstops (hr.dots.1 hup) hqdots)]
  rename_i hup
  rw [hr.dots] at hup
  have hrparts := hr.components hup
  have hqparts := hq.components hqdots
  have hrooted := hr.rooted.1
  obtain ⟨platform, root⟩ := root
  unfold ComponentsWithin
  dsimp only at *
  cases platform with
  | posix =>
    rw [← components_posix_iff hroot, ← components_posix_iff hother, hrparts, hqparts]
    unfold comparedPart
    rw [List.map_id, List.map_id, found_posix hrooted hq.rooted.1]
    constructor
    · rintro h rfl
      obtain ⟨names, rfl, -⟩ := hq.rooted.1
      exact (h.2 (by simp)).2 rfl
    · exact fun h => and_iff_left h
  | windows =>
    rw [hrparts, hqparts]
    exact found_windows_iff hstops hrooted

theorem Library.ascii_keepsStops (addresses : List (String × IpAddress)) :
    (Library.ascii addresses).KeepsStops := by
  refine ⟨rfl, fun c hc => ?_⟩
  have hlower : '.' = c.toLower := mem_singleton.1 hc
  rw [← toLower_eq_self (c := c) (by rw [← hlower]; decide), ← hlower]

theorem contained_iff_workspace : Agree (.ascii []) "C:\\Work\\." "c:/work/a.txt" ⟨.windows, "C:\\Work"⟩
    ⟨.windows, "c:\\work\\a.txt"⟩ := by
  refine (@contained_iff (.ascii []) (Library.ascii_keepsStops []) _ _ "windows" _ _ (by rfl) (by rfl)
    (by decide)).2 ?_
  refine ⟨fun _ => .inr (.inr (.inl ⟨'C', ["Work".toList], ?_⟩)), fun _ => ?_⟩
  · decide
  · show _ <+: _
    decide

/-- Nothing below the filesystem root is in it for the catalog. -/
theorem root_not_within : ¬ ∀ (lib : Library) (rootText path platform : String) (root : PathRoot)
    (request : PathRequest), normalizePathRoot rootText platform = .ok root →
    normalizePathRequest path platform = .ok request → hasParentSegment path = false →
    Agree lib rootText path root request := by
  intro h
  have hagree := (h (.ascii []) "/" "/srv" "posix" ⟨.posix, "/"⟩ ⟨.posix, "/srv"⟩ (by rfl) (by rfl)
    (by decide)).1
  revert hagree
  decide

end Capabilities
