import EchoDesk.Foundations.OrderedLog

/-! # Readers of a growing log

A log keeps its last entries for readers that come back, and hands every new
entry to the readers that are there. What a reader was given and what waits for
it make up one stretch of the log, from the position it started after:

* `Follows`: the stretch reaches the end of the log;
* `CutOff`: it stops earlier, and a few entries that are none of the log's may
  stand behind it.
-/

namespace ReplayLog

open OrderedLog List

universe u

variable {α : Type u} {pos : α → Nat}
variable {extra l waiting : List α}

/-- The last `n` entries. -/
def keepLast (n : Nat) (l : List α) : List α := l.drop (l.length - n)

/-- A ring that takes one more entry holds the last entries of the longer log. -/
theorem keepLast_concat (n : Nat) (l : List α) (a : α) :
    keepLast n (keepLast n l ++ [a]) = keepLast n (l ++ [a]) := by
  by_cases hn : l.length ≤ n
  · have h : keepLast n l = l := by
      rw [keepLast, show l.length - n = 0 by omega, drop_zero]
    rw [h]
  have hlen : (keepLast n l).length = n := by
    rw [keepLast, length_drop]
    omega
  have hring : keepLast n (keepLast n l ++ [a]) = (keepLast n l ++ [a]).drop 1 := by
    rw [keepLast, length_append, hlen, length_singleton]
    exact congrArg (List.drop · _) (by omega)
  have hlog : keepLast n (l ++ [a]) = (l ++ [a]).drop (l.length - n + 1) := by
    rw [keepLast, length_append, length_singleton]
    exact congrArg (List.drop · _) (by omega)
  rw [hring, hlog, keepLast, ← drop_drop, drop_append_of_le_length (i := l.length - n)]
  omega

/-- The entry at an index of a dense log. -/
theorem pos_getElem? (hd : Dense pos l) {i : Nat} {a : α} (h : l[i]? = some a) : pos a = i + 1 := by
  have hlt : i < l.length := (List.getElem?_eq_some_iff.1 h).1
  have hpos : (l.map pos)[i]? = some (pos a) := by rw [getElem?_map, h, Option.map_some]
  rw [hd, getElem?_range' hlt] at hpos
  have := Option.some.inj hpos
  omega

/-- What the ring holds past a position is the log past it, unless entries that are past
it have left the ring. -/
theorem filter_keepLast (hd : Dense pos l) {n after : Nat} (hn : 0 < n)
    (h : ∀ a ∈ (keepLast n l).head?, pos a ≤ after + 1) :
    (keepLast n l).filter (fun a => after < pos a) = l.drop after := by
  have hsplit : l.filter (fun a => after < pos a) =
      (l.take (l.length - n)).filter (fun a => after < pos a) ++
        (keepLast n l).filter (fun a => after < pos a) := by
    rw [keepLast, ← filter_append, take_append_drop]
  have hleft : (l.take (l.length - n)).filter (fun a => after < pos a) = [] := by
    rw [filter_eq_nil_iff]
    intro b hb
    -- the entries that left the ring come before its first one
    obtain ⟨i, hi⟩ := mem_iff_getElem?.1 hb
    have hlt : i < l.length - n := by
      have := (List.getElem?_eq_some_iff.1 hi).1
      rw [length_take] at this
      omega
    rw [getElem?_take_of_lt hlt] at hi
    have hfirst : l.length - n < l.length := by omega
    have hhead := h l[l.length - n] (by
      rw [keepLast, head?_drop, getElem?_eq_getElem hfirst]
      rfl)
    have hposb := pos_getElem? hd hi
    have hposfirst := pos_getElem? hd (getElem?_eq_getElem hfirst)
    simp only [decide_eq_true_eq]
    omega
  rw [hleft, nil_append] at hsplit
  rw [← hsplit, hd.filter_lt]

/-- A stretch of a dense log is numbered from its start on. -/
theorem map_stretch (hd : Dense pos l) {p : List α} {start : Nat} (hp : p <+: l.drop start) :
    p.map pos = List.range' (start + 1) p.length := by
  apply ext_getElem
  · rw [length_map, length_range']
  intro i hi _
  rw [length_map] at hi
  have hget : l[start + i]? = some p[i] := by
    rw [← getElem?_drop, ← prefix_iff_getElem?.1 hp i hi]
  rw [getElem_map, pos_getElem? hd hget, getElem_range']
  omega

/-! ## What a reader was given and what waits for it -/

variable {log : List α} {start : Nat} {given : List α}

/-- The reader is at the end of the log, but for what waits. -/
structure Follows (log : List α) (start : Nat) (given : List α) : Prop where
  le : start ≤ log.length
  eq : given = log.drop start

/-- The reader was cut off: `extra` stands behind the stretch it was given. -/
structure CutOff (log : List α) (start : Nat) (given extra : List α) : Prop where
  le : start ≤ log.length
  stretch : ∃ p, p <+: log.drop start ∧ given = p ++ extra

/-- A new entry that is handed over keeps the reader at the end. -/
theorem Follows.concat (h : Follows log start given) (a : α) :
    Follows (log ++ [a]) start (given ++ [a]) := by
  have hle := h.le
  constructor
  · rw [length_append]
    omega
  · rw [h.eq, drop_append_of_le_length hle]

/-- A reader that loses what waits for it is cut off. -/
theorem Follows.cutOff (h : Follows log start given) {before : List α}
    (hsplit : given = before ++ waiting) (extra : List α) :
    CutOff log start (before ++ extra) extra := by
  refine ⟨h.le, before, ?_, rfl⟩
  rw [← h.eq, hsplit]
  exact prefix_append before waiting

/-- A reader that is no longer handed anything is cut off. -/
theorem Follows.leave (h : Follows log start given) : CutOff log start given [] :=
  ⟨h.le, given, h.eq ▸ prefix_rfl, (append_nil given).symm⟩

/-- The log grows behind a reader that was cut off. -/
theorem CutOff.concat (h : CutOff log start given extra) (a : α) :
    CutOff (log ++ [a]) start given extra := by
  obtain ⟨p, hp, hgiven⟩ := h.stretch
  have hle := h.le
  refine ⟨?_, p, hp.trans ?_, hgiven⟩
  · rw [length_append]
    omega
  · rw [drop_append_of_le_length hle]
    exact prefix_append _ _

/-- What was delivered is a stretch of the log from its start on, and whatever else was
delivered stands behind the stretch. -/
theorem CutOff.delivered {delivered : List α} (h : CutOff log start (delivered ++ waiting) extra) :
    ∃ p c, p <+: log.drop start ∧ c <+: extra ∧ delivered = p ++ c := by
  obtain ⟨p, hp, hgiven⟩ := h.stretch
  rcases append_eq_append_iff.1 hgiven with ⟨q, hq, -⟩ | ⟨c, hc, hextra⟩
  · refine ⟨delivered, [], ?_, nil_prefix, (append_nil _).symm⟩
    rw [hq] at hp
    exact (prefix_append delivered q).trans hp
  · exact ⟨p, c, hp, hextra ▸ prefix_append c waiting, hc⟩

end ReplayLog
