import EchoDesk.Core.Data

/-! # JSON texts by their values

A column that holds `json.dumps(payload, sort_keys=True)` is compared as text.
Two such texts are equal exactly when the payloads are equal after their keys
were sorted, at every depth, so the model keeps the sorted payload itself.
-/

namespace EchoDesk

open List Json

namespace Json

/-! ## Equality -/

mutual

def beq : Json → Json → Bool
  | .null, .null => true
  | .bool a, .bool b => a = b
  | .int a, .int b => a = b
  | .float a, .float b => a = b
  | .str a, .str b => a = b
  | .arr a, .arr b => beqList a b
  | .obj a, .obj b => beqFields a b
  | _, _ => false

def beqList : List Json → List Json → Bool
  | [], [] => true
  | a :: as, b :: bs => beq a b && beqList as bs
  | _, _ => false

def beqFields : List (String × Json) → List (String × Json) → Bool
  | [], [] => true
  | (k, a) :: as, (l, b) :: bs => k = l && beq a b && beqFields as bs
  | _, _ => false

end

mutual

theorem beq_iff_eq : ∀ a b : Json, beq a b = true ↔ a = b
  | .null, b => by cases b <;> simp [beq]
  | .bool a, b => by cases b <;> simp [beq]
  | .int a, b => by cases b <;> simp [beq]
  | .float a, b => by cases b <;> simp [beq]
  | .str a, b => by cases b <;> simp [beq]
  | .arr a, b => by cases b <;> simp [beq, beqList_iff_eq a]
  | .obj a, b => by cases b <;> simp [beq, beqFields_iff_eq a]

theorem beqList_iff_eq : ∀ as bs : List Json, beqList as bs = true ↔ as = bs
  | [], bs => by cases bs <;> simp [beqList]
  | a :: as, bs => by
    cases bs with
    | nil => simp [beqList]
    | cons b bs => simp [beqList, beq_iff_eq a b, beqList_iff_eq as bs]

theorem beqFields_iff_eq : ∀ as bs : List (String × Json), beqFields as bs = true ↔ as = bs
  | [], bs => by cases bs <;> simp [beqFields]
  | (k, a) :: as, bs => by
    cases bs with
    | nil => simp [beqFields]
    | cons entry bs => simp [beqFields, Prod.ext_iff, beq_iff_eq a entry.2, beqFields_iff_eq as bs]

end

instance : DecidableEq Json := fun a b => decidable_of_iff _ (beq_iff_eq a b)

/-- A value used as a condition. -/
def truthy : Json → Bool
  | .null => false
  | .bool b => b
  | .int n => n ≠ 0
  | .float text => text ≠ "0.0" ∧ text ≠ "-0.0"
  | .str s => s ≠ ""
  | .arr xs => !xs.isEmpty
  | .obj fields => !fields.isEmpty

/-- A nullable text column, as the driver hands it to Python. -/
def ofText : Option String → Json
  | none => .null
  | some s => .str s

end Json

namespace Dict

/-- `d.get(key)`, where a missing key reads as `None`. -/
def read (d : Dict) (key : String) : Json := (d.get? key).getD .null

/-- `d.get(key) or default`. -/
def readOr (d : Dict) (key : String) (default : Json) : Json :=
  if (d.read key).truthy then d.read key else default

end Dict

/-! ## Sorted keys -/

namespace Json

/-- Insert an entry before the first key that is not smaller. -/
def insertField (entry : String × Json) : List (String × Json) → List (String × Json)
  | [] => [entry]
  | head :: rest =>
    if entry.1 ≤ head.1 then entry :: head :: rest else head :: insertField entry rest

mutual

def sortKeys : Json → Json
  | .arr xs => .arr (sortKeysList xs)
  | .obj fields => .obj (sortFields fields)
  | j => j

def sortKeysList : List Json → List Json
  | [] => []
  | x :: xs => sortKeys x :: sortKeysList xs

def sortFields : List (String × Json) → List (String × Json)
  | [] => []
  | (k, v) :: fields => insertField (k, sortKeys v) (sortFields fields)

end

end Json

/-- `_dump`: the text of a payload with its keys sorted. -/
def Dict.dump (d : Dict) : Dict := Json.sortFields d

namespace Dict

theorem lookup_cons_ite (entry : String × Json) (d : Dict) (key : String) :
    List.lookup key (entry :: d) = if key = entry.1 then some entry.2 else d.lookup key := by
  rw [lookup_cons]
  by_cases h : key = entry.1
  · simp [h]
  · simp [h, beq_false_of_ne h]

theorem lookup_insertField (entry : String × Json) (d : Dict) (key : String) :
    (insertField entry d).lookup key = if key = entry.1 then some entry.2 else d.lookup key := by
  induction d with
  | nil => exact lookup_cons_ite entry [] key
  | cons head rest ih =>
    rw [insertField]
    by_cases hle : entry.1 ≤ head.1
    · rw [if_pos hle, lookup_cons_ite]
    rw [if_neg hle, lookup_cons_ite, lookup_cons_ite, ih]
    by_cases hhead : key = head.1
    · -- the entry goes behind this key, so it is another one
      have hne : key ≠ entry.1 := by
        rintro rfl
        exact hle (Std.le_of_eq hhead)
      rw [if_pos hhead, if_neg hne, if_pos hhead]
    · rw [if_neg hhead, if_neg hhead]

variable (d : Dict)

theorem get?_set (key : String) (value : Json) (k : String) :
    (d.set key value).get? k = if k = key then some value else d.get? k := by
  induction d with
  | nil => exact lookup_cons_ite (key, value) [] k
  | cons entry rest ih =>
    obtain ⟨l, v⟩ := entry
    rw [set]
    by_cases hl : l = key
    · rw [if_pos hl, get?, get?, lookup_cons_ite, lookup_cons_ite, hl]
      by_cases hk : k = key
      · rw [if_pos hk, if_pos hk]
      · rw [if_neg hk, if_neg hk, if_neg hk]
    · rw [if_neg hl, get?, get?, lookup_cons_ite, lookup_cons_ite]
      by_cases hk : k = l
      · rw [if_pos hk, if_pos hk, if_neg (by rw [hk]; exact hl)]
      · rw [if_neg hk, if_neg hk]
        exact ih

theorem read_set (key : String) (value : Json) (k : String) :
    (d.set key value).read k = if k = key then value else d.read k := by
  rw [read, get?_set]
  split <;> rfl

/-- Sorting the keys keeps what is under them. -/
@[simp] theorem get?_dump (key : String) : d.dump.get? key = (d.get? key).map sortKeys := by
  induction d with
  | nil => rfl
  | cons entry rest ih =>
    have hrest : (sortFields rest).lookup key = (rest.lookup key).map sortKeys := ih
    show (insertField (entry.1, sortKeys entry.2) (sortFields rest)).lookup key =
      (List.lookup key (entry :: rest)).map sortKeys
    rw [lookup_insertField, lookup_cons_ite, hrest]
    by_cases h : key = entry.1
    · rw [if_pos h, if_pos h]
      rfl
    · rw [if_neg h, if_neg h]

/-- The payload under a key that holds no list and no dictionary. -/
theorem read_dump (key : String) : d.dump.read key = (d.read key).sortKeys := by
  rw [read, read, get?_dump]
  cases d.get? key <;> rfl

end Dict

/-! ## Sorting twice -/

namespace Json

variable {d : List (String × Json)}
variable {entry : String × Json}
variable {e : String × Json}

theorem mem_insertField : e ∈ insertField entry d ↔ e = entry ∨ e ∈ d := by
  induction d with
  | nil => exact mem_cons
  | cons head rest ih =>
    rw [insertField]
    split
    · exact mem_cons
    · rw [mem_cons, mem_cons, ih]
      exact or_left_comm

/-- An entry goes in front of keys that are not smaller. -/
theorem insertField_of_le {entry : String × Json} {d : List (String × Json)}
    (h : ∀ e ∈ d, entry.1 ≤ e.1) : insertField entry d = entry :: d := by
  cases d with
  | nil => rfl
  | cons head rest => rw [insertField, if_pos (h head mem_cons_self)]

/-- The keys of a dictionary are in order. -/
def KeysSorted (d : List (String × Json)) : Prop := d.Pairwise fun a b => a.1 ≤ b.1

theorem keysSorted_insertField (h : KeysSorted d) : KeysSorted (insertField entry d) := by
  induction d with
  | nil => exact pairwise_singleton _ _
  | cons head rest ih =>
    obtain ⟨hhead, hrest⟩ := pairwise_cons.1 h
    rw [insertField]
    split
    · rename_i hle
      refine pairwise_cons.2 ⟨fun e he => ?_, h⟩
      rcases mem_cons.1 he with rfl | he
      · exact hle
      · exact String.le_trans hle (hhead e he)
    · rename_i hgt
      refine pairwise_cons.2 ⟨fun e he => ?_, ih hrest⟩
      rcases mem_insertField.1 he with rfl | he
      · exact (String.le_total _ _).resolve_left hgt
      · exact hhead e he

theorem keysSorted_sortFields (d : List (String × Json)) : KeysSorted (sortFields d) := by
  induction d with
  | nil => exact List.Pairwise.nil
  | cons entry rest ih => exact keysSorted_insertField ih

/-- Dropping keys does not disturb where an entry goes. -/
theorem filter_insertField {p : String → Bool} (h : KeysSorted d) :
    (insertField entry d).filter (fun e => p e.1) =
      if p entry.1 then insertField entry (d.filter fun e => p e.1)
      else d.filter fun e => p e.1 := by
  induction d with
  | nil =>
    rw [insertField, filter_cons]
    rfl
  | cons head rest ih =>
    obtain ⟨hhead, hrest⟩ := pairwise_cons.1 h
    rw [insertField]
    split
    · rename_i hle
      have hall : ∀ e ∈ head :: rest, entry.1 ≤ e.1 := by
        intro e he
        rcases mem_cons.1 he with rfl | he
        · exact hle
        · exact String.le_trans hle (hhead e he)
      rw [filter_cons, insertField_of_le fun e he => hall e (mem_of_mem_filter he)]
    rename_i hgt
    rw [filter_cons, filter_cons, ih hrest]
    by_cases hp : p head.1 = true
    · rw [if_pos hp, if_pos hp]
      by_cases hentry : p entry.1 = true
      · rw [if_pos hentry, if_pos hentry, insertField, if_neg hgt]
      · rw [if_neg hentry, if_neg hentry]
    · rw [if_neg hp, if_neg hp]

theorem filter_sortFields (p : String → Bool) (d : List (String × Json)) :
    (sortFields d).filter (fun e => p e.1) = sortFields (d.filter fun e => p e.1) := by
  induction d with
  | nil => rfl
  | cons entry rest ih =>
    rw [sortFields, filter_insertField (keysSorted_sortFields rest), ih, filter_cons]
    split <;> rfl

theorem key_of_mem_sortFields (h : e ∈ sortFields d) : ∃ e₀ ∈ d, e₀.1 = e.1 := by
  induction d with
  | nil => exact absurd h not_mem_nil
  | cons entry rest ih =>
    rcases mem_insertField.1 h with rfl | h
    · exact ⟨entry, mem_cons_self, rfl⟩
    · obtain ⟨e₀, hmem, hkey⟩ := ih h
      exact ⟨e₀, mem_cons_of_mem _ hmem, hkey⟩

theorem sortFields_insertField (h : KeysSorted d) : sortFields (insertField entry d) =
      insertField (entry.1, sortKeys entry.2) (sortFields d) := by
  induction d with
  | nil => rfl
  | cons head rest ih =>
    obtain ⟨hhead, hrest⟩ := pairwise_cons.1 h
    rw [insertField]
    split
    · rfl
    rename_i hgt
    -- the head stays in front of what comes after it, with the entry or without
    have hfirst : ∀ e ∈ sortFields rest, head.1 ≤ e.1 := by
      intro e he
      obtain ⟨e₀, hmem, hkey⟩ := key_of_mem_sortFields he
      exact hkey ▸ hhead e₀ hmem
    have hfirst' : ∀ e ∈ insertField (entry.1, sortKeys entry.2) (sortFields rest),
        head.1 ≤ e.1 := by
      intro e he
      rcases mem_insertField.1 he with rfl | he
      · exact (String.le_total _ _).resolve_left hgt
      · exact hfirst e he
    rw [sortFields, ih hrest, sortFields, @insertField_of_le (head.1, sortKeys head.2) _ hfirst',
      @insertField_of_le (head.1, sortKeys head.2) _ hfirst, insertField, if_neg hgt]

mutual

theorem sortKeys_sortKeys : ∀ j : Json, sortKeys (sortKeys j) = sortKeys j
  | .null | .bool _ | .int _ | .float _ | .str _ => rfl
  | .arr xs => congrArg arr (sortKeysList_sortKeysList xs)
  | .obj fields => congrArg obj (sortFields_sortFields fields)

theorem sortKeysList_sortKeysList : ∀ xs : List Json,
    sortKeysList (sortKeysList xs) = sortKeysList xs
  | [] => rfl
  | x :: xs => by
    rw [sortKeysList, sortKeysList, sortKeys_sortKeys x, sortKeysList_sortKeysList xs]

theorem sortFields_sortFields : ∀ d : List (String × Json), sortFields (sortFields d) = sortFields d
  | [] => rfl
  | (k, v) :: rest => by
    rw [sortFields, sortFields_insertField (keysSorted_sortFields rest), sortKeys_sortKeys v,
      sortFields_sortFields rest]

end

end Json

theorem Dict.dump_dump (d : Dict) : d.dump.dump = d.dump := sortFields_sortFields d

/-- Some keys of a dump are the dump of these keys. -/
theorem Dict.dump_filter (p : String → Bool) (d : Dict) :
    List.filter (fun e => p e.1) d.dump = Dict.dump (List.filter (fun e => p e.1) d) :=
  filter_sortFields p d

end EchoDesk
