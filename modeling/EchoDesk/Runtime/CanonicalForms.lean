import EchoDesk.Runtime.CanonicalJson

/-! # Where the canonical forms agree

The kernel and the host write one text for a value exactly when the value is portable: the texts
are read back, so they are equal when the trees are, and the trees of an object are its entries
sorted in two orders. What the host reads and writes is read again on both sides.
-/

namespace EchoDesk

open JsonSyntax SortedEntries KeyOrder List

namespace JsValue

variable {atom atom' : JsNumber → Prop} {keys : List String → Prop}
variable {value : JsValue} {n : JsNumber}

/-! ## Properties of a value -/

mutual

theorem Each.imp (ha : ∀ n, atom n → atom' n) :
    ∀ {value : JsValue}, value.Each atom keys → value.Each atom' keys
  | .null, _ | .bool _, _ | .str _, _ => trivial
  | .num n, h => ha n h
  | .arr _, h => EachItem.imp ha h
  | .obj _, h => ⟨h.1, EachField.imp ha h.2⟩

theorem EachItem.imp (ha : ∀ n, atom n → atom' n) :
    ∀ {items : List JsValue}, EachItem atom keys items → EachItem atom' keys items
  | [], _ => trivial
  | _ :: _, h => ⟨h.1.imp ha, EachItem.imp ha h.2⟩

theorem EachField.imp (ha : ∀ n, atom n → atom' n) :
    ∀ {fields : List (String × JsValue)}, EachField atom keys fields → EachField atom' keys fields
  | [], _ => trivial
  | (_, _) :: _, h => ⟨h.1.imp ha, EachField.imp ha h.2⟩

end

theorem eachField_append (fields fields' : List (String × JsValue)) :
    EachField atom keys (fields ++ fields') ↔
      EachField atom keys fields ∧ EachField atom keys fields' := by
  induction fields with
  | nil => exact (and_iff_right trivial).symm
  | cons head rest ih =>
    show head.2.Each atom keys ∧ EachField atom keys (rest ++ fields') ↔
      (head.2.Each atom keys ∧ _) ∧ _
    rw [ih, and_assoc]

theorem eachField_orderedInsert (entry : String × JsValue) (fields : List (String × JsValue)) :
    EachField atom keys (fields.orderedInsert (byKey pointsLe) entry) ↔
      entry.2.Each atom keys ∧ EachField atom keys fields := by
  induction fields with
  | nil => exact Iff.rfl
  | cons head rest ih =>
    rw [orderedInsert_cons]
    split
    · exact Iff.rfl
    show head.2.Each atom keys ∧ _ ↔ _ ∧ head.2.Each atom keys ∧ _
    rw [ih]
    exact and_left_comm

/-- The keys of a sorted object are its keys. -/
theorem keys_sortedFields (fields : List (String × JsValue)) :
    ((sortedFields fields).map Prod.fst).Perm (fields.map Prod.fst) := by
  induction fields with
  | nil => exact List.Perm.nil
  | cons entry rest ih =>
    have hinsert := perm_orderedInsert (byKey pointsLe) (entry.1, entry.2.sorted)
      (sortedFields rest)
    exact (hinsert.map Prod.fst).trans (ih.cons entry.1)

mutual

theorem Each.sorted (hkeys : ∀ ks ks' : List String, ks.Perm ks' → keys ks → keys ks') :
    ∀ {value : JsValue}, value.Each atom keys → value.sorted.Each atom keys
  | .null, _ | .bool _, _ | .str _, _ => trivial
  | .num _, h => h
  | .arr _, h => EachItem.sorted hkeys h
  | .obj fields, h =>
    ⟨hkeys _ _ (keys_sortedFields fields).symm h.1, EachField.sorted hkeys h.2⟩

theorem EachItem.sorted (hkeys : ∀ ks ks' : List String, ks.Perm ks' → keys ks → keys ks') :
    ∀ {items : List JsValue}, EachItem atom keys items → EachItem atom keys (sortedItems items)
  | [], _ => trivial
  | _ :: _, h => ⟨h.1.sorted hkeys, EachItem.sorted hkeys h.2⟩

theorem EachField.sorted (hkeys : ∀ ks ks' : List String, ks.Perm ks' → keys ks → keys ks') :
    ∀ {fields : List (String × JsValue)}, EachField atom keys fields →
      EachField atom keys (sortedFields fields)
  | [], _ => trivial
  | (_, _) :: _, h =>
    (eachField_orderedInsert _ _).2 ⟨h.1.sorted hkeys, EachField.sorted hkeys h.2⟩

end

theorem Distinct.sorted (h : value.Distinct) : value.sorted.Distinct :=
  Each.sorted (fun _ _ hperm hnodup => hperm.nodup_iff.1 hnodup) h

theorem ReadsBack.sorted {floats : Floats} {number : String → Option JsNumber}
    (h : value.ReadsBack floats number) : value.sorted.ReadsBack floats number :=
  Each.sorted (fun _ _ _ h => h) h

/-! ## The forms as sorted entries -/

theorem canonicalFields_eq (fields : List (String × JsValue)) : canonicalFields fields =
      sortEntries unitsLe (fields.map fun e => (e.1, e.2.canonical)) := by
  induction fields with
  | nil => rfl
  | cons entry rest ih =>
    rw [canonicalFields, ih]
    rfl

theorem sortedFields_eq (fields : List (String × JsValue)) :
    sortedFields fields = sortEntries pointsLe (fields.map fun e => (e.1, e.2.sorted)) := by
  induction fields with
  | nil => rfl
  | cons entry rest ih =>
    rw [sortedFields, ih]
    rfl

theorem jsonFields_orderedInsert (entry : String × JsValue) (fields : List (String × JsValue)) :
    jsonFields (fields.orderedInsert (byKey pointsLe) entry) =
      Json.insertField (entry.1, entry.2.json) (jsonFields fields) := by
  induction fields with
  | nil => rfl
  | cons head rest ih =>
    rw [orderedInsert_cons]
    show _ = Json.insertField _ ((head.1, head.2.json) :: jsonFields rest)
    rw [Json.insertField]
    by_cases hle : byKey pointsLe entry head
    · have hkey : entry.1 ≤ head.1 := hle
      rw [if_pos hle, if_pos hkey]
      rfl
    · have hkey : ¬ entry.1 ≤ head.1 := hle
      rw [if_neg hle, if_neg hkey]
      show (head.1, head.2.json) :: jsonFields _ = _
      rw [ih]

mutual

/-- Python sorts what it has read. -/
theorem json_sorted : ∀ value : JsValue, value.sorted.json = value.json.sortKeys
  | .null | .bool _ | .str _ => rfl
  | .num .zero => rfl
  | .num (.decimal d) => by
    show JsNumber.json (.decimal d) = (JsNumber.json (.decimal d)).sortKeys
    unfold JsNumber.json
    dsimp only
    split <;> rfl
  | .arr items => congrArg Json.arr (jsonItems_sorted items)
  | .obj fields => congrArg Json.obj (jsonFields_sorted fields)

theorem jsonItems_sorted : ∀ items : List JsValue,
    jsonItems (sortedItems items) = Json.sortKeysList (jsonItems items)
  | [] => rfl
  | item :: items => by
    show item.sorted.json :: jsonItems (sortedItems items) = _
    rw [json_sorted item, jsonItems_sorted items]
    rfl

theorem jsonFields_sorted : ∀ fields : List (String × JsValue),
    jsonFields (sortedFields fields) = Json.sortFields (jsonFields fields)
  | [] => rfl
  | (key, value) :: fields => by
    rw [sortedFields, jsonFields_orderedInsert, jsonFields_sorted fields, json_sorted value]
    rfl

end

theorem treeFields_json (fields : List (String × JsValue)) :
    Json.treeFields (jsonFields fields) = fields.map fun e => (e.1, e.2.json.tree) := by
  induction fields with
  | nil => rfl
  | cons entry rest ih => exact congrArg ((entry.1, entry.2.json.tree) :: ·) ih

/-- The entries that Python writes. -/
theorem treeFields_sorted (fields : List (String × JsValue)) :
    Json.treeFields (jsonFields (sortedFields fields)) =
      sortEntries pointsLe (fields.map fun e => (e.1, e.2.sorted.json.tree)) := by
  rw [treeFields_json, sortedFields_eq, map_sortEntries (fun v : JsValue => v.json.tree), map_map]
  rfl

/-! ## One text exactly for portable values -/

/-- The numerals of a number agree unless it is small. -/
theorem tree_eq_iff (n : JsNumber) : n.tree = n.json.tree ↔ ¬ n.Small := by
  cases n with
  | zero => exact iff_of_true rfl id
  | decimal d =>
    show d.tree = (JsNumber.json (.decimal d)).tree ↔ ¬ d.Small
    unfold Decimal.tree JsNumber.json
    dsimp only
    by_cases hwhole : d.IsWhole
    · rw [if_pos hwhole, if_pos hwhole]
      have hlength := d.length_pos
      refine iff_of_true rfl ?_
      rintro ⟨-, hsmall⟩
      have hle : d.length ≤ d.point := hwhole.1
      omega
    rw [if_neg hwhole, if_neg hwhole, ← Decimal.toJs_eq_repr_iff hwhole]
    constructor
    · intro h
      exact String.ofList_inj.1 (Tree.float.inj h)
    · intro h
      rw [h]
      rfl

mutual

theorem canonical_eq_iff : ∀ {value : JsValue}, value.Distinct →
    (value.canonical = value.sorted.json.tree ↔ value.Portable)
  | .null, _ | .bool _, _ | .str _, _ => iff_of_true rfl trivial
  | .num n, _ => tree_eq_iff n
  | .arr items, h => by
    show Tree.arr _ = Tree.arr _ ↔ EachItem _ _ items
    rw [Tree.arr.injEq, canonicalItems_eq_iff h]
  | .obj fields, h => by
    have hfields := canonicalFields_eq_iff h.2
    show Tree.obj _ = Tree.obj (Json.treeFields (jsonFields (sortedFields fields))) ↔
      _ ∧ EachField _ _ fields
    have hkeys : ∀ f : JsValue → Tree,
        (fields.map fun e => (e.1, f e.2)).map Prod.fst = fields.map Prod.fst := by
      intro f
      rw [map_map]
      rfl
    have hnodup : ((fields.map fun e => (e.1, e.2.canonical)).map Prod.fst).Nodup := by
      rw [hkeys canonical]
      exact h.1
    have hsort := sortEntries_eq_iff linear_unitsLe linear_pointsLe
      ((hkeys canonical).trans (hkeys fun v => v.sorted.json.tree).symm) hnodup
    rw [Tree.obj.injEq, canonicalFields_eq, treeFields_sorted, hsort, hfields, hkeys canonical,
      and_comm]
    refine and_congr_left fun _ => ?_
    constructor
    · intro hagree a ha b hb
      exact orders_agree_iff.1 (hagree a ha b hb)
    · intro hcrossed a ha b hb
      exact orders_agree_iff.2 (hcrossed a ha b hb)

theorem canonicalItems_eq_iff : ∀ {items : List JsValue},
    EachItem (fun _ => True) List.Nodup items →
    (canonicalItems items = Json.treeItems (jsonItems (sortedItems items)) ↔
      EachItem (fun n => ¬ n.Small) (fun ks => ∀ a ∈ ks, ∀ b ∈ ks, ¬ Crossed a b) items)
  | [], _ => iff_of_true rfl trivial
  | item :: items, h => by
    show item.canonical :: canonicalItems items =
      item.sorted.json.tree :: Json.treeItems (jsonItems (sortedItems items)) ↔
        item.Portable ∧ EachItem _ _ items
    rw [cons.injEq, canonical_eq_iff h.1, canonicalItems_eq_iff h.2]

theorem canonicalFields_eq_iff : ∀ {fields : List (String × JsValue)},
    EachField (fun _ => True) List.Nodup fields →
    ((fields.map fun e => (e.1, e.2.canonical)) =
        (fields.map fun e => (e.1, e.2.sorted.json.tree)) ↔
      EachField (fun n => ¬ n.Small) (fun ks => ∀ a ∈ ks, ∀ b ∈ ks, ¬ Crossed a b) fields)
  | [], _ => iff_of_true rfl trivial
  | (key, value) :: fields, h => by
    rw [map_cons, map_cons, cons.injEq, Prod.mk.injEq, canonical_eq_iff h.1,
      canonicalFields_eq_iff h.2]
    exact and_congr_left fun _ => and_iff_right rfl

end

/-! ## Every form has a text -/

theorem writtenFields_orderedInsert {r : String → String → Prop} [DecidableRel r]
    (entry : String × Tree) (fields : List (String × Tree)) :
    WrittenFields (fields.orderedInsert (byKey r) entry) ↔
      entry.2.Written ∧ WrittenFields fields := by
  induction fields with
  | nil => exact Iff.rfl
  | cons head rest ih =>
    rw [orderedInsert_cons]
    split
    · exact Iff.rfl
    show head.2.Written ∧ _ ↔ _ ∧ head.2.Written ∧ _
    rw [ih]
    exact and_left_comm

mutual

variable {numeral : JsNumber → Tree}

theorem written_treeWith (hn : ∀ n, (numeral n).Written) :
    ∀ value : JsValue, (value.treeWith numeral).Written
  | .null | .bool _ | .str _ => trivial
  | .num n => hn n
  | .arr items => writtenItems_treeItems hn items
  | .obj fields => writtenFields_treeFields hn fields

theorem writtenItems_treeItems (hn : ∀ n, (numeral n).Written) :
    ∀ items : List JsValue, WrittenItems (treeItems numeral items)
  | [] => trivial
  | item :: items => ⟨written_treeWith hn item, writtenItems_treeItems hn items⟩

theorem writtenFields_treeFields (hn : ∀ n, (numeral n).Written) :
    ∀ fields : List (String × JsValue), WrittenFields (treeFields numeral fields)
  | [] => trivial
  | (_, value) :: fields => ⟨written_treeWith hn value, writtenFields_treeFields hn fields⟩

end

mutual

theorem written_canonical : ∀ value : JsValue, value.canonical.Written
  | .null | .bool _ | .str _ => trivial
  | .num n => n.written_tree
  | .arr items => writtenItems_canonical items
  | .obj fields => writtenFields_canonical fields

theorem writtenItems_canonical : ∀ items : List JsValue, WrittenItems (canonicalItems items)
  | [] => trivial
  | item :: items => ⟨written_canonical item, writtenItems_canonical items⟩

theorem writtenFields_canonical : ∀ fields : List (String × JsValue),
    WrittenFields (canonicalFields fields)
  | [] => trivial
  | (_, value) :: fields =>
    (writtenFields_orderedInsert _ _).2 ⟨written_canonical value, writtenFields_canonical fields⟩

end

theorem written_number (n : JsNumber) : n.json.tree.Written := by
  cases n with
  | zero => rfl
  | decimal d =>
    unfold JsNumber.json
    dsimp only
    split
    · rfl
    · rename_i hwhole
      exact Decimal.numeral_repr hwhole

mutual

/-- Python writes a value as the kernel does, but for the numerals. -/
theorem tree_json : ∀ value : JsValue, value.json.tree = value.treeWith fun n => n.json.tree
  | .null | .bool _ | .str _ | .num _ => rfl
  | .arr items => congrArg Tree.arr (treeItems_json items)
  | .obj fields => congrArg Tree.obj (treeFields_jsonFields fields)

theorem treeItems_json : ∀ items : List JsValue,
    Json.treeItems (jsonItems items) = treeItems (fun n => n.json.tree) items
  | [] => rfl
  | item :: items => by
    rw [jsonItems, Json.treeItems, treeItems, tree_json item, treeItems_json items]

theorem treeFields_jsonFields : ∀ fields : List (String × JsValue),
    Json.treeFields (jsonFields fields) = treeFields (fun n => n.json.tree) fields
  | [] => rfl
  | (key, value) :: fields => by
    rw [jsonFields, Json.treeFields, treeFields, tree_json value, treeFields_jsonFields fields]

end

theorem written_tree (value : JsValue) : value.tree.Written :=
  written_treeWith JsNumber.written_tree value

theorem written_json (value : JsValue) : value.json.tree.Written := by
  rw [tree_json]
  exact written_treeWith written_number value

/-- The two canonical texts of a value. -/
theorem canonicalJson_eq_iff (h : value.Distinct) :
    value.canonicalJson = value.json.canonicalJson ↔ value.Portable := by
  unfold canonicalJson Json.canonicalJson
  rw [← json_sorted, text_inj (written_canonical value) (written_json _), canonical_eq_iff h]

/-! ## What is read -/

theorem set_of_fresh {d : Dict} {key : String} (value : Json) (h : key ∉ d.map Prod.fst) :
    d.set key value = d ++ [(key, value)] := by
  induction d with
  | nil => rfl
  | cons entry rest ih =>
    rw [map_cons, mem_cons, not_or] at h
    rw [Dict.set, if_neg (Ne.symm h.1), ih h.2]
    rfl

/-- Entries with fresh keys are appended one by one. -/
theorem foldl_fresh {α : Type} {put : List (String × α) → String × α → List (String × α)}
    (hput : ∀ fields entry, entry.1 ∉ fields.map Prod.fst → put fields entry = fields ++ [entry])
    (fields entries : List (String × α)) (h : ((fields ++ entries).map Prod.fst).Nodup) :
    entries.foldl put fields = fields ++ entries := by
  induction entries generalizing fields with
  | nil => exact (append_nil fields).symm
  | cons entry entries ih =>
    have hfresh : entry.1 ∉ fields.map Prod.fst := by
      rw [map_append, nodup_append] at h
      intro hmem
      exact h.2.2 _ hmem _ (mem_cons_self ..) rfl
    have hsplit : fields ++ entry :: entries = fields ++ [entry] ++ entries := by
      rw [append_assoc]
      rfl
    rw [foldl_cons, hput fields entry hfresh, hsplit]
    exact ih _ (hsplit ▸ h)

/-- Distinct keys keep their entries. -/
theorem ofEntries_eq {entries : List (String × Json)} (h : (entries.map Prod.fst).Nodup) :
    ofEntries entries = entries := foldl_fresh (fun _ _ hfresh => set_of_fresh _ hfresh) [] entries h

theorem foldl_assign (fields entries : List (String × JsValue))
    (h : ((fields ++ entries).map Prod.fst).Nodup) :
    entries.foldl assign fields = fields ++ entries :=
  foldl_fresh (fun _ _ hfresh => if_neg hfresh) fields entries h

theorem keys_jsonFields (fields : List (String × JsValue)) :
    (jsonFields fields).map Prod.fst = fields.map Prod.fst := by
  induction fields with
  | nil => rfl
  | cons entry rest ih => exact congrArg (entry.1 :: ·) ih

variable {floats : Floats} {number : String → Option JsNumber}

theorem loads_number (h : NumberReadsBack floats number n) :
    loads floats n.tree = some n.json ∧ loads floats n.json.tree = some n.json := by
  cases n with
  | zero => exact ⟨rfl, rfl⟩
  | decimal d =>
    obtain ⟨hjs, hrepr, -, -⟩ := h
    show loads floats d.tree = some (JsNumber.json (.decimal d)) ∧
      loads floats (JsNumber.json (.decimal d)).tree = some (JsNumber.json (.decimal d))
    unfold Decimal.tree JsNumber.json
    dsimp only
    by_cases hwhole : d.IsWhole
    · have hdigits := Decimal.length_value hwhole
      rw [if_pos hwhole, if_pos hwhole]
      have hread : loads floats (.int d.value (Nat.toDigits 10 d.value.natAbs).length) =
          some (.int d.value) := by
        rw [loads, if_pos (by omega)]
      exact ⟨hread, hread⟩
    · rw [if_neg hwhole, if_neg hwhole, Json.tree, loads, loads, hjs, hrepr]
      exact ⟨rfl, rfl⟩

mutual

variable {numeral : JsNumber → Tree}

/-- Python reads a value from its entries, when it reads the numerals. -/
theorem loads_treeWith : ∀ {value : JsValue},
    value.Each (fun n => loads floats (numeral n) = some n.json) (fun _ => True) →
    value.Distinct → loads floats (value.treeWith numeral) = some value.json
  | .null, _, _ | .bool _, _, _ | .str _, _, _ => rfl
  | .num _, h, _ => h
  | .arr items, h, hd => by
    show (loadsList floats (treeItems numeral items)).map Json.arr = _
    rw [loadsList_treeItems h hd]
    rfl
  | .obj fields, h, hd => by
    have hkeys : ((jsonFields fields).map Prod.fst).Nodup := by
      rw [keys_jsonFields]
      exact hd.1
    show (loadsFields floats (treeFields numeral fields)).map _ = _
    rw [loadsFields_treeFields h.2 hd.2, Option.map_some, ofEntries_eq hkeys]
    rfl

theorem loadsList_treeItems : ∀ {items : List JsValue},
    EachItem (fun n => loads floats (numeral n) = some n.json) (fun _ => True) items →
    EachItem (fun _ => True) List.Nodup items →
    loadsList floats (treeItems numeral items) = some (jsonItems items)
  | [], _, _ => rfl
  | item :: items, h, hd => by
    rw [treeItems, loadsList, loads_treeWith h.1 hd.1, loadsList_treeItems h.2 hd.2]
    rfl

theorem loadsFields_treeFields : ∀ {fields : List (String × JsValue)},
    EachField (fun n => loads floats (numeral n) = some n.json) (fun _ => True) fields →
    EachField (fun _ => True) List.Nodup fields →
    loadsFields floats (treeFields numeral fields) = some (jsonFields fields)
  | [], _, _ => rfl
  | (key, value) :: fields, h, hd => by
    rw [treeFields, loadsFields, loads_treeWith h.1 hd.1, loadsFields_treeFields h.2 hd.2]
    rfl

end

/-- Python reads what the kernel sent. -/
theorem loads_tree (h : value.ReadsBack floats number) (hd : value.Distinct) :
    loads floats value.tree = some value.json :=
  loads_treeWith (Each.imp (fun _ hn => (loads_number hn).1) h) hd

theorem parse_number (h : NumberReadsBack floats number n) :
    parse number n.json.tree = some (.num n) := by
  cases n with
  | zero =>
    have hzero : number "0" = some .zero := h
    show (number "0").map JsValue.num = _
    rw [hzero]
    rfl
  | decimal d =>
    obtain ⟨-, -, hjs, hrepr⟩ := h
    unfold JsNumber.json
    dsimp only
    by_cases hwhole : d.IsWhole
    · have htext : writeInt d.value = d.toJs := by
        rw [d.writeInt_value, Decimal.toJs, Decimal.unsigned, if_pos hwhole]
      rw [if_pos hwhole, Json.tree, parse, htext, hjs]
      rfl
    · rw [if_neg hwhole, Json.tree, parse, hrepr]
      rfl

mutual

/-- The kernel reads what the host wrote. -/
theorem parse_json : ∀ {value : JsValue}, value.ReadsBack floats number → value.Distinct →
    parse number value.json.tree = some value
  | .null, _, _ | .bool _, _, _ | .str _, _, _ => rfl
  | .num _, h, _ => parse_number h
  | .arr items, h, hd => by
    show (parseItems number (Json.treeItems (jsonItems items))).map JsValue.arr = _
    rw [parseItems_json h hd]
    rfl
  | .obj fields, h, hd => by
    show (parseFields number (Json.treeFields (jsonFields fields))).map _ = _
    rw [parseFields_json h.2 hd.2, Option.map_some, foldl_assign [] fields hd.1]
    rfl

theorem parseItems_json : ∀ {items : List JsValue},
    EachItem (NumberReadsBack floats number) (fun _ => True) items →
    EachItem (fun _ => True) List.Nodup items →
    parseItems number (Json.treeItems (jsonItems items)) = some items
  | [], _, _ => rfl
  | item :: items, h, hd => by
    rw [jsonItems, Json.treeItems, parseItems, parse_json h.1 hd.1, parseItems_json h.2 hd.2]
    rfl

theorem parseFields_json : ∀ {fields : List (String × JsValue)},
    EachField (NumberReadsBack floats number) (fun _ => True) fields →
    EachField (fun _ => True) List.Nodup fields →
    parseFields number (Json.treeFields (jsonFields fields)) = some fields
  | [], _, _ => rfl
  | (key, value) :: fields, h, hd => by
    rw [jsonFields, Json.treeFields, parseFields, parse_json h.1 hd.1, parseFields_json h.2 hd.2]
    rfl

end

/-! ## Sorted keys have the same canonical form -/

mutual

theorem canonical_sorted : ∀ {value : JsValue}, value.Distinct →
    value.sorted.canonical = value.canonical
  | .null, _ | .bool _, _ | .str _, _ | .num _, _ => rfl
  | .arr _, h => congrArg Tree.arr (canonicalItems_sorted h)
  | .obj fields, h => by
    show Tree.obj (canonicalFields (sortedFields fields)) = Tree.obj (canonicalFields fields)
    have hmap := map_canonical_sorted h.2
    have hnodup : ((fields.map fun e => (e.1, e.2.canonical)).map Prod.fst).Nodup := by
      rw [map_map]
      exact h.1
    rw [canonicalFields_eq, canonicalFields_eq, sortedFields_eq,
      map_sortEntries (fun v : JsValue => v.canonical), map_map]
    show Tree.obj (sortEntries unitsLe (sortEntries pointsLe
      (fields.map fun e => (e.1, e.2.sorted.canonical)))) = _
    rw [hmap]
    exact congrArg Tree.obj (sortEntries_of_perm linear_unitsLe hnodup
      (perm_sortEntries pointsLe _).symm).symm

theorem canonicalItems_sorted : ∀ {items : List JsValue},
    EachItem (fun _ => True) List.Nodup items →
    canonicalItems (sortedItems items) = canonicalItems items
  | [], _ => rfl
  | item :: items, h => by
    rw [sortedItems, canonicalItems, canonicalItems, canonical_sorted h.1,
      canonicalItems_sorted h.2]

theorem map_canonical_sorted : ∀ {fields : List (String × JsValue)},
    EachField (fun _ => True) List.Nodup fields →
    (fields.map fun e => (e.1, e.2.sorted.canonical)) = fields.map fun e => (e.1, e.2.canonical)
  | [], _ => rfl
  | (key, value) :: fields, h => by
    rw [map_cons, map_cons, canonical_sorted h.1, map_canonical_sorted h.2]

end

end JsValue

end EchoDesk
