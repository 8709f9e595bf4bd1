import EchoDesk.Runtime.CanonicalForms
import EchoDesk.Runtime.CheckpointFormat

/-! # The checksum of a checkpoint

`agent-kernel/core/checkpoint.ts` and `serialize_checkpoint`: the kernel puts the checksum of its
canonical text into a checkpoint, the host takes the checksum of its own canonical text of what
was transmitted, and the kernel checks the checkpoint again when a session is resumed.
-/

namespace SessionCheckpoints

open EchoDesk JsonSyntax JsValue List JsValue

/-! ## The kernel -/

/-- A JSON value whose objects have no key twice. -/
structure JsonValue where
  value : JsValue
  distinct : value.Distinct

def one : JsNumber := .decimal ⟨false, 1, 1, by decide, by decide⟩

/-- A checkpoint of the kernel before its checksum is added. -/
structure CheckpointBody where
  checkpointId : String
  taskId : String
  operationKey : String
  modelConfigRevision : JsNumber
  grantRevision : JsNumber
  grantSnapshot : JsonValue
  lastDurableEventSeq : JsNumber
  messages : List JsonValue
  compactState : JsonValue
  budgetState : JsonValue
  createdAt : String

def CheckpointBody.fields (body : CheckpointBody) : List (String × JsValue) :=
  [("schemaVersion", .num one), ("checkpointId", .str body.checkpointId),
    ("taskId", .str body.taskId), ("operationKey", .str body.operationKey),
    ("modelConfigRevision", .num body.modelConfigRevision),
    ("grantRevision", .num body.grantRevision), ("grantSnapshot", body.grantSnapshot.value),
    ("lastDurableEventSeq", .num body.lastDurableEventSeq),
    ("messages", .arr (body.messages.map JsonValue.value)),
    ("compactState", body.compactState.value), ("budgetState", body.budgetState.value),
    ("createdAt", .str body.createdAt)]

def CheckpointBody.value (body : CheckpointBody) : JsValue := .obj body.fields

variable (sha256 : String → String)

def checkpointChecksum (body : JsValue) : String := "sha256:" ++ sha256 body.canonicalJson

/-- `checkpoint`: what is sent to `save_checkpoint`. -/
def CheckpointBody.checkpoint (body : CheckpointBody) : JsValue :=
  .obj (body.fields ++ [("checksum", .str (checkpointChecksum sha256 body.value))])

def field? (key : String) : JsValue → Option JsValue
  | .obj fields => fields.lookup key
  | _ => none

/-- The fields that `verifyCheckpointChecksum` reads. -/
def bodyKeys : List String :=
  ["schemaVersion", "checkpointId", "taskId", "operationKey", "modelConfigRevision",
    "grantRevision", "grantSnapshot", "lastDurableEventSeq", "messages", "compactState",
    "budgetState", "createdAt"]

/-- A checkpoint has all of the fields. -/
def verifyCheckpointChecksum (checkpoint : JsValue) : Bool :=
  match bodyKeys.mapM fun key => (field? key checkpoint).map fun value => (key, value) with
  | none => false
  | some body =>
    match field? "checksum" checkpoint with
    | some (.str supplied) => supplied = checkpointChecksum sha256 (.obj body)
    | _ => false

/-! ## The host -/

variable (lib : Library)

/-- The library that takes the digest of the text which `_canonical_json` writes; a canonical text
is kept as the value it stands for. -/
def hostLibrary : Library :=
  { lib with
    sha256 := fun text =>
      sha256 (((JsonText.loads text).map fun value => Json.canonicalJson (.obj value)).getD "") }

theorem canonicalJson_dump (value : Dict) :
    Json.canonicalJson (.obj value.dump) = Json.canonicalJson (.obj value) := by
  have htwice : Json.sortKeys (.obj value.dump) = Json.sortKeys (.obj value) :=
    congrArg Json.obj value.dump_dump
  unfold Json.canonicalJson
  rw [htwice]

theorem digest_hostLibrary (value : Dict) :
    digest (hostLibrary sha256 lib) value = sha256 (Json.canonicalJson (.obj value)) := by
  show sha256 (((JsonText.loads (JsonText.dumps value.dump)).map _).getD "") = _
  rw [JsonText.loads_dumps, Option.map_some, Option.getD_some, canonicalJson_dump]

/-- `JSON.parse` of a text. -/
def jsonParse (number : String → Option JsNumber) (text : String) : Option JsValue :=
  (readTree text).bind (JsValue.parse number)

/-! ## The agreement -/

variable (floats : Floats) (number : String → Option JsNumber)

/-- The host computes the kernel's checksum from the text that is sent, so it saves a checkpoint
whose fields pass its checks; and what it gives back for a resume passes the kernel's check. -/
def ChecksumsAgree (body : CheckpointBody) : Prop :=
  ∀ sha256 : String → String, ∃ received : Dict,
    jsonLoads floats (body.checkpoint sha256).stringify = some (.obj received) ∧
    checksum (hostLibrary sha256 lib) (received.pop "checksum") =
      checkpointChecksum sha256 body.value ∧
    ∀ payload, jsonObject (.obj received) "checkpoint" = .ok payload →
      checkCheckpoint (hostLibrary sha256 lib) payload = .ok () →
      ∃ sum resumed back,
        serializeCheckpoint (hostLibrary sha256 lib) (.obj received) = .ok (payload, sum) ∧
        deserializeCheckpoint (hostLibrary sha256 lib) payload.dump sum = .ok resumed ∧
        jsonParse number (Json.canonicalJson (.obj resumed)) = some back ∧
        verifyCheckpointChecksum sha256 back = true

/-! ## The transmitted checkpoint -/

namespace CheckpointBody

variable (body : CheckpointBody)

theorem distinct_messages (items : List JsonValue) :
    EachItem (fun _ => True) List.Nodup (items.map JsonValue.value) := by
  induction items with
  | nil => trivial
  | cons item items ih => exact ⟨item.distinct, ih⟩

theorem distinct_value : body.value.Distinct := by
  refine ⟨?_, trivial, trivial, trivial, trivial, trivial, trivial, body.grantSnapshot.distinct,
    trivial, distinct_messages body.messages, body.compactState.distinct,
    body.budgetState.distinct, trivial, trivial⟩
  show bodyKeys.Nodup
  decide

theorem distinct_checkpoint : (body.checkpoint sha256).Distinct := by
  obtain ⟨-, hfields⟩ := body.distinct_value
  constructor
  · show (bodyKeys ++ ["checksum"]).Nodup
    decide
  · exact (eachField_append _ _).2 ⟨hfields, trivial, trivial⟩

variable {floats number} in
theorem readsBack_checkpoint {body : CheckpointBody} (h : body.value.ReadsBack floats number) :
    (body.checkpoint sha256).ReadsBack floats number :=
  ⟨trivial, (eachField_append _ _).2 ⟨h.2, trivial, trivial⟩⟩

/-- What Python reads. -/
def received : Dict := jsonFields (body.fields ++ [("checksum",
  .str (checkpointChecksum sha256 body.value))])

theorem pop_received : Dict.pop (body.received sha256) "checksum" = jsonFields body.fields := by
  simp [received, fields, jsonFields, Dict.pop, json]

theorem read_received : Dict.read (body.received sha256) "checksum" =
    .str (checkpointChecksum sha256 body.value) := by
  simp [received, fields, jsonFields, Dict.read, Dict.get?, lookup_cons, json]

variable {floats number} in
theorem loads_checkpoint {body : CheckpointBody} (h : body.value.ReadsBack floats number) :
    jsonLoads floats (body.checkpoint sha256).stringify = some (.obj (body.received sha256)) := by
  have hread := readTree_text (written_tree (body.checkpoint sha256))
  have hloads := loads_tree (readsBack_checkpoint sha256 h) (body.distinct_checkpoint sha256)
  unfold jsonLoads stringify
  rw [hread]
  exact hloads

end CheckpointBody

variable {floats number} {body : CheckpointBody}

/-- The host's checksum of what it received. -/
theorem checksum_received : checksum (hostLibrary sha256 lib) ((body.received sha256).pop "checksum")
    = "sha256:" ++ sha256 body.value.json.canonicalJson := by
  rw [checksum, digest_hostLibrary, body.pop_received]
  rfl

/-- Equal checksums, whatever the digest is, come from equal texts. -/
theorem canonicalJson_eq_of_agree (hreads : body.value.ReadsBack floats number)
    (h : ChecksumsAgree lib floats number body) :
    body.value.canonicalJson = body.value.json.canonicalJson := by
  obtain ⟨received, hreceived, hsum, -⟩ := h id
  have hloads := CheckpointBody.loads_checkpoint id hreads
  rw [hloads] at hreceived
  obtain rfl := Json.obj.inj (Option.some.inj hreceived)
  rw [checksum_received id lib] at hsum
  exact (String.append_right_inj _).1 hsum.symm

/-! ## Saving and resuming -/

theorem set_of_read {d : Dict} {key text : String} (h : d.read key = .str text) :
    d.set key (.str text) = d := by
  induction d with
  | nil => cases h
  | cons entry rest ih =>
    have hread : Dict.read (entry :: rest) key =
        if key = entry.1 then entry.2 else Dict.read rest key := by
      unfold Dict.read Dict.get?
      rw [Dict.lookup_cons_ite]
      split <;> rfl
    rw [hread] at h
    rw [Dict.set]
    split
    · rename_i heq
      rw [if_pos heq.symm] at h
      rw [← h, ← heq]
    · rename_i hne
      rw [if_neg (Ne.symm hne)] at h
      rw [ih h]

theorem jsonObject_congr {d d' : Dict} (h : d.dump = d'.dump) (label : String) :
    jsonObject (.obj d) label = jsonObject (.obj d') label := by
  show (rejectForbidden (.obj d.dump) >>= fun _ => Except.ok d.dump) = _
  rw [h]
  rfl

/-- A checkpoint with the right checksum passes as it is. -/
theorem serializeCheckpoint_of_checksum {received payload : Dict}
    (hobject : jsonObject (.obj received) "checkpoint" = .ok payload)
    (hchecks : checkCheckpoint lib payload = .ok ())
    (hsupplied : received.read "checksum" = .str (checksum lib (received.pop "checksum"))) :
    serializeCheckpoint lib (.obj received) = .ok (payload, checksum lib payload) := by
  obtain ⟨fields, hfields, rfl⟩ := jsonObject_eq_ok hobject
  cases hfields
  have hread : received.dump.read "checksum" = .str (checksum lib (received.pop "checksum")) := by
    rw [Dict.read_dump, hsupplied]
    rfl
  have hpop : checksum lib (received.dump.pop "checksum") =
      checksum lib (received.pop "checksum") := by
    have hfilter : received.dump.pop "checksum" = (received.pop "checksum").dump :=
      Dict.dump_filter (fun key => key ≠ "checksum") received
    unfold checksum digest
    rw [hfilter, Dict.dump_dump]
  unfold serializeCheckpoint
  rw [hobject]
  show (checkCheckpoint lib received.dump >>= fun _ => _) = _
  rw [hchecks]
  unfold suppliedChecksum
  rw [hread]
  show (require _ _ _ >>= fun _ => _) = _
  rw [hpop, show require _ _ _ = Except.ok () from require_eq_ok.2 ?_]
  · show Except.ok (received.dump.set "checksum" _, _) = _
    rw [Option.getD_some, set_of_read hread]
  · intro text htext
    exact .inl (Option.some.inj htext).symm

theorem deserializeCheckpoint_of_checksum {received payload : Dict}
    (hobject : jsonObject (.obj received) "checkpoint" = .ok payload)
    (hserialize : serializeCheckpoint lib (.obj received) = .ok (payload, checksum lib payload)) :
    deserializeCheckpoint lib payload.dump (checksum lib payload) = .ok payload := by
  obtain ⟨fields, hfields, rfl⟩ := jsonObject_eq_ok hobject
  cases hfields
  have hsame : serializeCheckpoint lib (.obj received.dump.dump) =
      serializeCheckpoint lib (.obj received) := by
    have hobject' : jsonObject (.obj received.dump.dump) "checkpoint" =
        jsonObject (.obj received) "checkpoint" :=
      jsonObject_congr (by rw [Dict.dump_dump, Dict.dump_dump]) _
    unfold serializeCheckpoint
    rw [hobject']
  unfold deserializeCheckpoint
  rw [hsame, hserialize]
  show (require _ _ _ >>= fun _ => _) = _
  rw [show require _ _ _ = Except.ok () from require_eq_ok.2 rfl]
  rfl

/-! ## The kernel's check -/

theorem lookup_orderedInsert (entry : String × JsValue) (fields : List (String × JsValue))
    (key : String) :
    (fields.orderedInsert (SortedEntries.byKey KeyOrder.pointsLe) entry).lookup key =
      List.lookup key (entry :: fields) := by
  induction fields with
  | nil => rfl
  | cons head rest ih =>
    rw [orderedInsert_cons]
    split
    · rfl
    rename_i hgt
    have hne : head.1 ≠ entry.1 := by
      intro heq
      refine hgt ?_
      exact Std.le_of_eq heq.symm
    rw [lookup_cons, ih, lookup_cons, lookup_cons, lookup_cons]
    -- at most one of the two keys is the one looked up
    by_cases hentry : key = entry.1
    · have hhead : (key == head.1) = false := by
        rw [hentry]
        exact beq_false_of_ne (Ne.symm hne)
      rw [hhead]
    · have hother : (key == entry.1) = false := beq_false_of_ne hentry
      rw [hother]

/-- Sorting keeps what is under a key. -/
theorem field?_sorted (key : String) (value : JsValue) :
    field? key value.sorted = (field? key value).map sorted := by
  cases value with
  | obj fields =>
    show (sortedFields fields).lookup key = (fields.lookup key).map sorted
    induction fields with
    | nil => rfl
    | cons entry rest ih =>
      rw [sortedFields, lookup_orderedInsert, lookup_cons, lookup_cons, ih]
      cases key == entry.1 <;> rfl
  | _ => rfl

theorem body_fields_sorted (body : CheckpointBody) : (bodyKeys.mapM fun key =>
      (field? key (body.checkpoint sha256).sorted).map fun value => (key, value)) =
      some (body.fields.map fun e => (e.1, e.2.sorted)) := by
  simp only [field?_sorted]
  simp [bodyKeys, field?, CheckpointBody.checkpoint, CheckpointBody.fields, lookup_cons]

/-- The sorted checkpoint passes the kernel's check. -/
theorem verify_sorted (body : CheckpointBody) :
    verifyCheckpointChecksum sha256 (body.checkpoint sha256).sorted = true := by
  have hchecksum : field? "checksum" (body.checkpoint sha256).sorted =
      some (.str (checkpointChecksum sha256 body.value)) := by
    rw [field?_sorted]
    simp [field?, CheckpointBody.checkpoint, CheckpointBody.fields, lookup_cons, sorted]
  have hcanonical : canonicalJson (.obj (body.fields.map fun e => (e.1, e.2.sorted))) =
      body.value.canonicalJson := by
    have hmap := map_canonical_sorted body.distinct_value.2
    unfold canonicalJson CheckpointBody.value canonical
    rw [canonicalFields_eq, canonicalFields_eq, map_map, ← hmap]
    rfl
  unfold verifyCheckpointChecksum
  rw [body_fields_sorted, hchecksum]
  rw [decide_eq_true_eq, checkpointChecksum, checkpointChecksum, hcanonical]

/-- The kernel reads the sorted checkpoint from the host's text. -/
theorem parse_dump (hreads : body.value.ReadsBack floats number) :
    jsonParse number (Json.canonicalJson (.obj (body.received sha256).dump)) =
      some (body.checkpoint sha256).sorted := by
  have hdistinct := (body.distinct_checkpoint sha256).sorted
  have hreads' := (CheckpointBody.readsBack_checkpoint sha256 hreads).sorted
  have htext : Json.canonicalJson (.obj (body.received sha256).dump) =
      (body.checkpoint sha256).sorted.json.tree.text := by
    have hjson : (body.checkpoint sha256).json = .obj (body.received sha256) := rfl
    rw [canonicalJson_dump, json_sorted, hjson, Json.canonicalJson]
  unfold jsonParse
  rw [htext, readTree_text (written_json _), Option.bind_some]
  exact parse_json hreads' hdistinct

/-- `0.5`. -/
def half : JsNumber := .decimal ⟨false, 5, 0, by decide, by decide⟩

/-- `0.00001`, which Python writes as `1e-05`. -/
def tiny : JsNumber := .decimal ⟨false, 1, -4, by decide, by decide⟩

/-- The doubles of a few numerals, as Python writes them. -/
def someFloats : Floats where
  nearest literal :=
    if literal = "1" then "1.0" else if literal = "0.00001" then "1e-05" else literal
  number := .float

def someNumbers (literal : String) : Option JsNumber :=
  if literal = "0" then some .zero
  else if literal = "1" ∨ literal = "1.0" then some one
  else if literal = "0.5" then some half
  else if literal = "0.00001" ∨ literal = "1e-05" then some tiny
  else none

/-- A checkpoint after a call of a tool with one number. -/
def oneCall (x : JsNumber) : CheckpointBody where
  checkpointId := "checkpoint-1"
  taskId := "task-1"
  operationKey := "op-1"
  modelConfigRevision := one
  grantRevision := one
  grantSnapshot :=
    { value := .obj [("schemaVersion", .num one), ("grantId", .str "grant-1"),
        ("taskId", .str "task-1"), ("operationKey", .str "op-1"), ("revision", .num one)]
      distinct := ⟨by decide, trivial, trivial, trivial, trivial, trivial, trivial⟩ }
  lastDurableEventSeq := .zero
  messages :=
    [{ value := .obj [("messageId", .str "message-1"), ("role", .str "assistant"),
          ("content", .arr [.obj [("type", .str "tool_use"), ("toolUseId", .str "tool-1"),
            ("name", .str "set_threshold"), ("input", .obj [("x", .num x)])]])]
       distinct := by
        simp [JsValue.Distinct, JsValue.Each, JsValue.EachField, JsValue.EachItem] }]
  compactState :=
    { value := .obj [("schemaVersion", .num one), ("strategy", .str "none"),
        ("summaryHash", .null), ("clearedToolUseIds", .arr []),
        ("messageCountAtBoundary", .num one)]
      distinct := ⟨by decide, trivial, trivial, trivial, trivial, trivial, trivial⟩ }
  budgetState :=
    { value := .obj [("turnsUsed", .num one), ("toolCallsUsed", .num one),
        ("modelInputTokens", .num .zero), ("modelOutputTokens", .num .zero)]
      distinct := ⟨by decide, trivial, trivial, trivial, trivial, trivial⟩ }
  createdAt := "2026-01-01T00:00:00Z"

theorem oneCall_readsBack {x : JsNumber} (hx : NumberReadsBack someFloats someNumbers x) :
    (oneCall x).value.ReadsBack someFloats someNumbers := by
  have hone : NumberReadsBack someFloats someNumbers one := by decide
  have hzero : NumberReadsBack someFloats someNumbers .zero := by decide
  simp [ReadsBack, CheckpointBody.value, CheckpointBody.fields, oneCall, Each,
    EachField, EachItem, hone, hzero, hx]

/-- The digest is the text, and any moment is read. -/
def plainLibrary : Library where
  sha256 text := text
  same a b := a = b
  fromIso _ := some (some 0)

end SessionCheckpoints
