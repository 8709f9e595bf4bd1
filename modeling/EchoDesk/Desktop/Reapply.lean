import EchoDesk.Desktop.Steps

/-! # Changes that are applied again

A batch is undone by the exception of one of its changes, and the runtime then keeps its
cursor. A change that was applied, or was known to be a duplicate, is remembered under its
operation id and writes nothing from then on. A conflict is set aside without a record, so that
a snapshot can still apply it; applied again, it is looked at again.
-/

namespace Desktop

open EchoDesk Transaction Hub LastWrite List Option

variable {py : Python} {deviceId : String}
variable {snapshot : Bool} {change : Dict} {changes : List Dict}

/-! ## The cursor -/

/-- A sync store and the cursor of its runtime. -/
structure Followed where
  db : ClientDb
  cursor : Option String

/-- The changes of `_sync_cycle_locked` and `_apply_event`: they are applied, and then the
cursor that came with them is taken over. -/
def receiveChanges (py : Python) (deviceId : String) (snapshot : Bool) (changes : List Dict)
    (nextCursor : Option String) (s : Followed) : Except PyError (List ApplyResult) × Followed :=
  match applyChanges py deviceId snapshot changes s.db with
  | (.ok results, db) => (.ok results, ⟨db, nextCursor.or s.cursor⟩)
  | (.error e, db) => (.error e, ⟨db, s.cursor⟩)

theorem receiveChanges_error {nextCursor : Option String} {s : Followed} {e : PyError}
    (h : (receiveChanges py deviceId snapshot changes nextCursor s).1 = .error e) :
    (receiveChanges py deviceId snapshot changes nextCursor s).2 = s := by
  unfold receiveChanges at h ⊢
  cases hresult : applyChanges py deviceId snapshot changes s.db with
  | mk result db =>
    rw [hresult] at h
    cases result with
    | ok results => cases h
    | error e' =>
      have hkept : (applyChanges py deviceId snapshot changes s.db).2 = s.db :=
        atomically_error (congrArg Prod.fst hresult)
      rw [hresult] at hkept
      obtain rfl : db = s.db := hkept
      rfl

/-! ## What is remembered -/

/-- The change brings its operation id. -/
def Named (change : Dict) : Prop := (change.read "operation_id").truthy = true

/-- The stores agree on everything but the UUIDs that were drawn. -/
def SameStore (db db' : ClientDb) : Prop := { db' with drawn := db.drawn } = db

theorem SameStore.refl (db : ClientDb) : SameStore db db := rfl

variable {db db' : ClientDb} {index : Nat}

theorem SameStore.trans {db'' : ClientDb} (h : SameStore db db') (h' : SameStore db' db'') :
    SameStore db db'' := by
  unfold SameStore at *
  rw [← h, ← h']

theorem SameStore.appliedOperations (h : SameStore db db') :
    db'.appliedOperations = db.appliedOperations := by
  have happlied := congrArg ClientDb.appliedOperations h
  exact happlied

theorem sameStore_drawn (db : ClientDb) (n : Nat) : SameStore db { db with drawn := n } := rfl

/-- In this store and in those after it, the change counts as a duplicate and writes nothing. -/
def Inert (py : Python) (deviceId : String) (change : Dict) (db : ClientDb) : Prop :=
  ∀ snapshot index db', db.appliedOperations ⊆ db'.appliedOperations →
    Returns (applyChange py deviceId snapshot index change) db' .duplicate
      { db' with drawn := db'.drawn + 1 }

/-- `_apply_change_tx` sets the change aside before it looks at the store. -/
def Malformed (py : Python) (change : Dict) : Prop :=
  ∀ fallback, decodeHeader py change fallback = .ok none

theorem decodeHeader_named (h : Named change) (fallback fallback' : String) :
    decodeHeader py change fallback = decodeHeader py change fallback' := by
  have hread : ∀ default, change.readOr "operation_id" default = change.read "operation_id" :=
    fun _ => if_pos h
  unfold decodeHeader
  rw [hread, hread]

theorem inert_of_mem (hnamed : Named change) {fallback : String} {header : ChangeHeader}
    (hdecode : decodeHeader py change fallback = .ok (some header))
    (hmem : header.operationId ∈ db.appliedOperations) : Inert py deviceId change db := by
  intro snapshot index db' hsub
  have hdecode' : decodeHeader py change (standIn py index db'.drawn) = .ok (some header) := by
    rw [decodeHeader_named hnamed _ fallback, hdecode]
  simp only [applyChange, drawUuid, returns_bind, returns_get, returns_set, returns_pure,
    returns_fromExcept]
  refine ⟨db', db', ⟨rfl, rfl⟩, py.uuid4 db'.drawn, { db' with drawn := db'.drawn + 1 },
    ⟨db', db', ⟨rfl, rfl⟩, (), _, rfl, rfl, rfl⟩, some header, _, ⟨hdecode', rfl⟩, ?_⟩
  simp only [returns_get_bind]
  rw [if_pos (hsub hmem)]
  exact returns_pure.2 ⟨rfl, rfl⟩

theorem malformed_returns (h : Malformed py change) (snapshot : Bool) (index : Nat)
    (db : ClientDb) : Returns (applyChange py deviceId snapshot index change) db .conflict
      { db with drawn := db.drawn + 1 } := by
  simp only [applyChange, drawUuid, returns_bind, returns_get, returns_set, returns_pure,
    returns_fromExcept]
  refine ⟨db, db, ⟨rfl, rfl⟩, py.uuid4 db.drawn, { db with drawn := db.drawn + 1 },
    ⟨db, db, ⟨rfl, rfl⟩, (), _, rfl, rfl, rfl⟩, none, _, ⟨h _, rfl⟩, ?_⟩
  exact returns_pure.2 ⟨rfl, rfl⟩

@[simp] theorem removeLocalTranscriptAliases_appliedOperations (aliases : List EntityRow)
    (db : ClientDb) :
    (removeLocalTranscriptAliases aliases db).appliedOperations = db.appliedOperations := by
  induction aliases generalizing db with
  | nil => rfl
  | cons found rest ih => exact ih _

theorem mem_rememberOperation (operationId : String) (db : ClientDb) :
    operationId ∈ (rememberOperation operationId db).appliedOperations := by
  unfold rememberOperation
  split
  · assumption
  · exact mem_append_right _ (mem_singleton_self _)

theorem subset_rememberOperation (operationId : String) (db : ClientDb) :
    db.appliedOperations ⊆ (rememberOperation operationId db).appliedOperations := by
  unfold rememberOperation
  split
  · exact List.Subset.refl _
  · exact subset_append_left _ _

variable {result : ApplyResult}

/-- Operations are remembered for good. -/
theorem Applied.subset {change : Change} (h : Applied py deviceId snapshot change db result db') :
    db.appliedOperations ⊆ db'.appliedOperations := by
  cases h with
  | stale aliases =>
    refine List.Subset.trans ?_ (subset_rememberOperation _ _)
    rw [removeLocalTranscriptAliases_appliedOperations]
    exact List.Subset.refl _
  | same => exact subset_rememberOperation _ _
  | conflict => exact List.Subset.refl _
  | write current aliases repo =>
    refine List.Subset.trans ?_ (subset_rememberOperation _ _)
    rw [removeLocalTranscriptAliases_appliedOperations]
    exact List.Subset.refl _

/-- What is not set aside as a conflict is remembered. -/
theorem Applied.remembered {change : Change} (h : Applied py deviceId snapshot change db result db')
    (hresult : result ≠ .conflict) : change.operationId ∈ db'.appliedOperations := by
  cases h with
  | stale aliases | same => exact mem_rememberOperation _ _
  | conflict => exact absurd rfl hresult
  | write current aliases repo => exact mem_rememberOperation _ _

theorem ChangeApplied.subset (h : ChangeApplied py deviceId snapshot index change db result db') :
    db.appliedOperations ⊆ db'.appliedOperations := by
  cases h with
  | malformed | known => exact List.Subset.refl _
  | new _ _ _ _ _ _ _ happlied => exact happlied.subset

theorem ChangeApplied.inert (h : ChangeApplied py deviceId snapshot index change db result db')
    (hnamed : Named change) (hresult : result ≠ .conflict) : Inert py deviceId change db' := by
  cases h with
  | malformed => exact absurd rfl hresult
  | known header hdecode hknown => exact inert_of_mem hnamed hdecode hknown
  | new header revision _ _ hdecode hnew hrevision happlied =>
    exact inert_of_mem hnamed hdecode (happlied.remembered hresult)

theorem Inert.later (h : Inert py deviceId change db)
    (hsub : db.appliedOperations ⊆ db'.appliedOperations) : Inert py deviceId change db' :=
  fun snapshot index db'' hsub' => h snapshot index db'' (List.Subset.trans hsub hsub')

/-! ## Batches -/

variable {results : List ApplyResult}

theorem applyAll_subset (h : Returns (applyAll py deviceId snapshot index changes) db results db') :
    db.appliedOperations ⊆ db'.appliedOperations := by
  have hstep : ∀ index change db₁ result db₂,
      ChangeApplied py deviceId snapshot index change db₁ result db₂ →
        db.appliedOperations ⊆ db₁.appliedOperations →
          db.appliedOperations ⊆ db₂.appliedOperations :=
    fun _ _ _ _ _ happlied hsub => List.Subset.trans hsub happlied.subset
  exact applyAll_invariant hstep h (List.Subset.refl _)

/-- After a batch, each change that was not set aside is inert. -/
theorem applyAll_inert (hnamed : ∀ change ∈ changes, Named change)
    (h : Returns (applyAll py deviceId snapshot index changes) db results db') :
    List.Forall₂ (fun change result => result ≠ .conflict → Inert py deviceId change db')
      changes results := by
  induction changes generalizing index db results with
  | nil =>
    rw [← (applyAll_nil.1 h).1]
    exact .nil
  | cons change rest ih =>
    obtain ⟨result, db₁, more, hfirst, hrest, rfl⟩ := applyAll_cons.1 h
    obtain ⟨hchange, hothers⟩ := forall_mem_cons.1 hnamed
    refine .cons (fun hresult => ?_) (ih hothers hrest)
    exact ((applyChange_returns hfirst).inert hchange hresult).later (applyAll_subset hrest)

/-- What a change comes to that is applied again. -/
def ApplyResult.again : ApplyResult → ApplyResult
  | .conflict => .conflict
  | _ => .duplicate

/-- Changes that are inert or malformed write nothing. -/
theorem applyAll_again
    (hinert : List.Forall₂ (fun change result => result ≠ .conflict → Inert py deviceId change db)
      changes results)
    (hmalformed : List.Forall₂ (fun change result => result = .conflict → Malformed py change)
      changes results) :
    ∃ db', Returns (applyAll py deviceId snapshot index changes) db (results.map .again) db' ∧
      SameStore db db' := by
  induction changes generalizing index db results with
  | nil =>
    cases hinert
    exact ⟨db, applyAll_nil.2 ⟨rfl, rfl⟩, .refl db⟩
  | cons change rest ih =>
    rcases hinert with _ | ⟨hfirst, hrest⟩
    rcases hmalformed with _ | ⟨hfirst', hrest'⟩
    rename_i result results
    have hlater : List.Forall₂ (fun change result => result ≠ .conflict →
        Inert py deviceId change { db with drawn := db.drawn + 1 }) rest results :=
      hrest.imp fun _ _ h hresult => (h hresult).later (List.Subset.refl _)
    obtain ⟨db', hreturns, hsame⟩ : ∃ db', Returns (applyAll py deviceId snapshot (index + 1) rest)
        { db with drawn := db.drawn + 1 } (results.map .again) db' ∧
          SameStore { db with drawn := db.drawn + 1 } db' := ih hlater hrest'
    refine ⟨db', applyAll_cons.2 ⟨result.again, _, _, ?_, hreturns, rfl⟩,
      (sameStore_drawn db _).trans hsame⟩
    by_cases hresult : result = .conflict
    · rw [hresult]
      exact malformed_returns (hfirst' hresult) snapshot index db
    have hagain : result.again = .duplicate := by
      cases result with
      | conflict => exact absurd rfl hresult
      | _ => rfl
    rw [hagain]
    exact hfirst hresult snapshot index db (List.Subset.refl _)

/-! ## Revisions -/

/-- What is stored under a source device keeps its revision or gets a later one, as long as it
is stored under that device. -/
def RevisionsKept (db db' : ClientDb) : Prop :=
  ∀ row ∈ db.entities, ∀ row' ∈ db'.entities, row'.key = row.key →
    row'.sourceDeviceId = row.sourceDeviceId → row.revision ≤ row'.revision

theorem revisionsKept_of_subset (h : ∀ row ∈ db'.entities, row ∈ db.entities) :
    RevisionsKept db db' := by
  intro row hrow row' hrow' hkey _
  rw [Entities.eq_of_key (h row' hrow') hrow hkey]

/-- A change that is written over an entity of its own source knows it as the current one, and
a transcript is newer than that. -/
theorem classify_write {change : Change} {current : Option EntityRow} {aliases : List EntityRow}
    (h : classify deviceId snapshot change db = .write current aliases) {row : EntityRow}
    (hrow : row ∈ db.entities) (hkey : row.key = (change.entityType, change.entityId))
    (hsource : row.sourceDeviceId = change.sourceDeviceId) :
    current = some row ∧
      (change.entityType = .transcriptSegment → row.revision < change.revision) := by
  have hcanonical : (db.entities.get? change.entityType change.entityId).filter
      (fun row => row.sourceDeviceId = change.sourceDeviceId) = some row := by
    rw [Entities.get?_eq_some.2 ⟨hrow, hkey⟩, filter_some, if_pos (by simpa using hsource)]
  simp only [classify, hcanonical] at h
  split at h
  · cases h
  rename_i hnewer
  split at h
  · cases h
  split at h
  · cases h
  injection h with hcurrent _
  refine ⟨hcurrent.symm, fun htranscript => ?_⟩
  by_contra hle
  exact hnewer ⟨htranscript, Nat.le_of_not_lt hle⟩

theorem Change.lt_revision {change : Change} {row : EntityRow}
    (h : change.entityType = .transcriptSegment → row.revision < change.revision) :
    row.revision < (change.row (some row)).revision := by
  unfold Change.row
  split
  · exact h ‹_›
  · rw [map_some, getD_some]
    exact Nat.lt_of_lt_of_le (Nat.lt_succ_self _) (Nat.le_max_right _ _)

theorem Applied.revisionsKept {change : Change}
    (h : Applied py deviceId snapshot change db result db') : RevisionsKept db db' := by
  cases h with
  | stale aliases =>
    refine revisionsKept_of_subset fun row hrow => ?_
    rw [rememberOperation_entities] at hrow
    exact (mem_removeLocalTranscriptAliases.1 hrow).1
  | same =>
    refine revisionsKept_of_subset fun row hrow => ?_
    rwa [rememberOperation_entities] at hrow
  | conflict => exact revisionsKept_of_subset fun _ hrow => hrow
  | write current aliases repo hclass =>
    intro row hrow row' hrow' hkey hsource
    rw [rememberOperation_entities] at hrow'
    rcases Entities.mem_upsert.1 hrow' with rfl | ⟨hold, -⟩
    · obtain ⟨rfl, hnewer⟩ := classify_write hclass hrow hkey.symm hsource.symm
      exact Nat.le_of_lt (Change.lt_revision hnewer)
    · have hmem : row' ∈ db.entities :=
        (@mem_removeLocalTranscriptAliases aliases { db with repo := repo } row').1 hold |>.1
      rw [Entities.eq_of_key hmem hrow hkey]

theorem ChangeApplied.revisionsKept
    (h : ChangeApplied py deviceId snapshot index change db result db') : RevisionsKept db db' := by
  cases h with
  | malformed | known => exact revisionsKept_of_subset fun _ hrow => hrow
  | new _ _ _ _ _ _ _ happlied => exact happlied.revisionsKept

/-! ## One call, and the same call again -/

/-- An error leaves the store and the cursor as they were. After a call, each change that was
not set aside as a conflict is inert, and where only malformed changes were set aside, the same
call again, as a snapshot or not, leaves the store as it is. No change lowers the revision of
what is stored under its source device. -/
theorem receiveChanges_again (py : Python) (deviceId : String) (s : Followed) :
    (∀ snapshot changes nextCursor e,
      (receiveChanges py deviceId snapshot changes nextCursor s).1 = .error e →
        (receiveChanges py deviceId snapshot changes nextCursor s).2 = s) ∧
    (∀ snapshot changes nextCursor results s', (∀ change ∈ changes, Named change) →
      receiveChanges py deviceId snapshot changes nextCursor s = (.ok results, s') →
        List.Forall₂ (fun change result => result ≠ .conflict → Inert py deviceId change s'.db)
          changes results ∧
        (List.Forall₂ (fun change result => result = .conflict → Malformed py change)
            changes results →
          ∀ snapshot' nextCursor', ∃ db', receiveChanges py deviceId snapshot' changes nextCursor' s' =
              (.ok (results.map .again), ⟨db', nextCursor'.or s'.cursor⟩) ∧
            SameStore s'.db db')) ∧
    ∀ snapshot index change result db',
      Returns (applyChange py deviceId snapshot index change) s.db result db' →
        RevisionsKept s.db db' := by
  refine ⟨fun _ _ _ _ h => receiveChanges_error h, ?_, ?_⟩
  · intro snapshot changes nextCursor results s' hnamed h
    unfold receiveChanges at h
    split at h
    · rename_i results' db hresult
      cases h
      have hinert := applyAll_inert hnamed (applyChanges_eq_ok.1 hresult)
      refine ⟨hinert, ?_⟩
      intro hmalformed snapshot' nextCursor'
      obtain ⟨db', hreturns, hsame⟩ : ∃ db', Returns (applyAll py deviceId snapshot' 0 changes) db
          (results.map .again) db' ∧ SameStore db db' := applyAll_again hinert hmalformed
      refine ⟨db', ?_, hsame⟩
      unfold receiveChanges
      rw [applyChanges_eq_ok.2 hreturns]
    · cases h
  · intro snapshot index change result db' h
    exact (applyChange_returns h).revisionsKept

/-- A summary of the meeting `m` from the device `android`. -/
def summaryChange (operationId : String) (baseRevision : Int) (minutes : String) : Dict :=
  [("operation_id", .str operationId), ("device_id", .str "android"),
    ("entity_type", .str "meeting_summary"), ("entity_id", .str "android:m"),
    ("base_revision", .int baseRevision), ("updated_at", .str "2024-01-01"),
    ("payload", .obj [("meeting_id", .str "m"), ("started_at", .str "2024-01-01"),
      ("minutes_json", .str minutes)])]

/-- A desktop that has applied the first version of the summary. -/
def summarised : Followed :=
  (receiveChanges .ascii "desk" false [summaryChange "s1" 0 "one"] none ⟨.fresh 0, none⟩).2

theorem receiveChanges_again_summarised :
    ∃ db', receiveChanges .ascii "desk" true [summaryChange "s1" 0 "one"] none summarised =
        (.ok [.duplicate], ⟨db', summarised.cursor⟩) ∧ SameStore summarised.db db' := by
  have hnamed : ∀ change ∈ [summaryChange "s1" 0 "one"], Named change :=
    fun change hchange => List.mem_singleton.1 hchange ▸ rfl
  have hresults : (receiveChanges .ascii "desk" false [summaryChange "s1" 0 "one"] none
      ⟨.fresh 0, none⟩).1 = .ok [.applied] := by decide +kernel
  have hcall : receiveChanges .ascii "desk" false [summaryChange "s1" 0 "one"] none
      ⟨.fresh 0, none⟩ = (.ok [.applied], summarised) := by rw [summarised, ← hresults]
  have hagain := ((receiveChanges_again .ascii "desk" ⟨.fresh 0, none⟩).2.1 false _ none _ _
    hnamed hcall).2
  exact hagain (.cons nofun .nil) true none

/-- Two versions of the summary: one that does not know the first version, and the same text
written over it. -/
def secondVersions : List Dict := [summaryChange "s2" 0 "two", summaryChange "s3" 1 "two"]

/-- The store after they were applied once. -/
def receivedOnce : Followed := (receiveChanges .ascii "desk" false secondVersions none summarised).2

def receivedTwice : Followed :=
  (receiveChanges .ascii "desk" false secondVersions none receivedOnce).2

theorem secondVersions_named : ∀ change ∈ secondVersions, Named change := by
  intro change hchange
  rcases mem_cons.1 hchange with rfl | hchange
  · rfl
  · rw [mem_singleton.1 hchange]
    rfl

theorem receivedOnce_results : receiveChanges .ascii "desk" false secondVersions none summarised =
      (.ok [.conflict, .applied], receivedOnce) := by
  have hresults : (receiveChanges .ascii "desk" false secondVersions none summarised).1 =
      .ok [.conflict, .applied] := by decide +kernel
  rw [receivedOnce, ← hresults]

theorem receivedTwice_results :
    receiveChanges .ascii "desk" false secondVersions none receivedOnce =
      (.ok [.duplicate, .duplicate], receivedTwice) := by
  have hresults : (receiveChanges .ascii "desk" false secondVersions none receivedOnce).1 =
      .ok [.duplicate, .duplicate] := by decide +kernel
  rw [receivedTwice, ← hresults]

/-- The first of them is set aside as a conflict at first, and the second time it is remembered
as a duplicate. -/
theorem conflict_applied_again : ¬ ∀ s snapshot changes results s' results' s'',
    (∀ change ∈ changes, Named change) →
    receiveChanges .ascii "desk" snapshot changes none s = (.ok results, s') →
    receiveChanges .ascii "desk" snapshot changes none s' = (.ok results', s'') →
      SameStore s'.db s''.db := by
  intro h
  have happlied := (h _ _ _ _ _ _ _ secondVersions_named receivedOnce_results
    receivedTwice_results).appliedOperations
  revert happlied
  decide +kernel

end Desktop
