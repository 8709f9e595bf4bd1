import EchoDesk.Desktop.Completeness
import EchoDesk.Desktop.Written
import EchoDesk.Hub.ReadBack

/-! # What a desktop sends back

A reconcile after a batch of changes sends back every row whose content, as the
reconcile reads it, is not in the entity table. A row is settled when it is, in an
entry that the reconcile itself does not overwrite. Quiet changes settle the rows
they touch, and keep settled what changes before them touched.
-/

namespace Desktop

open EchoDesk Transaction Transition Hub LastWrite List Entities

/-! ## Settled rows -/

/-- The name of the own entry of a row. -/
def LocalEntity.ownKey (deviceId : String) (entity : LocalEntity) : SyncEntityType × String :=
  (entity.entityType, deviceId ++ ":" ++ entity.rawEntityId)

/-- The content by which entities are compared. -/
def LocalEntity.content (entity : LocalEntity) : Dict :=
  (comparisonPayload entity.entityType entity.payload).dump

def EntityRow.content (row : EntityRow) : Dict :=
  (comparisonPayload row.entityType row.payloadJson).dump

def Change.content (change : Change) : Dict :=
  (comparisonPayload change.entityType change.payload).dump

def Change.key (change : Change) : SyncEntityType × String := (change.entityType, change.entityId)

/-- No reconcile gives the entry another payload. -/
def EntityRow.Stays (row : EntityRow) (deviceId : String) (repo : Repository) : Prop :=
  ∀ other ∈ localEntities repo, row.key = other.ownKey deviceId →
    row.payloadJson = other.payload.dump

/-- The entry has the content of the row. -/
def EntityRow.Shows (row : EntityRow) (entity : LocalEntity) : Prop :=
  row.entityType = entity.entityType ∧ row.content = entity.content

/-- The row has its own entry with its payload, or no own entry and its content in an
entry that stays. -/
def Settled (deviceId : String) (db : ClientDb) (entity : LocalEntity) : Prop :=
  (∃ own ∈ db.entities, own.key = entity.ownKey deviceId ∧ own.payloadJson = entity.payload.dump) ∨
    (∀ row ∈ db.entities, row.key ≠ entity.ownKey deviceId) ∧
      ∃ row ∈ db.entities, row.Shows entity ∧ row.Stays deviceId db.repo

theorem LocalEntity.sameRow_of_ownKey {deviceId : String} {a b : LocalEntity}
    (h : a.ownKey deviceId = b.ownKey deviceId) : a.SameRow b := by
  obtain ⟨htype, hid⟩ := Prod.mk.inj h
  exact ⟨htype, (String.append_right_inj _).1 hid⟩

variable {entity : LocalEntity}
variable {change : Change} {row : EntityRow} {snapshot : Bool} {result : ApplyResult}
  {other : LocalEntity} {now : Timestamp} {index : Nat}

variable {deviceId : String} {db db' : ClientDb} {py : Python} {aliases : List EntityRow}

theorem Settled.represented (h : Settled deviceId db entity) : Represented deviceId db entity := by
  unfold Represented
  rcases h with ⟨own, hown, hkey, hpayload⟩ | ⟨hnone, row, hrow, ⟨htype, hcontent⟩, -⟩
  · rw [get?_eq_some.2 ⟨hown, hkey⟩]
    exact hpayload
  rw [get?_eq_none.2 hnone]
  refine hasEquivalent_iff.2 ⟨row, hrow, htype, ?_⟩
  rw [EntityRow.content, htype] at hcontent
  exact hcontent

/-- A reconcile that queues another row leaves a settled row settled. -/
theorem Settled.queued (hentity : entity ∈ localEntities db.repo)
    (hother : other ∈ localEntities db.repo) (hnew : ¬ Represented deviceId db other)
    (hqueued : Queued deviceId now other db db') (h : Settled deviceId db entity) :
    Settled deviceId db' entity := by
  obtain ⟨new, hentities, hnewKey, hpayload, -⟩ := hqueued.entities
  have hne : ¬ entity.SameRow other := fun hsame => by
    obtain rfl := localEntities_unique hentity hother hsame.1 hsame.2
    exact hnew h.represented
  have hkey : new.key ≠ entity.ownKey deviceId := fun hkey =>
    hne (LocalEntity.sameRow_of_ownKey (hkey.symm.trans hnewKey))
  rcases h with ⟨own, hown, hownKey, hownPayload⟩ | ⟨hnone, row, hrow, hshows, hstays⟩
  · refine .inl ⟨own, ?_, hownKey, hownPayload⟩
    rw [hentities]
    exact mem_upsert.2 (.inr ⟨hown, fun hsame => hkey (hsame.symm.trans hownKey)⟩)
  refine .inr ⟨fun a ha => ?_, row, ?_, hshows, ?_⟩
  · rw [hentities] at ha
    rcases mem_upsert.1 ha with rfl | ⟨ha, -⟩
    · exact hkey
    · exact hnone a ha
  · rw [hentities]
    refine mem_upsert.2 (.inr ⟨hrow, fun hsame => hnew ?_⟩)
    -- the entry would be the own entry of the queued row, with its payload
    have hrowKey : row.key = other.ownKey deviceId := hsame.trans hnewKey
    have hown : Settled deviceId db other := .inl ⟨row, hrow, hrowKey, hstays other hother hrowKey⟩
    exact hown.represented
  · rw [hqueued.repo]
    exact hstays

/-- A reconcile queues operations for rows that are not settled only. -/
theorem queueAll_unsettled {entities : List LocalEntity} {n : Nat}
    (h : Returns (queueAll py deviceId now entities) db n db')
    (hlocal : ∀ other ∈ entities, other ∈ localEntities db.repo)
    {row : OutboxRow} (hrow : row ∈ db'.outbox) (hnew : row ∉ db.outbox) :
    ∃ entity ∈ entities, (row.entityType, row.entityId) = entity.ownKey deviceId ∧
      ¬ Settled deviceId db entity := by
  induction entities generalizing db n with
  | nil =>
    rw [← (returns_pure.1 h).2] at hrow
    exact absurd hrow hnew
  | cons other rest ih =>
    simp only [queueAll, returns_bind, returns_pure] at h
    obtain ⟨queued, db₁, hfirst, more, _, hrest, -, rfl⟩ := h
    obtain ⟨hother, hlocal⟩ := forall_mem_cons.1 hlocal
    rcases queueLocalEntity_returns hfirst with ⟨-, rfl, -⟩ | ⟨-, hunknown, hqueued⟩
    · obtain ⟨entity, hentity, hunsettled⟩ := ih hrest hlocal hnew
      exact ⟨entity, mem_cons_of_mem _ hentity, hunsettled⟩
    by_cases hfirstRow : row ∈ db₁.outbox
    · obtain ⟨new, hins, -, -, -, htype, hid, -, -⟩ := hqueued.outbox
      obtain rfl := ((Table.mem_insert? hins).1 hfirstRow).resolve_left hnew
      exact ⟨other, mem_cons_self, by rw [htype, hid]; rfl, fun h => hunknown h.represented⟩
    · obtain ⟨entity, hentity, hkey, hunsettled⟩ := ih hrest (hqueued.repo ▸ hlocal) hfirstRow
      refine ⟨entity, mem_cons_of_mem _ hentity, hkey, fun hsettled => hunsettled ?_⟩
      exact hsettled.queued (hlocal entity hentity) hother hunknown hqueued

/-! ## What a change touches -/

/-- The row that a write makes of the payload of a change. -/
def Change.written (py : Python) (change : Change) (repo : Repository)
    (current : Option EntityRow) : Except PyError LocalEntity :=
  writtenEntity py repo change.entityType change.payload
    (if change.entityType = .transcriptSegment then current.map (·.payloadJson) else none)

/-- The names of the own entries of the rows that a change touches: the row it writes,
and the rows whose own entry it replaces or removes. -/
def Verdict.touched (py : Python) (deviceId : String) (change : Change) (repo : Repository) :
    Verdict → List (SyncEntityType × String)
  | .stale aliases => aliases.map (·.key)
  | .same | .conflict => []
  | .write current aliases =>
    ((change.written py repo current).toOption.map (·.ownKey deviceId)).toList ++
      change.key :: aliases.map (·.key)

def Change.touched (py : Python) (deviceId : String) (snapshot : Bool) (change : Change)
    (db : ClientDb) : List (SyncEntityType × String) :=
  (classify deviceId snapshot change db).touched py deviceId change db.repo

/-- A change of a batch as the client decodes it, when it is valid and was not applied
before. -/
def receivedChange (py : Python) (index : Nat) (change : Dict) (db : ClientDb) : Option Change :=
  match decodeHeader py change (standIn py index db.drawn) with
  | .ok (some header) =>
    if header.operationId ∈ db.appliedOperations then none
    else (int py (change.read "revision") (header.baseRevision + 1)).toOption.map fun revision =>
      ⟨header, (max 1 revision).toNat⟩
  | .ok none | .error _ => none

def receivedTouched (py : Python) (deviceId : String) (snapshot : Bool) (index : Nat)
    (change : Dict) (db : ClientDb) : List (SyncEntityType × String) :=
  ((receivedChange py index change db).map (·.touched py deviceId snapshot db)).getD []

/-- The names of the own entries of the rows that the changes of a batch touch. -/
def touchedBy (py : Python) (deviceId : String) (snapshot : Bool) :
    Nat → ClientDb → List Dict → List (SyncEntityType × String)
  | _, _, [] => []
  | index, db, change :: rest =>
    receivedTouched py deviceId snapshot index change db ++
      touchedBy py deviceId snapshot (index + 1)
        ((applyChange py deviceId snapshot index change).run.run db).2 rest

/-! ## Quiet changes -/

/-- The entry of the change has the content of the row, or another one that is neither
replaced nor removed, and that no reconcile gives another payload. -/
def ShownAfter (deviceId : String) (change : Change) (aliases : List EntityRow)
    (entities : Entities) (repo : Repository) (entity : LocalEntity) : Prop :=
  (change.entityType = entity.entityType ∧ change.content = entity.content) ∨
    ∃ row ∈ entities.rows, row ∉ aliases ∧ row.key ≠ change.key ∧ row.Shows entity ∧
      row.Stays deviceId repo

/-- What a written change must not do to the rows that it or a change before it touches. -/
structure QuietWrite (deviceId : String) (touched : List (SyncEntityType × String))
    (change : Change) (aliases : List EntityRow) (entity : LocalEntity) (entities : Entities)
    (repo : Repository) : Prop where
  /-- It has the name of the own entry of a row only with the payload of the row. -/
  named : change.key = entity.ownKey deviceId → change.payload.dump = entity.payload.dump
  namedOther : ∀ other ∈ localEntities repo, ¬ other.SameRow entity →
    change.key = other.ownKey deviceId → change.payload.dump = other.payload.dump
  /-- The written row has no own entry with another payload. -/
  own : ∀ row ∈ entities.rows, row ∉ aliases → row.key = entity.ownKey deviceId →
    row.key ≠ change.key → row.payloadJson = entity.payload.dump
  /-- Without own entry, it is shown by one that is there after the change. -/
  content : (∃ row ∈ entities.rows, row ∉ aliases ∧ row.key = entity.ownKey deviceId) ∨
    ShownAfter deviceId change aliases entities repo entity
  /-- So is another touched row, whose entry is removed or replaced. -/
  lost : ∀ other ∈ localEntities repo, ¬ other.SameRow entity → change.key ≠ other.ownKey deviceId →
    ((∃ found ∈ aliases, found.key = other.ownKey deviceId) ∨ other.ownKey deviceId ∈ touched ∧
        (∀ row ∈ entities.rows, row.key ≠ other.ownKey deviceId) ∧
        ∃ row ∈ entities.rows, row.key = change.key ∧ row.Shows other) →
    ShownAfter deviceId change aliases entities repo other

/-- A change that is not written removes the entries of touched rows only when others
show them. -/
def QuietStale (deviceId : String) (touched : List (SyncEntityType × String))
    (aliases : List EntityRow) (db : ClientDb) : Prop :=
  ∀ entity ∈ localEntities db.repo, ((∃ found ∈ aliases, found.key = entity.ownKey deviceId) ∨
      entity.ownKey deviceId ∈ touched ∧
        (∀ row ∈ db.entities.rows, row.key ≠ entity.ownKey deviceId) ∧
        ∃ found ∈ aliases, found.Shows entity) →
    ∃ row ∈ db.entities.rows, row ∉ aliases ∧ row.Shows entity ∧ row.Stays deviceId db.repo

/-- The write of an entity that cannot be written fails. -/
def QuietEntity (deviceId : String) (touched : List (SyncEntityType × String)) (change : Change)
    (aliases : List EntityRow) (db : ClientDb) : Except PyError LocalEntity → Prop
  | .ok entity => QuietWrite deviceId touched change aliases entity db.entities db.repo
  | .error _ => True

def QuietVerdict (py : Python) (deviceId : String) (touched : List (SyncEntityType × String))
    (change : Change) (db : ClientDb) : Verdict → Prop
  | .stale aliases => QuietStale deviceId touched aliases db
  | .same | .conflict => True
  | .write current aliases =>
    QuietEntity deviceId touched change aliases db (change.written py db.repo current)

def QuietChange (py : Python) (deviceId : String) (snapshot : Bool)
    (touched : List (SyncEntityType × String)) (change : Change) (db : ClientDb) : Prop :=
  QuietVerdict py deviceId touched change db (classify deviceId snapshot change db)

/-! ## What a quiet change keeps -/

variable {touched : List (SyncEntityType × String)}

/-- The aliases of a transcript are entries with its content and another name. -/
structure AliasesOf (change : Change) (db : ClientDb) (aliases : List EntityRow) : Prop where
  mem : ∀ found ∈ aliases, found ∈ db.entities
  entityType : ∀ found ∈ aliases, found.entityType = .transcriptSegment ∧
    change.entityType = .transcriptSegment
  content : ∀ found ∈ aliases, found.content = change.content
  name : ∀ found ∈ aliases, found.key ≠ (change.entityType, change.entityId)

theorem aliasesOf_classify (deviceId : String) (change : Change) (db : ClientDb) :
    AliasesOf change db (if change.entityType = .transcriptSegment then
      findLocalTranscriptAliases deviceId db change.payload change.entityId else []) := by
  have hall : ∀ found ∈ (if change.entityType = .transcriptSegment then
      findLocalTranscriptAliases deviceId db change.payload change.entityId else []),
      change.entityType = .transcriptSegment ∧ found ∈ db.entities ∧
        found.entityType = .transcriptSegment ∧ found.entityId ≠ change.entityId ∧
        (comparisonPayload .transcriptSegment found.payloadJson).dump =
          (comparisonPayload .transcriptSegment change.payload).dump := by
    intro found hfound
    split at hfound
    · rename_i htype
      obtain ⟨hmem, hsel⟩ := mem_filter.1 hfound
      obtain ⟨hfoundType, hname, -, hcontent⟩ := of_decide_eq_true hsel
      exact ⟨htype, hmem, hfoundType, hname, hcontent⟩
    · exact absurd hfound not_mem_nil
  refine ⟨fun found hfound => (hall found hfound).2.1, fun found hfound =>
    ⟨(hall found hfound).2.2.1, (hall found hfound).1⟩, fun found hfound => ?_,
    fun found hfound hkey => (hall found hfound).2.2.2.1 (congrArg Prod.snd hkey)⟩
  obtain ⟨htype, -, hfoundType, -, hcontent⟩ := hall found hfound
  rw [EntityRow.content, Change.content, hfoundType, htype]
  exact hcontent

/-- The aliases are removed, and nothing else. -/
theorem AliasesOf.mem_removed (h : AliasesOf change db aliases) :
    row ∈ (removeLocalTranscriptAliases aliases db).entities ↔
      row ∈ db.entities ∧ row ∉ aliases := by
  rw [mem_removeLocalTranscriptAliases]
  refine and_congr_right fun hrow => ⟨fun hkeep halias => ?_, fun hkeep found hfound hsame => ?_⟩
  · exact hkeep row halias ⟨(h.entityType row halias).1, rfl, rfl⟩
  refine hkeep ?_
  rw [eq_of_key hrow (h.mem found hfound)
    (Prod.ext (hsame.1.trans (h.entityType found hfound).1.symm) hsame.2.1)]
  exact hfound

theorem classify_aliases {deviceId : String} {snapshot : Bool} {change : Change} {db : ClientDb} :
    (∀ aliases, classify deviceId snapshot change db = .stale aliases →
      AliasesOf change db aliases) ∧
    ∀ current aliases, classify deviceId snapshot change db = .write current aliases →
      AliasesOf change db aliases := by
  have haliases := aliasesOf_classify deviceId change db
  unfold classify
  dsimp only
  generalize (if change.entityType = .transcriptSegment then
    findLocalTranscriptAliases deviceId db change.payload change.entityId else []) = found at *
  split
  · split
    · exact ⟨fun aliases h => Verdict.stale.inj h ▸ haliases, fun _ _ h => (by cases h)⟩
    split
    · exact ⟨fun _ h => (by cases h), fun _ _ h => (by cases h)⟩
    split
    · exact ⟨fun _ h => (by cases h), fun _ _ h => (by cases h)⟩
    · exact ⟨fun _ h => (by cases h), fun _ aliases h => (Verdict.write.inj h).2 ▸ haliases⟩
  · exact ⟨fun _ h => (by cases h), fun _ aliases h => (Verdict.write.inj h).2 ▸ haliases⟩

/-- Only the own entry of a row has its name. -/
theorem no_own_of_alias {own : EntityRow} (hown : own ∈ db.entities)
    (hkey : own.key = entity.ownKey deviceId) (halias : own ∈ aliases)
    (hrow : row ∈ db.entities ∧ row ∉ aliases) : row.key ≠ entity.ownKey deviceId := by
  intro hsame
  have heq := eq_of_key hrow.1 hown (hsame.trans hkey.symm)
  exact hrow.2 (heq ▸ halias)

/-- The rows of these own entries are settled. -/
def AllSettled (deviceId : String) (touched : List (SyncEntityType × String)) (db : ClientDb) :
    Prop :=
  ∀ entity ∈ localEntities db.repo, entity.ownKey deviceId ∈ touched → Settled deviceId db entity

theorem AllSettled.stale (haliases : AliasesOf change db aliases)
    (hquiet : QuietStale deviceId touched aliases db) (hrepo : db'.repo = db.repo)
    (hentities : ∀ row, row ∈ db'.entities ↔ row ∈ db.entities ∧ row ∉ aliases)
    (h : AllSettled deviceId touched db) :
    AllSettled deviceId (touched ++ aliases.map (·.key)) db' := by
  intro entity hentity htouched
  rw [hrepo] at hentity
  -- another entry takes the place of an alias
  have hother : (∀ row ∈ db'.entities, row.key ≠ entity.ownKey deviceId) →
      (∃ row ∈ db.entities.rows, row ∉ aliases ∧ row.Shows entity ∧ row.Stays deviceId db.repo) →
      Settled deviceId db' entity := by
    rintro hnone ⟨row, hrow, halias, hshows, hstays⟩
    exact .inr ⟨hnone, row, (hentities row).2 ⟨hrow, halias⟩, hshows, hrepo ▸ hstays⟩
  by_cases hremoved : ∃ found ∈ aliases, found.key = entity.ownKey deviceId
  · obtain ⟨found, hfound, hkey⟩ := hremoved
    refine hother (fun row hrow => ?_) (hquiet entity hentity (.inl ⟨found, hfound, hkey⟩))
    exact no_own_of_alias (haliases.mem found hfound) hkey hfound ((hentities row).1 hrow)
  have htouched : entity.ownKey deviceId ∈ touched :=
    (mem_append.1 htouched).resolve_right fun hmem =>
      hremoved (let ⟨found, hfound, hkey⟩ := mem_map.1 hmem; ⟨found, hfound, hkey⟩)
  rcases h entity hentity htouched with
    ⟨own, hown, hkey, hpayload⟩ | ⟨hnone, row, hrow, hshows, hstays⟩
  · refine .inl ⟨own, (hentities own).2 ⟨hown, fun halias => ?_⟩, hkey, hpayload⟩
    exact hremoved ⟨own, halias, hkey⟩
  have hnone' : ∀ row ∈ db'.entities, row.key ≠ entity.ownKey deviceId := fun a ha =>
    hnone a ((hentities a).1 ha).1
  by_cases halias : row ∈ aliases
  · exact hother hnone' (hquiet entity hentity (.inr ⟨htouched, hnone, row, halias, hshows⟩))
  · exact .inr ⟨hnone', row, (hentities row).2 ⟨hrow, halias⟩, hshows, hrepo ▸ hstays⟩

/-- The new entry shows its row, or a row shown by an entry that it took the place of. -/
theorem AllSettled.write (haliases : AliasesOf change db aliases)
    (hquiet : QuietWrite deviceId touched change aliases entity db.entities db.repo)
    (hwrote : Wrote entity db.repo db'.repo) {new : EntityRow} (hkey : new.key = change.key)
    (hpayload : new.payloadJson = change.payload.dump) (hentities : ∀ row, row ∈ db'.entities ↔
      row = new ∨ (row ∈ db.entities ∧ row ∉ aliases) ∧ row.key ≠ new.key)
    (h : AllSettled deviceId touched db) :
    AllSettled deviceId (touched ++ entity.ownKey deviceId :: change.key :: aliases.map (·.key))
      db' := by
  intro other hlocal htouched
  have hother := hwrote other hlocal
  have hnewType : new.entityType = change.entityType := congrArg Prod.fst hkey
  have hnewContent : new.content = change.content := by
    rw [EntityRow.content, hpayload, hnewType, dump_comparisonPayload]
    rfl
  have hnewMem : new ∈ db'.entities := (hentities new).2 (.inl rfl)
  have hnamed : ∀ other ∈ localEntities db'.repo, new.key = other.ownKey deviceId →
      new.payloadJson = other.payload.dump := by
    intro other hlocal hname
    rw [hkey] at hname
    rw [hpayload]
    rcases hwrote other hlocal with rfl | ⟨hmem, hne⟩
    · exact hquiet.named hname
    · exact hquiet.namedOther other hmem hne hname
  by_cases hname : new.key = other.ownKey deviceId
  · exact .inl ⟨new, hnewMem, hname, hnamed other hlocal hname⟩
  have hne : ∀ {row : EntityRow}, row.key = other.ownKey deviceId → row.key ≠ new.key :=
    fun hown hsame => hname (hsame.symm.trans hown)
  -- an entry that is kept stays, also beside the written row
  have hstays' : ∀ row ∈ db.entities, row ∉ aliases → row.key ≠ new.key →
      row.Stays deviceId db.repo → row.Stays deviceId db'.repo := by
    intro row hrow halias hdiff hstays third hthird hthirdKey
    rcases hwrote third hthird with rfl | ⟨hold, -⟩
    · exact hquiet.own row hrow halias hthirdKey (hkey ▸ hdiff)
    · exact hstays third hold hthirdKey
  have hshown : (∀ row ∈ db.entities, row ∉ aliases → row.key ≠ other.ownKey deviceId) →
      ShownAfter deviceId change aliases db.entities db.repo other →
      Settled deviceId db' other := by
    intro hnone hafter
    refine .inr ⟨fun row hrow => ?_, ?_⟩
    · rcases (hentities row).1 hrow with rfl | ⟨⟨hrow, halias⟩, -⟩
      · exact hname
      · exact hnone row hrow halias
    · rcases hafter with ⟨htype, hcontent⟩ | ⟨row, hrow, halias, hdiff, hshows, hstays⟩
      · exact ⟨new, hnewMem, ⟨hnewType.trans htype, hnewContent.trans hcontent⟩, hnamed⟩
      have hdiff : row.key ≠ new.key := hkey ▸ hdiff
      exact ⟨row, (hentities row).2 (.inr ⟨⟨hrow, halias⟩, hdiff⟩), hshows,
        hstays' row hrow halias hdiff hstays⟩
  rcases hother with rfl | ⟨hmem, hrow⟩
  · -- the written row
    by_cases hown : ∃ row ∈ db.entities, row ∉ aliases ∧ row.key = other.ownKey deviceId
    · obtain ⟨row, hrow, halias, hrowKey⟩ := hown
      refine .inl ⟨row, (hentities row).2 (.inr ⟨⟨hrow, halias⟩, hne hrowKey⟩), hrowKey, ?_⟩
      exact hquiet.own row hrow halias hrowKey (hkey ▸ hne hrowKey)
    · exact hshown (fun row hrow halias hrowKey => hown ⟨row, hrow, halias, hrowKey⟩)
        (hquiet.content.resolve_left hown)
  have hchange : change.key ≠ other.ownKey deviceId := hkey ▸ hname
  by_cases hremoved : ∃ found ∈ aliases, found.key = other.ownKey deviceId
  · -- a row whose own entry is removed
    obtain ⟨found, hfound, hfoundKey⟩ := hremoved
    refine hshown (fun row hkept halias => ?_)
      (hquiet.lost other hmem hrow hchange (.inl ⟨found, hfound, hfoundKey⟩))
    exact no_own_of_alias (haliases.mem found hfound) hfoundKey hfound ⟨hkept, halias⟩
  -- a row that was touched before
  have htouched : other.ownKey deviceId ∈ touched := by
    simp only [mem_append, mem_cons, mem_map] at htouched
    rcases htouched with htouched | hsame | hsame | ⟨found, hfound, hfoundKey⟩
    · exact htouched
    · exact absurd (LocalEntity.sameRow_of_ownKey hsame) hrow
    · exact absurd hsame.symm hchange
    · exact absurd ⟨found, hfound, hfoundKey⟩ hremoved
  rcases h other hmem htouched with
    ⟨own, hown, hownKey, hownPayload⟩ | ⟨hnone, row, hmemRow, hshows, hstays⟩
  · refine .inl ⟨own, (hentities own).2 (.inr ⟨⟨hown, fun halias => ?_⟩, hne hownKey⟩), hownKey,
      hownPayload⟩
    exact hremoved ⟨own, halias, hownKey⟩
  by_cases halias : row ∈ aliases
  · -- the alias has the content of the change
    obtain ⟨hrowType, hchangeType⟩ := haliases.entityType row halias
    refine hshown (fun a ha _ => hnone a ha) (.inl ⟨?_, ?_⟩)
    · exact hchangeType.trans (hrowType.symm.trans hshows.1)
    · exact (haliases.content row halias).symm.trans hshows.2
  by_cases hreplaced : row.key = new.key
  · exact hshown (fun a ha _ => hnone a ha) (hquiet.lost other hmem hrow hchange
      (.inr ⟨htouched, hnone, row, hmemRow, hreplaced.trans hkey, hshows⟩))
  refine .inr ⟨fun a ha => ?_, row, (hentities row).2 (.inr ⟨⟨hmemRow, halias⟩, hreplaced⟩), hshows,
    hstays' row hmemRow halias hreplaced hstays⟩
  rcases (hentities a).1 ha with rfl | ⟨⟨ha, -⟩, -⟩
  · exact hname
  · exact hnone a ha

/-! ## A batch of changes -/

/-- Every change of the batch is quiet, after those before it. -/
def QuietBatch (py : Python) (deviceId : String) (snapshot : Bool) :
    Nat → List (SyncEntityType × String) → ClientDb → List Dict → Prop
  | _, _, _, [] => True
  | index, touched, db, change :: rest =>
    (∀ c ∈ receivedChange py index change db, QuietChange py deviceId snapshot touched c db) ∧
      QuietBatch py deviceId snapshot (index + 1)
        (touched ++ receivedTouched py deviceId snapshot index change db)
        ((applyChange py deviceId snapshot index change).run.run db).2 rest

theorem Settled.congr (hrepo : db'.repo = db.repo) (hentities : db'.entities = db.entities)
    (h : Settled deviceId db entity) : Settled deviceId db' entity := by
  rw [Settled, hrepo, hentities]
  exact h

theorem AllSettled.congr (hrepo : db'.repo = db.repo) (hentities : db'.entities = db.entities)
    (h : AllSettled deviceId touched db) : AllSettled deviceId touched db' := by
  intro entity hentity htouched
  rw [hrepo] at hentity
  exact (h entity hentity htouched).congr hrepo hentities

/-- What one change does to the rows: they are as before, or it has touched them. -/
def RowsTouched (deviceId : String) (touched : List (SyncEntityType × String)) (db db' : ClientDb) :
    Prop :=
  ∀ entity ∈ localEntities db'.repo, entity ∈ localEntities db.repo ∨
    entity.ownKey deviceId ∈ touched

theorem RowsTouched.of_repo (h : db'.repo = db.repo) : RowsTouched deviceId touched db db' :=
  fun _ hentity => .inl (h ▸ hentity)

theorem applied_allSettled (happlied : Applied py deviceId snapshot change db result db')
    (hquiet : QuietChange py deviceId snapshot touched change db)
    (h : AllSettled deviceId touched db) :
    AllSettled deviceId (touched ++ change.touched py deviceId snapshot db) db' := by
  obtain ⟨hstale, hwrite⟩ := @classify_aliases deviceId snapshot change db
  unfold Change.touched
  unfold QuietChange at hquiet
  cases happlied with
  | stale aliases hclass =>
    rw [hclass] at hquiet ⊢
    have haliases := hstale aliases hclass
    refine h.stale haliases hquiet ?_ fun row => ?_
    · rw [rememberOperation_repo, removeLocalTranscriptAliases_repo]
    · rw [rememberOperation_entities]
      exact haliases.mem_removed
  | same hclass =>
    rw [hclass, Verdict.touched, append_nil]
    exact h.congr (rememberOperation_repo _ _) (rememberOperation_entities _ _)
  | conflict hclass =>
    rw [hclass, Verdict.touched, append_nil]
    exact h
  | write current aliases repo hclass hrepo =>
    have haliases := hwrite current aliases hclass
    obtain ⟨written, hwritten, hwrote⟩ := applyEntity_wrote hrepo
    have hwritten : change.written py db.repo current = .ok written := hwritten
    rw [hclass, QuietVerdict, hwritten] at hquiet
    rw [hclass, Verdict.touched, hwritten]
    have hkey : (change.row current).key = change.key := rfl
    have hpayload : (change.row current).payloadJson = change.payload.dump := rfl
    refine h.write haliases hquiet ?_ hkey hpayload fun row => ?_
    · rw [rememberOperation_repo, removeLocalTranscriptAliases_repo]
      exact hwrote
    rw [rememberOperation_entities]
    have haliases' : AliasesOf change { db with repo := repo } aliases :=
      ⟨haliases.mem, haliases.entityType, haliases.content, haliases.name⟩
    refine mem_upsert.trans (or_congr_right (and_congr_left' ?_))
    exact haliases'.mem_removed

theorem applied_rowsTouched (happlied : Applied py deviceId snapshot change db result db') :
    RowsTouched deviceId (change.touched py deviceId snapshot db) db db' := by
  cases happlied with
  | stale aliases hclass =>
    exact .of_repo (by rw [rememberOperation_repo, removeLocalTranscriptAliases_repo])
  | same => exact .of_repo (rememberOperation_repo _ _)
  | conflict => exact .of_repo rfl
  | write current aliases repo hclass hrepo =>
    obtain ⟨written, hwritten, hwrote⟩ := applyEntity_wrote hrepo
    have hwritten : change.written py db.repo current = .ok written := hwritten
    intro entity hentity
    rw [rememberOperation_repo, removeLocalTranscriptAliases_repo] at hentity
    rcases hwrote entity hentity with rfl | ⟨hold, -⟩
    · refine .inr ?_
      rw [Change.touched, hclass, Verdict.touched, hwritten]
      exact mem_append_left _ (mem_singleton_self _)
    · exact .inl hold

theorem changeApplied_settled {change : Dict}
    (happlied : ChangeApplied py deviceId snapshot index change db result db')
    (hquiet : ∀ c ∈ receivedChange py index change db, QuietChange py deviceId snapshot touched c db)
    (h : AllSettled deviceId touched db) :
    AllSettled deviceId (touched ++ receivedTouched py deviceId snapshot index change db) db' ∧
      RowsTouched deviceId (receivedTouched py deviceId snapshot index change db) db db' := by
  unfold receivedTouched
  cases happlied with
  | malformed hdecode =>
    simp only [receivedChange, hdecode, Option.map_none, Option.getD_none, append_nil]
    exact ⟨h.congr rfl rfl, .of_repo rfl⟩
  | known header hdecode hknown =>
    simp only [receivedChange, hdecode, if_pos hknown, Option.map_none, Option.getD_none,
      append_nil]
    exact ⟨h.congr rfl rfl, .of_repo rfl⟩
  | new header revision result db' hdecode hnew hrevision happlied =>
    have hreceived : receivedChange py index change db = some ⟨header, (max 1 revision).toNat⟩ := by
      simp only [receivedChange, hdecode, if_neg hnew, hrevision]
      rfl
    rw [hreceived] at hquiet ⊢
    -- drawing an identifier leaves what the change reads
    generalize hdrawn : { db with drawn := db.drawn + 1 } = drawn at happlied
    have hrepo : drawn.repo = db.repo := hdrawn ▸ rfl
    have hentities : drawn.entities = db.entities := hdrawn ▸ rfl
    have hquiet : QuietChange py deviceId snapshot touched ⟨header, (max 1 revision).toNat⟩ drawn :=
      hdrawn ▸ hquiet _ rfl
    have htouched : Change.touched py deviceId snapshot ⟨header, (max 1 revision).toNat⟩ db =
        Change.touched py deviceId snapshot ⟨header, (max 1 revision).toNat⟩ drawn := hdrawn ▸ rfl
    rw [Option.map_some, Option.getD_some, htouched]
    refine ⟨applied_allSettled happlied hquiet (h.congr hrepo hentities), fun entity hentity => ?_⟩
    rw [← hrepo]
    exact applied_rowsTouched happlied entity hentity

/-- After a batch of quiet changes, every row that they touch is settled, and they touch
every row that they make or change. -/
theorem batch_settled {changes : List Dict} {results : List ApplyResult}
    (happly : Returns (applyAll py deviceId snapshot index changes) db results db')
    (hquiet : QuietBatch py deviceId snapshot index touched db changes)
    (h : AllSettled deviceId touched db) :
    AllSettled deviceId (touched ++ touchedBy py deviceId snapshot index db changes) db' ∧
      RowsTouched deviceId (touchedBy py deviceId snapshot index db changes) db db' := by
  induction changes generalizing index db results touched with
  | nil =>
    obtain ⟨-, rfl⟩ := applyAll_nil.1 happly
    exact ⟨(append_nil touched).symm ▸ h, .of_repo rfl⟩
  | cons change rest ih =>
    obtain ⟨result, db₁, more, hfirst, hrest, -⟩ := applyAll_cons.1 happly
    obtain ⟨hchange, hbatch⟩ := hquiet
    have hnext : (applyChange py deviceId snapshot index change).run.run db = (.ok result, db₁) :=
      hfirst
    rw [hnext] at hbatch
    obtain ⟨hsettled, hrows⟩ := changeApplied_settled (applyChange_returns hfirst) hchange h
    obtain ⟨hall, hlater⟩ := ih hrest hbatch hsettled
    rw [touchedBy, hnext, ← append_assoc]
    refine ⟨hall, fun entity hentity => ?_⟩
    rcases hlater entity hentity with hentity | htouched
    · exact (hrows entity hentity).imp_right (mem_append_left _)
    · exact .inr (mem_append_right _ htouched)

/-- A batch of quiet changes touches every row that it makes or changes, and a reconcile
after it queues no operation for a row that it touches. -/
theorem no_echo {py : Python} {deviceId : String} {snapshot : Bool} {changes : List Dict}
    {db db' db'' : ClientDb} {results : List ApplyResult} {now : Timestamp} {limit n : Nat}
    (happly : applyChanges py deviceId snapshot changes db = (.ok results, db'))
    (hquiet : QuietBatch py deviceId snapshot 0 [] db changes)
    (hreconcile : reconcileLocalChanges py deviceId now limit db' = (.ok n, db'')) :
    (∀ entity ∈ localEntities db'.repo, entity ∉ localEntities db.repo →
      entity.ownKey deviceId ∈ touchedBy py deviceId snapshot 0 db changes) ∧
    ∀ row ∈ db''.outbox, row ∉ db'.outbox →
      (row.entityType, row.entityId) ∉ touchedBy py deviceId snapshot 0 db changes := by
  obtain ⟨hsettled, hrows⟩ := batch_settled (applyChanges_eq_ok.1 happly) hquiet
    fun _ _ hnil => absurd hnil List.not_mem_nil
  refine ⟨fun entity hentity hnew => (hrows entity hentity).resolve_left hnew, ?_⟩
  intro row hrow hnew htouched
  obtain ⟨entity, hentity, hkey, hunsettled⟩ :=
    queueAll_unsettled (reconcile_eq_ok.1 hreconcile) (fun _ => mem_scanned) hrow hnew
  exact hunsettled (hsettled entity (mem_scanned hentity) (hkey ▸ htouched))

/-! ## Changes of a hub -/

instance (row : EntityRow) (deviceId : String) (repo : Repository) :
    Decidable (row.Stays deviceId repo) :=
  inferInstanceAs (Decidable (∀ _ ∈ _, _ → _))

instance (row : EntityRow) (entity : LocalEntity) : Decidable (row.Shows entity) :=
  inferInstanceAs (Decidable (_ ∧ _))

instance (deviceId : String) (change : Change) (aliases : List EntityRow) (entities : Entities)
    (repo : Repository) (entity : LocalEntity) :
    Decidable (ShownAfter deviceId change aliases entities repo entity) :=
  inferInstanceAs (Decidable (_ ∨ ∃ _ ∈ _, _))

set_option synthInstance.maxSize 512 in
instance (deviceId : String) (touched : List (SyncEntityType × String)) (change : Change)
    (aliases : List EntityRow) (entity : LocalEntity) (entities : Entities) (repo : Repository) :
    Decidable (QuietWrite deviceId touched change aliases entity entities repo) :=
  decidable_of_iff (_ ∧ _ ∧ _ ∧ _ ∧ _) ⟨fun h => ⟨h.1, h.2.1, h.2.2.1, h.2.2.2.1, h.2.2.2.2⟩,
    fun h => ⟨h.1, h.2, h.3, h.4, h.5⟩⟩

instance (deviceId : String) (touched : List (SyncEntityType × String)) (aliases : List EntityRow)
    (db : ClientDb) : Decidable (QuietStale deviceId touched aliases db) :=
  inferInstanceAs (Decidable (∀ _ ∈ _, _ → _))

instance (deviceId : String) (touched : List (SyncEntityType × String)) (change : Change)
    (aliases : List EntityRow) (db : ClientDb) : (written : Except PyError LocalEntity) →
      Decidable (QuietEntity deviceId touched change aliases db written)
  | .ok entity => inferInstanceAs
    (Decidable (QuietWrite deviceId touched change aliases entity db.entities db.repo))
  | .error _ => .isTrue trivial

instance (py : Python) (deviceId : String) (touched : List (SyncEntityType × String))
    (change : Change) (db : ClientDb) :
    (verdict : Verdict) → Decidable (QuietVerdict py deviceId touched change db verdict)
  | .stale aliases => inferInstanceAs (Decidable (QuietStale deviceId touched aliases db))
  | .same | .conflict => .isTrue trivial
  | .write _ aliases => inferInstanceAs (Decidable (QuietEntity deviceId touched change aliases db _))

instance decidableQuietBatch (py : Python) (deviceId : String) (snapshot : Bool) :
    (index : Nat) → (touched : List (SyncEntityType × String)) → (db : ClientDb) →
      (changes : List Dict) → Decidable (QuietBatch py deviceId snapshot index touched db changes)
  | _, _, _, [] => .isTrue trivial
  | index, touched, db, change :: rest =>
    have := decidableQuietBatch py deviceId snapshot (index + 1)
      (touched ++ receivedTouched py deviceId snapshot index change db)
      ((applyChange py deviceId snapshot index change).run.run db).2 rest
    inferInstanceAs (Decidable
      ((∀ c ∈ receivedChange py index change db, QuietVerdict py deviceId touched c db _) ∧ _))

/-- The changes of a hub after a push of the laptop. -/
def laptopChanges (entityType : SyncEntityType) (entityId : String) (payload : Dict) : List Dict :=
  ((push (entities .ascii) ⟨"t", "laptop", "o"⟩
    { operationId := "sync:laptop:1", deviceId := "laptop", entityType := entityType
      entityId := entityId, baseRevision := 0, updatedAt := 0, payload := payload }
    (.fresh .empty)).2.listChanges ⟨"t", "o"⟩ 0 100).map (changeResponse .ascii)

/-- A transcript that fits its fields. -/
def laptopTranscript : List Dict :=
  laptopChanges .transcriptSegment "laptop:1"
    [("meeting_id", .str "m"), ("text", .str "hi"), ("captured_at", .str "2024-01-01")]

theorem no_echo_transcript : ∃ db' db'',
    applyChanges .ascii "desk" false laptopTranscript (.fresh 0) = (.ok [.applied], db') ∧
    reconcileLocalChanges .ascii "desk" 0 200 db' = (.ok 0, db'') ∧
    (∀ entity ∈ localEntities db'.repo, entity ∉ localEntities (ClientDb.fresh 0).repo →
      entity.ownKey "desk" ∈ touchedBy .ascii "desk" false 0 (.fresh 0) laptopTranscript) ∧
    ∀ row ∈ db''.outbox, row ∉ db'.outbox →
      (row.entityType, row.entityId) ∉ touchedBy .ascii "desk" false 0 (.fresh 0) laptopTranscript := by
  have happly : applyChanges .ascii "desk" false laptopTranscript (.fresh 0) = (.ok [.applied],
      (applyChanges .ascii "desk" false laptopTranscript (.fresh 0)).2) :=
    Prod.ext (by decide +kernel) rfl
  have hquiet : QuietBatch .ascii "desk" false 0 [] (.fresh 0) laptopTranscript := by
    decide +kernel
  have hreconcile : (reconcileLocalChanges .ascii "desk" 0 200
      (applyChanges .ascii "desk" false laptopTranscript (.fresh 0)).2).1 = .ok 0 := by
    decide +kernel
  generalize (applyChanges .ascii "desk" false laptopTranscript (.fresh 0)).2 = db' at *
  exact ⟨db', _, happly, Prod.ext hreconcile rfl, no_echo happly hquiet (Prod.ext hreconcile rfl)⟩

/-- A summary, which the hub sends on with its `updated_at`. -/
def laptopSummary : List Dict :=
  laptopChanges .meetingSummary "laptop:m"
    [("meeting_id", .str "m"), ("started_at", .str "2024-01-01"), ("minutes_json", .str "{}")]

/-- The desktop queues the meeting that it has just received. -/
theorem echo_summary : ∃ db' db'',
    applyChanges .ascii "desk" false laptopSummary (.fresh 0) = (.ok [.applied], db') ∧
    reconcileLocalChanges .ascii "desk" 0 200 db' = (.ok 1, db'') ∧
    ∃ row ∈ db''.outbox, row ∉ db'.outbox ∧
      (row.entityType, row.entityId) ∈ touchedBy .ascii "desk" false 0 (.fresh 0) laptopSummary := by
  have hrow : ∃ row ∈ (reconcileLocalChanges .ascii "desk" 0 200
      (applyChanges .ascii "desk" false laptopSummary (.fresh 0)).2).2.outbox.rows,
      (row.entityType, row.entityId) ∈
        touchedBy .ascii "desk" false 0 (.fresh 0) laptopSummary := by decide +kernel
  have hnone : (applyChanges .ascii "desk" false laptopSummary (.fresh 0)).2.outbox.rows = [] := by
    decide +kernel
  have happly : (applyChanges .ascii "desk" false laptopSummary (.fresh 0)).1 = .ok [.applied] := by
    decide +kernel
  have hreconcile : (reconcileLocalChanges .ascii "desk" 0 200
      (applyChanges .ascii "desk" false laptopSummary (.fresh 0)).2).1 = .ok 1 := by decide +kernel
  have hdb' : ∃ db', applyChanges .ascii "desk" false laptopSummary (.fresh 0) =
      (.ok [.applied], db') := ⟨_, Prod.ext happly rfl⟩
  obtain ⟨db', hdb'⟩ := hdb'
  rw [hdb'] at hrow hnone hreconcile
  obtain ⟨row, hmem, hkey⟩ := hrow
  refine ⟨db', _, hdb', Prod.ext hreconcile rfl, row, hmem, fun hold => ?_, hkey⟩
  rw [Table.mem_def, hnone] at hold
  exact absurd hold List.not_mem_nil

end Desktop
