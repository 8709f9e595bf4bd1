import EchoDesk.Rag.Bm25

/-! # What the transactions of the store do

One lemma for each transaction: all that it can come to. While only the store itself
writes the tables, the manifest says the same as the payloads, and a snapshot leaves
the tables as they are.
-/

namespace Rag

open EchoDesk List Store Keyed Document

variable {config : Config}
variable {call : MutateCall} {other : ScopeSnapshot} {fields : Fields} {scope : Scope} {p : Payload}
  {st' : Store}

/-! ## Payloads -/

theorem orText_orText {value default : String} (h : default ≠ "") :
    orText (some (orText (some value) default)) default = orText (some value) default := by
  by_cases hvalue : value = ""
  · subst hvalue
    simp [orText, truthy, Option.filter, h]
  · simp [orText, truthy, Option.filter, hvalue]

/-- What the store reads of a payload it reads again of what it wrote. -/
theorem fields_again (h : p.fields = .ok fields) (revision : Option Nat) : Payload.fields { p with
      tenantId := fields.scope.tenantId
      ownerId := fields.scope.ownerId
      deviceId := fields.deviceId
      docId := fields.docId
      indexRevision := revision } = .ok fields := by
  have hlegacy : legacyId ≠ "" := by decide
  unfold Payload.fields at h
  dsimp only at h
  split at h
  · cases h
  rename_i hdoc
  cases h
  unfold Payload.fields
  rw [stripped_strip, if_neg hdoc, orText_orText hlegacy, orText_orText hlegacy,
    orText_orText hlegacy]

/-- A normalized payload is read as before. -/
theorem fields_of_normalize {normalized : Payload} {revision : Nat}
    (h : p.normalize revision = .ok normalized) :
    ∃ fields, p.fields = .ok fields ∧ normalized.fields = .ok fields ∧
      normalized.key = (fields.scope, fields.docId) ∧ normalized.chunks = p.chunks := by
  unfold Payload.normalize at h
  cases hfields : p.fields with
  | error error =>
    rw [hfields] at h
    cases h
  | ok fields =>
    rw [hfields] at h
    cases h
    exact ⟨fields, rfl, fields_again hfields (some revision), rfl, rfl⟩

/-! ## Mutations -/

/-- The manifest takes a row that the index on source paths does not refuse. -/
theorem upsertManifest_cases (db : Db) {payload : Payload} (hfields : payload.fields = .ok fields)
    (indexPath : String) :
    db.upsertManifest payload indexPath = .error .manifestRejected ∨
      db.rejects (manifestRow fields indexPath) = false ∧ db.upsertManifest payload indexPath =
          .ok { db with manifest := db.manifest.put (manifestRow fields indexPath) } := by
  unfold Db.upsertManifest
  rw [hfields]
  dsimp only [bind, Except.bind]
  split
  · exact .inl rfl
  · rename_i hrejects
    exact .inr ⟨by simpa using hrejects, rfl⟩

theorem insertDocument_cases (config : Config) (db : Db) (payload : Payload) (indexPath : String)
    (revision : Nat) :
    (∃ error, db.insertDocument config payload indexPath revision = .error error) ∨
    ∃ normalized fields, payload.normalize revision = .ok normalized ∧
      payload.fields = .ok fields ∧ normalized.fields = .ok fields ∧
      ((db.documents.rows.filter fun d => d.scope = fields.scope ∧ d.docId ≠ fields.docId).map
        fun d => d.payload.textLength config).sum + normalized.byteLength config ≤
          config.maxScopePayloadBytes ∧
      db.rejects (manifestRow fields indexPath) = false ∧
      db.insertDocument config payload indexPath revision = .ok (normalized, { db with
        documents := db.documents.put ⟨fields.scope, fields.docId, indexPath, normalized, revision⟩
        manifest := db.manifest.put (manifestRow fields indexPath) }) := by
  unfold Db.insertDocument
  cases hnormal : payload.normalize revision with
  | error error => exact .inl ⟨error, rfl⟩
  | ok normalized =>
    obtain ⟨fields, hfields, hfields', -, -⟩ := fields_of_normalize hnormal
    dsimp only [bind, Except.bind]
    rw [hfields']
    dsimp only
    split
    · exact .inl ⟨_, rfl⟩
    let document : Document := ⟨fields.scope, fields.docId, indexPath, normalized, revision⟩
    rcases upsertManifest_cases { db with documents := db.documents.put document } hfields'
      indexPath with heq | ⟨hrejects, heq⟩
    · rw [heq]
      exact .inl ⟨_, rfl⟩
    · rw [heq]
      exact .inr ⟨normalized, fields, rfl, hfields, hfields', by omega, hrejects, rfl⟩

/-- What is stored for a proposed payload. -/
structure Written (config : Config) (db : Db) (call : MutateCall) (target : String)
    (proposed normalized : Payload) (db' : Db) : Prop where
  normalize : proposed.normalize (db.revision + 1) = .ok normalized
  key : normalized.key = call.key
  revision : db'.revision = db.revision + 1
  fences : db'.fences = (db.raiseFence call).fences
  documents : db'.documents =
    db.documents.put ⟨call.scope, call.docId, target, normalized, db.revision + 1⟩
  manifest : ∃ fields, normalized.fields = .ok fields ∧ (fields.scope, fields.docId) = call.key ∧
    db.rejects (manifestRow fields target) = false ∧
    db'.manifest = db.manifest.put (manifestRow fields target)
  fits : ((db.documents.rows.filter fun d => d.scope = call.scope ∧ d.docId ≠ call.docId).map
    fun d => d.payload.textLength config).sum + normalized.byteLength config ≤
      config.maxScopePayloadBytes

theorem raiseFence_tables (db : Db) (call : MutateCall) :
    (db.raiseFence call).revision = db.revision ∧ (db.raiseFence call).documents = db.documents ∧
      (db.raiseFence call).manifest = db.manifest := by
  unfold Db.raiseFence
  split
  · exact ⟨rfl, rfl, rfl⟩
  · exact ⟨rfl, rfl, rfl⟩

/-- The target of a call is the file of the document it finds. -/
def Db.target (db : Db) (target : String) (call : MutateCall) : String :=
  ((db.documents.get? call.key).map Document.indexPath).getD target

/-- All that a transaction of `mutate_document` can come to. -/
theorem mutate_cases (config : Config) (db : Db) (target : String) (call : MutateCall) :
    (∃ error, db.mutate config target call = .error error) ∨
    (db.fenced call = true ∧ ∃ existing, db.mutate config target call = .ok (.stale existing)) ∨
    db.fenced call = false ∧ ((call.mutator ((db.documents.get? call.key).map payload) = none ∧
          db.documents.get? call.key = none ∧
          db.mutate config target call = .ok (.absent (db.raiseFence call))) ∨
        (call.mutator ((db.documents.get? call.key).map payload) = none ∧
          db.mutate config target call = .ok (.deletes (db.target target call)
            { (db.raiseFence call).deleteManifest call.key with
              documents := db.documents.erase call.key
              revision := db.revision + 1 })) ∨
        ∃ proposed normalized db',
          call.mutator ((db.documents.get? call.key).map payload) = some proposed ∧
          Written config db call (db.target target call) proposed normalized db' ∧
          db.mutate config target call = .ok (.writes (db.target target call) normalized db')) := by
  obtain ⟨hrevision, hdocuments, hmanifest⟩ := raiseFence_tables db call
  unfold Db.mutate
  dsimp only
  split
  · rename_i hfenced
    exact .inr (.inl ⟨hfenced, _, rfl⟩)
  rename_i hfenced
  rw [Bool.not_eq_true] at hfenced
  split
  · rename_i hnone
    split
    · rename_i hrow
      rw [Option.isNone_iff_eq_none] at hrow
      exact .inr (.inr ⟨hfenced, .inl ⟨hnone, hrow, rfl⟩⟩)
    · refine .inr (.inr ⟨hfenced, .inr (.inl ⟨hnone, ?_⟩)⟩)
      rw [hdocuments, hrevision]
      rfl
  rename_i proposed hproposed
  cases hfields : proposed.fields with
  | error error => exact .inl ⟨error, rfl⟩
  | ok fields =>
    dsimp only [bind, Except.bind]
    split
    · exact .inl ⟨_, rfl⟩
    rename_i hidentity
    rw [not_or, not_not, not_not] at hidentity
    obtain ⟨hscope, hdoc⟩ := hidentity
    rcases insertDocument_cases config (db.raiseFence call) proposed (db.target target call)
        (db.revision + 1) with ⟨error, heq⟩ |
      ⟨normalized, fields', hnormal, hsame, hfields', hfits, hrejects, heq⟩
    · left
      refine ⟨error, ?_⟩
      rw [hrevision]
      unfold Db.target at heq
      rw [heq]
    rw [hfields] at hsame
    cases hsame
    obtain ⟨fields', hfields₁, -, hkey, -⟩ := fields_of_normalize hnormal
    rw [hfields] at hfields₁
    cases hfields₁
    have hcall : (fields.scope, fields.docId) = call.key := by
      rw [hscope, hdoc]
      rfl
    refine .inr (.inr ⟨hfenced, .inr (.inr ⟨proposed, normalized, { db.raiseFence call with
        documents := db.documents.put
          ⟨call.scope, call.docId, db.target target call, normalized, db.revision + 1⟩
        manifest := db.manifest.put (manifestRow fields (db.target target call))
        revision := db.revision + 1 }, hproposed, ?_, ?_⟩)⟩)
    · refine ⟨hnormal, hkey.trans hcall, rfl, rfl, rfl, ⟨fields, hfields', hcall, ?_, rfl⟩, ?_⟩
      · unfold Db.rejects at hrejects ⊢
        rw [← hmanifest]
        exact hrejects
      · rw [← hdocuments, ← hscope, ← hdoc]
        exact hfits
    · rw [hrevision]
      unfold Db.target at heq ⊢
      rw [heq, hscope, hdoc, hdocuments, hmanifest]
      dsimp only [pure, Except.pure]
      rw [hrevision]

/-- All that `mutate_document` can come to. -/
inductive MutateStep (config : Config) (st : Store) (call : MutateCall)
    (result : Except RagError IndexMutation) (st' : Store) : Prop where
  | raised (hresult : ∃ error, result = .error error) (hdb : st'.db = st.db)
  | stale (hfenced : st.db.fenced call = true) (hresult : ∃ mutation, result = .ok mutation)
      (hst : st' = st)
  | absent (hfenced : st.db.fenced call = false) (hresult : ∃ mutation, result = .ok mutation)
      (hmutator : call.mutator ((st.db.documents.get? call.key).map Document.payload) = none)
      (hrow : st.db.documents.get? call.key = none)
      (hst : st' = ⟨st.db.raiseFence call, st.files⟩)
  | deletes (target : String) (hfenced : st.db.fenced call = false)
      (hresult : ∃ mutation, result = .ok mutation)
      (hmutator : call.mutator ((st.db.documents.get? call.key).map Document.payload) = none)
      (hst : st' = ⟨{ (st.db.raiseFence call).deleteManifest call.key with
        documents := st.db.documents.erase call.key
        revision := st.db.revision + 1 }, setFile st.files target none⟩)
  | writes (target : String) (proposed normalized : Payload) (hfenced : st.db.fenced call = false)
      (hresult : ∃ mutation, result = .ok mutation)
      (hmutator : call.mutator ((st.db.documents.get? call.key).map Document.payload) =
        some proposed)
      (hwritten : Written config st.db call target proposed normalized st'.db)
      (hfiles : st'.files = setFile st.files target (some (.written normalized)))

theorem mutateStep (config : Config) (st : Store) (call : MutateCall) (fault : Option Fault) :
    MutateStep config st call (st.mutateDocument config call fault).1
      (st.mutateDocument config call fault).2 := by
  unfold mutateDocument
  split
  · exact .raised ⟨_, rfl⟩ rfl
  split
  · exact .raised ⟨_, rfl⟩ rfl
  split
  · exact .raised ⟨_, rfl⟩ rfl
  rename_i target _
  rcases mutate_cases config st.db target call with ⟨error, heq⟩ | ⟨hfenced, existing, heq⟩ |
    ⟨hfenced, ⟨hmutator, hrow, heq⟩ | ⟨hmutator, heq⟩ |
      ⟨proposed, normalized, db', hmutator, hwritten, heq⟩⟩
  · rw [heq]
    exact .raised ⟨_, rfl⟩ rfl
  · rw [heq]
    unfold commit
    dsimp only
    split
    · exact .raised ⟨_, rfl⟩ rfl
    · exact .stale hfenced ⟨_, rfl⟩ rfl
  · rw [heq]
    unfold commit
    dsimp only
    split
    · exact .raised ⟨_, rfl⟩ rfl
    · exact .absent hfenced ⟨_, rfl⟩ hmutator hrow rfl
  · rw [heq]
    unfold commit
    dsimp only
    split
    · exact .raised ⟨_, rfl⟩ rfl
    · exact .raised ⟨_, rfl⟩ rfl
    · exact .deletes _ hfenced ⟨_, rfl⟩ hmutator rfl
  rw [heq]
  unfold commit
  dsimp only
  split
  · exact .raised ⟨_, rfl⟩ rfl
  · exact .raised ⟨_, rfl⟩ rfl
  · exact .writes _ proposed normalized hfenced ⟨_, rfl⟩ hmutator hwritten rfl

variable {st : Store} {cache : Cache}

/-- A call that raises leaves the tables as they were. -/
theorem MutateStep.db_of_raised {error : RagError}
    (h : MutateStep config st call (.error error) st') : st'.db = st.db := by
  cases h with
  | raised _ hdb => exact hdb
  | stale _ hresult _ | absent _ hresult _ _ _ | deletes _ _ hresult _ _
  | writes _ _ _ _ hresult _ _ _ =>
    exact nomatch hresult

/-- A call that the fence is ahead of changes nothing. -/
theorem mutateDocument_of_fenced (config : Config) (hfenced : st.db.fenced call = true)
    (fault : Option Fault) : (st.mutateDocument config call fault).2 = st := by
  unfold mutateDocument
  split
  · rfl
  split
  · rfl
  split
  · rfl
  rename_i target _
  have hstale : st.db.mutate config target call =
      .ok (.stale ((st.db.documents.get? call.key).map payload)) := by
    unfold Db.mutate
    rw [if_pos hfenced]
  rw [hstale]
  unfold commit
  dsimp only
  split
  · rfl
  · rfl

/-! ## The manifest -/

/-- The manifest says of every document what its payload says, and no source path is twice in
a scope. -/
structure Consistent (db : Db) : Prop where
  rows : ∀ d ∈ db.documents, ∃ fields, d.payload.fields = .ok fields ∧
    d.key = (fields.scope, fields.docId) ∧
    db.manifest.get? d.key = some (manifestRow fields d.indexPath)
  paths : ∀ a ∈ db.manifest, ∀ b ∈ db.manifest, a.scope = b.scope → a.sourcePath.isSome = true →
    a.sourcePath = b.sourcePath → a.key = b.key

theorem Consistent.mutate {result : Except RagError IndexMutation} (h : Consistent st.db)
    (hstep : MutateStep config st call result st') : Consistent st'.db := by
  obtain ⟨-, hdocuments, hmanifest⟩ := raiseFence_tables st.db call
  cases hstep with
  | raised _ hdb =>
    rw [hdb]
    exact h
  | stale _ _ hst =>
    rw [hst]
    exact h
  | absent _ _ _ _ hst =>
    rw [hst]
    constructor
    · rw [hdocuments, hmanifest]
      exact h.rows
    · rw [hmanifest]
      exact h.paths
  | deletes target _ _ _ hst =>
    rw [hst]
    constructor
    · intro d hd
      obtain ⟨hd, hne⟩ := mem_erase.1 hd
      obtain ⟨fields, hfields, hkey, hrow⟩ := h.rows d hd
      refine ⟨fields, hfields, hkey, ?_⟩
      show ((st.db.raiseFence call).manifest.erase call.key).get? d.key = _
      rw [get?_erase, if_neg hne, hmanifest]
      exact hrow
    · intro a ha b hb
      have ha : a ∈ (st.db.raiseFence call).manifest.erase call.key := ha
      have hb : b ∈ (st.db.raiseFence call).manifest.erase call.key := hb
      rw [hmanifest, mem_erase] at ha hb
      exact h.paths a ha.1 b hb.1
  | writes target proposed normalized _ _ _ hwritten _ =>
    obtain ⟨fields, hfields, hkey, hrejects, hput⟩ := hwritten.manifest
    constructor
    · intro d hd
      rw [hwritten.documents, mem_put] at hd
      rw [hput, get?_put]
      rcases hd with rfl | ⟨hd, hne⟩
      · exact ⟨fields, hfields, hkey.symm, if_pos hkey.symm⟩
      obtain ⟨fields', hfields', hkey', hrow'⟩ := h.rows d hd
      refine ⟨fields', hfields', hkey', ?_⟩
      have hne' : d.key ≠ (manifestRow fields target).key := fun heq => hne (heq.trans hkey)
      rw [if_neg hne']
      exact hrow'
    have hfree : ∀ b ∈ st.db.manifest, b.key ≠ (manifestRow fields target).key →
        b.scope = fields.scope → fields.sourcePath.isSome = true →
        b.sourcePath ≠ fields.sourcePath := by
      intro b hb hne hscope hsome heq
      have hall := hrejects
      unfold Db.rejects at hall
      rw [Bool.and_eq_false_iff] at hall
      rcases hall with hnone | hany
      · have hnone : fields.sourcePath.isSome = false := hnone
        rw [hsome] at hnone
        cases hnone
      rw [any_eq_false] at hany
      apply hany b hb
      have hsame : (b.sourcePath == (manifestRow fields target).sourcePath) = true :=
        beq_iff_eq.2 heq
      have hscope' : (b.scope == (manifestRow fields target).scope) = true :=
        beq_iff_eq.2 hscope
      simp only [hsame, hscope', Bool.and_true, decide_eq_true_eq]
      exact hne
    rw [hput]
    intro a ha b hb hscope hsome hpath
    rw [mem_put] at ha hb
    rcases ha with rfl | ⟨ha, hane⟩
    · rcases hb with rfl | ⟨hb, hbne⟩
      · rfl
      · exact absurd hpath.symm (hfree b hb hbne hscope.symm hsome)
    · rcases hb with rfl | ⟨hb, -⟩
      · rw [hpath] at hsome
        exact absurd hpath (hfree a ha hane hscope hsome)
      · exact h.paths a ha b hb hscope hsome hpath

theorem consistent_init : Consistent init.db := by
  constructor
  · intro d hd
    cases hd
  · intro a ha
    cases ha

/-! ## Snapshots -/

theorem mem_documentsOf {db : Db} {d : Document} :
    d ∈ db.documentsOf scope ↔ d ∈ db.documents ∧ d.scope = scope := by
  rw [Db.documentsOf, mem_insertionSort, mem_filter, mem_def]
  simp

/-- A manifest that agrees with the documents is not changed by restoring them. -/
theorem Consistent.restore {db : Db} (h : Consistent db) {rows : List Document}
    (hrows : ∀ d ∈ rows, d ∈ db.documents) (files : String → Option CacheFile) :
    (restoreDocuments db files rows).1 = none ∧ (restoreDocuments db files rows).2.1 = db := by
  induction rows generalizing files with
  | nil => exact ⟨rfl, rfl⟩
  | cons d rest ih =>
    obtain ⟨fields, hfields, hkey, hrow⟩ := h.rows d (hrows d mem_cons_self)
    have hself : db.manifest.get? (manifestRow fields d.indexPath).key =
        some (manifestRow fields d.indexPath) := by
      rw [← hrow, hkey]
      rfl
    have hmem := (mem_get?.1 hself).1
    have hsame : db.upsertManifest d.payload d.indexPath = .ok db := by
      rcases upsertManifest_cases db hfields d.indexPath with heq | ⟨-, heq⟩
      · have hrejects : db.rejects (manifestRow fields d.indexPath) = true := by
          unfold Db.upsertManifest at heq
          rw [hfields] at heq
          dsimp only [bind, Except.bind] at heq
          split at heq
          · assumption
          · cases heq
        unfold Db.rejects at hrejects
        rw [Bool.and_eq_true, any_eq_true] at hrejects
        obtain ⟨hsome, other, hother, hconflict⟩ := hrejects
        simp only [Bool.and_eq_true, decide_eq_true_eq, beq_iff_eq] at hconflict
        obtain ⟨⟨hne, hscope⟩, hpath⟩ := hconflict
        exact absurd (h.paths _ hmem other hother hscope.symm hsome hpath.symm).symm hne
      · rw [heq, put_self hself]
    unfold restoreDocuments
    rw [hsame]
    exact ih (fun e he => hrows e (mem_cons_of_mem d he)) _

theorem Consistent.externallyDeleted (h : Consistent st.db) (scope : Scope) :
    st.externallyDeleted scope = [] := by
  unfold Store.externallyDeleted
  rw [filter_eq_nil_iff]
  intro d hd
  obtain ⟨fields, -, -, hrow⟩ := h.rows d (mem_documentsOf.1 hd).1
  simp [hrow]

/-- While the manifest agrees with the documents, a snapshot leaves the tables as they are. -/
theorem Consistent.snapshot (config : Config) (h : Consistent st.db) (scope : Scope)
    (unlinked : List String) (fault : Option Nat) :
    (st.snapshot config scope unlinked fault).2.db = st.db ∧
      ∀ durable, (st.snapshot config scope unlinked fault).1 = .ok durable →
        durable = ⟨st.db.revision, st.db.documentsOf scope⟩ := by
  have hdrop : st.dropDeleted scope = st.db := by
    unfold Store.dropDeleted
    rw [h.externallyDeleted]
    rfl
  have hrestore : ∀ files, (restoreDocuments st.db files (st.db.documentsOf scope)).1 = none ∧
      (restoreDocuments st.db files (st.db.documentsOf scope)).2.1 = st.db :=
    fun files => h.restore (fun d hd => (mem_documentsOf.1 hd).1) files
  unfold Store.snapshot
  dsimp only
  rw [hdrop]
  split
  · exact ⟨rfl, fun _ hok => by cases hok⟩
  split
  · split
    · exact ⟨rfl, fun _ hok => by cases hok⟩
    · exact ⟨rfl, fun _ hok => by cases hok⟩
  generalize hfiles : (fun path => if path ∈ unlinked then none else st.files path) = files
  obtain ⟨hnone, hdb⟩ := hrestore files
  split
  · rename_i error db' files' heq
    rw [heq] at hnone
    cases hnone
  · rename_i db' files' heq
    rw [heq] at hdb
    obtain rfl : db' = st.db := hdb
    exact ⟨rfl, fun durable hok => (Except.ok.inj hok).symm⟩

/-! ## Snapshots in memory -/

theorem mem_touch {snapshot : ScopeSnapshot} (h : other ∈ cache.touch snapshot) :
    other ∈ cache ∨ other = snapshot := by
  rw [Cache.touch, mem_append, mem_singleton, mem_filter] at h
  exact h.imp And.left id

theorem mem_remember {snapshot : ScopeSnapshot} (h : other ∈ cache.remember config snapshot) :
    other ∈ cache ∨ other = snapshot := by
  unfold Cache.remember at h
  split at h
  · exact .inl h
  · exact mem_touch (mem_of_mem_drop h)

/-- What holds of the snapshots a process has, and of one that is built, holds of the one it goes
on with and of those it has then. -/
theorem snapshotForScope_keeps {P : ScopeSnapshot → Prop} (hcache : ∀ snapshot ∈ cache, P snapshot)
    {unlinked : List String} {fault : Option Nat}
    (hbuilt : ∀ durable built, (st.snapshot config scope unlinked fault).1 = .ok durable →
      buildScopeSnapshot config scope durable = .ok built → P built) (force : Bool) :
    (∀ snapshot, (snapshotForScope config st cache scope force unlinked fault).1 = .ok snapshot →
      P snapshot) ∧
    ∀ snapshot ∈ (snapshotForScope config st cache scope force unlinked fault).2.2, P snapshot := by
  have htouch : ∀ cached ∈ cache, ∀ snapshot ∈ cache.touch cached, P snapshot := by
    intro cached hcached snapshot hsnapshot
    rcases mem_touch hsnapshot with hmem | rfl
    · exact hcache snapshot hmem
    · exact hcache snapshot hcached
  have hreload : ∀ cached, (∀ snapshot ∈ cached, snapshot ∈ cache) →
      (∀ snapshot, (snapshotForScope.reload config st cache scope unlinked fault cached).1 =
        .ok snapshot → P snapshot) ∧
      ∀ snapshot ∈ (snapshotForScope.reload config st cache scope unlinked fault cached).2.2,
        P snapshot := by
    intro cached hcached
    unfold snapshotForScope.reload
    split
    · exact ⟨fun _ hok => (nomatch hok), hcache⟩
    rename_i durable st' heq
    have hdurable : (st.snapshot config scope unlinked fault).1 = .ok durable := by rw [heq]
    split
    · rename_i snapshot hsame
      have hmem : snapshot ∈ cache := hcached snapshot (Option.filter_eq_some_iff.1 hsame).1
      refine ⟨?_, htouch snapshot hmem⟩
      intro other hok
      cases hok
      exact hcache snapshot hmem
    split
    · exact ⟨fun _ hok => (nomatch hok), hcache⟩
    rename_i loaded hloaded
    have hP : P loaded := hbuilt durable loaded hdurable hloaded
    constructor
    · intro other hok
      cases hok
      exact hP
    · intro other hother
      rcases mem_remember hother with hmem | rfl
      · exact hcache other hmem
      · exact hP
  unfold snapshotForScope
  cases hfound : cache.cached scope with
  | none => exact hreload none fun _ hsnapshot => by cases hsnapshot
  | some cached =>
    have hmem : cached ∈ cache := mem_of_find?_eq_some hfound
    have hcached : ∀ snapshot ∈ some cached, snapshot ∈ cache := by
      intro snapshot hsnapshot
      cases hsnapshot
      exact hmem
    cases force with
    | true => exact hreload (some cached) hcached
    | false =>
      dsimp only
      split
      · refine ⟨?_, htouch cached hmem⟩
        intro other hok
        cases hok
        exact hcache cached hmem
      · exact hreload (some cached) hcached

/-- The store is left alone, or a snapshot of it is taken. -/
theorem snapshotForScope_store (config : Config) (st : Store) (cache : Cache) (scope : Scope) (force : Bool)
    (unlinked : List String) (fault : Option Nat) :
    (snapshotForScope config st cache scope force unlinked fault).2.1 = st ∨
      (snapshotForScope config st cache scope force unlinked fault).2.1 =
        (st.snapshot config scope unlinked fault).2 := by
  have hreload : ∀ cached,
      (snapshotForScope.reload config st cache scope unlinked fault cached).2.1 =
        (st.snapshot config scope unlinked fault).2 := by
    intro cached
    unfold snapshotForScope.reload
    split
    · rename_i heq
      rw [heq]
    rename_i heq
    rw [heq]
    split
    · rfl
    split
    · rfl
    · rfl
  unfold snapshotForScope
  cases cache.cached scope with
  | none => exact .inr (hreload none)
  | some cached =>
    cases force with
    | true => exact .inr (hreload (some cached))
    | false =>
      dsimp only
      split
      · exact .inl rfl
      · exact .inr (hreload (some cached))

/-! ## Queries -/

theorem mem_answer {meetings : Meetings} {snapshot : ScopeSnapshot} {query : String} {topK : Nat}
    {c : IndexedChunk} (h : c ∈ answer config meetings snapshot query topK) :
    c ∈ visibleChunks config meetings snapshot snapshot.scope := by
  unfold answer at h
  dsimp only at h
  split at h
  · cases h
  · obtain ⟨i, -, hi⟩ := mem_filterMap.1 h
    exact mem_of_getElem? hi

end Rag
