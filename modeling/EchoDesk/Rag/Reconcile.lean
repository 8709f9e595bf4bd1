import EchoDesk.Rag.Steps

/-! # Reads and removals

Processes ingest, delete, take snapshots and answer queries over one store, and upload
reconciliations remove documents behind its back: the row of the manifest in a transaction
of `app/upload/ownership.py`, the cache file afterwards, and the revision never. A removal is
final as long as no snapshot comes between its two steps, and no process goes on with a
snapshot it has from before it.
-/

namespace Rag

open EchoDesk Transition List Option Function Keyed

namespace Reconcile

variable (config : Config)
variable {scope : Scope}
variable {fault : Option Nat} {call : MutateCall} {target : String}

/-! ## Runs -/

/-- A file that a reconciliation is to unlink. -/
structure Unlink where
  key : DocKey
  path : String
  /-- The document was not written since its row was deleted. -/
  current : Bool
deriving DecidableEq

structure System where
  store : Store
  caches : Nat → Cache
  pending : List Unlink
  /-- The documents whose row and file a reconciliation has removed, and that were not written
  since, with their files. -/
  removed : List (DocKey × String)

def System.init : System := ⟨Store.init, fun _ => [], [], []⟩

/-- A committed write of a document begins its next life. -/
def System.rewritten (s : System) (key : DocKey) : System :=
  { s with
    pending := s.pending.map fun u => if u.key = key then { u with current := false } else u
    removed := s.removed.filter fun r => r.1 ≠ key }

/-- `_delete_projection_tx`. -/
def deleteProjection (s : System) (key : DocKey) : System :=
  match s.store.db.manifest.get? key with
  | none => s
  | some row =>
    { s with
      store := { s.store with db := s.store.db.deleteManifest key }
      pending := s.pending ++ [⟨key, row.indexPath, true⟩] }

/-- Files that were unlinked. -/
def System.finish (s : System) (unlinked : List Unlink) : System :=
  { s with
    pending := s.pending.diff unlinked
    removed := s.removed ++ (unlinked.filter Unlink.current).map fun u => (u.key, u.path) }

/-- `_unlink_one`. -/
def System.unlinkFile (s : System) (path : String) : System :=
  { s with store := { s.store with files := setFile s.store.files path none } }

inductive Label where
  /-- A transaction of `mutate_document`: an ingest or a delete. -/
  | mutate (call : MutateCall) (fault : Option Fault)
  /-- A snapshot, with the files that are unlinked meanwhile. -/
  | snapshot (scope : Scope) (unlinked : List Unlink) (fault : Option Nat)
  /-- `_snapshot_for_scope` of a process: for a query, or with force after an ingest. -/
  | load (process : Nat) (scope : Scope) (force : Bool) (unlinked : List Unlink)
      (fault : Option Nat)
  | restart (process : Nat)
  /-- The transaction of a reconciliation that removes the documents. -/
  | reconcile (keys : List DocKey)
  | unlink (u : Unlink)
  /-- A reconciliation stops before the unlink, or it fails. -/
  | lose (u : Unlink)

/-- The files that are unlinked during a snapshot of the scope, once it has weighed the texts. -/
def System.meanwhile (s : System) (scope : Scope) (unlinked : List Unlink) : List Unlink :=
  if config.maxScopePayloadBytes <
      ((s.store.db.documentsOf scope).map fun d => d.payload.textLength config).sum then []
  else unlinked.filter fun u => u ∈ s.pending

/-- The process goes on with the snapshot it has. -/
def System.fresh (s : System) (process : Nat) (scope : Scope) (force : Bool) : Bool :=
  !force && ((s.caches process).cached scope).any fun cached =>
    s.store.db.revision == cached.revision

def step (s : System) : Label → System
  | .mutate call fault =>
    match s.store.mutateDocument config call fault with
    | (.ok mutation, store) =>
      let s' := { s with store := store }
      if mutation.changed ∧ mutation.payload.isSome then s'.rewritten call.key else s'
    | (.error _, store) => { s with store := store }
  | .snapshot scope unlinked fault =>
    let unlinked := s.meanwhile config scope unlinked
    { s.finish unlinked with
      store := (s.store.snapshot config scope (unlinked.map Unlink.path) fault).2 }
  | .load process scope force unlinked fault =>
    let unlinked :=
      if s.fresh process scope force then [] else s.meanwhile config scope unlinked
    match snapshotForScope config s.store (s.caches process) scope force
        (unlinked.map Unlink.path) fault with
    | (_, store, cache) =>
      { s.finish unlinked with
        store := store
        caches := Function.update s.caches process cache }
  | .restart process => { s with caches := Function.update s.caches process [] }
  | .reconcile keys => keys.foldl deleteProjection s
  | .unlink u => if u ∈ s.pending then (s.unlinkFile u.path).finish [u] else s
  | .lose u => { s with pending := s.pending.erase u }

/-! ## The promises -/

/-- A load gives chunks of documents that are stored, and that no reconciliation has removed. -/
def Answers (s : System) : Label → Prop
  | .load process scope force unlinked fault =>
    let unlinked :=
      if s.fresh process scope force then [] else s.meanwhile config scope unlinked
    ∀ snapshot, (snapshotForScope config s.store (s.caches process) scope force
        (unlinked.map Unlink.path) fault).1 = .ok snapshot →
      ∀ meetings query topK, ∀ c ∈ answer config meetings snapshot query topK,
        ∃ d ∈ s.store.db.documents, d.scope = scope ∧ c ∈ d.payload.indexedChunks scope ∧
          ∀ r ∈ s.removed, r.1 ≠ d.key
  | _ => True

/-- The documents that were removed have no row and no file. -/
def Final (s : System) : Prop :=
  ∀ r ∈ s.removed, s.store.db.manifest.get? r.1 = none ∧ s.store.files r.2 = none

/-- What is promised of a step. -/
def Keeps (s : System) (l : Label) : Prop := Answers config s l ∧ Final (step config s l)

/-! ## The condition -/

/-- The file that the transaction of a call would write. -/
def written (st : Store) (call : MutateCall) (fault : Option Fault) : Option String :=
  if fault = some .early ∨ call.projectionGeneration.isSome ≠ call.projectionOperation.isSome ∨
      (call.projectionGeneration.any fun generation => generation < 0) then none
  else
    (config.safeIndexPath call.indexPath).bind fun target =>
      match st.db.mutate config target call with
      | .ok (.writes target _ _) => some target
      | _ => none

/-- The file is of no other document. -/
def System.Owned (s : System) (key : DocKey) (path : String) : Prop :=
  (∀ d ∈ s.store.db.documents, d.indexPath = path → d.key = key) ∧
    (∀ u ∈ s.pending, u.current = true → u.path = path → u.key = key) ∧
    ∀ r ∈ s.removed, r.2 = path → r.1 = key

/-- No document of the scope is between the two steps of a removal. -/
def System.Settled (s : System) (scope : Scope) : Prop :=
  ∀ u ∈ s.pending, u.current = true → ∀ d ∈ s.store.db.documents, d.key = u.key →
    d.scope = scope → s.store.files d.indexPath = none

/-- The step does not disturb a removal. -/
def Spares (s : System) : Label → Prop
  | .mutate call fault =>
    ∀ path ∈ written config s.store call fault, s.Owned call.key path ∧
      (fault = some .late → ∀ r ∈ s.removed, r.1 ≠ call.key)
  | .snapshot scope _ _ => s.Settled scope
  | .load process scope force _ _ =>
    if s.fresh process scope force then
      ∀ d ∈ s.store.db.documents, d.scope = scope → (∃ r ∈ s.removed, r.1 = d.key) →
        d.payload.indexedChunks scope = []
    else s.Settled scope
  | _ => True

instance (s : System) (key : DocKey) (path : String) : Decidable (s.Owned key path) :=
  inferInstanceAs (Decidable (_ ∧ _ ∧ _))

instance (s : System) (scope : Scope) : Decidable (s.Settled scope) :=
  inferInstanceAs (Decidable (∀ _ ∈ _, _ → ∀ _ ∈ _, _ → _ → _))

instance (s : System) : (l : Label) → Decidable (Spares config s l)
  | .mutate _ _ =>
    inferInstanceAs (Decidable (∀ _ ∈ _, _ ∧ _))
  | .snapshot scope _ _ => inferInstanceAs (Decidable (s.Settled scope))
  | .load process scope force _ _ =>
    inferInstanceAs (Decidable (if s.fresh process scope force then _ else _))
  | .restart _ | .reconcile _ | .unlink _ | .lose _ => .isTrue trivial

/-! ## The invariant -/

/-- The files of the documents, and the rows and files of those that are being removed. -/
structure Inv (s : System) : Prop where
  payloads : ∀ d ∈ s.store.db.documents, ∃ fields, d.payload.fields = .ok fields ∧
    d.key = (fields.scope, fields.docId)
  rows : ∀ row ∈ s.store.db.manifest, ∃ d ∈ s.store.db.documents, d.key = row.key ∧
    d.indexPath = row.indexPath
  paths : ∀ d ∈ s.store.db.documents, s.Owned d.key d.indexPath
  half : ∀ u ∈ s.pending, u.current = true → s.store.db.manifest.get? u.key = none ∧
    ∀ d ∈ s.store.db.documents, d.key = u.key → d.indexPath = u.path
  removed : ∀ r ∈ s.removed, s.store.db.manifest.get? r.1 = none ∧ s.store.files r.2 = none ∧
    ∀ d ∈ s.store.db.documents, d.key = r.1 → d.indexPath = r.2
  cached : ∀ process, ∀ snapshot ∈ s.caches process, snapshot.revision ≤ s.store.db.revision ∧
      (snapshot.revision = s.store.db.revision → snapshot.chunks =
        (s.store.db.documentsOf snapshot.scope).flatMap fun d =>
          d.payload.indexedChunks snapshot.scope)

theorem inv_init : Inv System.init := by
  refine ⟨?_, ?_, ?_, ?_, ?_, ?_⟩
  · intro d hd
    cases hd
  · intro row hrow
    cases hrow
  · intro d hd
    cases hd
  · intro u hu
    cases hu
  · intro r hr
    cases hr
  · intro process snapshot hsnapshot
    cases hsnapshot

variable {config}

variable {s : System} {unlinked : List Unlink} {d : Document} {st : Store} {process : Nat}

/-- A store that has lost documents and rows, and no file of a removed document is back. -/
theorem Inv.store (h : Inv s) {store : Store}
    (hdocuments : ∀ d ∈ store.db.documents, d ∈ s.store.db.documents)
    (hrows : ∀ row ∈ store.db.manifest, ∃ d ∈ store.db.documents, d.key = row.key ∧
      d.indexPath = row.indexPath)
    (hhalf : ∀ u ∈ s.pending, u.current = true → store.db.manifest.get? u.key = none)
    (hremoved : ∀ r ∈ s.removed, store.db.manifest.get? r.1 = none ∧ store.files r.2 = none)
    (hrevision : s.store.db.revision ≤ store.db.revision)
    (hsame : store.db.revision = s.store.db.revision → store.db.documents = s.store.db.documents) :
    Inv { s with store := store } := by
  refine ⟨?_, hrows, ?_, ?_, ?_, ?_⟩
  · intro d hd
    exact h.payloads d (hdocuments d hd)
  · intro d hd
    obtain ⟨hpaths, hpending, hgone⟩ := h.paths d (hdocuments d hd)
    refine ⟨?_, hpending, hgone⟩
    intro e he
    exact hpaths e (hdocuments e he)
  · intro u hu hcurrent
    refine ⟨hhalf u hu hcurrent, ?_⟩
    intro d hd
    exact (h.half u hu hcurrent).2 d (hdocuments d hd)
  · intro r hr
    obtain ⟨hrow, hfile⟩ := hremoved r hr
    refine ⟨hrow, hfile, ?_⟩
    intro d hd
    exact (h.removed r hr).2.2 d (hdocuments d hd)
  intro process snapshot hsnapshot
  obtain ⟨hle, hchunks⟩ := h.cached process snapshot hsnapshot
  refine ⟨hle.trans hrevision, ?_⟩
  intro heq
  have hkept : store.db.revision = s.store.db.revision :=
    Nat.le_antisymm (heq ▸ hle) hrevision
  have hdocs := hsame hkept
  show snapshot.chunks = (store.db.documentsOf snapshot.scope).flatMap _
  rw [Db.documentsOf, hdocs]
  exact hchunks (heq.trans hkept)

/-- Only files change, and none that was removed comes back. -/
theorem Inv.files (h : Inv s) {store : Store} (hdb : store.db = s.store.db)
    (hfiles : ∀ r ∈ s.removed, store.files r.2 = none) : Inv { s with store := store } := by
  apply h.store
  · rw [hdb]
    exact fun _ hd => hd
  · rw [hdb]
    exact h.rows
  · intro u hu hcurrent
    rw [hdb]
    exact (h.half u hu hcurrent).1
  · intro r hr
    rw [hdb]
    exact ⟨(h.removed r hr).1, hfiles r hr⟩
  · rw [hdb]
  · rw [hdb]
    exact fun _ => rfl

/-- Files that are unlinked complete the removal of their documents. -/
theorem Inv.finish (h : Inv s) (hqueued : ∀ u ∈ unlinked, u ∈ s.pending)
    (hfiles : ∀ u ∈ unlinked, u.current = true → s.store.files u.path = none) :
    Inv (s.finish unlinked) := by
  have hpending : ∀ u ∈ (s.finish unlinked).pending, u ∈ s.pending := by
    intro u hu
    exact diff_subset s.pending unlinked hu
  have hremoved : ∀ r ∈ (s.finish unlinked).removed, r ∈ s.removed ∨
      ∃ u ∈ unlinked, u.current = true ∧ r = (u.key, u.path) := by
    intro r hr
    rcases mem_append.1 hr with hr | hr
    · exact .inl hr
    obtain ⟨u, hu, rfl⟩ := mem_map.1 hr
    obtain ⟨hu, hcurrent⟩ := mem_filter.1 hu
    exact .inr ⟨u, hu, hcurrent, rfl⟩
  refine ⟨h.payloads, h.rows, ?_, ?_, ?_, h.cached⟩
  · intro d hd
    obtain ⟨hpaths, howned, hgone⟩ := h.paths d hd
    refine ⟨hpaths, ?_, ?_⟩
    · intro u hu
      exact howned u (hpending u hu)
    intro r hr hpath
    rcases hremoved r hr with hr | ⟨u, hu, hcurrent, rfl⟩
    · exact hgone r hr hpath
    · exact howned u (hqueued u hu) hcurrent hpath
  · intro u hu
    exact h.half u (hpending u hu)
  · intro r hr
    rcases hremoved r hr with hr | ⟨u, hu, hcurrent, rfl⟩
    · exact h.removed r hr
    · obtain ⟨hrow, hpath⟩ := h.half u (hqueued u hu) hcurrent
      exact ⟨hrow, hfiles u hu hcurrent, hpath⟩

/-! ## Reconciliations -/

theorem inv_deleteProjection (h : Inv s) (key : DocKey) : Inv (deleteProjection s key) := by
  unfold deleteProjection
  cases hrow : s.store.db.manifest.get? key with
  | none => exact h
  | some row =>
    obtain ⟨hmem, hkey⟩ := mem_get?.1 hrow
    obtain ⟨d, hd, hdkey, hdpath⟩ := h.rows row hmem
    have hsole : ∀ e ∈ s.store.db.documents, e.key = key → e = d := by
      intro e he hekey
      exact inj_on_of_nodup_map s.store.db.documents.nodup he hd
        (hekey.trans (hkey.symm.trans hdkey.symm))
    have herase : ∀ k, s.store.db.manifest.get? k = none →
        (s.store.db.manifest.erase key).get? k = none := by
      intro k hnone
      rw [get?_erase, hnone, ite_self]
    refine ⟨h.payloads, ?_, ?_, ?_, ?_, h.cached⟩
    · intro row' hrow'
      exact h.rows row' (mem_erase.1 hrow').1
    · intro e he
      obtain ⟨hpaths, howned, hgone⟩ := h.paths e he
      refine ⟨hpaths, ?_, hgone⟩
      intro u hu hcurrent hpath
      rcases mem_append.1 hu with hu | hu
      · exact howned u hu hcurrent hpath
      · obtain rfl := mem_singleton.1 hu
        exact (hkey.symm.trans hdkey.symm).trans (hpaths d hd (hdpath.trans hpath))
    · intro u hu hcurrent
      rcases mem_append.1 hu with hu | hu
      · obtain ⟨hnone, hpath⟩ := h.half u hu hcurrent
        exact ⟨herase u.key hnone, hpath⟩
      obtain rfl := mem_singleton.1 hu
      constructor
      · show (s.store.db.manifest.erase key).get? key = none
        rw [get?_erase, if_pos rfl]
      · intro e he hekey
        rw [hsole e he hekey]
        exact hdpath
    · intro r hr
      obtain ⟨hnone, hfile, hpath⟩ := h.removed r hr
      exact ⟨herase r.1 hnone, hfile, hpath⟩

theorem inv_reconcile (h : Inv s) (keys : List DocKey) : Inv (keys.foldl deleteProjection s) := by
  induction keys generalizing s with
  | nil => exact h
  | cons key keys ih => exact ih (inv_deleteProjection h key)

/-! ## Ingests and deletes -/

/-- What a transaction does, and how its result tells. -/
inductive Outcome (config : Config) (st : Store) (call : MutateCall) (fault : Option Fault)
    (result : Except RagError IndexMutation) (st' : Store) : Prop where
  | raised (hresult : ∃ error, result = .error error) (hdb : st'.db = st.db)
      (hfiles : ∀ path, st'.files path = st.files path ∨ st'.files path = none ∨
        fault = some .late ∧ written config st call fault = some path)
  | kept (mutation : IndexMutation) (hresult : result = .ok mutation)
      (hunchanged : mutation.changed = false) (hdocuments : st'.db.documents = st.db.documents)
      (hmanifest : st'.db.manifest = st.db.manifest) (hrevision : st'.db.revision = st.db.revision)
      (hfiles : st'.files = st.files)
  | deleted (mutation : IndexMutation) (hresult : result = .ok mutation)
      (hpayload : mutation.payload = none)
      (hdocuments : st'.db.documents = st.db.documents.erase call.key)
      (hmanifest : st'.db.manifest = st.db.manifest.erase call.key)
      (hrevision : st'.db.revision = st.db.revision + 1)
      (hfiles : ∀ path, st'.files path = st.files path ∨ st'.files path = none)
  | stored (mutation : IndexMutation) (target : String) (proposed normalized : Payload)
      (hresult : result = .ok mutation) (hchanged : mutation.changed = true)
      (hpayload : mutation.payload = some normalized)
      (hwritten : Written config st.db call target proposed normalized st'.db)
      (htarget : written config st call fault = some target)
      (hfiles : ∀ path, path ≠ target → st'.files path = st.files path)

theorem setFile_of_ne {files : String → Option CacheFile} {path : String} (h : path ≠ target)
    (file : Option CacheFile) :
    setFile files target file path = files path := update_of_ne h _ _

theorem mutate_outcome (config : Config) (st : Store) (call : MutateCall) (fault : Option Fault) :
    Outcome config st call fault (st.mutateDocument config call fault).1
      (st.mutateDocument config call fault).2 := by
  obtain ⟨hrevision, hdocuments, hmanifest⟩ := raiseFence_tables st.db call
  unfold Store.mutateDocument
  by_cases hfence : call.projectionGeneration.isSome ≠ call.projectionOperation.isSome
  · rw [if_pos hfence]
    exact .raised ⟨_, rfl⟩ rfl fun _ => .inl rfl
  rw [if_neg hfence]
  by_cases hnegative : (call.projectionGeneration.any fun generation => generation < 0) = true
  · rw [if_pos hnegative]
    exact .raised ⟨_, rfl⟩ rfl fun _ => .inl rfl
  rw [if_neg hnegative]
  cases htarget : config.safeIndexPath call.indexPath with
  | none => exact .raised ⟨_, rfl⟩ rfl fun _ => .inl rfl
  | some target =>
    dsimp only
    rcases mutate_cases config st.db target call with ⟨error, heq⟩ | ⟨hfenced, existing, heq⟩ |
      ⟨hfenced, ⟨hmutator, hrow, heq⟩ | ⟨hmutator, heq⟩ |
        ⟨proposed, normalized, db', hmutator, hwritten, heq⟩⟩
    · rw [heq]
      exact .raised ⟨_, rfl⟩ rfl fun _ => .inl rfl
    · rw [heq]
      unfold Store.commit
      dsimp only
      split
      · exact .raised ⟨_, rfl⟩ rfl fun _ => .inl rfl
      · exact .kept _ rfl rfl rfl rfl rfl rfl
    · rw [heq]
      unfold Store.commit
      dsimp only
      split
      · exact .raised ⟨_, rfl⟩ rfl fun _ => .inl rfl
      · exact .kept _ rfl rfl hdocuments hmanifest hrevision rfl
    · rw [heq]
      have hfiles : ∀ path, setFile st.files (st.db.target target call) none path = st.files path ∨
          setFile st.files (st.db.target target call) none path = none := by
        intro path
        by_cases hpath : path = st.db.target target call
        · rw [hpath]
          exact .inr (update_self _ _ _)
        · exact .inl (setFile_of_ne hpath none)
      unfold Store.commit
      dsimp only
      split
      · exact .raised ⟨_, rfl⟩ rfl fun _ => .inl rfl
      · exact .raised ⟨_, rfl⟩ rfl fun path => (hfiles path).imp id .inl
      refine .deleted _ rfl rfl rfl ?_ rfl hfiles
      show (st.db.raiseFence call).manifest.erase call.key = _
      rw [hmanifest]
    have hwrites : fault ≠ some .early →
        written config st call fault = some (st.db.target target call) := by
      intro hearly
      unfold written
      rw [if_neg, htarget, bind_some, heq]
      rintro (h | h | h)
      · exact hearly h
      · exact hfence h
      · exact hnegative h
    rw [heq]
    cases fault with
    | none =>
      exact .stored _ _ proposed normalized rfl rfl rfl hwritten (hwrites nofun)
        fun path hpath => setFile_of_ne hpath _
    | some fault =>
      cases fault with
      | early => exact .raised ⟨_, rfl⟩ rfl fun _ => .inl rfl
      | late =>
        refine .raised ⟨_, rfl⟩ rfl ?_
        intro path
        by_cases hpath : path = st.db.target target call
        · refine .inr (.inr ⟨rfl, ?_⟩)
          rw [hpath]
          exact hwrites nofun
        · exact .inl (setFile_of_ne hpath _)

/-- A document that is written begins its next life. -/
theorem Inv.written (h : Inv s) {store : Store} {proposed normalized : Payload}
    (hwritten : Written config s.store.db call target proposed normalized store.db)
    (howned : s.Owned call.key target)
    (hfiles : ∀ r ∈ s.removed, r.1 ≠ call.key → store.files r.2 = none) :
    Inv ({ s with store := store }.rewritten call.key) := by
  obtain ⟨hdocpaths, hpending, hgone⟩ := howned
  obtain ⟨fields, hfields, hkey, -, hmanifest⟩ := hwritten.manifest
  have hrewritten : ∀ u ∈ ({ s with store := store }.rewritten call.key).pending,
      u.current = true → u ∈ s.pending ∧ u.key ≠ call.key := by
    intro u hu hcurrent
    obtain ⟨u', hu', rfl⟩ := mem_map.1 hu
    split at hcurrent
    · cases hcurrent
    rename_i hne
    rw [if_neg hne]
    exact ⟨hu', hne⟩
  have hfiltered : ∀ r ∈ ({ s with store := store }.rewritten call.key).removed,
      r ∈ s.removed ∧ r.1 ≠ call.key := by
    intro r hr
    obtain ⟨hr, hne⟩ := mem_filter.1 hr
    exact ⟨hr, of_decide_eq_true hne⟩
  have hput : ∀ d ∈ store.db.documents, d.key = call.key ∧ d.indexPath = target ∧
      d.payload = normalized ∨ d ∈ s.store.db.documents ∧ d.key ≠ call.key := by
    intro d hd
    rw [hwritten.documents, mem_put] at hd
    rcases hd with rfl | hd
    · exact .inl ⟨rfl, rfl, rfl⟩
    · exact .inr hd
  have hnone : ∀ key, key ≠ call.key → s.store.db.manifest.get? key = none →
      store.db.manifest.get? key = none := by
    intro key hne hnone
    have hrow : key ≠ (manifestRow fields target).key := fun heq => hne (heq.trans hkey)
    rw [hmanifest, get?_put, if_neg hrow]
    exact hnone
  refine ⟨?_, ?_, ?_, ?_, ?_, ?_⟩
  -- every document is the one written, or an older one under another key
  · intro d hd
    rcases hput d hd with ⟨hdkey, -, hpayload⟩ | ⟨hd, -⟩
    · rw [hpayload, hdkey]
      exact ⟨fields, hfields, hkey.symm⟩
    · exact h.payloads d hd
  · intro row hrow
    have hrow : row ∈ store.db.manifest := hrow
    rw [hmanifest, mem_put] at hrow
    rcases hrow with rfl | ⟨hrow, hne⟩
    · refine ⟨⟨call.scope, call.docId, target, normalized, s.store.db.revision + 1⟩, ?_,
        hkey.symm, rfl⟩
      show _ ∈ store.db.documents
      rw [hwritten.documents, mem_put]
      exact .inl rfl
    obtain ⟨d, hd, hdkey, hdpath⟩ := h.rows row hrow
    refine ⟨d, ?_, hdkey, hdpath⟩
    show d ∈ store.db.documents
    rw [hwritten.documents, mem_put]
    refine .inr ⟨hd, ?_⟩
    intro heq
    exact hne ((hdkey.symm.trans heq).trans hkey.symm)
  · intro d hd
    rcases hput d hd with ⟨hdkey, hdpath, -⟩ | ⟨hd, hdne⟩
    · rw [hdkey, hdpath]
      refine ⟨?_, ?_, ?_⟩
      · intro e he hepath
        rcases hput e he with ⟨hekey, -, -⟩ | ⟨he, -⟩
        · exact hekey
        · exact hdocpaths e he hepath
      · intro u hu hcurrent
        exact hpending u (hrewritten u hu hcurrent).1 hcurrent
      · intro r hr
        exact hgone r (hfiltered r hr).1
    obtain ⟨hpaths, howned, hdgone⟩ := h.paths d hd
    refine ⟨?_, ?_, ?_⟩
    · intro e he hepath
      rcases hput e he with ⟨-, hetarget, -⟩ | ⟨he, -⟩
      · exact absurd (hdocpaths d hd (hepath.symm.trans hetarget)) hdne
      · exact hpaths e he hepath
    · intro u hu hcurrent
      exact howned u (hrewritten u hu hcurrent).1 hcurrent
    · intro r hr
      exact hdgone r (hfiltered r hr).1
  · intro u hu hcurrent
    obtain ⟨hu, hne⟩ := hrewritten u hu hcurrent
    obtain ⟨hrow, hpath⟩ := h.half u hu hcurrent
    refine ⟨hnone u.key hne hrow, ?_⟩
    intro d hd hdkey
    rcases hput d hd with ⟨hkey', -, -⟩ | ⟨hd, -⟩
    · exact absurd (hdkey.symm.trans hkey') hne
    · exact hpath d hd hdkey
  · intro r hr
    obtain ⟨hr, hne⟩ := hfiltered r hr
    obtain ⟨hrow, -, hpath⟩ := h.removed r hr
    refine ⟨hnone r.1 hne hrow, hfiles r hr hne, ?_⟩
    intro d hd hdkey
    rcases hput d hd with ⟨hkey', -, -⟩ | ⟨hd, -⟩
    · exact absurd (hdkey.symm.trans hkey') hne
    · exact hpath d hd hdkey
  · intro process snapshot hsnapshot
    have hle := (h.cached process snapshot hsnapshot).1
    show snapshot.revision ≤ store.db.revision ∧ _
    rw [hwritten.revision]
    refine ⟨Nat.le_succ_of_le hle, ?_⟩
    intro heq
    have heq : snapshot.revision = s.store.db.revision + 1 := heq.trans hwritten.revision
    omega

theorem inv_mutate (h : Inv s) {fault : Option Fault}
    (hspares : Spares config s (.mutate call fault)) :
    Inv (step config s (.mutate call fault)) := by
  have houtcome := mutate_outcome config s.store call fault
  simp only [step]
  generalize s.store.mutateDocument config call fault = outcome at houtcome
  obtain ⟨result, store⟩ := outcome
  cases houtcome with
  | raised hresult hdb hfiles =>
    obtain ⟨error, rfl⟩ := hresult
    apply h.files hdb
    intro r hr
    rcases hfiles r.2 with hsame | hnone | ⟨hlate, hpath⟩
    · rw [hsame]
      exact (h.removed r hr).2.1
    · exact hnone
    · obtain ⟨⟨-, -, hgone⟩, hother⟩ := hspares r.2 hpath
      exact absurd (hgone r hr rfl) (hother hlate r hr)
  | kept mutation hresult hunchanged hdocuments hmanifest hrevision hfiles =>
    subst hresult
    dsimp only
    rw [hunchanged, if_neg (fun hchanged => Bool.false_ne_true hchanged.1)]
    apply h.store
    · rw [hdocuments]
      exact fun _ hd => hd
    · rw [hdocuments, hmanifest]
      exact h.rows
    · intro u hu hcurrent
      rw [hmanifest]
      exact (h.half u hu hcurrent).1
    · intro r hr
      rw [hmanifest, hfiles]
      exact ⟨(h.removed r hr).1, (h.removed r hr).2.1⟩
    · exact Nat.le_of_eq hrevision.symm
    · exact fun _ => hdocuments
  | deleted mutation hresult hpayload hdocuments hmanifest hrevision hfiles =>
    subst hresult
    dsimp only
    rw [hpayload, if_neg (fun hchanged => Bool.false_ne_true hchanged.2)]
    have herase : ∀ key, s.store.db.manifest.get? key = none →
        store.db.manifest.get? key = none := by
      intro key hnone
      rw [hmanifest, get?_erase, hnone, ite_self]
    apply h.store
    · intro d hd
      rw [hdocuments] at hd
      exact (mem_erase.1 hd).1
    · intro row hrow
      rw [hmanifest] at hrow
      obtain ⟨hrow, hne⟩ := mem_erase.1 hrow
      obtain ⟨d, hd, hkey, hpath⟩ := h.rows row hrow
      refine ⟨d, ?_, hkey, hpath⟩
      rw [hdocuments]
      exact mem_erase.2 ⟨hd, fun heq => hne (hkey.symm.trans heq)⟩
    · intro u hu hcurrent
      exact herase u.key (h.half u hu hcurrent).1
    · intro r hr
      refine ⟨herase r.1 (h.removed r hr).1, ?_⟩
      rcases hfiles r.2 with hsame | hnone
      · rw [hsame]
        exact (h.removed r hr).2.1
      · exact hnone
    · rw [hrevision]
      exact Nat.le_succ _
    · intro heq
      exact absurd (heq.symm.trans hrevision) (Nat.ne_of_lt (Nat.lt_succ_self _))
  | stored mutation target proposed normalized hresult hchanged hpayload hwritten htarget hfiles =>
    subst hresult
    dsimp only
    rw [hchanged, hpayload, if_pos ⟨rfl, rfl⟩]
    obtain ⟨howned, -⟩ := hspares target htarget
    apply h.written hwritten howned
    intro r hr hne
    have hpath : r.2 ≠ target := fun heq => hne (howned.2.2 r hr heq)
    rw [hfiles r.2 hpath]
    exact (h.removed r hr).2.1

/-! ## Snapshots -/

/-- Only the files and the rows of the documents that are restored are written. -/
theorem restoreDocuments_frame {db : Db} {files : String → Option CacheFile} {rows : List Document}
    (hpayloads : ∀ d ∈ rows, ∃ fields, d.payload.fields = .ok fields ∧
      d.key = (fields.scope, fields.docId)) :
    (restoreDocuments db files rows).2.1.documents = db.documents ∧
      (restoreDocuments db files rows).2.1.revision = db.revision ∧
      (∀ key, (∀ d ∈ rows, d.key ≠ key) →
        (restoreDocuments db files rows).2.1.manifest.get? key = db.manifest.get? key) ∧
      (∀ row ∈ (restoreDocuments db files rows).2.1.manifest, row ∈ db.manifest ∨
        ∃ d ∈ rows, d.key = row.key ∧ d.indexPath = row.indexPath) ∧
      ∀ path, (∀ d ∈ rows, d.indexPath ≠ path) →
        (restoreDocuments db files rows).2.2 path = files path := by
  induction rows generalizing db files with
  | nil => exact ⟨rfl, rfl, fun _ _ => rfl, fun _ hrow => .inl hrow, fun _ _ => rfl⟩
  | cons d rest ih =>
    obtain ⟨fields, hfields, hkey⟩ := hpayloads d mem_cons_self
    have hfile : ∀ path, (∀ e ∈ d :: rest, e.indexPath ≠ path) →
        setFile files d.indexPath (some (.written d.payload)) path = files path :=
      fun path hpaths => setFile_of_ne (Ne.symm (hpaths d mem_cons_self)) _
    unfold restoreDocuments
    rcases upsertManifest_cases db hfields d.indexPath with heq | ⟨-, heq⟩
    · rw [heq]
      exact ⟨rfl, rfl, fun _ _ => rfl, fun _ hrow => .inl hrow, hfile⟩
    rw [heq]
    have hrest : ∀ e ∈ rest, e ∈ d :: rest := fun e he => mem_cons_of_mem d he
    have hih := @ih { db with manifest := db.manifest.put (manifestRow fields d.indexPath) }
      (setFile files d.indexPath (some (.written d.payload))) fun e he => hpayloads e (hrest e he)
    obtain ⟨hdocuments, hrevision, hkeys, hrows, hfiles⟩ := hih
    refine ⟨hdocuments, hrevision, ?_, ?_, ?_⟩
    · intro key hne
      rw [hkeys key fun e he => hne e (hrest e he)]
      rw [get?_put, if_neg]
      intro heq
      exact hne d mem_cons_self (hkey.trans heq.symm)
    · intro row hrow
      rcases hrows row hrow with hrow | ⟨e, he, hekey, hepath⟩
      · rw [mem_put] at hrow
        rcases hrow with rfl | ⟨hrow, -⟩
        · exact .inr ⟨d, mem_cons_self, hkey, rfl⟩
        · exact .inl hrow
      · exact .inr ⟨e, hrest e he, hekey, hepath⟩
    · intro path hne
      rw [hfiles path fun e he => hne e (hrest e he)]
      exact hfile path hne

theorem repairOrphanCaches_cases (files : String → Option CacheFile) (tracked : List String)
    (scope : Scope) (path : String) :
    repairOrphanCaches files tracked scope path = files path ∨
      repairOrphanCaches files tracked scope path = none := by
  unfold repairOrphanCaches
  split
  · split
    · exact .inr rfl
    · exact .inl rfl
  · exact .inl rfl

theorem mem_eraseAll {documents : Keyed Document.key} {lost : List Document} :
    d ∈ lost.foldl (fun documents d => documents.erase d.key) documents ↔
      d ∈ documents ∧ ∀ e ∈ lost, d.key ≠ e.key := by
  induction lost generalizing documents with
  | nil => simp
  | cons e lost ih =>
    rw [foldl_cons, ih, mem_erase, and_assoc]
    simp

/-- The documents that were deleted externally are dropped. -/
theorem dropDeleted_spec (st : Store) (scope : Scope) : (∀ d, d ∈ (st.dropDeleted scope).documents ↔
      d ∈ st.db.documents ∧ ∀ e ∈ st.externallyDeleted scope, d.key ≠ e.key) ∧
    (st.dropDeleted scope).manifest = st.db.manifest ∧
    st.db.revision ≤ (st.dropDeleted scope).revision ∧
    ((st.dropDeleted scope).revision = st.db.revision →
      (st.dropDeleted scope).documents = st.db.documents) := by
  unfold Store.dropDeleted
  dsimp only
  split
  · rename_i hnone
    rw [List.isEmpty_iff] at hnone
    rw [hnone]
    refine ⟨?_, rfl, le_rfl, fun _ => rfl⟩
    intro d
    simp
  · refine ⟨fun d => mem_eraseAll, rfl, Nat.le_succ _, ?_⟩
    intro heq
    exact absurd heq (Nat.succ_ne_self _)

/-- A document without a file and without a row is dropped. -/
theorem dropped (hd : d ∈ st.db.documents) (hscope : d.scope = scope)
    (hfile : st.files d.indexPath = none) (hrow : st.db.manifest.get? d.key = none) :
    d ∉ (st.dropDeleted scope).documents := by
  intro hmem
  refine ((dropDeleted_spec st scope).1 d |>.1 hmem).2 d ?_ rfl
  unfold Store.externallyDeleted
  rw [mem_filter]
  refine ⟨mem_documentsOf.2 ⟨hd, hscope⟩, ?_⟩
  rw [hfile, hrow]
  rfl

/-- What a snapshot leaves behind, and what it gives. -/
structure Snapped (st : Store) (scope : Scope) (unlinked : List String)
    (result : Except RagError IndexSnapshot) (st' : Store) : Prop where
  documents : ∀ d ∈ st'.db.documents, d ∈ st.db.documents
  revision : st.db.revision ≤ st'.db.revision
  same : st'.db.revision = st.db.revision → st'.db.documents = st.db.documents
  rows : ∀ row ∈ st'.db.manifest, ∃ d ∈ st'.db.documents, d.key = row.key ∧
    d.indexPath = row.indexPath
  keys : ∀ key, (∀ d ∈ (st.dropDeleted scope).documents, d.scope = scope → d.key ≠ key) →
    st'.db.manifest.get? key = st.db.manifest.get? key
  files : ∀ path, (∀ d ∈ (st.dropDeleted scope).documents, d.scope = scope → d.indexPath ≠ path) →
    path ∈ unlinked ∨ st.files path = none → st'.files path = none
  durable : ∀ durable, result = .ok durable → durable.revision = st'.db.revision ∧
    durable.documents = st'.db.documentsOf scope ∧
    st'.db.documents = (st.dropDeleted scope).documents

theorem snapped (config : Config)
    (hpayloads : ∀ d ∈ st.db.documents, ∃ fields, d.payload.fields = .ok fields ∧
      d.key = (fields.scope, fields.docId))
    (hrows : ∀ row ∈ st.db.manifest, ∃ d ∈ st.db.documents, d.key = row.key ∧
      d.indexPath = row.indexPath) {unlinked : List String} (fault : Option Nat)
    (hrefused : config.maxScopePayloadBytes <
      ((st.db.documentsOf scope).map fun d => d.payload.textLength config).sum → unlinked = []) :
    Snapped st scope unlinked (st.snapshot config scope unlinked fault).1
      (st.snapshot config scope unlinked fault).2 := by
  obtain ⟨hdropped, hmanifest, hrevision, hsame⟩ := dropDeleted_spec st scope
  have hkept : ∀ d ∈ (st.dropDeleted scope).documents, d ∈ st.db.documents :=
    fun d hd => ((hdropped d).1 hd).1
  have hmem : ∀ d, d ∈ (st.dropDeleted scope).documentsOf scope ↔
      d ∈ (st.dropDeleted scope).documents ∧ d.scope = scope := fun d => mem_documentsOf
  -- a document with a row stays
  have hrowsKept : ∀ row ∈ st.db.manifest, ∃ d ∈ (st.dropDeleted scope).documents,
      d.key = row.key ∧ d.indexPath = row.indexPath := by
    intro row hrow
    obtain ⟨d, hd, hkey, hpath⟩ := hrows row hrow
    refine ⟨d, (hdropped d).2 ⟨hd, ?_⟩, hkey, hpath⟩
    intro e he heq
    have hnone : st.db.manifest.get? e.key = none := by
      have hlost := (mem_filter.1 he).2
      rw [Bool.and_eq_true, isNone_iff_eq_none, isNone_iff_eq_none] at hlost
      exact hlost.2
    exact get?_eq_none.1 hnone row hrow (hkey.symm.trans heq)
  have hframe : ∀ rows, (∀ d ∈ rows, d ∈ (st.dropDeleted scope).documentsOf scope) →
      _ := fun rows (hin : ∀ d ∈ rows, d ∈ (st.dropDeleted scope).documentsOf scope) =>
    @restoreDocuments_frame (st.dropDeleted scope)
      (fun path => if path ∈ unlinked then none else st.files path) rows
      fun d hd => hpayloads d (hkept d ((hmem d).1 (hin d hd)).1)
  have hquiet : ∀ files : String → Option CacheFile,
      (∀ path, (∀ d ∈ (st.dropDeleted scope).documents, d.scope = scope → d.indexPath ≠ path) →
        path ∈ unlinked ∨ st.files path = none → files path = none) →
      ∀ error, Snapped st scope unlinked (.error error) ⟨st.db, files⟩ := by
    intro files hfiles error
    exact ⟨fun _ hd => hd, le_rfl, fun _ => rfl, hrows, fun _ _ => rfl, hfiles,
      fun _ hok => nomatch hok⟩
  have hfiles : ∀ rows, (∀ d ∈ rows, d ∈ (st.dropDeleted scope).documentsOf scope) →
      ∀ path, (∀ d ∈ (st.dropDeleted scope).documents, d.scope = scope → d.indexPath ≠ path) →
        path ∈ unlinked ∨ st.files path = none →
        (restoreDocuments (st.dropDeleted scope)
          (fun path => if path ∈ unlinked then none else st.files path) rows).2.2 path = none := by
    intro rows hin path hpath hnone
    obtain ⟨-, -, -, -, hframe⟩ := hframe rows hin
    rw [hframe path fun d hd => hpath d ((hmem d).1 (hin d hd)).1 ((hmem d).1 (hin d hd)).2]
    rcases hnone with hunlinked | hnone
    · exact if_pos hunlinked
    · rw [hnone, ite_self]
  have hrepaired : ∀ files : String → Option CacheFile, ∀ tracked path, files path = none →
      repairOrphanCaches files tracked scope path = none := by
    intro files tracked path hnone
    rcases repairOrphanCaches_cases files tracked scope path with heq | heq
    · rw [heq, hnone]
    · exact heq
  unfold Store.snapshot
  dsimp only
  split
  -- the scope is too large: the snapshot is refused before it restores a row
  · rename_i hsize
    refine hquiet st.files ?_ _
    intro path _ hnone
    rw [hrefused hsize] at hnone
    rcases hnone with hnil | hnone
    · cases hnil
    · exact hnone
  split
  -- the fault stops the restore, or what follows it
  · split
    · refine hquiet _ ?_ _
      exact hfiles _ fun d hd => mem_of_mem_take hd
    · refine hquiet _ ?_ _
      intro path hpath hnone
      exact hrepaired _ _ path (hfiles _ (fun _ hd => hd) path hpath hnone)
  have hrestored := hframe _ fun _ hd => hd
  have hfiles := hfiles _ fun _ hd => hd
  generalize restoreDocuments (st.dropDeleted scope)
    (fun path => if path ∈ unlinked then none else st.files path)
    ((st.dropDeleted scope).documentsOf scope) = outcome at hrestored hfiles
  obtain ⟨error, db, files⟩ := outcome
  obtain ⟨hdocuments, hrev, hkeys, hnew, -⟩ := hrestored
  cases error with
  | some error =>
    exact hquiet files hfiles error
  | none =>
    refine ⟨?_, ?_, ?_, ?_, ?_, ?_, ?_⟩
    · intro d hd
      rw [hdocuments] at hd
      exact hkept d hd
    · exact hrevision.trans (Nat.le_of_eq hrev.symm)
    · intro heq
      exact hdocuments.trans (hsame (hrev.symm.trans heq))
    · intro row hrow
      rw [hdocuments]
      rcases hnew row hrow with hrow | ⟨d, hd, hkey, hpath⟩
      · rw [hmanifest] at hrow
        exact hrowsKept row hrow
      · exact ⟨d, ((hmem d).1 hd).1, hkey, hpath⟩
    · intro key hkey
      rw [hkeys key fun d hd => hkey d ((hmem d).1 hd).1 ((hmem d).1 hd).2, hmanifest]
    · intro path hpath hnone
      exact hrepaired files _ path (hfiles path hpath hnone)
    · intro durable hok
      cases hok
      refine ⟨rfl, ?_, hdocuments⟩
      rw [Db.documentsOf, Db.documentsOf, hdocuments]

/-- A document that was removed is not among those a snapshot keeps. -/
theorem Inv.removed_dropped (h : Inv s) {r : DocKey × String} (hr : r ∈ s.removed)
    (hd : d ∈ (s.store.dropDeleted scope).documents) (hscope : d.scope = scope) : d.key ≠ r.1 := by
  intro hkey
  obtain ⟨hrow, hfile, hpath⟩ := h.removed r hr
  have hmem := ((dropDeleted_spec s.store scope).1 d |>.1 hd).1
  refine dropped hmem hscope ?_ ?_ hd
  · rw [hpath d hmem hkey]
    exact hfile
  · rw [hkey]
    exact hrow

/-- In a settled scope, neither is one that is being removed. -/
theorem Inv.pending_dropped (h : Inv s) {u : Unlink} (hu : u ∈ s.pending)
    (hcurrent : u.current = true) (hsettled : s.Settled scope)
    (hd : d ∈ (s.store.dropDeleted scope).documents) (hscope : d.scope = scope) :
    d.key ≠ u.key := by
  intro hkey
  have hmem := ((dropDeleted_spec s.store scope).1 d |>.1 hd).1
  refine dropped hmem hscope (hsettled u hu hcurrent d hmem hkey hscope) ?_ hd
  rw [hkey]
  exact (h.half u hu hcurrent).1

theorem inv_snapped (h : Inv s) (hsettled : s.Settled scope)
    (hqueued : ∀ u ∈ unlinked, u ∈ s.pending) {result : Except RagError IndexSnapshot}
    (hsnapped : Snapped s.store scope (unlinked.map Unlink.path) result st) :
    Inv { s.finish unlinked with store := st } := by
  have hkept : ∀ d ∈ (s.store.dropDeleted scope).documents, d ∈ s.store.db.documents :=
    fun d hd => ((dropDeleted_spec s.store scope).1 d |>.1 hd).1
  have hstored : Inv { s with store := st } := by
    apply h.store hsnapped.documents hsnapped.rows
    · intro u hu hcurrent
      rw [hsnapped.keys u.key fun d hd hscope => h.pending_dropped hu hcurrent hsettled hd hscope]
      exact (h.half u hu hcurrent).1
    · intro r hr
      obtain ⟨hrow, hfile, -⟩ := h.removed r hr
      constructor
      · rw [hsnapped.keys r.1 fun d hd hscope => h.removed_dropped hr hd hscope]
        exact hrow
      apply hsnapped.files r.2
      · intro d hd hscope hpath
        have hkey := (h.paths d (hkept d hd)).2.2 r hr hpath.symm
        exact h.removed_dropped hr hd hscope hkey.symm
      · exact .inr hfile
    · exact hsnapped.revision
    · exact hsnapped.same
  apply hstored.finish hqueued
  intro u hu hcurrent
  apply hsnapped.files u.path
  · intro d hd hscope hpath
    have hkey := (h.paths d (hkept d hd)).2.1 u (hqueued u hu) hcurrent hpath.symm
    exact h.pending_dropped (hqueued u hu) hcurrent hsettled hd hscope hkey.symm
  · exact .inl (mem_map_of_mem hu)

theorem mem_meanwhile {u : Unlink} (hu : u ∈ s.meanwhile config scope unlinked) :
    u ∈ s.pending := by
  unfold System.meanwhile at hu
  split at hu
  · cases hu
  · exact of_decide_eq_true (mem_filter.1 hu).2

theorem Inv.snapped (config : Config) (h : Inv s) (scope : Scope) (unlinked : List Unlink)
    (fault : Option Nat) :
    Snapped s.store scope ((s.meanwhile config scope unlinked).map Unlink.path)
      (s.store.snapshot config scope ((s.meanwhile config scope unlinked).map Unlink.path) fault).1
      (s.store.snapshot config scope ((s.meanwhile config scope unlinked).map Unlink.path)
        fault).2 := by
  refine Reconcile.snapped config h.payloads h.rows fault ?_
  intro hrefused
  unfold System.meanwhile
  rw [if_pos hrefused]
  rfl

/-! ## Loads -/

/-- A process may go on with other snapshots, when they are of the store. -/
theorem Inv.caches (h : Inv s) (process : Nat) {cache : Cache}
    (hcache : ∀ snapshot ∈ cache, snapshot.revision ≤ s.store.db.revision ∧
      (snapshot.revision = s.store.db.revision → snapshot.chunks =
        (s.store.db.documentsOf snapshot.scope).flatMap fun d =>
          d.payload.indexedChunks snapshot.scope)) :
    Inv { s with caches := Function.update s.caches process cache } := by
  refine ⟨h.payloads, h.rows, h.paths, h.half, h.removed, ?_⟩
  intro p snapshot hsnapshot
  simp only [update_apply] at hsnapshot
  split at hsnapshot
  · exact hcache snapshot hsnapshot
  · exact h.cached p snapshot hsnapshot

/-- The chunks that a load gives, when it takes a snapshot, are of documents that it kept, and the
process goes on with snapshots of the store. -/
theorem Inv.reloaded (h : Inv s) {paths : List String}
    (hsnapped : Snapped s.store scope paths (s.store.snapshot config scope paths fault).1
      (s.store.snapshot config scope paths fault).2) {cached : Option ScopeSnapshot}
    (hcached : ∀ snapshot ∈ cached, snapshot ∈ s.caches process ∧ snapshot.scope = scope) :
    let r := snapshotForScope.reload config s.store (s.caches process) scope paths fault cached
    r.2.1 = (s.store.snapshot config scope paths fault).2 ∧
      (∀ snapshot, r.1 = .ok snapshot → ∀ c ∈ snapshot.chunks,
        ∃ d ∈ (s.store.dropDeleted scope).documents, d.scope = scope ∧
          c ∈ d.payload.indexedChunks scope) ∧
      ∀ snapshot ∈ r.2.2, snapshot ∈ s.caches process ∨
        snapshot.revision = r.2.1.db.revision ∧ snapshot.chunks =
          (r.2.1.db.documentsOf snapshot.scope).flatMap fun d =>
            d.payload.indexedChunks snapshot.scope := by
  unfold snapshotForScope.reload
  generalize s.store.snapshot config scope paths fault = outcome at hsnapped
  obtain ⟨result, st⟩ := outcome
  dsimp only at hsnapped ⊢
  cases result with
  | error error => exact ⟨rfl, fun _ hok => (by cases hok), fun _ hmem => .inl hmem⟩
  | ok durable =>
    obtain ⟨hrevision, hdocuments, hkept⟩ := hsnapped.durable durable rfl
    dsimp only
    have hchunks : ∀ c ∈ (st.db.documentsOf scope).flatMap fun d => d.payload.indexedChunks scope,
        ∃ d ∈ (s.store.dropDeleted scope).documents, d.scope = scope ∧
          c ∈ d.payload.indexedChunks scope := by
      intro c hc
      obtain ⟨d, hd, hc⟩ := mem_flatMap.1 hc
      obtain ⟨hd, hscope⟩ := mem_documentsOf.1 hd
      rw [hkept] at hd
      exact ⟨d, hd, hscope, hc⟩
    split
    · rename_i snapshot hsame
      obtain ⟨hsome, hsame⟩ := filter_eq_some_iff.1 hsame
      rw [decide_eq_true_eq] at hsame
      obtain ⟨hmem, hscope⟩ := hcached snapshot hsome
      refine ⟨rfl, ?_, ?_⟩
      · intro other hok
        cases hok
        obtain ⟨hle, hbuilt⟩ := h.cached process snapshot hmem
        -- the revision has not moved, so nothing was dropped
        have hsameRevision : st.db.revision = s.store.db.revision :=
          Nat.le_antisymm (by omega) hsnapped.revision
        rw [hbuilt (by omega), hscope, Db.documentsOf, ← hsnapped.same hsameRevision]
        exact hchunks
      · intro other hother
        rcases mem_touch hother with hother | rfl
        · exact .inl hother
        · exact .inl hmem
    cases hbuild : buildScopeSnapshot config scope durable with
    | error error => exact ⟨rfl, fun _ hok => (by cases hok), fun _ hmem => .inl hmem⟩
    | ok loaded =>
      have hloaded : loaded = ⟨scope, durable.revision,
          durable.documents.flatMap fun d => d.payload.indexedChunks scope⟩ := by
        unfold buildScopeSnapshot at hbuild
        split at hbuild
        · cases hbuild
        · exact (Except.ok.inj hbuild).symm
      subst hloaded
      refine ⟨rfl, ?_, ?_⟩
      · intro snapshot hok
        cases hok
        rw [hdocuments]
        exact hchunks
      · intro snapshot hsnapshot
        rcases mem_remember hsnapshot with hmem | rfl
        · exact .inl hmem
        · refine .inr ⟨hrevision, ?_⟩
          rw [hdocuments]

theorem cached_scope {snapshot : ScopeSnapshot}
    (h : (s.caches process).cached scope = some snapshot) :
    snapshot ∈ s.caches process ∧ snapshot.scope = scope :=
  ⟨mem_of_find?_eq_some h, by simpa using find?_some h⟩

/-- A load goes on with the snapshot in memory, or takes one. -/
theorem snapshotForScope_cases (config : Config) (s : System) (process : Nat) (scope : Scope) (force : Bool)
    (paths : List String) (fault : Option Nat) :
    (s.fresh process scope force = true ∧ ∃ cached ∈ s.caches process, cached.scope = scope ∧
      cached.revision = s.store.db.revision ∧
      snapshotForScope config s.store (s.caches process) scope force paths fault =
        (.ok cached, s.store, (s.caches process).touch cached)) ∨
    (s.fresh process scope force = false ∧
      snapshotForScope config s.store (s.caches process) scope force paths fault =
        snapshotForScope.reload config s.store (s.caches process) scope paths fault
          ((s.caches process).cached scope)) := by
  unfold System.fresh snapshotForScope
  cases hfound : (s.caches process).cached scope with
  | none => exact .inr ⟨Bool.and_false _, rfl⟩
  | some cached =>
    obtain ⟨hmem, hscope⟩ := cached_scope hfound
    cases force with
    | true => exact .inr ⟨rfl, rfl⟩
    | false =>
      dsimp only [any_some]
      by_cases hsame : s.store.db.revision = cached.revision
      · left
        rw [if_pos hsame]
        exact ⟨by simp [hsame], cached, hmem, hscope, hsame.symm, rfl⟩
      · right
        rw [if_neg hsame]
        exact ⟨by simp [hsame], rfl⟩

theorem inv_load (h : Inv s) {force : Bool}
    (hspares : Spares config s (.load process scope force unlinked fault)) :
    Inv (step config s (.load process scope force unlinked fault)) := by
  simp only [step]
  simp only [Spares] at hspares
  rcases snapshotForScope_cases config s process scope force
      ((if s.fresh process scope force then [] else s.meanwhile config scope unlinked).map
        Unlink.path) fault with
    ⟨hfresh, cached, hmem, -, -, heq⟩ | ⟨hfresh, heq⟩
  · rw [heq, hfresh, if_pos rfl]
    have hkept : Inv (s.finish []) := h.finish (fun _ hu => nomatch hu) fun _ hu => nomatch hu
    apply hkept.caches process
    intro snapshot hsnapshot
    rcases mem_touch hsnapshot with hsnapshot | rfl
    · exact h.cached process snapshot hsnapshot
    · exact h.cached process _ hmem
  rw [heq]
  rw [hfresh, if_neg Bool.false_ne_true] at hspares ⊢
  have hsnapped := h.snapped config scope unlinked fault
  have hcached : ∀ snapshot ∈ (s.caches process).cached scope,
      snapshot ∈ s.caches process ∧ snapshot.scope = scope := fun _ => cached_scope
  obtain ⟨hstore, -, hcache⟩ := h.reloaded hsnapped hcached
  have hinv := inv_snapped h hspares (fun _ hu => mem_meanwhile hu) hsnapped
  generalize snapshotForScope.reload config s.store (s.caches process) scope _ fault _ = outcome
    at hstore hcache
  obtain ⟨result, st, cache⟩ := outcome
  subst hstore
  apply hinv.caches process
  intro snapshot hsnapshot
  rcases hcache snapshot hsnapshot with hold | ⟨hrevision, hchunks⟩
  · exact hinv.cached process snapshot hold
  · exact ⟨Nat.le_of_eq hrevision, fun _ => hchunks⟩

theorem inv_step (h : Inv s) {l : Label} (hspares : Spares config s l) : Inv (step config s l) := by
  cases l with
  | mutate call fault => exact inv_mutate h hspares
  | snapshot scope unlinked fault =>
    exact inv_snapped h hspares (fun _ hu => mem_meanwhile hu) (h.snapped config scope unlinked fault)
  | load process scope force unlinked fault => exact inv_load h hspares
  | restart process => exact h.caches process fun _ hsnapshot => nomatch hsnapshot
  | reconcile keys => exact inv_reconcile h keys
  | unlink u =>
    simp only [step]
    split
    · rename_i hmem
      have hfiles : Inv { s with
          store := { s.store with files := setFile s.store.files u.path none } } := by
        refine h.files rfl ?_
        intro r hr
        by_cases hpath : r.2 = u.path
        · rw [hpath]
          exact update_self _ _ _
        · exact (setFile_of_ne hpath none).trans (h.removed r hr).2.1
      apply hfiles.finish
      · intro u' hu'
        obtain rfl := mem_singleton.1 hu'
        exact hmem
      · intro u' hu' _
        obtain rfl := mem_singleton.1 hu'
        exact update_self _ _ _
    · exact h
  | lose u =>
    have hpending : ∀ u' ∈ s.pending.erase u, u' ∈ s.pending := fun _ hu' => mem_of_mem_erase hu'
    refine ⟨h.payloads, h.rows, ?_, ?_, h.removed, h.cached⟩
    · intro d hd
      obtain ⟨hpaths, howned, hgone⟩ := h.paths d hd
      exact ⟨hpaths, fun u' hu' => howned u' (hpending u' hu'), hgone⟩
    · intro u' hu'
      exact h.half u' (hpending u' hu')

/-- What a load gives, that spares the removals. -/
theorem answers_step (h : Inv s) {l : Label} (hspares : Spares config s l) :
    Answers config s l := by
  cases l with
  | load process scope force unlinked fault =>
    intro snapshot hok meetings query topK c hc
    have hc : c ∈ snapshot.chunks := (mem_filter.1 (mem_answer hc)).1
    simp only [Spares] at hspares
    rcases snapshotForScope_cases config s process scope force
        ((if s.fresh process scope force then [] else s.meanwhile config scope unlinked).map
          Unlink.path) fault with
      ⟨hfresh, cached, hmem, hscope, hrevision, heq⟩ | ⟨hfresh, heq⟩
    · rw [heq] at hok
      cases hok
      rw [(h.cached process _ hmem).2 hrevision, hscope] at hc
      obtain ⟨d, hd, hc⟩ := mem_flatMap.1 hc
      obtain ⟨hd, hdscope⟩ := mem_documentsOf.1 hd
      refine ⟨d, hd, hdscope, hc, ?_⟩
      intro r hr hkey
      rw [hfresh, if_pos rfl] at hspares
      rw [hspares d hd hdscope ⟨r, hr, hkey⟩] at hc
      cases hc
    · rw [heq, hfresh, if_neg Bool.false_ne_true] at hok
      have hcached : ∀ snapshot ∈ (s.caches process).cached scope,
          snapshot ∈ s.caches process ∧ snapshot.scope = scope := fun _ => cached_scope
      obtain ⟨-, hchunks, -⟩ := h.reloaded (h.snapped config scope unlinked fault) hcached
      obtain ⟨d, hd, hdscope, hc⟩ := hchunks snapshot hok c hc
      refine ⟨d, ((dropDeleted_spec s.store scope).1 d |>.1 hd).1, hdscope, hc, ?_⟩
      intro r hr heq
      exact h.removed_dropped hr hd hdscope heq.symm
  | mutate call fault | snapshot scope unlinked fault | restart process | reconcile keys
  | unlink u | lose u =>
    trivial

/-- In every run whose steps spare the removals, each load gives chunks of documents that are
stored and were not removed, and what was removed stays without row and file. -/
theorem removals_final (config : Config) (trace : List Label)
    (h : Meets (step config) (Spares config) .init trace) :
    Meets (step config) (Keeps config) .init trace := by
  refine h.of_invariant (fun s l hspares hinv => ?_) inv_init
  have hnext := inv_step hinv hspares
  refine ⟨⟨answers_step hinv hspares, ?_⟩, hnext⟩
  intro r hr
  obtain ⟨hrow, hfile, -⟩ := hnext.removed r hr
  exact ⟨hrow, hfile⟩

/-! A note is ingested and read, and a reconciliation removes it. A process that comes to it
afresh does not find it any more; one that read it before finds it still. -/

def noteScope : Scope := ⟨"t", "o"⟩

def noteCall : MutateCall where
  scope := noteScope
  docId := "md-1"
  indexPath := "md-1.json"
  mutator _ := some (persistedPayload ⟨"t", "d", "o"⟩ "md-1" "note"
    [newChunk Config.least "md-1" "note" "md-1-c0000" "hello" (scopedMetadata noteScope [])] none)
  projectionGeneration := none
  projectionOperation := none

def removal : List Label := [ .mutate noteCall none, .load 0 noteScope false [] none,
  .reconcile [noteCall.key],
  .unlink ⟨noteCall.key, "md-1.json", true⟩]

theorem removal_final : Meets (step Config.least) (Keeps Config.least) .init
      (removal ++ [.load 1 noteScope false [] none, .load 0 noteScope false [] none]) :=
  removals_final Config.least _ (by decide +kernel)

/-- The chunks that a process finds. -/
def found (s : System) (process : Nat) : List IndexedChunk :=
  match (snapshotForScope Config.least s.store (s.caches process) noteScope false [] none).1 with
  | .ok snapshot => answer Config.least none snapshot "hello" 5
  | .error _ => []

theorem removal_breaks : ¬ Meets (step Config.least) (Keeps Config.least) .init
      (removal ++ [.load 0 noteScope false [] none]) := by
  intro h
  have hfresh : (run (step Config.least) .init removal).fresh 0 noteScope false = true := by
    decide +kernel
  have hfound : found (run (step Config.least) .init removal) 0 ≠ [] := by decide +kernel
  have hremoved : ∀ d ∈ (run (step Config.least) .init removal).store.db.documents,
      ∃ r ∈ (run (step Config.least) .init removal).removed, r.1 = d.key := by
    decide +kernel
  rw [meets_append] at h
  have hanswers := h.2.1.1
  simp only [Answers, hfresh, if_true, List.map_nil] at hanswers
  obtain ⟨c, hc⟩ := List.exists_mem_of_ne_nil _ hfound
  unfold found at hc
  split at hc
  · rename_i snapshot hok
    obtain ⟨d, hd, -, -, hkept⟩ := hanswers snapshot hok none "hello" 5 c hc
    obtain ⟨r, hr, hkey⟩ := hremoved d hd
    exact hkept r hr hkey
  · cases hc

end Reconcile

end Rag
