import EchoDesk.Foundations.Tally
import EchoDesk.Rag.Steps

/-! # What a failed ingest leaves behind

The requests of the principals of one process, one after the other. The store weighs the
text of a payload before it commits; the chunks are counted when the snapshot is built,
after the commit. What is stored is within both limits as long as no ingest that the store
takes goes over the second one.
-/

namespace Rag

open EchoDesk Transition Tally List Document

namespace Limits

variable (config : Config)
variable {call : MutateCall}
variable {result : Except RagError IndexMutation} {principal : Principal} {fault : Option Fault}

/-! ## Requests -/

/-- Where a request fails: in its first load, in its transaction, in the repair that follows, or
in the load of what it has committed. -/
structure Faults where
  load : Option Nat
  mutate : Option Fault
  repair : Option Nat
  reload : Option Nat

/-- The store and the snapshots in memory. -/
structure System where
  store : Store
  cache : Cache

def System.init : System := ⟨Store.init, []⟩

/-- `mutate_document`: a transaction that raises is followed by a snapshot. -/
def mutateOrRepair (st : Store) (call : MutateCall) (fault : Option Fault) (repair : Option Nat) :
    Except RagError IndexMutation × Store :=
  match st.mutateDocument config call fault with
  | (.ok mutation, st) => (.ok mutation, st)
  | (.error error, st) =>
    if error = .valueError ∨ error = .pathEscapes then (.error error, st)
    else (.error error, (st.snapshot config call.scope [] repair).2)

/-- An ingest or a delete, and what it raises. -/
def System.request (s : System) (scope : Scope) (call : Except RagError MutateCall)
    (faults : Faults) : Option RagError × System :=
  match snapshotForScope config s.store s.cache scope false [] faults.load with
  | (.error error, store, cache) => (some error, ⟨store, cache⟩)
  | (.ok _, store, cache) =>
    match call with
    | .error error => (some error, ⟨store, cache⟩)
    | .ok call =>
      match mutateOrRepair config store call faults.mutate faults.repair with
      | (.error error, store) => (some error, ⟨store, cache⟩)
      | (.ok _, store) =>
        match snapshotForScope config store cache scope true [] faults.reload with
        | (.error error, store, cache) => (some error, ⟨store, cache⟩)
        | (.ok _, store, cache) => (none, ⟨store, cache⟩)

inductive Label where
  | ingest (principal : Principal) (document : Ingest) (faults : Faults)
  | delete (principal : Principal) (docId : String) (projectionGeneration : Option Int)
      (faults : Faults)
  /-- A query or `list_docs`. -/
  | read (scope : Scope) (fault : Option Nat)
  | restart

def step (s : System) : Label → System
  | .ingest principal document faults =>
    (s.request config principal.scope (document.call config principal) faults).2
  | .delete principal docId projectionGeneration faults =>
    (s.request config principal.scope
      (.ok (deleteCall config principal.scope docId projectionGeneration)) faults).2
  | .read scope fault =>
    match snapshotForScope config s.store s.cache scope false [] fault with
    | (_, store, cache) => ⟨store, cache⟩
  | .restart => { s with cache := [] }

/-! ## The two promises -/

/-- An ingest that raises leaves the documents as they were. -/
def Harmless (s : System) : Label → Prop
  | .ingest principal document faults =>
    (s.request config principal.scope (document.call config principal) faults).1.isSome = true →
      (step config s (.ingest principal document faults)).store.db.documents = s.store.db.documents
  | _ => True

/-- No process that loads a scope is refused for the size of what is stored. -/
def Readable (s : System) : Prop :=
  ∀ (cache : Cache) (scope : Scope) (force : Bool) (fault : Option Nat),
    (snapshotForScope config s.store cache scope force [] fault).1 ≠ .error .chunkLimit ∧
      (snapshotForScope config s.store cache scope force [] fault).1 ≠ .error .payloadLimit

/-- What is promised of a step. -/
def Keeps (s : System) (l : Label) : Prop := Harmless config s l ∧ Readable config (step config s l)

/-! ## The condition -/

/-- The snapshot in memory is of the revision of the store. -/
def System.fresh (s : System) (scope : Scope) : Bool :=
  (s.cache.cached scope).any fun cached => s.store.db.revision == cached.revision

/-- The store takes the payload of a call. -/
def takes (st : Store) (call : MutateCall) : Bool :=
  call.projectionGeneration.all (fun generation => 0 ≤ generation) &&
    (config.safeIndexPath call.indexPath).any fun target =>
      match st.db.mutate config target call with
      | .ok (.writes _ _ _) => true
      | _ => false

/-- The chunks of the other documents of the scope. -/
def chunksBeside (db : Db) (key : DocKey) : Nat :=
  total (fun d => d.payload.chunks.length)
    (db.documents.rows.filter fun d => d.scope = key.1 ∧ d.docId ≠ key.2)

/-- The chunks of the document after an ingest. -/
def chunksOf (existing : Option Payload) : Ingest → Nat
  | .file _ _ _ _ _ pieces => (pieces.getD []).length
  | .pdf _ _ _ _ pages => total (fun page => page.2.length) (pages.getD [])
  | .meeting _ _ _ pieces => pieces.length
  | .ambient _ _ _ _ _ operationId =>
    let rawChunks := (existing.map Payload.chunks).getD []
    match operationId with
    | some id => (rawChunks.filter fun c => c.metadata.lookup "operation_id" ≠ some id).length + 1
    | none => rawChunks.length + 1

/-- An ingest that the store takes is within the limit on chunks, and can load what it has
committed. -/
def Fits (s : System) : Label → Prop
  | .ingest principal document faults =>
    ∀ call, document.call config principal = .ok call →
      (s.fresh principal.scope || faults.load.isNone) = true →
      (faults.mutate.isNone && takes config s.store call) = true →
      faults.reload = none ∧ chunksBeside s.store.db call.key +
          chunksOf ((s.store.db.documents.get? call.key).map Document.payload) document ≤
            config.maxChunksPerPrincipal
  | _ => True

variable {config}

/-! ## What is stored -/

/-- The texts of every scope are within the limit. -/
structure Weighed (config : Config) (db : Db) : Prop where
  consistent : Consistent db
  bytes : ∀ scope, total (fun d => d.payload.textLength config) (db.documentsOf scope) ≤
    config.maxScopePayloadBytes
  dated : ∀ d ∈ db.documents, d.updatedRevision ≤ db.revision

/-- The texts and the chunks of every scope are within the limits. -/
structure Sound (config : Config) (db : Db) : Prop extends Weighed config db where
  chunks : ∀ scope, total (fun d => d.payload.chunks.length) (db.documentsOf scope) ≤
    config.maxChunksPerPrincipal

theorem total_perm {α : Type} (weight : α → Nat) {l l' : List α} (h : l.Perm l') :
    total weight l = total weight l' := (h.map weight).sum_eq

theorem total_documentsOf (weight : Document → Nat) (db : Db) (scope : Scope) :
    total weight (db.documentsOf scope) =
      total weight (db.documents.rows.filter fun d => d.scope = scope) :=
  total_perm weight (perm_insertionSort _ _)

theorem total_filter_le {α : Type} (weight : α → Nat) (p : α → Bool) (l : List α) :
    total weight (l.filter p) ≤ total weight l := by
  induction l with
  | nil => exact le_rfl
  | cons a l ih =>
    rw [filter_cons]
    split
    · rw [total_cons, total_cons]
      omega
    · rw [total_cons]
      omega

/-- A document that is written counts besides the other documents of its scope. -/
theorem total_put (weight : Document → Nat) (documents : Keyed key) (d : Document) (scope : Scope) :
    total weight ((documents.put d).rows.filter fun e => e.scope = scope) =
      if d.scope = scope then weight d +
        total weight (documents.rows.filter fun e => e.scope = d.scope ∧ e.docId ≠ d.docId)
      else total weight (documents.rows.filter fun e => e.scope = scope) := by
  rw [total_perm weight ((Keyed.perm_put documents d).filter _), filter_cons]
  split
  · rename_i hscope
    rw [decide_eq_true_eq] at hscope
    rw [if_pos hscope, total_cons, Keyed.erase, filter_filter]
    congr 2
    apply filter_congr
    intro e _
    subst hscope
    simp only [key, ne_eq, Prod.mk.injEq, Bool.decide_and, decide_not]
    by_cases hsame : e.scope = d.scope
    · simp [hsame]
    · simp [hsame]
  · rename_i hscope
    rw [decide_eq_true_eq] at hscope
    rw [if_neg hscope, Keyed.erase, filter_filter]
    congr 1
    apply filter_congr
    intro e _
    by_cases hsame : e.scope = scope
    · have hkey : e.key ≠ d.key := fun heq => hscope ((congrArg Prod.fst heq).symm.trans hsame)
      simp [hsame, hkey]
    · simp [hsame]

theorem textLength_le_byteLength (config : Config) (p : Payload) : p.textLength config ≤ p.byteLength config := by
  unfold Payload.textLength Payload.byteLength
  induction p.encode config with
  | nil => exact le_rfl
  | cons c cs ih =>
    have hpos := Char.utf8Size_pos c
    rw [length_cons, map_cons, sum_cons]
    omega

/-! ## Loads -/

variable {st st' : Store} {db : Db} {s : System}

/-- A snapshot of a store whose texts are within the limit fails only where it is made to. -/
theorem Weighed.snapshot (h : Weighed config st.db) (scope : Scope) (fault : Option Nat) :
    (st.snapshot config scope [] fault).2.db = st.db ∧ (st.snapshot config scope [] fault).1 =
        if fault.isNone then .ok ⟨st.db.revision, st.db.documentsOf scope⟩ else .error .failed := by
  obtain ⟨hdb, hdurable⟩ := h.consistent.snapshot config scope [] fault
  refine ⟨hdb, ?_⟩
  cases hresult : (st.snapshot config scope [] fault).1 with
  | ok durable =>
    cases fault with
    | none => rw [hdurable durable hresult]; rfl
    | some count =>
      unfold Store.snapshot at hresult
      dsimp only at hresult
      split at hresult
      · cases hresult
      split at hresult
      · cases hresult
      · cases hresult
  | error error =>
    have hfits : ¬ config.maxScopePayloadBytes <
        ((st.db.documentsOf scope).map fun d => d.payload.textLength config).sum :=
      Nat.not_lt.2 (h.bytes scope)
    unfold Store.snapshot at hresult
    rw [if_neg hfits] at hresult
    cases fault with
    | some count =>
      dsimp only at hresult
      split at hresult
      · rw [← hresult]; rfl
      · rw [← hresult]; rfl
    | none =>
      have hdrop : st.dropDeleted scope = st.db := by
        unfold Store.dropDeleted
        rw [h.consistent.externallyDeleted]
        rfl
      dsimp only at hresult
      rw [hdrop] at hresult
      have hstored : ∀ d ∈ st.db.documentsOf scope, d ∈ st.db.documents :=
        fun d hd => (mem_documentsOf.1 hd).1
      have hrestore := h.consistent.restore hstored (fun path => if path ∈ [] then none else st.files path)
      split at hresult
      · rename_i heq
        rw [heq] at hrestore
        cases hrestore.1
      · cases hresult

/-- A snapshot of a sound store is built. -/
theorem Sound.build (h : Sound config db) (scope : Scope) :
    ∃ built, buildScopeSnapshot config scope ⟨db.revision, db.documentsOf scope⟩ = .ok built := by
  refine ⟨_, if_neg ?_⟩
  exact Nat.not_lt.2 (h.chunks scope)

theorem Sound.reload (h : Sound config st.db) (cache : Cache) (scope : Scope) (fault : Option Nat)
    (cached : Option ScopeSnapshot) :
    (snapshotForScope.reload config st cache scope [] fault cached).2.1.db = st.db ∧
      if fault.isNone then
        ∃ loaded, (snapshotForScope.reload config st cache scope [] fault cached).1 = .ok loaded
      else (snapshotForScope.reload config st cache scope [] fault cached).1 = .error .failed := by
  obtain ⟨hdb, hresult⟩ := h.snapshot scope fault
  obtain ⟨built, hbuilt⟩ := h.build scope
  unfold snapshotForScope.reload
  generalize st.snapshot config scope [] fault = outcome at hdb hresult
  obtain ⟨result, store⟩ := outcome
  subst hresult
  by_cases hfault : fault.isNone = true
  · rw [if_pos hfault, if_pos hfault]
    dsimp only
    split
    · exact ⟨hdb, _, rfl⟩
    · rw [hbuilt]
      exact ⟨hdb, _, rfl⟩
  · rw [if_neg hfault, if_neg hfault]
    exact ⟨hdb, rfl⟩

/-- A load from a sound store fails only where it is made to, and when it is one. -/
theorem Sound.load (h : Sound config st.db) (cache : Cache) (scope : Scope) (force : Bool)
    (fault : Option Nat) :
    (snapshotForScope config st cache scope force [] fault).2.1.db = st.db ∧
      if (!force && (cache.cached scope).any (fun cached => st.db.revision == cached.revision) ||
          fault.isNone) = true then
        ∃ loaded, (snapshotForScope config st cache scope force [] fault).1 = .ok loaded
      else (snapshotForScope config st cache scope force [] fault).1 = .error .failed := by
  unfold snapshotForScope
  cases cache.cached scope with
  | none =>
    simp only [Option.any_none, Bool.and_false, Bool.false_or]
    exact h.reload cache scope fault none
  | some cached =>
    cases force with
    | true =>
      exact h.reload cache scope fault (some cached)
    | false =>
      simp only [Bool.not_false, Option.any_some, Bool.true_and, Bool.or_eq_true, beq_iff_eq]
      by_cases hsame : st.db.revision = cached.revision
      · rw [if_pos hsame, if_pos (.inl hsame)]
        exact ⟨rfl, cached, rfl⟩
      · rw [if_neg hsame]
        simp only [hsame, false_or]
        exact h.reload cache scope fault (some cached)

theorem Sound.readable (h : Sound config s.store.db) : Readable config s := by
  intro cache scope force fault
  have hload := (h.load cache scope force fault).2
  split at hload
  · obtain ⟨loaded, hload⟩ := hload
    rw [hload]
    exact ⟨nofun, nofun⟩
  · rw [hload]
    exact ⟨nofun, nofun⟩

/-- A scope with too many chunks can not be loaded. -/
theorem Weighed.chunks_of_readable (h : Weighed config s.store.db) (hreadable : Readable config s)
    (scope : Scope) :
    total (fun d => d.payload.chunks.length) (s.store.db.documentsOf scope) ≤
      config.maxChunksPerPrincipal := by
  by_contra hlimit
  apply (hreadable [] scope true none).1
  have hresult := (h.snapshot scope none).2
  show (snapshotForScope.reload config s.store [] scope [] none none).1 = _
  unfold snapshotForScope.reload
  generalize s.store.snapshot config scope [] none = outcome at hresult
  obtain ⟨result, store⟩ := outcome
  dsimp only at hresult
  rw [if_pos Option.isNone_none] at hresult
  rw [hresult]
  have hbuild : buildScopeSnapshot config scope
      ⟨s.store.db.revision, s.store.db.documentsOf scope⟩ = .error .chunkLimit :=
    if_pos (Nat.lt_of_not_le hlimit)
  dsimp only [Option.filter]
  rw [hbuild]

/-! ## Transactions -/

theorem mutateOrRepair_cases (config : Config) (h : Consistent st.db) (call : MutateCall)
    (fault : Option Fault) (repair : Option Nat) :
    (∃ error, (st.mutateDocument config call fault).1 = .error error ∧
      (mutateOrRepair config st call fault repair).1 = .error error ∧
      (mutateOrRepair config st call fault repair).2.db = st.db) ∨
    ∃ mutation, (st.mutateDocument config call fault).1 = .ok mutation ∧
      mutateOrRepair config st call fault repair = st.mutateDocument config call fault := by
  have hstep := mutateStep config st call fault
  unfold mutateOrRepair
  generalize st.mutateDocument config call fault = outcome at hstep
  obtain ⟨result, store⟩ := outcome
  cases result with
  | ok mutation => exact .inr ⟨mutation, rfl, rfl⟩
  | error error =>
    have hdb : store.db = st.db := hstep.db_of_raised
    refine .inl ⟨error, rfl, ?_⟩
    dsimp only
    split
    · exact ⟨rfl, hdb⟩
    refine ⟨rfl, ?_⟩
    have hconsistent : Consistent store.db := hdb ▸ h
    exact (hconsistent.snapshot config call.scope [] repair).1.trans hdb

/-- What the store takes, it writes. -/
theorem takes_written (hfence : call.projectionGeneration.isSome = call.projectionOperation.isSome)
    (htakes : (fault.isNone && takes config st call) = true) :
    ∃ mutation st' target proposed normalized,
      st.mutateDocument config call fault = (.ok mutation, st') ∧
      call.mutator ((st.db.documents.get? call.key).map payload) = some proposed ∧
      Written config st.db call target proposed normalized st'.db := by
  rw [Bool.and_eq_true, Option.isNone_iff_eq_none] at htakes
  obtain ⟨rfl, htakes⟩ := htakes
  unfold takes at htakes
  rw [Bool.and_eq_true, Option.any_eq_true] at htakes
  obtain ⟨hgeneration, target, htarget, hwrites⟩ := htakes
  unfold Store.mutateDocument
  rw [if_neg (not_not.2 hfence), if_neg, htarget]
  · dsimp only
    rcases mutate_cases config st.db target call with ⟨error, heq⟩ | ⟨hfenced, existing, heq⟩ |
      ⟨hfenced, ⟨hmutator, hrow, heq⟩ | ⟨hmutator, heq⟩ |
        ⟨proposed, normalized, db', hmutator, hwritten, heq⟩⟩
    · rw [heq] at hwrites
      cases hwrites
    · rw [heq] at hwrites
      cases hwrites
    · rw [heq] at hwrites
      cases hwrites
    · rw [heq] at hwrites
      cases hwrites
    · rw [heq]
      exact ⟨_, _, _, proposed, normalized, rfl, hmutator, hwritten⟩
  · intro hnegative
    rw [Option.any_eq_true] at hnegative
    obtain ⟨generation, hsome, hlt⟩ := hnegative
    rw [Option.all_eq_true] at hgeneration
    have hle := hgeneration generation hsome
    simp only [decide_eq_true_eq] at hlt hle
    omega

/-- What the store has written, it takes. -/
theorem takes_of_written {mutation : IndexMutation}
    (hresult : st.mutateDocument config call fault = (.ok mutation, st'))
    (hfenced : st.db.fenced call = false)
    (hmutator : ∃ p, call.mutator ((st.db.documents.get? call.key).map payload) = some p) :
    (fault.isNone && takes config st call) = true := by
  obtain ⟨p, hp⟩ := hmutator
  unfold Store.mutateDocument at hresult
  split at hresult
  · cases hresult
  split at hresult
  · cases hresult
  rename_i hnegative
  cases htarget : config.safeIndexPath call.indexPath with
  | none =>
    rw [htarget] at hresult
    cases hresult
  | some target =>
    rw [htarget] at hresult
    dsimp only at hresult
    rcases mutate_cases config st.db target call with ⟨error, heq⟩ | ⟨hfenced', existing, heq⟩ |
      ⟨-, ⟨hmutator, hrow, heq⟩ | ⟨hmutator, heq⟩ |
        ⟨proposed, normalized, db', hmutator, hwritten, heq⟩⟩
    · rw [heq] at hresult
      cases hresult
    · rw [hfenced] at hfenced'
      cases hfenced'
    · rw [hp] at hmutator
      cases hmutator
    · rw [hp] at hmutator
      cases hmutator
    rw [heq] at hresult
    have hnone : fault = none := by
      cases fault with
      | none => rfl
      | some fault =>
        cases fault with
        | early | late => cases hresult
    subst hnone
    have hgeneration : call.projectionGeneration.all (fun g => 0 ≤ g) = true := by
      cases hsome : call.projectionGeneration with
      | none => rfl
      | some generation =>
        rw [hsome] at hnegative
        simpa using hnegative
    unfold takes
    rw [htarget, Option.any_some, heq, hgeneration]
    rfl

/-! ## Ingests -/

theorem persistDoc_call {docId title : String} {chunks : List Chunk} {generation : Option Int}
    (h : persistDoc config principal docId title chunks generation = .ok call) :
    call.projectionGeneration.isSome = call.projectionOperation.isSome ∧
      ∀ existing, ∃ p, call.mutator existing = some p ∧ p.chunks = chunks := by
  unfold persistDoc at h
  cases generation with
  | some generation =>
    cases h
    exact ⟨rfl, fun _ => ⟨_, rfl, rfl⟩⟩
  | none =>
    unfold replaceDocument at h
    dsimp only at h
    cases hfields : (persistedPayload principal docId title chunks none).fields with
    | error error =>
      rw [hfields] at h
      cases h
    | ok fields =>
      rw [hfields] at h
      cases h
      exact ⟨rfl, fun _ => ⟨_, rfl, rfl⟩⟩

/-- An ingest always proposes a payload, of the chunks of its document. -/
theorem ingest_call {document : Ingest} (h : document.call config principal = .ok call) :
    call.projectionGeneration.isSome = call.projectionOperation.isSome ∧
      ∀ existing, ∃ p, call.mutator existing = some p ∧
        p.chunks.length = chunksOf existing document := by
  cases document with
  | file ext title source sourcePath stableId pieces =>
    cases pieces with
    | none => cases h
    | some pieces =>
      simp only [Ingest.call, ingestGeneric] at h
      split at h
      · cases h
      obtain ⟨hfence, hmutator⟩ := persistDoc_call h
      refine ⟨hfence, ?_⟩
      intro existing
      obtain ⟨p, hp, hchunks⟩ := hmutator existing
      refine ⟨p, hp, ?_⟩
      rw [hchunks, length_map, length_zipIdx]
      rfl
  | pdf title source sourcePath stableId pages =>
    cases pages with
    | none => cases h
    | some pages =>
      simp only [Ingest.call, ingestPdf] at h
      split at h
      · cases h
      obtain ⟨hfence, hmutator⟩ := persistDoc_call h
      refine ⟨hfence, ?_⟩
      intro existing
      obtain ⟨p, hp, hchunks⟩ := hmutator existing
      refine ⟨p, hp, ?_⟩
      rw [hchunks, length_flatMap]
      simp only [length_map, length_zipIdx]
      rfl
  | meeting meetingId title generation pieces =>
    simp only [Ingest.call, ingestMeeting] at h
    split at h
    · cases h
    obtain ⟨hfence, hmutator⟩ := persistDoc_call h
    refine ⟨hfence, ?_⟩
    intro existing
    obtain ⟨p, hp, hchunks⟩ := hmutator existing
    refine ⟨p, hp, ?_⟩
    rw [hchunks, meetingChunks, length_map, length_zipIdx]
    rfl
  | ambient text capturedAt audioRef speakerId speakerLabel operationId =>
    cases h
    refine ⟨rfl, ?_⟩
    intro existing
    refine ⟨_, rfl, ?_⟩
    simp only [appendAmbient, chunksOf, length_append, length_singleton]
    cases operationId with
    | none | some id => rfl

/-! ## Steps -/

theorem total_written {db' : Db} {target : String} {proposed normalized : Payload}
    (h : Written config db call target proposed normalized db') (weight : Document → Nat)
    (scope : Scope) :
    total weight (db'.documentsOf scope) = if call.scope = scope then
        weight ⟨call.scope, call.docId, target, normalized, db.revision + 1⟩ +
          total weight (db.documents.rows.filter fun d => d.scope = call.scope ∧
            d.docId ≠ call.docId)
      else total weight (db.documentsOf scope) := by
  rw [total_documentsOf, h.documents, total_put, total_documentsOf]

theorem total_erased (weight : Document → Nat) {db' : Db} {key : DocKey}
    (h : db'.documents = db.documents.erase key) (scope : Scope) :
    total weight (db'.documentsOf scope) ≤ total weight (db.documentsOf scope) := by
  rw [total_documentsOf, total_documentsOf, h, Keyed.erase, filter_comm]
  exact total_filter_le weight _ _

theorem Weighed.mutate (h : Weighed config st.db) (hstep : MutateStep config st call result st') :
    Weighed config st'.db := by
  obtain ⟨hrevision, hdocuments, -⟩ := raiseFence_tables st.db call
  have hconsistent := h.consistent.mutate hstep
  cases hstep with
  | raised _ hdb =>
    rw [hdb]
    exact h
  | stale _ _ hst =>
    rw [hst]
    exact h
  | absent _ _ _ _ hst =>
    rw [hst] at hconsistent ⊢
    refine ⟨hconsistent, ?_, ?_⟩
    · intro scope
      rw [Db.documentsOf, hdocuments]
      exact h.bytes scope
    · rw [hdocuments, hrevision]
      exact h.dated
  | deletes target _ _ _ hst =>
    have herased : st'.db.documents = st.db.documents.erase call.key := by rw [hst]
    refine ⟨hconsistent, ?_, ?_⟩
    · intro scope
      exact (total_erased _ herased scope).trans (h.bytes scope)
    intro d hd
    rw [herased] at hd
    have hle := h.dated d (Keyed.mem_erase.1 hd).1
    rw [hst]
    exact Nat.le_succ_of_le hle
  | writes target proposed normalized _ _ _ hwritten _ =>
    refine ⟨hconsistent, ?_, ?_⟩
    · intro scope
      rw [total_written hwritten]
      split
      · have hlength := textLength_le_byteLength config normalized
        have hfits := hwritten.fits
        unfold total
        dsimp only
        omega
      · exact h.bytes scope
    · intro d hd
      rw [hwritten.documents, Keyed.mem_put] at hd
      rw [hwritten.revision]
      rcases hd with rfl | ⟨hd, -⟩
      · exact le_rfl
      · exact Nat.le_succ_of_le (h.dated d hd)

/-- A call whose payload is within the limit keeps the store sound. -/
theorem Sound.mutate (h : Sound config st.db) (hstep : MutateStep config st call result st')
    (hfits : ∀ target proposed normalized,
      call.mutator ((st.db.documents.get? call.key).map payload) = some proposed →
      Written config st.db call target proposed normalized st'.db → st.db.fenced call = false →
      chunksBeside st.db call.key + proposed.chunks.length ≤ config.maxChunksPerPrincipal) :
    Sound config st'.db := by
  refine ⟨h.toWeighed.mutate hstep, ?_⟩
  intro scope
  cases hstep with
  | raised _ hdb =>
    rw [hdb]
    exact h.chunks scope
  | stale _ _ hst =>
    rw [hst]
    exact h.chunks scope
  | absent _ _ _ _ hst =>
    rw [hst, Db.documentsOf, (raiseFence_tables st.db call).2.1]
    exact h.chunks scope
  | deletes target _ _ _ hst =>
    have herased : st'.db.documents = st.db.documents.erase call.key := by rw [hst]
    exact (total_erased _ herased scope).trans (h.chunks scope)
  | writes target proposed normalized hfenced _ hmutator hwritten _ =>
    rw [total_written hwritten]
    split
    · obtain ⟨_, -, -, -, hchunks⟩ := fields_of_normalize hwritten.normalize
      have hlimit := hfits target proposed normalized hmutator hwritten hfenced
      unfold chunksBeside at hlimit
      rw [hchunks]
      show _ + total _ (st.db.documents.rows.filter fun d => d.scope = call.key.1 ∧
        d.docId ≠ call.key.2) ≤ _
      omega
    · exact h.chunks scope

theorem takes_congr (hdb : st.db = st'.db) (call : MutateCall) :
    takes config st call = takes config st' call := by
  unfold takes
  rw [hdb]

/-- A forced load leaves the tables alone, and fails where it is made to. -/
theorem reload_committed (h : Weighed config st.db) (cache : Cache) (scope : Scope)
    (fault : Option Nat) :
    (snapshotForScope config st cache scope true [] fault).2.1.db = st.db ∧ (fault.isSome = true →
        ∃ error, (snapshotForScope config st cache scope true [] fault).1 = .error error) := by
  obtain ⟨hdb, hresult⟩ := h.snapshot scope fault
  constructor
  · rcases snapshotForScope_store config st cache scope true [] fault with heq | heq
    · rw [heq]
    · rw [heq]
      exact hdb
  intro hfault
  have hforced : snapshotForScope config st cache scope true [] fault =
      snapshotForScope.reload config st cache scope [] fault (cache.cached scope) := by
    unfold snapshotForScope
    cases cache.cached scope with
    | none | some cached => rfl
  have hnone : fault.isNone = false := by
    cases fault with
    | none => cases hfault
    | some count => rfl
  rw [hnone, if_neg Bool.false_ne_true] at hresult
  rw [hforced]
  unfold snapshotForScope.reload
  generalize st.snapshot config scope [] fault = outcome at hresult
  obtain ⟨result, store⟩ := outcome
  subst hresult
  exact ⟨_, rfl⟩

/-- All that a request to a sound store can come to: it fails before it commits, or goes on to
the load of what it has committed. -/
theorem request_cases (h : Sound config s.store.db) (scope : Scope)
    (call : Except RagError MutateCall) (faults : Faults) :
    ((s.request config scope call faults).2.store.db = s.store.db ∧
      ∀ call', call = .ok call' → (s.fresh scope || faults.load.isNone) = true →
        ∃ (st : Store) (error : RagError), st.db = s.store.db ∧
          (st.mutateDocument config call' faults.mutate).1 = .error error) ∨
    ∃ (call' : MutateCall) (st : Store) (mutation : IndexMutation) (st' : Store),
      call = .ok call' ∧ (s.fresh scope || faults.load.isNone) = true ∧
      st.db = s.store.db ∧ st.mutateDocument config call' faults.mutate = (.ok mutation, st') ∧
      (s.request config scope call faults).2.store.db = st'.db ∧
      (faults.reload.isSome = true → (s.request config scope call faults).1.isSome = true) ∧
      (Sound config st'.db → faults.reload = none →
        (s.request config scope call faults).1 = none) := by
  have hload := h.load s.cache scope false faults.load
  simp only [Bool.not_false, Bool.true_and] at hload
  have hfresh : (s.cache.cached scope).any (fun cached => s.store.db.revision == cached.revision) =
      s.fresh scope := rfl
  rw [hfresh] at hload
  unfold System.request
  generalize snapshotForScope config s.store s.cache scope false [] faults.load = outcome at hload
  obtain ⟨result, st, cache⟩ := outcome
  obtain ⟨hdb, hresult⟩ := hload
  by_cases hgoes : (s.fresh scope || faults.load.isNone) = true
  · rw [if_pos hgoes] at hresult
    obtain ⟨loaded, rfl⟩ := hresult
    cases call with
    | error error => exact .inl ⟨hdb, fun _ heq => nomatch heq⟩
    | ok call =>
      have hsound : Sound config st.db := hdb ▸ h
      have hcases := mutateOrRepair_cases config hsound.consistent call faults.mutate faults.repair
      have hstep := mutateStep config st call faults.mutate
      dsimp only
      rcases hcases with ⟨error, herror, hresult, hsame⟩ | ⟨mutation, hok, hsame⟩
      · left
        generalize mutateOrRepair config st call faults.mutate faults.repair = outcome
          at hresult hsame
        obtain ⟨result, st'⟩ := outcome
        subst hresult
        refine ⟨hsame.trans hdb, ?_⟩
        intro call' hcall _
        cases hcall
        exact ⟨st, error, hdb, herror⟩
      right
      rw [hsame]
      generalize hmutate : st.mutateDocument config call faults.mutate = outcome at hok hstep
      obtain ⟨result, st'⟩ := outcome
      subst hok
      have hweighed : Weighed config st'.db := hsound.toWeighed.mutate hstep
      obtain ⟨hkept, hfails⟩ := reload_committed hweighed cache scope faults.reload
      have hloads := fun (hs : Sound config st'.db) => (hs.load cache scope true faults.reload).2
      dsimp only
      refine ⟨call, st, mutation, st', rfl, hgoes, hdb, hmutate, ?_⟩
      generalize snapshotForScope config st' cache scope true [] faults.reload = outcome
        at hkept hfails hloads
      obtain ⟨result, st'', cache'⟩ := outcome
      cases result with
      | error error =>
        refine ⟨hkept, fun _ => rfl, ?_⟩
        intro hs hnone
        have hloads := hloads hs
        rw [hnone] at hloads
        obtain ⟨loaded, hloaded⟩ := hloads
        cases hloaded
      | ok loaded =>
        refine ⟨hkept, ?_, fun _ _ => rfl⟩
        intro hsome
        obtain ⟨error, herror⟩ := hfails hsome
        cases herror
  · rw [if_neg hgoes] at hresult
    subst hresult
    refine .inl ⟨hdb, ?_⟩
    intro call' _ hgoes'
    exact absurd hgoes' hgoes

/-- A step that fits keeps the store sound. -/
theorem sound_step (h : Sound config s.store.db) {l : Label} (hfits : Fits config s l) :
    Sound config (step config s l).store.db := by
  cases l with
  | ingest principal document faults =>
    simp only [step]
    rcases request_cases h principal.scope (document.call config principal) faults with
      ⟨hdb, -⟩ | ⟨call, st, mutation, st', hcall, hgoes, hdb, hmutate, hstored, -⟩
    · rw [hdb]
      exact h
    rw [hstored]
    have hstep := mutateStep config st call faults.mutate
    rw [hmutate] at hstep
    have hsound : Sound config st.db := hdb ▸ h
    refine hsound.mutate hstep ?_
    intro target proposed normalized hmutator hwritten hfenced
    have htakes := takes_of_written hmutate hfenced ⟨proposed, hmutator⟩
    rw [takes_congr hdb] at htakes
    obtain ⟨-, hlimit⟩ := hfits call hcall hgoes htakes
    obtain ⟨p, hp, hlength⟩ :=
      (ingest_call hcall).2 ((st.db.documents.get? call.key).map payload)
    rw [hmutator] at hp
    cases hp
    rw [hlength, hdb]
    exact hlimit
  | delete principal docId generation faults =>
    simp only [step]
    rcases request_cases h principal.scope
        (.ok (deleteCall config principal.scope docId generation)) faults with
      ⟨hdb, -⟩ | ⟨call, st, mutation, st', hcall, -, hdb, hmutate, hstored, -⟩
    · rw [hdb]
      exact h
    rw [hstored]
    have hstep := mutateStep config st call faults.mutate
    rw [hmutate] at hstep
    have hsound : Sound config st.db := hdb ▸ h
    refine hsound.mutate hstep ?_
    intro target proposed normalized hmutator
    cases hcall
    cases hmutator
  | read scope fault =>
    have hdb := (h.load s.cache scope false fault).1
    simp only [step]
    rw [hdb]
    exact h
  | restart => exact h

/-- A step keeps its promise just when it fits. -/
theorem keeps_iff_fits (h : Sound config s.store.db) (l : Label) :
    Keeps config s l ↔ Fits config s l := by
  constructor
  · rintro ⟨hharmless, hreadable⟩
    cases l with
    | ingest principal document faults =>
      intro call hcall hgoes htakes
      obtain ⟨hfence, hlength⟩ := ingest_call hcall
      rcases request_cases h principal.scope (document.call config principal) faults with
        ⟨-, hfails⟩ | ⟨call', st, mutation, st', hcall', -, hdb, hmutate, hstored, hraises, -⟩
      · obtain ⟨st, error, hdb, herror⟩ := hfails call hcall hgoes
        rw [takes_congr hdb.symm] at htakes
        obtain ⟨mutation, st', _, _, _, hmutate, -, -⟩ := takes_written hfence htakes
        rw [hmutate] at herror
        cases herror
      obtain rfl : call = call' := Except.ok.inj (hcall.symm.trans hcall')
      rw [takes_congr hdb.symm] at htakes
      obtain ⟨mutation', st'', target, proposed, normalized, hmutate', hmutator, hwritten⟩ :=
        takes_written hfence htakes
      obtain rfl : st' = st'' := congrArg Prod.snd (hmutate.symm.trans hmutate')
      have hstep := mutateStep config st call faults.mutate
      rw [hmutate] at hstep
      have hsound : Sound config st.db := hdb ▸ h
      constructor
      · -- the document that was written is newer than all that were there
        by_contra hreload
        have hsome : faults.reload.isSome = true := Option.isSome_iff_ne_none.2 hreload
        have hsame := hharmless (hraises hsome)
        have hsame : st'.db.documents = st.db.documents := by
          rw [← hstored, hdb]
          exact hsame
        have hmem : (⟨call.scope, call.docId, target, normalized, st.db.revision + 1⟩ :
            Document) ∈ st.db.documents := by
          rw [← hsame, hwritten.documents, Keyed.mem_put]
          exact .inl rfl
        exact Nat.not_succ_le_self _ (hsound.dated _ hmem)
      have hweighed : Weighed config
          (step config s (.ingest principal document faults)).store.db := by
        simp only [step]
        rw [hstored]
        exact hsound.toWeighed.mutate hstep
      -- a scope that can be loaded is within the limit on chunks
      have hlimit := hweighed.chunks_of_readable hreadable call.scope
      simp only [step] at hlimit
      rw [hstored, total_written hwritten, if_pos rfl] at hlimit
      obtain ⟨_, -, -, -, hchunks⟩ := fields_of_normalize hwritten.normalize
      obtain ⟨p, hp, hcount⟩ :=
        hlength ((st.db.documents.get? call.key).map payload)
      rw [hmutator] at hp
      cases hp
      rw [hchunks, hcount, hdb] at hlimit
      show total _ (s.store.db.documents.rows.filter fun d => d.scope = call.scope ∧
        d.docId ≠ call.docId) + _ ≤ _
      omega
    | delete principal docId generation faults | read scope fault | restart => trivial
  · intro hfits
    refine ⟨?_, (sound_step h hfits).readable⟩
    cases l with
    | ingest principal document faults =>
      intro hraises
      simp only [step]
      rcases request_cases h principal.scope (document.call config principal) faults with
        ⟨hdb, -⟩ | ⟨call, st, mutation, st', hcall, hgoes, hdb, hmutate, hstored, -, hgoesOn⟩
      · rw [hdb]
      have hsound : Sound config st'.db := by
        have hsound := sound_step h hfits
        simp only [step] at hsound
        rw [hstored] at hsound
        exact hsound
      have hstep := mutateStep config st call faults.mutate
      rw [hmutate] at hstep
      -- the mutator of an ingest always proposes a payload
      obtain ⟨p, hp, -⟩ :=
        (ingest_call hcall).2 ((st.db.documents.get? call.key).map payload)
      rw [hstored, ← hdb]
      cases hstep with
      | raised hresult _ =>
        obtain ⟨error, hresult⟩ := hresult
        cases hresult
      | stale _ _ hst => exact congrArg (fun store => store.db.documents) hst
      | absent _ _ hmutator _ _ | deletes _ _ _ hmutator _ =>
        rw [hp] at hmutator
        cases hmutator
      | writes _ _ _ hfenced _ _ _ _ =>
        have htakes := takes_of_written hmutate hfenced ⟨p, hp⟩
        rw [takes_congr hdb] at htakes
        have hnone := hgoesOn hsound (hfits call hcall hgoes htakes).1
        rw [hnone] at hraises
        cases hraises
    | delete principal docId generation faults | read scope fault | restart => trivial

theorem sound_init : Sound config System.init.store.db := by
  refine ⟨⟨consistent_init, fun _ => Nat.zero_le _, ?_⟩, fun _ => Nat.zero_le _⟩
  intro d hd
  cases hd

/-- In every run, each ingest that raises leaves the documents as they were and no load is
refused for the size of what is stored, just when each ingest that is stored is within the limit
on chunks and loads what it has committed. -/
theorem usable_iff (config : Config) (trace : List Label) :
    Meets (step config) (Keeps config) .init trace ↔
      Meets (step config) (Fits config) .init trace := by
  have hiff : ∀ s l, Sound config s.store.db → (Keeps config s l ↔ Fits config s l) :=
    fun _ l h => keeps_iff_fits h l
  have hstep : ∀ s l, Fits config s l → Sound config s.store.db →
      Sound config (step config s l).store.db := fun _ _ hfits h => sound_step h hfits
  exact meets_congr hiff hstep sound_init trace

/-- Every item of a JSON text but the last is followed by a comma. -/
theorem bytes_intercalate (items : List (List Char)) :
    total Char.utf8Size (intercalate [','] items) =
      total (fun item => total Char.utf8Size item + 1) items - 1 := by
  induction items with
  | nil => rfl
  | cons item items ih =>
    cases items with
    | nil => simp
    | cons next items =>
      have hcomma : Char.utf8Size ',' = 1 := rfl
      rw [intercalate_cons_cons, total_append, ih]
      simp only [total_append, total_cons, total_nil, hcomma]
      omega

/-! A file of one chunk more than the limit is refused once it is stored, and the principal can
not be loaded any more. -/

def somebody : Principal := ⟨"t", "d", "o"⟩

def bigFile : Ingest := .file "md" "a" "upload" none "1" (some (List.replicate 101 "a"))

theorem takes_bigFile :
    (bigFile.call Config.least somebody).toOption.any (takes Config.least Store.init) = true := by
  show Option.any (fun call => takes Config.least Store.init call) _ = true
  have hbytes : ∀ config p, Payload.byteLength config p = total Char.utf8Size (p.encode config) :=
    fun _ _ => rfl
  have hmap : ∀ (chunks : List Chunk) (f : List Char → Nat),
      total f (chunks.map Chunk.json) = total (fun c => f c.json) chunks := by
    intro chunks f
    rw [total, map_map]
    rfl
  -- the bytes are counted field by field, without the text of the whole payload
  simp only [takes, Db.mutate, Db.insertDocument, hbytes, hmap, Payload.encode, Chunk.json,
    jsonObject, jsonArray, total_cons, total_append, bytes_intercalate, map_append, map_cons]
  decide +kernel

theorem bigFile_breaks : ¬ Meets (step Config.least) (Keeps Config.least) .init
      [.ingest somebody bigFile ⟨none, none, none, none⟩] := by
  intro h
  have htakes := takes_bigFile
  cases hcall : bigFile.call Config.least somebody with
  | error error =>
    rw [hcall] at htakes
    cases htakes
  | ok call =>
    rw [hcall] at htakes
    have hfits := (keeps_iff_fits sound_init _).1 h.1 call hcall rfl htakes
    have hlimit : chunksBeside _ call.key + 101 ≤ 100 := hfits.2
    omega

end Limits

end Rag
