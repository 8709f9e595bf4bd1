import EchoDesk.Foundations.LastWrite
import EchoDesk.Rag.Steps

/-! # The projection of meetings

Index and delete calls of a meeting carry the generation of its row. They may come late,
fail and be repeated in any order; the fence of a document lets a call pass only when it
is not behind, and what a query finds is held against the row once more.
-/

namespace Rag

open EchoDesk Transition LastWrite List Option Document Keyed

variable {config : Config}
variable {scope : Scope}
variable {snapshot : ScopeSnapshot} {generation : Int} {c : IndexedChunk} {revision : Nat}
  {store : Store} {p : Payload}

/-- The chunks of a meeting in a payload say which document and generation they are of. -/
def Payload.Labelled (p : Payload) (docId : String) (generation : Int) : Prop :=
  ∀ c ∈ p.chunks, c.metadata.lookup "kind" = some "meeting" →
    c.docId = docId ∧ c.metadata.lookup "projection_generation" = some (toString generation)

/-- A call of `mutate_document` with a generation and an operation. -/
structure FencedCall where
  scope : Scope
  docId : String
  indexPath : String
  mutator : Option Payload → Option Payload
  generation : Int
  operation : Operation
  labelled : ∀ existing p, mutator existing = some p → p.Labelled docId generation

def FencedCall.call (c : FencedCall) : MutateCall :=
  ⟨c.scope, c.docId, c.indexPath, c.mutator, some c.generation, some c.operation⟩

def FencedCall.fence (c : FencedCall) : Fence := ⟨c.scope, c.docId, c.generation, c.operation⟩

/-! ## The calls that the adapter makes -/

variable {metadata : List (String × String)} {docId : String}

theorem lookup_setItem_of_ne {key k : String} (h : k ≠ key) (value : String) :
    (setItem metadata key value).lookup k = metadata.lookup k := by
  have hne : (k == key) = false := beq_eq_false_iff_ne.2 h
  induction metadata with
  | nil => rw [setItem, lookup_cons, hne]
  | cons entry rest ih =>
    obtain ⟨key', value'⟩ := entry
    unfold setItem
    split
    · rename_i heq
      subst heq
      rw [lookup_cons, lookup_cons, hne]
    · rw [lookup_cons, lookup_cons, ih]

theorem lookup_scopedMetadata {key : String} (htenant : key ≠ tenantMeta)
    (howner : key ≠ ownerMeta) :
    (scopedMetadata scope metadata).lookup key = metadata.lookup key := by
  rw [scopedMetadata, lookup_setItem_of_ne howner, lookup_setItem_of_ne htenant]

theorem labelled_meeting (config : Config) (principal : Principal) (meetingId title : String)
    (generation : Int) (pieces : List String) :
    (persistedPayload principal ("meeting-" ++ meetingId) title
      (meetingChunks config principal meetingId title (some generation) pieces)
      (some generation)).Labelled ("meeting-" ++ meetingId) generation := by
  intro c hc _
  obtain ⟨⟨piece, j⟩, -, rfl⟩ := mem_map.1 hc
  refine ⟨rfl, ?_⟩
  show (scopedMetadata _ _).lookup _ = _
  rw [lookup_scopedMetadata (by decide) (by decide)]
  rfl

/-- `ingest_meeting` with a generation. -/
def indexCall (config : Config) (principal : Principal) (meetingId title : String)
    (generation : Int) (pieces : List String) : FencedCall where
  scope := principal.scope
  docId := "meeting-" ++ meetingId
  indexPath := indexFile config principal.scope ("meeting-" ++ meetingId)
  mutator := fun _ => some (persistedPayload principal ("meeting-" ++ meetingId) title
    (meetingChunks config principal meetingId title (some generation) pieces) (some generation))
  generation := generation
  operation := .index
  labelled := fun _ _ h =>
    Option.some.inj h ▸ labelled_meeting config principal meetingId title generation pieces

/-- `delete` with a generation. -/
def removeCall (config : Config) (scope : Scope) (docId : String) (generation : Int) :
    FencedCall where
  scope := scope
  docId := docId
  indexPath := indexFile config scope docId
  mutator := fun _ => none
  generation := generation
  operation := .delete
  labelled := fun _ _ h => by cases h

/-- An ingest of a meeting with a generation makes an index call. -/
theorem ingestMeeting_fenced (config : Config) (principal : Principal) (meetingId title : String)
    (generation : Int) {pieces : List String} (h : pieces ≠ []) :
    ingestMeeting config principal meetingId title (some generation) pieces =
      .ok (indexCall config principal meetingId title generation pieces).call := by
  unfold ingestMeeting
  rw [if_neg]
  · rfl
  intro hnil
  rw [meetingChunks, map_eq_nil_iff, zipIdx_eq_nil_iff] at hnil
  exact h hnil

theorem deleteCall_fenced (config : Config) (scope : Scope) (docId : String) (generation : Int) :
    deleteCall config scope docId (some generation) =
      (removeCall config scope docId generation).call := rfl

/-! ## Runs -/

/-- A call that was committed, with what it made of the payload. -/
structure Commit where
  fence : Fence
  payload : Option Payload

def Commit.key (c : Commit) : DocKey := c.fence.key

/-- The store, the processes that read it, and the rows of the meetings. -/
structure System where
  store : Store
  caches : Nat → Cache
  meetings : Meetings
  /-- The snapshots that queries have. -/
  asked : List ScopeSnapshot
  /-- The calls that were committed, the oldest first. -/
  commits : List Commit

def System.init : System := ⟨Store.init, fun _ => [], none, [], []⟩

inductive Label where
  | mutate (call : FencedCall) (fault : Option Fault)
  /-- A snapshot of the store, such as the repair after a call has raised. -/
  | repair (scope : Scope) (fault : Option Nat)
  /-- The rows of the meetings are written. -/
  | write (meetings : Meetings)
  /-- A process gets the snapshot it goes on with. -/
  | ask (process : Nat) (scope : Scope) (force : Bool) (fault : Option Nat)

/-- What a call makes of the payload it finds. -/
def FencedCall.outcome (c : FencedCall) (db : Db) : Option Payload :=
  (c.mutator ((db.documents.get? c.call.key).map Document.payload)).bind fun p =>
    (p.normalize (db.revision + 1)).toOption

variable (config) in
def step (s : System) : Label → System
  | .mutate call fault =>
    match s.store.mutateDocument config call.call fault with
    | (.ok _, store) =>
      { s with
        store := store
        commits := if s.store.db.fenced call.call then s.commits
          else s.commits ++ [⟨call.fence, call.outcome s.store.db⟩] }
    | (.error _, store) => { s with store := store }
  | .repair scope fault => { s with store := (s.store.snapshot config scope [] fault).2 }
  | .write meetings => { s with meetings := meetings }
  | .ask process scope force fault =>
    match snapshotForScope config s.store (s.caches process) scope force [] fault with
    | (result, store, cache) =>
      { s with
        store := store
        caches := Function.update s.caches process cache
        asked := s.asked ++ result.toOption.toList }

/-! ## The invariant -/

/-- The payload and the fence of a document are those of the last call that was committed. -/
def Projected (s : System) (key : DocKey) : Prop :=
  s.store.db.fences.get? key = (lastOf Commit.key s.commits key).map Commit.fence ∧
    (s.store.db.documents.get? key).map Document.payload =
      (lastOf Commit.key s.commits key).bind Commit.payload

/-- The chunks of meetings in a snapshot say which generation their document is of. -/
def ScopeSnapshot.Labelled (snapshot : ScopeSnapshot) : Prop :=
  ∃ generation : String → Nat, ∀ c ∈ snapshot.chunks, c.metadata.lookup "kind" = some "meeting" →
    c.metadata.lookup "projection_generation" = some (toString (generation c.docId))

/-- The invariant. -/
structure Inv (s : System) : Prop where
  consistent : Consistent s.store.db
  projected : ∀ key, Projected s key
  labelled : ∀ d ∈ s.store.db.documents, ∃ generation : Nat, d.payload.Labelled d.docId generation
  cached : ∀ process, ∀ snapshot ∈ s.caches process, snapshot.Labelled
  asked : ∀ snapshot ∈ s.asked, snapshot.Labelled

variable {s : System}

/-- The store of an invariant state may be replaced by one with the same tables. -/
theorem Inv.of_db (h : Inv s) (hdb : store.db = s.store.db) : Inv { s with store := store } := by
  refine ⟨?_, ?_, ?_, h.cached, h.asked⟩
  · rw [hdb]
    exact h.consistent
  · intro key
    unfold Projected
    rw [hdb]
    exact h.projected key
  · intro d hd
    apply h.labelled d
    rw [← hdb]
    exact hd

/-! ## The chunks of a snapshot -/

theorem lookup_setDefault_of_ne {key k : String} (h : k ≠ key) (value : String) :
    (setDefault metadata key value).lookup k = metadata.lookup k := by
  have hne : (k == key) = false := beq_eq_false_iff_ne.2 h
  unfold setDefault
  split
  · rfl
  · rw [lookup_append, lookup_cons, hne, lookup_nil, or_none]

theorem lookup_orderedInsert (entry : String × String) (items : List (String × String))
    (k : String) :
    (items.orderedInsert (fun a b => a.1 ≤ b.1) entry).lookup k = (entry :: items).lookup k := by
  induction items with
  | nil => rfl
  | cons head rest ih =>
    rw [orderedInsert_cons]
    split
    · rfl
    rename_i hle
    have hkeys : head.1 ≠ entry.1 := fun heq => hle (heq ▸ String.le_refl _)
    rw [lookup_cons, ih, lookup_cons, lookup_cons, lookup_cons]
    by_cases hhead : k = head.1
    · have hentry : (k == entry.1) = false := by
        rw [beq_eq_false_iff_ne, hhead]
        exact hkeys
      rw [hentry, beq_iff_eq.2 hhead]
    · rw [beq_eq_false_iff_ne.2 hhead]

/-- Sorting the items keeps what the keys stand for. -/
theorem lookup_sortedItems (metadata : List (String × String)) (k : String) :
    (sortedItems metadata).lookup k = metadata.lookup k := by
  induction metadata with
  | nil => rfl
  | cons entry rest ih =>
    have hcons : sortedItems (entry :: rest) =
        (sortedItems rest).orderedInsert (fun a b => a.1 ≤ b.1) entry := rfl
    rw [hcons, lookup_orderedInsert, lookup_cons, lookup_cons, ih]

/-- A chunk in memory is one of the payload, with its document and its own metadata. -/
theorem mem_indexedChunks {indexed : IndexedChunk} (h : indexed ∈ p.indexedChunks scope) :
    ∃ c ∈ p.chunks, indexed.docId = c.docId ∧
      ∀ k, k ≠ tenantMeta → k ≠ ownerMeta → indexed.metadata.lookup k = c.metadata.lookup k := by
  obtain ⟨c, hc, heq⟩ := mem_filterMap.1 h
  dsimp only at heq
  split at heq
  · cases heq
    refine ⟨c, hc, rfl, ?_⟩
    intro k htenant howner
    rw [lookup_sortedItems, Chunk.scopedBy, lookup_setDefault_of_ne howner,
      lookup_setDefault_of_ne htenant]
  · cases heq

/-- A snapshot that is built of labelled documents is labelled. -/
theorem labelled_build {db : Db}
    (h : ∀ d ∈ db.documents, ∃ generation : Nat, d.payload.Labelled d.docId generation)
    {built : ScopeSnapshot}
    (hbuilt : buildScopeSnapshot config scope ⟨revision, db.documentsOf scope⟩ = .ok built) :
    built.Labelled := by
  classical
  unfold buildScopeSnapshot at hbuilt
  split at hbuilt
  · cases hbuilt
  cases hbuilt
  -- the generation of the one document of the scope that has the id
  let Of (docId : String) (generation : Nat) : Prop := ∃ d ∈ db.documents,
    d.scope = scope ∧ d.docId = docId ∧ d.payload.Labelled docId generation
  refine ⟨fun docId => if hex : ∃ generation, Of docId generation then hex.choose else 0, ?_⟩
  intro indexed hindexed hkind
  obtain ⟨d, hd, hchunk⟩ := mem_flatMap.1 hindexed
  obtain ⟨hmem, hscope⟩ := mem_documentsOf.1 hd
  obtain ⟨c, hc, hdocId, hlookup⟩ := mem_indexedChunks hchunk
  rw [hlookup "kind" (by decide) (by decide)] at hkind
  obtain ⟨generation, hgeneration⟩ := h d hmem
  obtain ⟨hid, -⟩ := hgeneration c hc hkind
  have hex : ∃ generation, Of indexed.docId generation := by
    refine ⟨generation, d, hmem, hscope, (hdocId.trans hid).symm, ?_⟩
    rw [hdocId, hid]
    exact hgeneration
  dsimp only
  rw [dif_pos hex, hlookup "projection_generation" (by decide) (by decide)]
  obtain ⟨d', hmem', hscope', hid', hgeneration'⟩ := hex.choose_spec
  have hkey : d'.key = d.key := by
    rw [key, key, hscope, hscope', hid', hdocId, hid]
  obtain rfl : d' = d := inj_on_of_nodup_map db.documents.nodup hmem' hmem hkey
  exact (hgeneration' c hc hkind).2

/-! ## Steps -/

theorem labelled_normalize {normalized : Payload} (h : p.Labelled docId generation)
    (hnormal : p.normalize revision = .ok normalized) : normalized.Labelled docId generation := by
  obtain ⟨_, -, -, -, hchunks⟩ := fields_of_normalize hnormal
  intro c hc
  rw [hchunks] at hc
  exact h c hc

/-- A call that the store goes through with has a natural number for its generation. -/
theorem generation_natural {st : Store} {c : FencedCall} {fault : Option Fault}
    {mutation : IndexMutation} (h : (st.mutateDocument config c.call fault).1 = .ok mutation) :
    ∃ n : Nat, c.generation = n := by
  unfold Store.mutateDocument at h
  split at h
  · cases h
  split at h
  · cases h
  rename_i hnegative
  have hle : 0 ≤ c.generation := by simpa [FencedCall.call] using hnegative
  exact ⟨c.generation.toNat, (Int.toNat_of_nonneg hle).symm⟩

/-- A call that is committed is the last of its document. -/
theorem Inv.commit (h : Inv s) {c : FencedCall} (hconsistent : Consistent store.db)
    (hfences : store.db.fences = s.store.db.fences.put c.fence)
    (hdocuments : ∀ key, store.db.documents.get? key =
      if key = c.call.key then store.db.documents.get? c.call.key
      else s.store.db.documents.get? key)
    (houtcome : (store.db.documents.get? c.call.key).map payload = c.outcome s.store.db)
    (hlabelled : ∀ d ∈ store.db.documents, ∃ n : Nat, d.payload.Labelled d.docId n) :
    Inv { s with store := store, commits := s.commits ++ [⟨c.fence, c.outcome s.store.db⟩] } := by
  refine ⟨hconsistent, ?_, hlabelled, h.cached, h.asked⟩
  intro key
  obtain ⟨hfence, hpayload⟩ := h.projected key
  have hkey : c.fence.key = c.call.key := rfl
  unfold Projected
  rw [hfences, get?_put, hdocuments key, lastOf_concat]
  show (if key = c.fence.key then some c.fence else s.store.db.fences.get? key) =
      Option.map Commit.fence (if c.fence.key = key then _ else _) ∧
    Option.map payload (if key = c.call.key then _ else _) =
      Option.bind (if c.fence.key = key then _ else _) Commit.payload
  rw [hkey]
  by_cases heq : key = c.call.key
  · rw [if_pos heq, if_pos heq.symm, if_pos heq]
    exact ⟨rfl, houtcome⟩
  · rw [if_neg heq, if_neg (Ne.symm heq), if_neg heq]
    exact ⟨hfence, hpayload⟩

theorem inv_mutate (h : Inv s) (c : FencedCall) (fault : Option Fault) :
    Inv (step config s (.mutate c fault)) := by
  have hstep := mutateStep config s.store c.call fault
  have hnatural := @generation_natural config s.store c fault
  simp only [step]
  generalize s.store.mutateDocument config c.call fault = outcome at hstep hnatural
  obtain ⟨result, store⟩ := outcome
  have hconsistent := h.consistent.mutate hstep
  cases hstep with
  | raised hresult hdb =>
    obtain ⟨error, hresult⟩ := hresult
    dsimp only at hresult
    rw [hresult]
    exact h.of_db hdb
  | stale hfenced hresult hst =>
    obtain ⟨mutation, hresult⟩ := hresult
    dsimp only at hresult hst
    rw [hresult, hst]
    rw [if_pos hfenced]
    exact h
  | absent hfenced hresult hmutator hrow hst =>
    obtain ⟨mutation, hresult⟩ := hresult
    dsimp only at hresult hst hmutator hrow
    rw [hresult]
    rw [hfenced, if_neg Bool.false_ne_true]
    have hdocs : store.db.documents = s.store.db.documents := by
      rw [hst]
      exact (raiseFence_tables s.store.db c.call).2.1
    refine h.commit hconsistent (by rw [hst]; rfl) ?_ ?_ ?_
    · intro key
      rw [hdocs]
      split
      · rename_i heq
        rw [heq]
      · rfl
    · have hnone : c.mutator ((s.store.db.documents.get? c.call.key).map payload) = none :=
        hmutator
      rw [hdocs, hrow, FencedCall.outcome, ← hrow, hnone, hrow]
      rfl
    · rw [hdocs]
      exact h.labelled
  | deletes target hfenced hresult hmutator hst =>
    obtain ⟨mutation, hresult⟩ := hresult
    dsimp only at hresult hst hmutator
    rw [hresult]
    rw [hfenced, if_neg Bool.false_ne_true]
    have hdocs : store.db.documents = s.store.db.documents.erase c.call.key := by rw [hst]
    refine h.commit hconsistent (by rw [hst]; rfl) ?_ ?_ ?_
    · intro key
      rw [hdocs, get?_erase, get?_erase, if_pos rfl]
    · have hnone : c.mutator ((s.store.db.documents.get? c.call.key).map payload) = none :=
        hmutator
      rw [hdocs, get?_erase, if_pos rfl, FencedCall.outcome, hnone]
      rfl
    · intro d hd
      rw [hdocs] at hd
      exact h.labelled d (mem_erase.1 hd).1
  | writes target proposed normalized hfenced hresult hmutator hwritten hfiles =>
    obtain ⟨mutation, hresult⟩ := hresult
    dsimp only at hresult hmutator hwritten
    obtain ⟨n, hn⟩ := hnatural hresult
    rw [hresult]
    rw [hfenced, if_neg Bool.false_ne_true]
    have hkey : key ⟨c.call.scope, c.call.docId, target, normalized,
        s.store.db.revision + 1⟩ = c.call.key := rfl
    refine h.commit hconsistent hwritten.fences ?_ ?_ ?_
    · intro key
      rw [hwritten.documents, get?_put, get?_put, hkey, if_pos rfl]
    · have hsome : c.mutator ((s.store.db.documents.get? c.call.key).map payload) =
          some proposed := hmutator
      rw [hwritten.documents, get?_put, hkey, if_pos rfl, FencedCall.outcome, hsome]
      show some normalized = (proposed.normalize (s.store.db.revision + 1)).toOption
      rw [hwritten.normalize]
      rfl
    intro d hd
    rw [hwritten.documents, mem_put] at hd
    rcases hd with rfl | ⟨hd, -⟩
    · refine ⟨n, ?_⟩
      rw [← hn]
      exact labelled_normalize (c.labelled _ _ hmutator) hwritten.normalize
    · exact h.labelled d hd

theorem inv_step (h : Inv s) (l : Label) : Inv (step config s l) := by
  cases l with
  | mutate c fault => exact inv_mutate h c fault
  | repair scope fault =>
    exact h.of_db (h.consistent.snapshot config scope [] fault).1
  | write meetings => exact ⟨h.consistent, h.projected, h.labelled, h.cached, h.asked⟩
  | ask process scope force fault =>
    have hbuilt : ∀ durable built, (s.store.snapshot config scope [] fault).1 = .ok durable →
        buildScopeSnapshot config scope durable = .ok built → built.Labelled := by
      intro durable built hdurable hbuild
      rw [(h.consistent.snapshot config scope [] fault).2 durable hdurable] at hbuild
      exact labelled_build h.labelled hbuild
    obtain ⟨hasked, hcached⟩ := snapshotForScope_keeps (h.cached process) hbuilt force
    have hstore := snapshotForScope_store config s.store (s.caches process) scope force [] fault
    simp only [step]
    generalize snapshotForScope config s.store (s.caches process) scope force [] fault = outcome
      at hasked hcached hstore
    obtain ⟨result, store, cache⟩ := outcome
    have hdb : store.db = s.store.db := by
      rcases hstore with hsame | hsnapshot
      · exact congrArg Store.db hsame
      · exact (congrArg Store.db hsnapshot).trans (h.consistent.snapshot config scope [] fault).1
    obtain ⟨hconsistent, hprojected, hlabelled, -, -⟩ := h.of_db hdb
    refine ⟨hconsistent, hprojected, hlabelled, ?_, ?_⟩
    · intro p snapshot hsnapshot
      simp only [Function.update_apply] at hsnapshot
      split at hsnapshot
      · exact hcached snapshot hsnapshot
      · exact h.cached p snapshot hsnapshot
    intro snapshot hsnapshot
    rcases mem_append.1 hsnapshot with hsnapshot | hsnapshot
    · exact h.asked snapshot hsnapshot
    cases result with
    | error error => cases hsnapshot
    | ok loaded =>
      obtain rfl := mem_singleton.1 hsnapshot
      exact hasked _ rfl

theorem inv_init : Inv System.init := by
  refine ⟨consistent_init, fun _ => ⟨rfl, rfl⟩, ?_, ?_, ?_⟩
  · intro d hd
    cases hd
  · intro process snapshot hsnapshot
    cases hsnapshot
  · intro snapshot hsnapshot
    cases hsnapshot

/-! ## What a query finds -/

/-- The row of the meeting a document is of. -/
def MeetingIntent.Of (row : MeetingIntent) (scope : Scope) (docId : String) : Prop :=
  row.scope = scope ∧ "meeting-" ++ row.id = docId

variable {table : Keyed MeetingIntent.key}

/-- A document is of one meeting. -/
theorem MeetingIntent.Of.unique {row row' : MeetingIntent} (hrow : row ∈ table)
    (hrow' : row' ∈ table) (h : row.Of scope docId) (h' : row'.Of scope docId) : row = row' := by
  obtain ⟨hscope, hid⟩ := h
  obtain ⟨hscope', hid'⟩ := h'
  have hsame : row.id = row'.id := by
    have happend := congrArg String.toList (hid.trans hid'.symm)
    rw [String.toList_append, String.toList_append] at happend
    exact String.toList_injective (append_cancel_left happend)
  have hkey : row.key = row'.key := by
    rw [MeetingIntent.key, MeetingIntent.key, hscope, hscope', hsame]
  exact inj_on_of_nodup_map table.nodup hrow hrow' hkey

/-- A document with a generation is visible while the row of its meeting has that generation. -/
theorem row_of_visible (h : visibleMeetingDocument (some table) scope docId (some generation)) :
    ∃ row ∈ table, row.Of scope docId ∧ row.ragProjectionState.getD "" ∉ deleteStates ∧
      row.ragProjectionGeneration.getD 0 = generation := by
  unfold visibleMeetingDocument at h
  dsimp only at h
  split at h
  · cases h
  rename_i row hfound
  have hof : row.scope = scope ∧ "meeting-" ++ row.id = docId := by
    simpa using find?_some hfound
  refine ⟨row, mem_of_find?_eq_some hfound, hof, ?_⟩
  split at h
  · cases h
  · rename_i hstate
    exact ⟨hstate, beq_iff_eq.1 h⟩

/-- The generation that a document of a labelled snapshot is looked at with is the one of all its
chunks. -/
theorem meetingGeneration_of_labelled (config : Config) (h : snapshot.Labelled)
    (hc : c ∈ snapshot.chunks) (hkind : c.metadata.lookup "kind" = some "meeting") :
    ∃ n : Nat, c.metadata.lookup "projection_generation" = some (toString n) ∧
      meetingGeneration config snapshot.chunks c.docId = some (some (n : Int)) := by
  obtain ⟨generation, hgeneration⟩ := h
  refine ⟨generation c.docId, hgeneration c hc hkind, ?_⟩
  unfold meetingGeneration
  cases hlast : (snapshot.chunks.filter fun c' =>
      c'.metadata.lookup "kind" = some "meeting" ∧ c'.docId = c.docId).getLast? with
  | none =>
    rw [getLast?_eq_none_iff, filter_eq_nil_iff] at hlast
    exact absurd hkind (by simpa using hlast c hc)
  | some last =>
    have hmem := mem_of_getLast? hlast
    rw [mem_filter, decide_eq_true_eq] at hmem
    obtain ⟨hmem, hkind', hdoc⟩ := hmem
    have hlabel := hgeneration last hmem hkind'
    rw [hdoc] at hlabel
    rw [map_some, IndexedChunk.generation, hlabel, map_some, config.intOfText_natural, getD_some]

/-- A chunk of a meeting that a query finds is of the generation in the row of the meeting. -/
theorem answer_current (h : snapshot.Labelled) {query : String} {topK : Nat}
    (hc : c ∈ answer config (some table) snapshot query topK)
    (hkind : c.metadata.lookup "kind" = some "meeting") :
    ∃ row ∈ table, row.Of snapshot.scope c.docId ∧ row.ragProjectionState.getD "" ∉ deleteStates ∧
      c.metadata.lookup "projection_generation" =
        some (toString (row.ragProjectionGeneration.getD 0)) := by
  have hvisible := mem_answer hc
  unfold visibleChunks at hvisible
  rw [mem_filter] at hvisible
  obtain ⟨hmem, hvisible⟩ := hvisible
  obtain ⟨n, hlabel, hgeneration⟩ := meetingGeneration_of_labelled config h hmem hkind
  rw [hgeneration] at hvisible
  have hrow : visibleMeetingDocument (some table) snapshot.scope c.docId (some (n : Int)) := by
    simpa [hkind] using hvisible
  obtain ⟨row, hrow, hof, hstate, hsame⟩ := row_of_visible hrow
  refine ⟨row, hrow, hof, hstate, ?_⟩
  rw [hlabel, hsame]
  rfl

/-- In every run a call that the fence is ahead of changes nothing, what is stored is what the
last committed call made of it, and a query finds the chunks of a meeting only while its row has
their generation and is not to be deleted. -/
theorem projection_fenced (config : Config) (trace : List Label) :
    let s := run (step config) .init trace
    (∀ (c : FencedCall) (fence : Fence), s.store.db.fences.get? c.call.key = some fence →
      (c.generation < fence.generation ∨
        c.generation = fence.generation ∧ c.operation ≠ fence.operation) →
      ∀ fault, (s.store.mutateDocument config c.call fault).2 = s.store ∧
        (step config s (.mutate c fault)).store.db = s.store.db ∧
        ∀ scope fault', ((s.store.mutateDocument config c.call fault).2.snapshot config scope []
          fault').2.db = s.store.db) ∧
    (∀ key, Projected s key) ∧
    ∀ snapshot ∈ s.asked, ∀ table, s.meetings = some table → ∀ query topK,
      ∀ c ∈ answer config s.meetings snapshot query topK,
        c.metadata.lookup "kind" = some "meeting" →
        (∃ row ∈ table, row.Of snapshot.scope c.docId) ∧
        ∀ row ∈ table, row.Of snapshot.scope c.docId →
          row.ragProjectionState.getD "" ∉ deleteStates ∧
          c.metadata.lookup "projection_generation" =
            some (toString (row.ragProjectionGeneration.getD 0)) := by
  intro s
  have hstep : ∀ s l, Inv s → Inv (step config s l) := fun _ l h => inv_step h l
  have hinv : Inv s := run_invariant hstep inv_init trace
  refine ⟨?_, hinv.projected, ?_⟩
  · intro c fence hfence hlate fault
    have hfenced : s.store.db.fenced c.call = true := by
      unfold Db.fenced
      rw [show c.call.fence = some c.fence from rfl, Option.any_some, hfence, Option.any_some]
      unfold Fence.blocks
      rcases hlate with hbelow | ⟨hsame, hother⟩
      · simp only [FencedCall.fence, hbelow, decide_true, Bool.true_or]
      · simp [FencedCall.fence, hsame, Ne.symm hother]
    have hsame := mutateDocument_of_fenced config hfenced fault
    refine ⟨hsame, ?_, ?_⟩
    · simp only [step]
      generalize s.store.mutateDocument config c.call fault = outcome at hsame
      obtain ⟨result, store⟩ := outcome
      obtain rfl : store = s.store := hsame
      cases result with
      | error error | ok mutation => rfl
    · intro scope fault'
      rw [hsame]
      exact (hinv.consistent.snapshot config scope [] fault').1
  · intro snapshot hsnapshot table htable query topK c hc hkind
    rw [htable] at hc
    obtain ⟨row, hrow, hof, hcurrent⟩ := answer_current (hinv.asked snapshot hsnapshot) hc hkind
    refine ⟨⟨row, hrow, hof⟩, ?_⟩
    intro row' hrow' hof'
    obtain rfl := hof.unique hrow hrow' hof'
    exact hcurrent

end Rag
