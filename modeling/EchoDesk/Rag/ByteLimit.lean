import EchoDesk.Rag.Limits
import Mathlib.Algebra.Order.BigOperators.Group.List

/-! # The payload limit in bytes

Insertions, replacements and deletions of one store, and the snapshots between them. A new
payload is weighed in bytes, the payloads that are stored with the SQL function `length`,
which counts the characters of a text. The store holds the bytes of every scope within the
limit as long as no document comes between the two counts.
-/

namespace Rag

open EchoDesk Transition Tally Limits Store

namespace ByteLimit

variable (config : Config)
variable {call : MutateCall}
variable {normalized p : Payload} {error : RagError} {revision : Nat}

inductive Label where
  /-- `mutate_document`, with the snapshot that follows when it raises. -/
  | mutate (call : MutateCall) (fault : Option Fault) (repair : Option Nat)
  | snapshot (scope : Scope) (unlinked : List String) (fault : Option Nat)

def step (st : Store) : Label → Store
  | .mutate call fault repair => (Limits.mutateOrRepair config st call fault repair).2
  | .snapshot scope unlinked fault => (st.snapshot config scope unlinked fault).2

/-! ## The promise -/

/-- The bytes of the stored payloads of a scope. -/
def scopeBytes (db : Db) (scope : Scope) : Nat :=
  total (fun d => d.payload.byteLength config) (db.documentsOf scope)

/-- The other documents of the scope of a document, which a replacement keeps. -/
def othersOf (db : Db) (key : DocKey) : List Document :=
  db.documents.rows.filter fun d => d.scope = key.1 ∧ d.docId ≠ key.2

/-- Their bytes. -/
def otherBytes (db : Db) (key : DocKey) : Nat :=
  total (fun d => d.payload.byteLength config) (othersOf db key)

/-- Their characters: `other_payload_bytes`. -/
def otherCharacters (db : Db) (key : DocKey) : Nat :=
  total (fun d => d.payload.textLength config) (othersOf db key)

/-- The call ends before its mutator is called. -/
def stopped (st : Store) (call : MutateCall) : Bool :=
  (call.projectionGeneration.isSome != call.projectionOperation.isSome) ||
    (call.projectionGeneration.any fun generation => generation < 0) ||
    (config.safeIndexPath call.indexPath).isNone || st.db.fenced call

/-- The payload that a call comes to store, if it does. -/
def offered (st : Store) (call : MutateCall) : Option Payload :=
  if stopped config st call then none
  else
    (call.mutator ((st.db.documents.get? call.key).map Document.payload)).bind fun proposed =>
      (proposed.normalize (st.db.revision + 1)).toOption.filter fun normalized =>
        normalized.key = call.key

/-- The store is within the limit. -/
def Bounded (st : Store) : Prop :=
  ∀ scope, scopeBytes config st.db scope ≤ config.maxScopePayloadBytes

/-- A document is refused for its size just when it would take its scope over the limit. -/
def RefusesExactly (st : Store) : Label → Prop
  | .mutate call fault repair =>
    (Limits.mutateOrRepair config st call fault repair).1 = .error .payloadLimit ↔
      ∃ p, offered config st call = some p ∧
        config.maxScopePayloadBytes < otherBytes config st.db call.key + p.byteLength config
  | .snapshot _ _ _ => True

/-- What is promised of a step. -/
def Keeps (st : Store) (l : Label) : Prop :=
  Bounded config (step config st l) ∧ RefusesExactly config st l

/-! ## The condition -/

/-- A document that fits beside the characters of the others fits beside their bytes. -/
def Fits (st : Store) : Label → Prop
  | .mutate call _ _ => ∀ p, offered config st call = some p →
      otherCharacters config st.db call.key + p.byteLength config ≤ config.maxScopePayloadBytes →
      otherBytes config st.db call.key + p.byteLength config ≤ config.maxScopePayloadBytes
  | .snapshot _ _ _ => True

variable {config}

/-! ## What a call comes to -/

theorem otherCharacters_le (config : Config) (db : Db) (key : DocKey) :
    otherCharacters config db key ≤ otherBytes config db key :=
  List.sum_le_sum fun d _ => textLength_le_byteLength config d.payload

/-- The first check of an insertion that refuses it is the one on the characters. -/
theorem insertDocument_limit (config : Config) (db : Db) {payload : Payload} {fields : Fields}
    (hnormal : payload.normalize revision = .ok normalized)
    (hfields : normalized.fields = .ok fields) (indexPath : String) :
    (config.maxScopePayloadBytes < otherCharacters config db (fields.scope, fields.docId) +
        normalized.byteLength config ∧
      db.insertDocument config payload indexPath revision = .error .payloadLimit) ∨
    (otherCharacters config db (fields.scope, fields.docId) + normalized.byteLength config ≤
        config.maxScopePayloadBytes ∧
      (db.insertDocument config payload indexPath revision = .error .manifestRejected ∨
        ∃ db', db.insertDocument config payload indexPath revision = .ok (normalized, db'))) := by
  unfold Db.insertDocument
  rw [hnormal]
  dsimp only [bind, Except.bind]
  rw [hfields]
  dsimp only
  split
  · rename_i hover
    exact .inl ⟨hover, rfl⟩
  rename_i hfits
  refine .inr ⟨Nat.le_of_not_lt hfits, ?_⟩
  rcases upsertManifest_cases _ hfields indexPath with heq | ⟨-, heq⟩
  · rw [heq]
    exact .inl rfl
  · rw [heq]
    exact .inr ⟨_, rfl⟩

/-- All that `mutate_document` can come to, by the payload that the call comes to store. -/
inductive Outcome (config : Config) (st : Store) (call : MutateCall)
    (result : Except RagError IndexMutation) (documents : Keyed Document.key) : Prop where
  | nothing (hoffered : offered config st call = none) (hresult : result ≠ .error .payloadLimit)
      (hdocuments : documents = st.db.documents ∨ documents = st.db.documents.erase call.key)
  | refused (p : Payload) (hoffered : offered config st call = some p)
      (hover : config.maxScopePayloadBytes <
        otherCharacters config st.db call.key + p.byteLength config)
      (hresult : result = .error .payloadLimit) (hdocuments : documents = st.db.documents)
  | fits (p : Payload) (hoffered : offered config st call = some p)
      (hfits : otherCharacters config st.db call.key + p.byteLength config ≤
        config.maxScopePayloadBytes)
      (hresult : result ≠ .error .payloadLimit)
      (hdocuments : documents = st.db.documents ∨ ∃ indexPath revision,
        documents = st.db.documents.put ⟨call.scope, call.docId, indexPath, p, revision⟩)

theorem missingDocId_of_fields (h : p.fields = .error error) : error = .missingDocId := by
  unfold Payload.fields at h
  dsimp only at h
  split at h
  · exact (Except.error.inj h).symm
  · cases h

variable {st : Store}

theorem offered_of_stopped (hstopped : stopped config st call = true) :
    offered config st call = none := if_pos hstopped

/-- A transaction that fails at its file operation or its commit is not refused for a size. -/
theorem commit_ne_payloadLimit (st : Store) (fault : Option Fault) (mutation : Mutation) :
    (st.commit fault mutation).1 ≠ .error .payloadLimit := by
  intro h
  cases mutation with
  | stale existing | absent db =>
    simp only [commit] at h
    split at h
    · cases h
    · cases h
  | deletes target db | writes target payload db =>
    simp only [commit] at h
    split at h
    · cases h
    · cases h
    · cases h

/-- What a call that is not stopped comes to store. -/
theorem offered_of_mutator (hgo : stopped config st call = false) {proposed : Payload}
    (hmutator : call.mutator ((st.db.documents.get? call.key).map Document.payload) = some proposed)
    (hnormal : proposed.normalize (st.db.revision + 1) = .ok normalized) :
    offered config st call = if normalized.key = call.key then some normalized else none := by
  unfold offered
  rw [if_neg (by rw [hgo]; exact Bool.false_ne_true), hmutator, Option.bind_some, hnormal]
  simp [Except.toOption, Option.filter]

/-- Why a transaction that passes the fence raises. -/
theorem mutate_error (config : Config) {target : String} (hgo : stopped config st call = false)
    (herror : st.db.mutate config target call = .error error) :
    Outcome config st call (.error error) st.db.documents := by
  obtain ⟨hrevision, hdocuments, -⟩ := raiseFence_tables st.db call
  have hfenced := (Bool.or_eq_false_iff.1 hgo).2
  unfold Db.mutate at herror
  rw [if_neg (by rw [hfenced]; exact Bool.false_ne_true)] at herror
  cases hmutator : call.mutator ((st.db.documents.get? call.key).map Document.payload) with
  | none =>
    rw [hmutator] at herror
    dsimp only at herror
    split at herror
    · cases herror
    · cases herror
  | some proposed =>
    rw [hmutator] at herror
    dsimp only [bind, Except.bind] at herror
    cases hnormal : proposed.normalize (st.db.revision + 1) with
    | error error' =>
      have hoffered : offered config st call = none := by
        unfold offered
        rw [if_neg (by rw [hgo]; exact Bool.false_ne_true), hmutator, Option.bind_some, hnormal]
        rfl
      refine .nothing hoffered ?_ (.inl rfl)
      unfold Payload.normalize at hnormal
      cases hfields : proposed.fields with
      | error error'' =>
        rw [hfields] at herror
        rw [missingDocId_of_fields hfields] at herror
        cases herror
        rintro ⟨⟩
      | ok fields =>
        rw [hfields] at hnormal
        cases hnormal
    | ok normalized =>
      obtain ⟨fields, hfields, hfields', hkey, -⟩ := fields_of_normalize hnormal
      have hoffered := offered_of_mutator hgo hmutator hnormal
      rw [hfields] at herror
      dsimp only at herror
      split at herror
      · rename_i hother
        have hne : normalized.key ≠ call.key := by
          rw [hkey]
          intro heq
          rcases hother with hscope | hdoc
          · exact hscope (congrArg Prod.fst heq)
          · exact hdoc (congrArg Prod.snd heq)
        rw [if_neg hne] at hoffered
        cases herror
        exact .nothing hoffered (by rintro ⟨⟩) (.inl rfl)
      rename_i hsame
      rw [not_or, not_not, not_not] at hsame
      have hcall : (fields.scope, fields.docId) = call.key := by
        rw [hsame.1, hsame.2]
        rfl
      rw [if_pos (hkey.trans hcall)] at hoffered
      have hothers : otherCharacters config (st.db.raiseFence call) call.key =
          otherCharacters config st.db call.key := by
        unfold otherCharacters othersOf
        rw [hdocuments]
      rcases insertDocument_limit config (st.db.raiseFence call) hnormal hfields'
          (st.db.target target call) with ⟨hover, heq⟩ | ⟨hfits, heq | ⟨db', heq⟩⟩
      · rw [hcall, hothers] at hover
        unfold Db.target at heq
        rw [hrevision, heq] at herror
        cases herror
        exact .refused normalized hoffered hover rfl rfl
      · rw [hcall, hothers] at hfits
        unfold Db.target at heq
        rw [hrevision, heq] at herror
        cases herror
        exact .fits normalized hoffered hfits (by rintro ⟨⟩) (.inl rfl)
      · unfold Db.target at heq
        rw [hrevision, heq] at herror
        cases herror

theorem outcome (config : Config) (st : Store) (call : MutateCall) (fault : Option Fault) :
    Outcome config st call (st.mutateDocument config call fault).1
      (st.mutateDocument config call fault).2.db.documents := by
  unfold mutateDocument
  split
  · rename_i hpaired
    have hoffered : offered config st call = none :=
      offered_of_stopped (by simp [stopped, hpaired])
    exact .nothing hoffered nofun (.inl rfl)
  rename_i hpaired
  split
  · rename_i hnegative
    have hoffered : offered config st call = none :=
      offered_of_stopped (by simp only [stopped, hnegative, Bool.or_true, Bool.true_or])
    exact .nothing hoffered nofun (.inl rfl)
  rename_i hnegative
  split
  · rename_i hpath
    have hoffered : offered config st call = none :=
      offered_of_stopped (by simp only [stopped, hpath, Option.isNone_none, Bool.or_true,
        Bool.true_or])
    exact .nothing hoffered nofun (.inl rfl)
  rename_i target htarget
  have hstopped : stopped config st call = st.db.fenced call := by
    rw [Bool.not_eq_true] at hnegative
    rw [not_not] at hpaired
    simp [stopped, hpaired, hnegative, htarget]
  obtain ⟨-, hdocuments, -⟩ := raiseFence_tables st.db call
  rcases mutate_cases config st.db target call with ⟨error, heq⟩ | ⟨hfenced, existing, heq⟩ |
    ⟨hfenced, ⟨hmutator, hrow, heq⟩ | ⟨hmutator, heq⟩ |
      ⟨proposed, normalized, db', hmutator, hwritten, heq⟩⟩
  · rw [heq]
    have hgo : stopped config st call = false := by
      rw [hstopped]
      by_contra hfenced
      rw [Bool.not_eq_false] at hfenced
      unfold Db.mutate at heq
      rw [if_pos hfenced] at heq
      cases heq
    exact mutate_error config hgo heq
  · rw [heq]
    have hoffered : offered config st call = none :=
      offered_of_stopped (hstopped.trans hfenced)
    refine .nothing hoffered (commit_ne_payloadLimit st fault _) (.inl ?_)
    simp only [commit]
    split
    · rfl
    · rfl
  · rw [heq]
    refine .nothing ?_ (commit_ne_payloadLimit st fault _) (.inl ?_)
    · unfold offered
      rw [hmutator]
      exact ite_self none
    · simp only [commit]
      split
      · rfl
      · exact hdocuments
  · rw [heq]
    refine .nothing ?_ (commit_ne_payloadLimit st fault _) ?_
    · unfold offered
      rw [hmutator]
      exact ite_self none
    · simp only [commit]
      split
      · exact .inl rfl
      · exact .inl rfl
      · exact .inr rfl
  · rw [heq]
    have hoffered := offered_of_mutator (hstopped.trans hfenced) hmutator hwritten.normalize
    rw [if_pos hwritten.key] at hoffered
    refine .fits normalized hoffered hwritten.fits (commit_ne_payloadLimit st fault _) ?_
    simp only [commit]
    split
    · exact .inl rfl
    · exact .inl rfl
    · exact .inr ⟨_, _, hwritten.documents⟩

/-! ## Steps -/

/-- A call that raises is followed by a snapshot, which leaves the documents as they are. -/
theorem mutateOrRepair_outcome (config : Config) (h : Consistent st.db) (call : MutateCall)
    (fault : Option Fault) (repair : Option Nat) :
    Outcome config st call (mutateOrRepair config st call fault repair).1
        (mutateOrRepair config st call fault repair).2.db.documents ∧
      Consistent (mutateOrRepair config st call fault repair).2.db := by
  have houtcome := outcome config st call fault
  have hstep := h.mutate (mutateStep config st call fault)
  rcases mutateOrRepair_cases config h call fault repair with
    ⟨error, hraised, hresult, hdb⟩ | ⟨mutation, hresult, heq⟩
  · have hsame : (st.mutateDocument config call fault).2.db = st.db := by
      have hmutate := mutateStep config st call fault
      rw [hraised] at hmutate
      exact hmutate.db_of_raised
    rw [hraised, hsame] at houtcome
    rw [hresult, hdb]
    exact ⟨houtcome, h⟩
  · rw [heq]
    exact ⟨houtcome, hstep⟩

/-- A document that fits beside the others in bytes keeps every scope within the limit. -/
theorem bounded_put {db : Db} {indexPath : String} (hbounded : Bounded config st)
    (hfits : otherBytes config st.db call.key + p.byteLength config ≤ config.maxScopePayloadBytes)
    (hdocuments : db.documents =
      st.db.documents.put ⟨call.scope, call.docId, indexPath, p, revision⟩) (scope : Scope) :
    scopeBytes config db scope ≤ config.maxScopePayloadBytes := by
  unfold scopeBytes
  rw [total_documentsOf, hdocuments, total_put]
  split
  · rw [Nat.add_comm]
    exact hfits
  have hscope := hbounded scope
  unfold scopeBytes at hscope
  rw [total_documentsOf] at hscope
  exact hscope

/-- A document that is deleted leaves every scope within the limit. -/
theorem bounded_erase {db : Db} {key : DocKey} (hbounded : Bounded config st)
    (hdocuments : db.documents = st.db.documents.erase key) (scope : Scope) :
    scopeBytes config db scope ≤ config.maxScopePayloadBytes := by
  have hscope := hbounded scope
  unfold scopeBytes at hscope ⊢
  rw [total_documentsOf] at hscope ⊢
  rw [hdocuments, Keyed.erase, List.filter_comm]
  exact (total_filter_le _ _ _).trans hscope

/-- What holds of the store along a run. -/
structure Sound (config : Config) (st : Store) : Prop where
  consistent : Consistent st.db
  bounded : Bounded config st

theorem sound_init : Sound config init := ⟨consistent_init, fun _ => Nat.zero_le _⟩

theorem consistent_step (h : Consistent st.db) (l : Label) : Consistent (step config st l).db := by
  cases l with
  | mutate call fault repair => exact (mutateOrRepair_outcome config h call fault repair).2
  | snapshot scope unlinked fault =>
    simp only [step]
    rw [(h.snapshot config scope unlinked fault).1]
    exact h

theorem sound_step {l : Label} (hfits : Fits config st l) (h : Sound config st) :
    Sound config (step config st l) := by
  refine ⟨consistent_step h.consistent l, ?_⟩
  cases l with
  | mutate call fault repair =>
    have houtcome := (mutateOrRepair_outcome config h.consistent call fault repair).1
    intro scope
    have hsame : (step config st (.mutate call fault repair)).db.documents = st.db.documents →
        scopeBytes config (step config st (.mutate call fault repair)).db scope ≤
          config.maxScopePayloadBytes := by
      intro hdocuments
      unfold scopeBytes Db.documentsOf
      rw [hdocuments]
      exact h.bounded scope
    cases houtcome with
    | nothing _ _ hdocuments =>
      rcases hdocuments with hdocuments | hdocuments
      · exact hsame hdocuments
      · exact bounded_erase h.bounded hdocuments scope
    | refused _ _ _ _ hdocuments => exact hsame hdocuments
    | fits p hoffered hcharacters _ hdocuments =>
      rcases hdocuments with hdocuments | ⟨indexPath, revision, hdocuments⟩
      · exact hsame hdocuments
      · exact bounded_put h.bounded (hfits p hoffered hcharacters) hdocuments scope
  | snapshot scope unlinked fault =>
    intro other
    simp only [step]
    rw [(h.consistent.snapshot config scope unlinked fault).1]
    exact h.bounded other

/-- Whichever of its statements a call fails at, and whatever the repair after it does, the
manifest is that of the documents. -/
theorem manifest_consistent (config : Config) (trace : List Label) :
    Consistent (run (step config) .init trace).db := by
  have hstep : ∀ st l, Consistent st.db → Consistent (step config st l).db :=
    fun _ l h => consistent_step h l
  exact run_invariant hstep consistent_init trace

/-- A step keeps the promise just when no document comes between the two counts. -/
theorem keeps_iff_fits (h : Sound config st) (l : Label) :
    Keeps config st l ↔ Fits config st l := by
  constructor
  · rintro ⟨-, hrefuses⟩
    cases l with
    | mutate call fault repair =>
      intro p hoffered hcharacters
      by_contra hover
      have hrefused := hrefuses.2 ⟨p, hoffered, Nat.lt_of_not_le hover⟩
      cases (mutateOrRepair_outcome config h.consistent call fault repair).1 with
      | nothing hnone _ _ =>
        rw [hnone] at hoffered
        cases hoffered
      | refused p' hoffered' hover' _ _ =>
        obtain rfl : p = p' := Option.some.inj (hoffered.symm.trans hoffered')
        omega
      | fits _ _ _ hresult _ => exact hresult hrefused
    | snapshot scope unlinked fault => trivial
  intro hfits
  refine ⟨(sound_step hfits h).bounded, ?_⟩
  cases l with
  | mutate call fault repair =>
    cases (mutateOrRepair_outcome config h.consistent call fault repair).1 with
    | nothing hnone hresult _ =>
      constructor
      · intro hrefused
        exact absurd hrefused hresult
      · rintro ⟨p, hoffered, -⟩
        rw [hnone] at hoffered
        cases hoffered
    | refused p hoffered hover hresult _ =>
      have hle := otherCharacters_le config st.db call.key
      constructor
      · intro _
        exact ⟨p, hoffered, by omega⟩
      · intro _
        exact hresult
    | fits p hoffered hcharacters hresult _ =>
      constructor
      · intro hrefused
        exact absurd hrefused hresult
      rintro ⟨p', hoffered', hover⟩
      obtain rfl : p = p' := Option.some.inj (hoffered.symm.trans hoffered')
      have hle := hfits p hoffered hcharacters
      omega
  | snapshot scope unlinked fault => trivial

/-- Along every run from an empty directory, each scope is within the limit in bytes and a
document is refused just when its scope would go over it, if and only if no document comes that
fits beside the characters of the others and not beside their bytes. -/
theorem bytesBounded_iff (config : Config) (trace : List Label) :
    Meets (step config) (Keeps config) .init trace ↔
      Meets (step config) (Fits config) .init trace := by
  have hiff : ∀ st l, Sound config st → (Keeps config st l ↔ Fits config st l) :=
    fun _ l h => keeps_iff_fits h l
  have hstep : ∀ st l, Fits config st l → Sound config st → Sound config (step config st l) :=
    fun _ _ hfits h => sound_step hfits h
  exact meets_congr hiff hstep sound_init trace

/-! Two documents, the first with a title that takes three bytes a character. -/

/-- An index with a small limit. -/
def small : Config := { Config.least with
  maxScopePayloadBytes := 500, maxScopePayloadBytes_pos := Nat.succ_pos _ }

/-- A document without chunks. -/
def titled (docId title : String) : MutateCall where
  scope := ⟨"t", "o"⟩
  docId := docId
  indexPath := docId
  mutator _ := some ⟨"t", "o", "d", docId, title, [], none, none⟩
  projectionGeneration := none
  projectionOperation := none

def wide : String := String.ofList (List.replicate 100 '好')

theorem titled_breaks : ¬ Meets (step small) (Keeps small) .init
      [.mutate (titled "a" wide) none none, .mutate (titled "b" "") none none] := by
  intro h
  have hbounded := h.2.1.1 ⟨"t", "o"⟩
  revert hbounded
  decide +kernel

end ByteLimit

end Rag
