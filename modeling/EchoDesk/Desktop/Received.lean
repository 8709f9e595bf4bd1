import EchoDesk.Desktop.Fits
import EchoDesk.Desktop.Steps

/-! # A change as the hub sends it

`SyncChangeResponse` names the source device and the revision of a change, and
neither its operation nor its base revision: the desktop stands in a fresh
operation id and the base revision 0.
-/

namespace Desktop

open EchoDesk Transaction Hub

/-- A text as `_text` reads it, when it is not blank. -/
def read (limit : Nat) (s : String) : String := slice limit (strip s)

variable {limit : Nat} {s : String} {py : Python}
variable {record : SyncChangeRecord}

theorem read_of_fits (h : Fits limit s) : read limit s = s := by
  rw [read, show strip s = s from h.stripped, slice_of_le h.length]

/-- A record of the hub as `_apply_change_tx` reads it. -/
def received (py : Python) (record : SyncChangeRecord) (fallback : String) : Change where
  operationId := read 512 fallback
  entityType := record.entityType
  entityId := read 512 record.entityId
  sourceDeviceId := read 512 record.sourceDeviceId
  updatedAt := read 128 (py.isoformat record.updatedAt)
  payload := record.payload
  baseRevision := 0
  revision := max 1 record.revision

theorem written_iff : Written s ↔ strip s ≠ "" := by
  refine ⟨Written.strip_ne, fun hne => ?_⟩
  by_contra hblank
  have hall : ∀ c ∈ s.toList, isSpace c = true := fun c hc =>
    Bool.of_not_eq_false fun hspace => hblank ⟨c, hc, hspace⟩
  refine hne (String.toList_inj.1 ?_)
  rw [toList_strip, stripChars, List.dropWhile_eq_nil_iff.2 hall]
  rfl

theorem text_written (h : Written s) : text py limit (.str s) = some (read limit s) := by
  rw [text_str, if_neg h.strip_ne]
  rfl

theorem text_blank (h : ¬ Written s) : text py limit (.str s) = none := by
  rw [written_iff, not_not] at h
  rw [text_str, if_pos h]

theorem written_standIn (py : Python) (index drawn : Nat) : Written (standIn py index drawn) :=
  .append_left <| .append_left <| .append_left ⟨'s', by decide, by decide⟩

theorem entityType_received (py : Python) (entityType : SyncEntityType) :
    (text py 512 (.str (entityTypeText entityType))).bind entityTypeOfText? = some entityType := by
  have hfits : ∀ t, Fits 512 (entityTypeText t) := by
    intro t
    cases t <;> decide
  rw [text_str_eq_self.2 (hfits entityType)]
  cases entityType <;> rfl

/-- The header of a record with an entity id and a source. -/
theorem decodeHeader_response {py : Python} {record : SyncChangeRecord} {fallback : String}
    (hfallback : Written fallback) (hentity : Written record.entityId)
    (hsource : Written record.sourceDeviceId) :
    decodeHeader py (changeResponse py record) fallback =
      .ok (some (received py record fallback).toChangeHeader) := by
  unfold decodeHeader
  rw [show (changeResponse py record).readOr "operation_id" (.str fallback) = .str fallback
    from rfl, text_written hfallback,
    show (changeResponse py record).read "entity_type" = .str (entityTypeText record.entityType)
    from rfl, entityType_received,
    show (changeResponse py record).read "entity_id" = .str record.entityId from rfl,
    text_written hentity,
    show (changeResponse py record).readOr "device_id"
      ((changeResponse py record).read "source_device_id") = .str record.sourceDeviceId from rfl,
    text_written hsource,
    show (changeResponse py record).read "updated_at" = .str (py.isoformat record.updatedAt)
    from rfl, text_written (py.isoformat_written _),
    show (changeResponse py record).read "payload" = .obj record.payload from rfl]
  rfl

/-- A record without an entity id or without a source is malformed. -/
theorem decodeHeader_blank {fallback : String}
    (h : ¬ Written record.entityId ∨ ¬ Written record.sourceDeviceId) :
    decodeHeader py (changeResponse py record) fallback = .ok none := by
  unfold decodeHeader
  rw [show (changeResponse py record).read "entity_id" = .str record.entityId from rfl,
    show (changeResponse py record).readOr "device_id"
      ((changeResponse py record).read "source_device_id") = .str record.sourceDeviceId from rfl]
  rcases h with hentity | hsource
  · rw [text_blank hentity]
    split
    · rename_i hsome _ _ _
      cases hsome
    · rfl
  · rw [text_blank hsource]
    split
    · rename_i hsome _ _
      cases hsome
    · rfl

theorem revision_received (py : Python) (record : SyncChangeRecord) (default : Int) :
    int py ((changeResponse py record).read "revision") default = .ok (record.revision : Int) := rfl

/-- A record with an entity id and a source is known already, or is classified. -/
theorem applyChange_received {deviceId : String} {snapshot : Bool} {index : Nat} {db db' : ClientDb}
    {result : ApplyResult} (hentity : Written record.entityId)
    (hsource : Written record.sourceDeviceId) :
    Returns (applyChange py deviceId snapshot index (changeResponse py record)) db result db' ↔
      if read 512 (standIn py index db.drawn) ∈ db.appliedOperations then
        .duplicate = result ∧ { db with drawn := db.drawn + 1 } = db'
      else Returns (applyDecoded py deviceId snapshot
        (received py record (standIn py index db.drawn))) { db with drawn := db.drawn + 1 } result
        db' := by
  have hrevision : (max 1 (record.revision : Int)).toNat = max 1 record.revision := by omega
  have hdecode := @decodeHeader_response py record _ (written_standIn py index db.drawn) hentity
    hsource
  simp only [applyChange, drawUuid, returns_bind, returns_get, returns_set, returns_pure,
    returns_fromExcept]
  constructor
  · rintro ⟨_, _, ⟨rfl, rfl⟩, _, _, ⟨_, _, ⟨rfl, rfl⟩, _, _, rfl, rfl, rfl⟩, decoded, _,
      ⟨hdecoded, rfl⟩, h⟩
    cases hdecode.symm.trans hdecoded
    simp only [returns_get_bind] at h
    rcases returns_ite.1 h with ⟨hknown, h⟩ | ⟨hnew, h⟩
    · rw [if_pos (show read 512 (standIn py index db.drawn) ∈ db.appliedOperations from hknown)]
      exact returns_pure.1 h
    rw [if_neg (show read 512 (standIn py index db.drawn) ∉ db.appliedOperations from hnew)]
    obtain ⟨revision, _, hread, h⟩ := returns_bind.1 h
    obtain ⟨hparsed, rfl⟩ := returns_fromExcept.1 hread
    cases (revision_received py record _).symm.trans hparsed
    rw [hrevision] at h
    exact h
  · intro h
    refine ⟨db, db, ⟨rfl, rfl⟩, py.uuid4 db.drawn, { db with drawn := db.drawn + 1 },
      ⟨db, db, ⟨rfl, rfl⟩, ⟨⟩, _, rfl, rfl, rfl⟩, _, _, ⟨hdecode, rfl⟩, ?_⟩
    refine returns_get_bind.2 (returns_ite.2 ?_)
    split at h
    · rename_i hknown
      exact .inl ⟨hknown, returns_pure.2 h⟩
    rename_i hnew
    refine .inr ⟨hnew, returns_bind.2 ⟨_, _,
      returns_fromExcept.2 ⟨revision_received py record _, rfl⟩, ?_⟩⟩
    rw [hrevision]
    exact h

/-- A record that is written. -/
theorem applyChange_write {py : Python} {deviceId : String} {snapshot : Bool} {index : Nat}
    {record : SyncChangeRecord} {db : ClientDb} {current : Option EntityRow}
    {aliases : List EntityRow} {repo : Repository}
    (hentity : Written record.entityId) (hsource : Written record.sourceDeviceId)
    (hnew : read 512 (standIn py index db.drawn) ∉ db.appliedOperations)
    (hclass : classify deviceId snapshot (received py record (standIn py index db.drawn)) db =
      .write current aliases)
    (hrepo : Returns (applyEntity py record.entityType record.payload
      (if record.entityType = .transcriptSegment then current.map (·.payloadJson) else none))
      db.repo () repo) :
    Returns (applyChange py deviceId snapshot index (changeResponse py record)) db .applied
      (rememberOperation (read 512 (standIn py index db.drawn))
        { removeLocalTranscriptAliases aliases { db with repo := repo, drawn := db.drawn + 1 } with
          entities := (removeLocalTranscriptAliases aliases
            { db with repo := repo, drawn := db.drawn + 1 }).entities.upsert
              ((received py record (standIn py index db.drawn)).row current) }) := by
  rw [applyChange_received hentity hsource, if_neg hnew]
  have hclass' : classify deviceId snapshot (received py record (standIn py index db.drawn))
      { db with drawn := db.drawn + 1 } = .write current aliases := hclass
  exact (Applied.write current aliases repo hclass' hrepo).returns

end Desktop
