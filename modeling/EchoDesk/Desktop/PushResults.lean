import EchoDesk.Desktop.Steps
import EchoDesk.Hub.Entities
import EchoDesk.Hub.Push

/-! # How a desktop records the results of its pushes

The push of a sync cycle (`_sync_cycle_locked` of `app/hub/runtime.py` with
`HubClient.push`) next to the hub. The operations are sent one at a time; each
request is executed by the hub and answered, or lost before or after the hub
executed it. The results are recorded when all operations are answered. Any
device pushes to the hub in between, and a request of the desktop that arrives
late is such a push too.

The hub answers an operation it knows with `duplicate`, whatever came of it. A
desktop that lost the answer `conflict` asks again and records `duplicate`.
-/

namespace Desktop

open EchoDesk Transaction Transition Hub List OutboxRow

/-- `SyncPushResult`. -/
structure SyncPushResult where
  applied : List String
  duplicate : List String
  conflict : List String

def SyncPushResult.empty : SyncPushResult := ⟨[], [], []⟩

/-- `if operation_id not in target: target.append(operation_id)`. -/
def appendNew (target : List String) (operationId : String) : List String :=
  if operationId ∈ target then target else target ++ [operationId]

/-- The answer to an operation goes to the list of its status. -/
def SyncPushResult.add (result : SyncPushResult) (operationId : String) :
    PushStatus → SyncPushResult
  | .applied => { result with applied := appendNew result.applied operationId }
  | .duplicate => { result with duplicate := appendNew result.duplicate operationId }
  | .conflict => { result with conflict := appendNew result.conflict operationId }

/-- `_text` of the client. -/
def clientText (value : String) : Option String :=
  if strip value = "" then none else some (strip value)

/-- `Field(min_length=1, max_length=limit)`. -/
def fieldFits (limit : Nat) (value : String) : Prop :=
  1 ≤ value.toList.length ∧ value.toList.length ≤ limit

instance (limit : Nat) (value : String) : Decidable (fieldFits limit value) :=
  inferInstanceAs (Decidable (_ ∧ _))

/-- The body `to_payload` builds as a `SyncPushRequest`: none when the hub
refuses it. `datetime` reads a datetime field. -/
def OutboxRow.request (datetime : String → Option Timestamp) (row : OutboxRow) :
    Option PushRequest :=
  if fieldFits 128 row.operationId ∧ fieldFits 128 row.deviceId ∧ fieldFits 256 row.entityId then
    (datetime row.updatedAt).map fun updatedAt => {
      operationId := row.operationId
      deviceId := row.deviceId
      entityType := row.entityType
      entityId := row.entityId
      baseRevision := row.baseRevision
      updatedAt := updatedAt
      payload := row.payloadJson }
  else none

/-- Where the push of a sync cycle is. -/
inductive PushCall where
  | idle
  /-- The operations not yet answered, with the answer to the first of them once
  the hub gave it. -/
  | sending (pending waiting : List OutboxRow) (answer : Option PushStatus)
      (result : SyncPushResult)
  /-- The results are recorded, the operations without one are not. -/
  | recorded (missing : List String)

variable {δ : Type}
variable {hub : HubDb δ}
variable {row : OutboxRow} {f : OutboxRow → OutboxRow} {operationId : String} {hub' : HubDb δ}

structure PushState (δ : Type) where
  hub : HubDb δ
  desktop : ClientDb
  call : PushCall

/-- What can happen next. -/
inductive PushLabel where
  /-- A push of any device, or a late one of this desktop. -/
  | other (principal : Principal) (request : PushRequest)
  | reconcile (now : Timestamp) (limit : Nat)
  | applyChanges (snapshot : Bool) (changes : List Dict)
  /-- The cycle claims its operations. -/
  | claim (now : Timestamp) (limit : Nat)
  /-- The hub executes the request under way. -/
  | execute
  /-- The desktop reads the answer to it. -/
  | answer
  /-- The request fails, or its answer is lost: the cycle ends. -/
  | lose
  | record (now : Timestamp)
  | markMissing (now : Timestamp)
  /-- The desktop stops, at any point, and starts again. -/
  | restart (now : Timestamp)

/-- A desktop, the device its token belongs to at the hub, and the libraries. -/
structure PushSetting (δ : Type) where
  adapter : Adapter δ
  py : Python
  datetime : String → Option Timestamp
  deviceId : String
  principal : Principal

/-- The hub executes the request of an operation. -/
def executeRequest (c : PushSetting δ) (s : PushState δ) (row : OutboxRow) :
    Option PushStatus × HubDb δ :=
  match row.request c.datetime with
  | none => (none, s.hub)
  | some request =>
    match push c.adapter c.principal request s.hub with
    | (.ok result, hub) => (some result.status, hub)
    | (.error _, hub) => (none, hub)

/-- The operations `mark_failed` is called with. -/
def missingIds (pending : List OutboxRow) (result : SyncPushResult) : List String :=
  (pending.map (·.operationId)).filter fun operationId =>
    operationId ∉ result.applied ++ result.duplicate ++ result.conflict

def pushCallStep (c : PushSetting δ) (s : PushState δ) : PushLabel → PushState δ
  | .other principal request => { s with hub := (push c.adapter principal request s.hub).2 }
  | .reconcile now limit =>
    { s with desktop := (reconcileLocalChanges c.py c.deviceId now limit s.desktop).2 }
  | .applyChanges snapshot changes =>
    { s with desktop := (Desktop.applyChanges c.py c.deviceId snapshot changes s.desktop).2 }
  | .claim now limit =>
    match s.call with
    | .idle =>
      let (pending, desktop) := claimPending now limit s.desktop
      if pending = [] then { s with desktop := desktop }
      else { s with desktop := desktop, call := .sending pending pending none .empty }
    | _ => s
  | .execute =>
    match s.call with
    | .sending pending (row :: rest) none result =>
      match executeRequest c s row with
      | (some status, hub) =>
        { s with hub := hub, call := .sending pending (row :: rest) (some status) result }
      | (none, hub) => { s with hub := hub, call := .idle }
    | _ => s
  | .answer =>
    match s.call with
    | .sending pending (row :: rest) (some status) result =>
      match clientText row.operationId with
      | some operationId =>
        { s with call := .sending pending rest none (result.add operationId status) }
      | none => { s with call := .idle }
    | _ => s
  | .lose =>
    match s.call with
    | .sending .. => { s with call := .idle }
    | _ => s
  | .record now =>
    match s.call with
    | .sending pending [] _ result =>
      { s with
        desktop := markPushResults now result.applied result.duplicate result.conflict s.desktop
        call := .recorded (missingIds pending result) }
    | _ => s
  | .markMissing now =>
    match s.call with
    | .recorded missing => { s with desktop := markFailed now missing s.desktop, call := .idle }
    | _ => s
  | .restart now => { s with desktop := initStore now s.desktop, call := .idle }

/-- A hub without sync history and a desktop that has pushed nothing. -/
def PushState.start (tables : δ) (desktop : ClientDb) : PushState δ :=
  ⟨.fresh tables, { desktop with outbox := Table.empty }, .idle⟩

/-! ## What a recorded result says -/

/-- The outbox has an operation as applied or duplicate only if it produced an event. -/
def Recorded (s : PushState δ) : Prop :=
  ∀ row ∈ s.desktop.outbox, row.state = .applied ∨ row.state = .duplicate →
    Synced s.hub row.operationId

/-- The operation the request under way is about. -/
def PushCall.asked : PushCall → Option String
  | .sending _ (row :: _) none _ => some row.operationId
  | _ => none

def PushLabel.executes : PushLabel → Bool
  | .execute => true
  | _ => false

/-- The hub executes no request of an operation that it knows as a conflict. -/
def NoConflictReplay (s : PushState δ) (l : PushLabel) : Prop :=
  l.executes → ∀ operation ∈ s.hub.operations.rows,
    s.call.asked = some operation.operationId → operation.status ≠ .conflict

instance (s : PushState δ) (l : PushLabel) : Decidable (NoConflictReplay s l) :=
  inferInstanceAs (Decidable (_ → ∀ _ ∈ _, _))

/-! ## The invariant -/

/-- What is known of a call: its answers are those of operations that produced
an event, up to conflicts. -/
def CallSound (hub : HubDb δ) : PushCall → Prop
  | .sending _ waiting answer result =>
    (∀ row ∈ waiting, Stripped row.operationId) ∧ (∀ status ∈ answer, status ≠ .conflict →
        ∀ row ∈ waiting.head?, Synced hub row.operationId) ∧
      ∀ operationId ∈ result.applied ++ result.duplicate, Synced hub operationId
  | _ => True

def RowSound (hub : HubDb δ) (row : OutboxRow) : Prop :=
  Stripped row.operationId ∧
    (row.state = .applied ∨ row.state = .duplicate → Synced hub row.operationId)

def OutboxSound (hub : HubDb δ) (desktop : ClientDb) : Prop :=
  ∀ row ∈ desktop.outbox, RowSound hub row

structure PushInv (s : PushState δ) : Prop where
  operations : OperationsSound s.hub
  outbox : OutboxSound s.hub s.desktop
  call : CallSound s.hub s.call

/-! ## Frame facts of the store -/

variable {desktop : ClientDb} {c : PushSetting δ} {s : PushState δ}

theorem OutboxSound.update (hf : ∀ row, (f row).operationId = row.operationId)
    (h : OutboxSound hub desktop) (hrow : ∀ row, RowSound hub row → RowSound hub (f row)) :
    OutboxSound hub (updateOutbox desktop f hf) := by
  intro row hmem
  obtain ⟨old, hold, rfl⟩ := mem_map.1 hmem
  exact hrow old (h old hold)

theorem RowSound.claim (now : Timestamp) (h : RowSound hub row) : RowSound hub (row.claim now) := by
  unfold OutboxRow.claim
  split
  · exact ⟨h.1, fun hstate => by simp at hstate⟩
  · exact h

theorem RowSound.release (now : Timestamp) (h : RowSound hub row) :
    RowSound hub (row.release now) := by
  unfold OutboxRow.release
  split
  · exact ⟨h.1, fun hstate => by simp at hstate⟩
  · exact h

theorem OutboxSound.setState (state : OutboxState) {operationIds : List String}
    (lastError : Option String) (now : Timestamp) (h : OutboxSound hub desktop)
    (hids : state = .applied ∨ state = .duplicate → ∀ operationId ∈ operationIds,
      Synced hub operationId) :
    OutboxSound hub (setState state lastError now operationIds desktop) := by
  refine h.update _ fun row hrow => ?_
  unfold mark
  split
  · rename_i hmem
    exact ⟨hrow.1, fun hstate => hids hstate _ hmem⟩
  · exact hrow

/-- A change of the hub that keeps its operations and events keeps what is
known of the outbox and of the call. -/
theorem OutboxSound.mono (hgrow : ∀ operationId, Synced hub operationId → Synced hub' operationId)
    (h : OutboxSound hub desktop) : OutboxSound hub' desktop :=
  fun row hrow => ⟨(h row hrow).1, fun hstate => hgrow _ ((h row hrow).2 hstate)⟩

theorem CallSound.mono {call : PushCall}
    (hgrow : ∀ operationId, Synced hub operationId → Synced hub' operationId)
    (h : CallSound hub call) : CallSound hub' call := by
  cases call with
  | sending pending waiting answer result =>
    obtain ⟨hstripped, hanswer, hresult⟩ := h
    exact ⟨hstripped, fun status hs hne row hrow => hgrow _ (hanswer status hs hne row hrow),
      fun operationId hid => hgrow _ (hresult operationId hid)⟩
  | idle | recorded => trivial

theorem mem_appendNew {target : List String} {a : String} (h : a ∈ appendNew target operationId) :
    a ∈ target ∨ a = operationId := by
  unfold appendNew at h
  split at h
  · exact .inl h
  · exact mem_append.1 h |>.imp_right mem_singleton.1

/-- An answer is remembered as it was given. -/
theorem SyncPushResult.mem_add {result : SyncPushResult} {a : String} {status : PushStatus}
    (h : a ∈ (result.add operationId status).applied ++ (result.add operationId status).duplicate) :
    a ∈ result.applied ++ result.duplicate ∨ status ≠ .conflict ∧ a = operationId := by
  rw [mem_append] at h ⊢
  cases status with
  | applied =>
    rcases h with h | h
    · exact (mem_appendNew h).imp .inl fun ha => ⟨nofun, ha⟩
    · exact .inl (.inr h)
  | duplicate =>
    rcases h with h | h
    · exact .inl (.inl h)
    · exact (mem_appendNew h).imp .inr fun ha => ⟨nofun, ha⟩
  | conflict => exact .inl h

theorem clientText_eq_some {value text : String} (h : clientText value = some text) :
    text = strip value := by
  unfold clientText at h
  split at h
  · cases h
  · exact (Option.some.inj h).symm

theorem OutboxRow.request_operationId {datetime : String → Option Timestamp} {request : PushRequest}
    (h : row.request datetime = some request) : request.operationId = row.operationId := by
  unfold OutboxRow.request at h
  split at h
  · obtain ⟨_, -, rfl⟩ := Option.map_eq_some_iff.1 h
    rfl
  · cases h

/-! ## One step -/

/-- What the hub does with the request of an operation. -/
theorem executeRequest_sound {c : PushSetting δ} {s : PushState δ} {row : OutboxRow}
    (hs : OperationsSound s.hub) :
    OperationsSound (executeRequest c s row).2 ∧ (∀ operationId, Synced s.hub operationId →
        Synced (executeRequest c s row).2 operationId) ∧
      ((∀ operation ∈ s.hub.operations, operation.operationId = row.operationId →
          operation.status ≠ .conflict) →
        ∀ status, (executeRequest c s row).1 = some status → status ≠ .conflict →
          Synced (executeRequest c s row).2 row.operationId) := by
  unfold executeRequest
  split
  · exact ⟨hs, fun _ h => h, fun _ status h => by cases h⟩
  rename_i request hrequest
  have hpush := push_pushed c.adapter c.principal request s.hub
  split
  · rename_i result hub hout
    rw [hout] at hpush
    refine ⟨hpush.operationsSound hs, fun _ h => hpush.synced h, fun hreplay status h hne => ?_⟩
    obtain rfl : result.status = status := Option.some.inj h
    rw [← request_operationId hrequest] at hreplay ⊢
    exact hpush.synced_of_answer hs hreplay hne
  · rename_i e hub hout
    rw [hout] at hpush
    exact ⟨hpush.operationsSound hs, fun _ h => hpush.synced h, fun _ status h => by cases h⟩

theorem pushInv_execute (hcond : NoConflictReplay s .execute) (h : PushInv s) :
    PushInv (pushCallStep c s .execute) := by
  unfold pushCallStep
  dsimp only
  split
  · rename_i pending row rest result hcall
    have hsound := h.call
    rw [hcall] at hsound
    have hreplay : ∀ operation ∈ s.hub.operations, operation.operationId = row.operationId →
        operation.status ≠ .conflict := by
      intro operation hmem hid
      refine hcond rfl operation hmem ?_
      rw [hcall, hid]
      rfl
    obtain ⟨hops, hgrow, hanswer⟩ := @executeRequest_sound _ c s row h.operations
    split
    · rename_i status hub hexec
      rw [hexec] at hops hgrow hanswer
      refine ⟨hops, h.outbox.mono hgrow, hsound.1, ?_, (hsound.mono hgrow).2.2⟩
      intro status' hstatus' hne row' hrow'
      obtain rfl : status = status' := Option.some.inj hstatus'
      obtain rfl : row = row' := Option.some.inj hrow'
      exact hanswer hreplay status rfl hne
    · rename_i hub hexec
      rw [hexec] at hops hgrow
      exact ⟨hops, h.outbox.mono hgrow, trivial⟩
  · exact h

theorem pushInv_answer (h : PushInv s) : PushInv (pushCallStep c s .answer) := by
  unfold pushCallStep
  dsimp only
  split
  · rename_i pending row rest status result hcall
    have hsound := h.call
    rw [hcall] at hsound
    obtain ⟨hstripped, hanswer, hresult⟩ := hsound
    split
    · rename_i operationId htext
      refine ⟨h.operations, h.outbox, fun a ha => hstripped a (mem_cons_of_mem _ ha), nofun,
        fun a ha => ?_⟩
      rcases SyncPushResult.mem_add ha with ha | ⟨hne, rfl⟩
      · exact hresult a ha
      -- the operation id of the answer is the one that was sent
      rw [clientText_eq_some htext, show strip row.operationId = row.operationId from
        hstripped row mem_cons_self]
      exact hanswer status rfl hne row rfl
    · exact ⟨h.operations, h.outbox, trivial⟩
  · exact h

theorem pushInv_claim (now : Timestamp) (limit : Nat) (h : PushInv s) :
    PushInv (pushCallStep c s (.claim now limit)) := by
  have hclaimed : OutboxSound s.hub (updateOutbox s.desktop (claim now) (claim_operationId now)) :=
    h.outbox.update _ fun row hrow => hrow.claim now
  have hpending : ∀ row ∈ (claimPending now limit s.desktop).1, Stripped row.operationId := by
    intro row hrow
    have hrow := mem_of_mem_take hrow
    rw [mem_insertionSort] at hrow
    exact (hclaimed row (mem_of_mem_filter hrow)).1
  unfold pushCallStep
  dsimp only
  split
  · split
    · exact ⟨h.operations, hclaimed, h.call⟩
    · exact ⟨h.operations, hclaimed, hpending, nofun, nofun⟩
  · exact h

theorem pushInv_record (now : Timestamp) (h : PushInv s) :
    PushInv (pushCallStep c s (.record now)) := by
  unfold pushCallStep
  dsimp only
  split
  · rename_i pending answer result hcall
    have hsound := h.call
    rw [hcall] at hsound
    obtain ⟨-, -, hresult⟩ := hsound
    have happlied := h.outbox.setState .applied none now fun _ operationId hid =>
      hresult operationId (mem_append_left _ hid)
    have hduplicate := happlied.setState .duplicate none now fun _ operationId hid =>
      hresult operationId (mem_append_right _ hid)
    exact ⟨h.operations,
      hduplicate.setState .conflict _ now fun hstate => (by simp at hstate), trivial⟩
  · exact h

theorem pushInv_step {l : PushLabel} (hcond : NoConflictReplay s l) (h : PushInv s) :
    PushInv (pushCallStep c s l) := by
  cases l with
  | other principal request =>
    have hpush := push_pushed c.adapter principal request s.hub
    have hgrow : ∀ operationId, Synced s.hub operationId →
        Synced (push c.adapter principal request s.hub).2 operationId := fun _ => hpush.synced
    exact ⟨hpush.operationsSound h.operations, h.outbox.mono hgrow, h.call.mono hgrow⟩
  | reconcile now limit =>
    refine ⟨h.operations, fun row hrow => ?_, h.call⟩
    rcases (reconcile_addsPending c.py c.deviceId now limit s.desktop).2 row hrow with
      hold | ⟨hpending, hstripped⟩
    · exact h.outbox row hold
    · exact ⟨hstripped, fun hstate => by simp [hpending] at hstate⟩
  | applyChanges snapshot changes =>
    refine ⟨h.operations, ?_, h.call⟩
    exact applyChanges_invariant (P := fun db => OutboxSound s.hub db)
      (fun _ _ _ _ _ happlied hdb row hrow => hdb row (happlied.mem_outbox hrow)) changes h.outbox
  | claim now limit => exact pushInv_claim now limit h
  | execute => exact pushInv_execute hcond h
  | answer => exact pushInv_answer h
  | lose =>
    unfold pushCallStep
    dsimp only
    split
    · exact ⟨h.operations, h.outbox, trivial⟩
    · exact h
  | record now => exact pushInv_record now h
  | markMissing now =>
    unfold pushCallStep
    dsimp only
    split
    · exact ⟨h.operations, h.outbox.setState .failed _ now fun hstate => (by simp at hstate),
        trivial⟩
    · exact h
  | restart now =>
    exact ⟨h.operations, h.outbox.update (release_operationId now)
      fun row hrow => hrow.release now, trivial⟩

theorem pushInv_start (tables : δ) (desktop : ClientDb) :
    PushInv (PushState.start tables desktop) :=
  ⟨fun operation hmem => absurd hmem (Table.not_mem_empty operation),
    fun row hrow => absurd hrow (Table.not_mem_empty row), trivial⟩

/-- In a run that asks the hub about no operation it knows as a conflict, an
operation recorded as applied or duplicate produced an event. -/
theorem recorded_of_noConflictReplay (c : PushSetting δ) (tables : δ) (desktop : ClientDb)
    (trace : List PushLabel)
    (hm : Meets (pushCallStep c) NoConflictReplay (.start tables desktop) trace) :
    Recorded (run (pushCallStep c) (.start tables desktop) trace) := by
  have hinv := run_invariant_of_meets (fun _ _ hcond h => pushInv_step hcond h) hm
    (pushInv_start tables desktop)
  exact fun row hrow hstate => (hinv.outbox row hrow).2 hstate

/-- The hub and the desktop `desk` of one user. -/
def deskSetting : PushSetting Repository :=
  ⟨entities .ascii, .ascii, fun _ => some 0, "desk", ⟨"t", "desk", "o"⟩⟩

/-- The meeting `m`, whose minutes could not be written. -/
def failedMeeting : MeetingRow :=
  { MeetingRow.new localScope "m" none .ended "2024-01-01" none "desk" with
    minutesStatus := some "failed" }

def deskStart : PushState Repository :=
  .start .empty
    { repo := ⟨⟨[failedMeeting], List.pairwise_singleton _ _⟩, .empty, Table.empty⟩
      outbox := Table.empty
      entities := .empty
      appliedOperations := []
      drawn := 0 }

/-- A push cycle without a loss. -/
def cleanTrace : List PushLabel :=
  [.reconcile 0 200, .claim 0 100, .execute, .answer, .record 0, .markMissing 0]

theorem recorded_of_noConflictReplay_clean :
    Recorded (run (pushCallStep deskSetting) deskStart cleanTrace) :=
  recorded_of_noConflictReplay deskSetting .empty _ cleanTrace (by decide +kernel)

/-- The tablet of the user has pushed the entity before. The answer to the first
push of the desktop is lost, and the second push is answered with `duplicate`. -/
def lostConflictTrace : List PushLabel :=
  [.other ⟨"t", "tablet", "o"⟩
      { operationId := "sync:tablet:1", deviceId := "tablet", entityType := .meetingSummary
        entityId := "desk:m", baseRevision := 0, updatedAt := 0
        payload := [("meeting_id", .str "m"), ("started_at", .str "2024-01-01")] },
    .reconcile 0 200, .claim 0 100, .execute, .lose, .claim 0 100, .execute, .answer, .record 0]

/-- The conflict is recorded as a duplicate. -/
theorem not_recorded_lostConflict :
    ¬ Recorded (run (pushCallStep deskSetting) deskStart lostConflictTrace) := by
  intro h
  have hrow : ∃ row ∈ (run (pushCallStep deskSetting) deskStart
      lostConflictTrace).desktop.outbox.rows, row.state = .duplicate ∧
      ∀ operation ∈ (run (pushCallStep deskSetting) deskStart
        lostConflictTrace).hub.operations.rows,
        operation.operationId = row.operationId → operation.status ≠ .applied := by
    decide +kernel
  obtain ⟨row, hmem, hstate, hrefused⟩ := hrow
  obtain ⟨operation, hop, hid, event, -, hprod⟩ := h row hmem (.inr hstate)
  exact hrefused operation hop hid hprod.status

end Desktop
