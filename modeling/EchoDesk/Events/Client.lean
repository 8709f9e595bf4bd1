import EchoDesk.Core.Python
import EchoDesk.Events.Evolution
import Mathlib.Data.List.Infix

/-! # The socket of the renderer

`desktop/src/ws.ts` and the frames `app/api/ws.py` sends it. The server opens a fenced
subscription for the hello of the client, says in its first frames where the subscription starts
and then sends what the iterator returns. The renderer keeps the place it is at in a cursor, a
copy of it outlives the page, and every frame moves one or both.

A frame that is too large, that is no JSON or that does not arrive ends the connection: the
handler sees nothing of it.
-/

namespace Events

open EchoDesk List Option

/-! ## The frames of the server -/

/-- `ClientHello`, as far as a subscription is opened from it. -/
structure ClientHello where
  lastSeq : Int
  streamEpoch : Option String
  clientVersion : Option String

/-- `ClientHello()`, which stands for one that did not come in time. -/
def ClientHello.default : ClientHello := ⟨0, none, none⟩

/-- `bool(hello.client_version and "no-replay" in hello.client_version)`. -/
def ClientHello.startAtLatest (hello : ClientHello) : Bool :=
  (truthy hello.clientVersion).any fun version =>
    decide ("no-replay".toList <:+: version.toList)

/-- `_Handshake`. -/
structure Handshake where
  hello : ClientHello
  legacyPing : Bool

/-- The text of `gap_reason`. -/
def GapReason.text : GapReason → String
  | .streamEpochChanged => "stream_epoch_changed"
  | .clientAheadOfStream => "client_ahead_of_stream"
  | .historyExpired => "history_expired"
  | .historyUnavailable => "history_unavailable"

/-- `WS_PROTOCOL_VERSION`. -/
def wsProtocolVersion : String := "1.0"

/-- The string, or `null`. -/
def nullable (value : Option String) : Json := (value.map Json.str).getD .null

/-- A frame of the server itself. -/
def serverFrame (type : String) (ts : Timestamp) (state : StreamState) (seq : Nat)
    (payload : Dict) : BusEvent where
  type := type
  ts := ts
  meetingId := none
  payload := payload
  seq := seq
  streamEpoch := state.epoch
  scope := none

/-- `_sync_frame`. -/
def syncFrame (ts : Timestamp) (sub : Subscription) (reason : String) : BusEvent :=
  serverFrame "server_sync" ts sub.state sub.state.maxSeq [("strategy", .str "replace"),
      ("reason", .str reason),
      ("fence_seq", .int sub.state.maxSeq),
      ("stream_epoch", .str sub.state.epoch),
      ("resources", .obj [("meetings", .str "/meetings"),
          ("current_meeting", .str "/meetings/current"),
          ("workflows", .str "/workflows/runs"),
          ("artifacts", .str "/artifacts")])]

def resyncFrame (ts : Timestamp) (sub : Subscription) (hello : ClientHello) (reason : String) :
    BusEvent :=
  serverFrame "server_resync" ts sub.state 0 [("reason", .str reason),
      ("oldest_seq", .int sub.state.oldestSeq),
      ("max_seq", .int sub.state.maxSeq),
      ("fence_seq", .int sub.state.maxSeq),
      ("client_last_seq", .int sub.requestedSeq),
      ("client_stream_epoch", nullable hello.streamEpoch)]

def helloFrame (ts : Timestamp) (sub : Subscription) (hello : ClientHello) : BusEvent :=
  serverFrame "server_hello" ts sub.state 0 [("max_seq", .int sub.state.maxSeq),
      ("stream_epoch", .str sub.state.epoch),
      ("version", .str wsProtocolVersion),
      ("client_version", nullable hello.clientVersion)]

def pingFrame (ts : Timestamp) (state : StreamState) : BusEvent :=
  serverFrame "server_ping" ts state 0 [("max_seq", .int state.maxSeq)]

/-- `_send_handshake_frames`. -/
def handshakeFrames (ts : Timestamp) (sub : Subscription) (handshake : Handshake) :
    List BusEvent :=
  (sub.gapReason.elim [] fun reason =>
    [resyncFrame ts sub handshake.hello reason.text, syncFrame ts sub reason.text]) ++
  [helloFrame ts sub handshake.hello] ++
  if handshake.legacyPing then [pingFrame ts sub.state] else []

/-! ## The renderer -/

/-- `WsCursor`. -/
structure Cursor where
  epoch : Option String
  seq : Int

/-- What the handler makes happen outside of it. -/
inductive Effect where
  /-- `reset` of the store. -/
  | reset
  /-- `requestRehydrate` of the store, which is given the fence only. -/
  | rehydrate (epoch : Option String) (fenceSeq : Int)
  /-- `saveCursor`. -/
  | saved (cursor : Cursor)
  /-- `applyEvent` of the store. -/
  | applied (event : BusEvent)

/-- The page, and what outlives it: the cursor in `localStorage`. What the handler did is kept
for reference. -/
structure Renderer where
  /-- `streamEpochRef` and `lastSeqRef`. -/
  cursor : Cursor
  /-- `cursorKeyRef` holds the key of the stored cursor. -/
  keyed : Bool
  lastRehydrateFence : Option String
  stored : Cursor
  log : List Effect

/-- A renderer that was never connected. -/
def Renderer.init : Renderer := ⟨⟨none, 0⟩, false, none, ⟨none, 0⟩, []⟩

/-- The page is loaded anew. -/
def Renderer.reload (r : Renderer) : Renderer :=
  { r with cursor := ⟨none, 0⟩, keyed := false, lastRehydrateFence := none }

/-- `useStore.getState().reset()`. -/
def Renderer.reset (r : Renderer) : Renderer := { r with log := r.log ++ [.reset] }

/-- `applyEvent`. -/
def Renderer.applyEvent (r : Renderer) (event : BusEvent) : Renderer :=
  { r with log := r.log ++ [.applied event] }

/-- `persistCursor`. -/
def Renderer.persistCursor (r : Renderer) : Renderer :=
  if r.keyed then { r with stored := r.cursor, log := r.log ++ [.saved r.cursor] } else r

/-- The key by which two rehydrate requests are the same. -/
def rehydrateKey (epoch : Option String) (fenceSeq : Int) : String :=
  epoch.getD "unknown" ++ ":" ++ toString fenceSeq

/-- `requestRehydrate`. -/
def Renderer.requestRehydrate (r : Renderer) (epoch : Option String) (fenceSeq : Int) : Renderer :=
  if r.lastRehydrateFence = some (rehydrateKey epoch fenceSeq) then r
  else
    { r with
      lastRehydrateFence := some (rehydrateKey epoch fenceSeq)
      log := r.log ++ [.rehydrate epoch fenceSeq] }

/-- A number of the payload. -/
def number? (payload : Dict) (key : String) : Option Int :=
  match Dict.get? payload key with
  | some (.int n) => some n
  | _ => none

/-- A string of the payload. -/
def text? (payload : Dict) (key : String) : Option String :=
  match Dict.get? payload key with
  | some (.str s) => some s
  | _ => none

/-- Both epochs are there and they differ. -/
def Renderer.elsewhere (r : Renderer) (epoch : String) : Bool :=
  (truthy r.cursor.epoch).any fun current => epoch ≠ "" && decide (current ≠ epoch)

/-- The branch of `server_resync`. -/
def Renderer.resync (r : Renderer) (e : BusEvent) : Renderer :=
  let changed := text? e.payload "reason" == some "stream_epoch_changed" ||
    r.elsewhere e.streamEpoch
  let r := if changed then r.reset else r
  let r := { r with cursor := ⟨some e.streamEpoch, 0⟩ }
  r.requestRehydrate (some e.streamEpoch)
    ((number? e.payload "fence_seq").getD ((number? e.payload "max_seq").getD 0))

/-- The branch of `server_sync`. -/
def Renderer.sync (r : Renderer) (e : BusEvent) : Renderer :=
  let fenceSeq := (number? e.payload "fence_seq").getD e.seq
  let r := { r with cursor := ⟨some e.streamEpoch, max 0 fenceSeq⟩ }.persistCursor
  r.requestRehydrate r.cursor.epoch r.cursor.seq

/-- The branch of `server_hello`. -/
def Renderer.hello (r : Renderer) (e : BusEvent) : Renderer :=
  let maxSeq := (number? e.payload "max_seq").getD 0
  let r :=
    if r.elsewhere e.streamEpoch then
      ({ r.reset with cursor := { r.cursor with seq := 0 } }).requestRehydrate
        (some e.streamEpoch) maxSeq
    else r
  let seq := if maxSeq < r.cursor.seq then maxSeq else r.cursor.seq
  { r with cursor := ⟨some e.streamEpoch, seq⟩ }.persistCursor

/-- `handleProtocol`. -/
def Renderer.handleProtocol (r : Renderer) (e : BusEvent) : Renderer :=
  if e.type = "server_resync" then r.resync e
  else if e.type = "server_sync" then r.sync e
  else if e.type = "server_hello" then r.hello e
  else r

/-- `onmessage`, and whether the socket stays open. -/
def Renderer.onmessage (r : Renderer) (data : BusEvent) : Renderer × Bool :=
  if data.type ∈ protocolHandled then (r.handleProtocol data, true)
  else if r.elsewhere data.streamEpoch then (r, false)
  else
    let epoch := if data.streamEpoch ≠ "" then some data.streamEpoch else r.cursor.epoch
    let r := { r with cursor := { r.cursor with epoch := epoch } }
    if 0 < data.seq then
      if (data.seq : Int) ≤ r.cursor.seq then (r, true)
      else if (data.seq : Int) ≠ r.cursor.seq + 1 then (r, false)
      else
        (({ r with cursor := { r.cursor with seq := data.seq } }).persistCursor.applyEvent data,
          true)
    else (r.applyEvent data, true)

/-- `connect`, up to the socket: the cursor is loaded for the key of the scope. -/
def Renderer.load (r : Renderer) : Renderer :=
  if r.keyed then r
  else { r with cursor := r.stored, keyed := true, lastRehydrateFence := none }

/-- The version of `desktop/package.json`. -/
def appVersion : String := "0.3.4"

/-- The hello that `onopen` sends. -/
def Renderer.clientHello (r : Renderer) : ClientHello :=
  ⟨r.cursor.seq, r.cursor.epoch, some appVersion⟩

/-! ## What the handler does -/

/-- The last separator of a text splits it. -/
theorem append_cons_inj {α : Type} {xs ys xs' ys' : List α} {c : α} (hy : c ∉ ys) (hy' : c ∉ ys')
    (h : xs ++ c :: ys = xs' ++ c :: ys') : xs = xs' ∧ ys = ys' := by
  rcases append_eq_append_iff.1 h with ⟨zs, rfl, htail⟩ | ⟨zs, rfl, htail⟩
  · cases zs with
    | nil => exact ⟨(append_nil xs).symm, (cons.inj htail).2⟩
    | cons z zs =>
      have hmem : c ∈ ys := by
        rw [(cons.inj htail).2]
        simp
      exact absurd hmem hy
  cases zs with
  | nil => exact ⟨append_nil xs', (cons.inj htail).2.symm⟩
  | cons z zs =>
    have hmem : c ∈ ys' := by
      rw [(cons.inj htail).2]
      simp
    exact absurd hmem hy'

theorem colon_not_mem_natText (n : Nat) : ':' ∉ (toString n).toList := by
  rw [toList_natText]
  intro h
  have hdigit := Nat.isDigit_of_mem_toDigits (b := 10) (by decide) (by decide) h
  exact absurd hdigit (by decide)

/-- The key of a request gives the request. -/
theorem rehydrateKey_inj {epoch epoch' : String} {fence fence' : Nat}
    (h : rehydrateKey (some epoch) fence = rehydrateKey (some epoch') fence') :
    epoch = epoch' ∧ fence = fence' := by
  have hlist : epoch.toList ++ ':' :: (toString fence).toList =
      epoch'.toList ++ ':' :: (toString fence').toList := by
    have htext : epoch ++ ":" ++ toString fence = epoch' ++ ":" ++ toString fence' := h
    have hchars := congrArg String.toList htext
    have hcolon : ":".toList = [':'] := rfl
    simpa only [String.toList_append, append_assoc, hcolon, singleton_append] using hchars
  obtain ⟨hepoch, hfence⟩ := append_cons_inj (colon_not_mem_natText fence)
    (colon_not_mem_natText fence') hlist
  exact ⟨String.toList_inj.1 hepoch, natText_injective (String.toList_inj.1 hfence)⟩

variable (r : Renderer) (ts : Timestamp) (sub : Subscription)

/-- The renderer does not ask to start at the end. -/
theorem startAtLatest_clientHello : r.clientHello.startAtLatest = false := by
  have hversion : decide ("no-replay".toList <:+: appVersion.toList) = false := by decide
  have htruthy : truthy (some appVersion) = some appVersion := by decide
  show ((truthy (some appVersion)).any fun version =>
    decide ("no-replay".toList <:+: version.toList)) = false
  rw [htruthy, any_some]
  exact hversion

/-- The cursor is taken back to the start of a stream, and its state is asked for. -/
def Renderer.turn (r : Renderer) (epoch : String) (fence : Nat) : Renderer :=
  { r with cursor := ⟨some epoch, 0⟩ }.requestRehydrate (some epoch) fence

/-- A frame of the handshake is handled as one. -/
theorem onmessage_protocol {r : Renderer} {e : BusEvent} (h : e.type ∈ protocolHandled) :
    r.onmessage e = (r.handleProtocol e, true) := if_pos h

theorem onmessage_resync (hello : ClientHello) (reason : String) :
    ∃ r₀, (r₀ = r ∨ r₀ = r.reset) ∧ r.onmessage (resyncFrame ts sub hello reason) =
      (r₀.turn sub.state.epoch sub.state.maxSeq, true) := by
  have hfence : number? (resyncFrame ts sub hello reason).payload "fence_seq" =
      some (sub.state.maxSeq : Int) := by
    simp [resyncFrame, serverFrame, number?, Dict.get?, lookup_cons]
  have htype : (resyncFrame ts sub hello reason).type = "server_resync" := rfl
  have hepoch : (resyncFrame ts sub hello reason).streamEpoch = sub.state.epoch := rfl
  rw [onmessage_protocol (by rw [htype]; decide), Renderer.handleProtocol, if_pos htype,
    Renderer.resync, hfence, hepoch]
  split
  · exact ⟨r.reset, .inr rfl, rfl⟩
  · exact ⟨r, .inl rfl, rfl⟩

theorem onmessage_sync (reason : String) : r.onmessage (syncFrame ts sub reason) =
      (({ r with cursor := ⟨some sub.state.epoch, sub.state.maxSeq⟩ }.persistCursor).requestRehydrate
        (some sub.state.epoch) sub.state.maxSeq, true) := by
  have hfence : number? (syncFrame ts sub reason).payload "fence_seq" =
      some (sub.state.maxSeq : Int) := by
    simp [syncFrame, serverFrame, number?, Dict.get?, lookup_cons]
  have htype : (syncFrame ts sub reason).type = "server_sync" := rfl
  have hepoch : (syncFrame ts sub reason).streamEpoch = sub.state.epoch := rfl
  have hmax : max 0 (sub.state.maxSeq : Int) = sub.state.maxSeq := by omega
  rw [onmessage_protocol (by rw [htype]; decide), Renderer.handleProtocol,
    if_neg (by rw [htype]; decide), if_pos htype, Renderer.sync, hfence, hepoch]
  unfold Renderer.persistCursor
  split
  · rfl
  · rfl

theorem onmessage_helloFrame (hello : ClientHello) :
    number? (helloFrame ts sub hello).payload "max_seq" = some (sub.state.maxSeq : Int) ∧
      r.onmessage (helloFrame ts sub hello) = (r.hello (helloFrame ts sub hello), true) := by
  have htype : (helloFrame ts sub hello).type = "server_hello" := rfl
  rw [onmessage_protocol (by rw [htype]; decide), Renderer.handleProtocol,
    if_neg (by rw [htype]; decide), if_neg (by rw [htype]; decide), if_pos htype]
  simp [helloFrame, serverFrame, number?, Dict.get?]

/-- The hello of a stream the cursor is in. -/
theorem onmessage_hello (hello : ClientHello) (h : r.elsewhere sub.state.epoch = false)
    (hle : r.cursor.seq ≤ sub.state.maxSeq) :
    r.onmessage (helloFrame ts sub hello) =
      ({ r with cursor := ⟨some sub.state.epoch, r.cursor.seq⟩ }.persistCursor, true) := by
  obtain ⟨hfence, hreads⟩ := onmessage_helloFrame r ts sub hello
  have hepoch : (helloFrame ts sub hello).streamEpoch = sub.state.epoch := rfl
  rw [hreads, Renderer.hello, hfence, hepoch]
  simp only [getD_some, h, Bool.false_eq_true, if_false]
  rw [if_neg (by omega)]

/-- The hello of another stream. -/
theorem onmessage_hello_elsewhere (hello : ClientHello) (h : r.elsewhere sub.state.epoch = true) :
    r.onmessage (helloFrame ts sub hello) =
      ((r.reset.turn sub.state.epoch sub.state.maxSeq).persistCursor, true) := by
  obtain ⟨hfence, hreads⟩ := onmessage_helloFrame r ts sub hello
  have hepoch : (helloFrame ts sub hello).streamEpoch = sub.state.epoch := rfl
  rw [hreads, Renderer.hello, hfence, hepoch]
  simp only [getD_some, h, if_true]
  unfold Renderer.turn Renderer.requestRehydrate
  split
  · rfl
  · rfl

theorem onmessage_ping (state : StreamState) : r.onmessage (pingFrame ts state) = (r, true) := by
  have htype : (pingFrame ts state).type = "server_ping" := rfl
  rw [onmessage_protocol (by rw [htype]; decide), Renderer.handleProtocol,
    if_neg (by rw [htype]; decide), if_neg (by rw [htype]; decide), if_neg (by rw [htype]; decide)]

/-- An event, for a cursor that is in a stream: it is passed over, or it is one without a number,
or it is the next one of the stream. -/
theorem onmessage_event {r : Renderer} {data : BusEvent} {epoch : String}
    (htype : data.type ∉ protocolHandled) (hcursor : r.cursor.epoch = some epoch)
    (hepoch : epoch ≠ "") :
    (r.onmessage data).1 = r ∨ data.seq = 0 ∧ r.onmessage data = (r.applyEvent data, true) ∨
      0 < data.seq ∧ data.seq = r.cursor.seq + 1 ∧ r.onmessage data =
          ({ r with cursor := ⟨some epoch, data.seq⟩ }.persistCursor.applyEvent data, true) := by
  unfold Renderer.onmessage
  rw [if_neg htype]
  cases helse : r.elsewhere data.streamEpoch with
  | true => exact .inl rfl
  | false =>
    -- the epoch of the cursor stays
    have hstays : (if data.streamEpoch ≠ "" then some data.streamEpoch else r.cursor.epoch) =
        r.cursor.epoch := by
      by_cases hempty : data.streamEpoch = ""
      · rw [if_neg (not_not.2 hempty)]
      rw [if_pos hempty, hcursor]
      simp [Renderer.elsewhere, truthy, hcursor, hepoch, hempty, Option.filter] at helse
      rw [helse]
    simp only [hstays, Bool.false_eq_true, if_false]
    split
    · rename_i hpos
      split
      · exact .inl rfl
      split
      · exact .inl rfl
      rename_i hnext
      right
      right
      refine ⟨hpos, not_not.1 hnext, ?_⟩
      rw [hcursor]
    · right
      left
      refine ⟨by omega, rfl⟩

end Events
