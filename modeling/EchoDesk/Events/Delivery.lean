import EchoDesk.Events.Placing

/-! # The connection, from its hello on

How far the client has read is where the page stands in the handshake; the invariant of the two
ends follows it through the frames, and with it nothing is applied out of place.
-/

namespace Events

open EchoDesk Transition OrderedLog List Option Renderer OpenCall

/-- The place a client asks to go on from: the one of its cursor, or the start of any stream. -/
structure ClientHello.Asks (hello : ClientHello) (cursor : Cursor) : Prop where
  place : hello.lastSeq = cursor.seq ∧ hello.streamEpoch = cursor.epoch ∨
    hello.lastSeq = 0 ∧ hello.streamEpoch = none
  latest : hello.startAtLatest = false

/-- What stays of the moment the subscription was opened. -/
structure Joined (epochs : EpochSource) (scope : Scope) (bus : Bus) (r : Renderer)
    (state : StreamState) : Prop where
  drawn : bus.Drawn epochs state.epoch
  le : state.maxSeq ≤ (bus.events state.epoch).length
  others : ∀ event ∈ numbered r.log, event.streamEpoch ≠ state.epoch →
    bus.Left epochs scope event.streamEpoch

/-- How far the page is, by the frames it has read. -/
inductive Progress (bounds : Bounds) (r : Renderer) (state : StreamState)
    (gapReason : Option GapReason) : Nat → Prop where
  /-- The server reports a gap, and what was applied of the stream is no longer in the ring. -/
  | behind (hgap : gapReason ≠ none)
      (own : ∀ event ∈ numbered r.log, event.streamEpoch = state.epoch →
        event.seq ≤ state.maxSeq ∧ bounds.replayBuffer < state.maxSeq)
      (last : r.lastRehydrateFence = some (rehydrateKey (some state.epoch) state.maxSeq) →
        sinceRehydrate r.log = none) :
    Progress bounds r state gapReason 0
  | resynced (hgap : gapReason ≠ none) (cursor : r.cursor = ⟨some state.epoch, 0⟩)
      (requested : r.lastRehydrateFence = some (rehydrateKey (some state.epoch) state.maxSeq))
      (mem : .rehydrate (some state.epoch) state.maxSeq ∈ r.log)
      (last : sinceRehydrate r.log = none)
      (own : ∀ event ∈ numbered r.log, event.streamEpoch = state.epoch → event.seq ≤ state.maxSeq) :
    Progress bounds r state gapReason 1
  | synced (hgap : gapReason ≠ none) (live : Live bounds r state.epoch)
      (le : r.cursor.seq ≤ state.maxSeq) :
    Progress bounds r state gapReason 2
  /-- The stream goes on where the client is. -/
  | same (hgap : gapReason = none) (current : r.cursor.epoch = some state.epoch)
      (le : r.cursor.seq ≤ state.maxSeq)
      (own : ∀ event ∈ numbered r.log, event.streamEpoch = state.epoch →
        (event.seq : Int) ≤ r.cursor.seq)
      (past : ∀ fence : Nat, r.lastRehydrateFence = some (rehydrateKey (some state.epoch) fence) →
        (fence : Int) ≤ r.cursor.seq ∨ fence ≤ bounds.replayBuffer) :
    Progress bounds r state gapReason 0
  /-- The whole stream is new to the client. -/
  | other (hgap : gapReason = none) (current : r.cursor.epoch ≠ some state.epoch)
      (own : ∀ event ∈ numbered r.log, event.streamEpoch ≠ state.epoch)
      (le : state.maxSeq ≤ bounds.replayBuffer) :
    Progress bounds r state gapReason 0
  | live (read : Nat) (live : Live bounds r state.epoch)
      (hread : (if gapReason = none then 1 else 3) ≤ read) :
    Progress bounds r state gapReason read

structure Link.Sound (bounds : Bounds) (epochs : EpochSource) (scope : Scope) (bus : Bus)
    (r : Renderer) (link : Link) : Prop where
  keyed : r.keyed = true
  hello : link.accepted = none → link.hello = r.clientHello ∧ link.sub = none
  unread : link.sub = none → link.read = 0
  legacy : ∀ accepted ∈ link.accepted, accepted.handshake.legacyPing = false
  asked : ∀ accepted ∈ link.accepted, link.sub = none → accepted.handshake.hello.Asks r.cursor ∧
    ∃ call, bus.calls[accepted.call]? = some call ∧ call.asks =
      ⟨scope, accepted.handshake.hello.lastSeq, accepted.handshake.hello.streamEpoch,
        accepted.handshake.hello.startAtLatest, .admitted⟩
  joined : ∀ i ∈ link.sub, ∃ sub, bus.subscriptions[i]? = some sub ∧
    Joined epochs scope bus r sub.state ∧ Progress bounds r sub.state sub.gapReason link.read

/-- The invariant of the two ends. -/
structure World.Sound (bounds : Bounds) (epochs : EpochSource) (scope : Scope) (w : World) :
    Prop where
  inv : Inv bounds epochs w.bus
  business : ∀ event ∈ w.bus.published, event.type ∉ protocolHandled
  framed : ∀ sub ∈ w.bus.subscriptions, sub.Framed
  renderer : w.renderer.Sound bounds epochs scope w.bus
  link : ∀ link ∈ w.link, link.Sound bounds epochs scope w.bus w.renderer

variable {bounds : Bounds} {epochs : EpochSource} {scope : Scope} {bus bus' : Bus}
  {r : Renderer} {link : Link} {w : World}
variable {i : Nat} {state : StreamState} {frame : BusEvent} {epoch : String} {l : BusLabel}

/-! ## The server goes on -/

theorem Joined.mono (h : Joined epochs scope bus r state) (hbus : Evolves epochs bus bus') :
    Joined epochs scope bus' r state := by
  constructor
  · exact hbus.drawn_of h.drawn
  · exact Nat.le_trans h.le (hbus.events_length _)
  · exact fun event hevent hne => hbus.left (h.others event hevent hne)

theorem Evolves.call (h : Evolves epochs bus bus') {call : OpenCall}
    (hcall : bus.calls[i]? = some call) :
    ∃ call', bus'.calls[i]? = some call' ∧ call'.asks = call.asks := by
  obtain ⟨more, hmore⟩ := h.calls
  have hget : (bus'.calls.map asks)[i]? = some call.asks := by
    have hlt : i < (bus.calls.map asks).length := by
      rw [length_map]
      exact (List.getElem?_eq_some_iff.1 hcall).1
    rw [← hmore, getElem?_append_left hlt, getElem?_map, hcall]
    rfl
  rw [getElem?_map] at hget
  exact map_eq_some_iff.1 hget

theorem Link.Sound.mono (h : link.Sound bounds epochs scope bus r)
    (hbus : Evolves epochs bus bus') : link.Sound bounds epochs scope bus' r := by
  constructor
  · exact h.keyed
  · exact h.hello
  · exact h.unread
  · exact h.legacy
  · intro accepted haccepted hsub
    obtain ⟨hasks, call, hcall, heq⟩ := h.asked accepted haccepted hsub
    obtain ⟨call', hcall', heq'⟩ := hbus.call hcall
    exact ⟨hasks, call', hcall', heq'.trans heq⟩
  intro i hi
  obtain ⟨sub, hsub, hjoined, hprogress⟩ := h.joined i hi
  obtain ⟨sub', hsub', hfence, -⟩ := hbus.delivered i sub hsub
  have hstate : sub'.state = sub.state := congrArg Fence.state hfence
  have hgap : sub'.gapReason = sub.gapReason := congrArg Fence.gapReason hfence
  refine ⟨sub', hsub', ?_, ?_⟩
  · rw [hstate]
    exact hjoined.mono hbus
  · rw [hstate, hgap]
    exact hprogress

/-! ## The subscription is opened -/

section Opening

variable {call : OpenCall} {room : Bus} {stream : ScopeStream}

/-- The position a client asks for is the one of its cursor, or zero. -/
theorem requestedSeq_eq {hello : ClientHello} {cursor : Cursor} (hasks : hello.Asks cursor)
    (hcall : call.asks = ⟨scope, hello.lastSeq, hello.streamEpoch, hello.startAtLatest, .admitted⟩) :
    ((call.subscription stream).requestedSeq = cursor.seq.toNat ∧ call.streamEpoch = cursor.epoch) ∨
      ((call.subscription stream).requestedSeq = 0 ∧ call.streamEpoch = none) := by
  have hlast : call.lastSeq = hello.lastSeq := congrArg lastSeq hcall
  have hepoch : call.streamEpoch = hello.streamEpoch := congrArg streamEpoch hcall
  have hlatest : call.startAtLatest = hello.startAtLatest := congrArg startAtLatest hcall
  have hseq : (call.subscription stream).requestedSeq = hello.lastSeq.toNat := by
    rw [subscription, hlatest, hasks.latest, hlast]
    rfl
  rw [hseq, hepoch]
  rcases hasks.place with ⟨hplace, hstream⟩ | ⟨hplace, hstream⟩
  · left
    rw [hplace]
    exact ⟨rfl, hstream⟩
  · right
    rw [hplace]
    exact ⟨rfl, hstream⟩

theorem Joins.joined (h : Joins bounds epochs call bus room bus' stream)
    (hr : r.Sound bounds epochs call.scope room) (hkeyed : r.keyed = true) :
    Joined epochs call.scope bus' r stream.state := by
  have hdrawn : bus'.Drawn epochs stream.epoch := h.after.drawn_of (h.inv.drawn _ h.mem)
  constructor
  · exact hdrawn
  · show stream.seq ≤ _
    rw [h.inv.seq _ h.mem]
    exact h.after.events_length _
  intro event hevent hne
  refine h.after.left ?_
  rcases (hr.page hkeyed).placed.cases_cursor with ⟨-, hnumbered⟩ | ⟨epoch, seq, -, hat⟩
  · rw [hnumbered] at hevent
    cases hevent
  · by_cases hsame : event.streamEpoch = epoch
    · exact h.inv.left_of_ne h.mem (hsame ▸ hat.drawn) hne
    · exact hat.others event hevent hsame

/-- The stream of the scope is the one the cursor is in, or none of its events was applied. -/
theorem Renderer.Sound.not_numbered (h : r.Sound bounds epochs scope bus) (hkeyed : r.keyed = true)
    {stream : ScopeStream} (hmem : (scope, stream) ∈ bus.streams)
    (hcurrent : r.cursor.epoch ≠ some stream.epoch) :
    ∀ event ∈ numbered r.log, event.streamEpoch ≠ stream.epoch := by
  intro event hevent heq
  rcases (h.page hkeyed).placed.cases_cursor with ⟨-, hnumbered⟩ | ⟨epoch, seq, hcursor, hat⟩
  · rw [hnumbered] at hevent
    cases hevent
  have hne : event.streamEpoch ≠ epoch := by
    rintro rfl
    rw [hcursor] at hcurrent
    exact hcurrent (congrArg some heq)
  exact (hat.others event hevent hne).2 _ hmem rfl heq.symm

/-- The page when the subscription is opened. -/
theorem Joins.progress (h : Joins bounds epochs call bus room bus' stream)
    (hr : r.Sound bounds epochs call.scope room) (hkeyed : r.keyed = true) {hello : ClientHello}
    (hasks : hello.Asks r.cursor)
    (hcall : call.asks =
      ⟨scope, hello.lastSeq, hello.streamEpoch, hello.startAtLatest, .admitted⟩) :
    Progress bounds r stream.state (call.subscription stream).gapReason 0 := by
  have hpage := hr.page hkeyed
  have hseq : stream.seq = (room.events stream.epoch).length := h.inv.seq _ h.mem
  have hmax : stream.state.maxSeq = stream.seq := rfl
  have hepoch : stream.state.epoch = stream.epoch := rfl
  have hrequested := @requestedSeq_eq scope call stream _ _ hasks hcall
  by_cases hcurrent : r.cursor.epoch = some stream.epoch
  · -- the cursor is in the stream of the scope
    obtain ⟨seq, hcursor, hat⟩ := hpage.placed.inside hcurrent
    have hplace : r.cursor.seq = seq := by rw [hcursor]
    have hle := hat.le
    have hsame : ∀ epoch ∈ truthy call.streamEpoch, epoch = stream.epoch := by
      intro epoch hmem
      rcases hrequested with ⟨-, hstream⟩ | ⟨-, hstream⟩
      · rw [hstream, hcursor] at hmem
        exact (some.inj (mem_filter_iff.1 hmem).1).symm
      · rw [hstream] at hmem
        cases hmem
    by_cases hgap : (call.subscription stream).gapReason = none
    · have hwithin := h.inv.within h.mem hgap
      refine .same hgap hcurrent ?_ ?_ ?_
      · omega
      · intro event hevent heq
        have := hat.own event hevent heq
        omega
      intro fence hkey
      by_cases hzero : seq = 0
      · obtain ⟨epoch', fence', hkeys, -, hmem⟩ := hpage.requested _ hkey
        obtain ⟨rfl, rfl⟩ := rehydrateKey_inj hkeys
        have := hr.fences _ _ hmem
        rw [hepoch] at this
        exact .inr (by omega)
      · exact hpage.past _ fence hkey (by omega)
    have hbeyond := h.inv.beyond h.mem hsame (by omega) hgap
    refine .behind hgap ?_ ?_
    · intro event hevent heq
      have hpub := hr.published event hevent
      have := h.inv.seq_le (mem_events.2 ⟨hpub, heq⟩)
      rw [hepoch] at this
      omega
    intro hkey
    cases hlast : sinceRehydrate r.log with
    | none => rfl
    | some event =>
      exfalso
      have hat' := hpage.last event hlast
      rw [hcursor] at hat'
      have hsequence := congrArg Cursor.seq hat'
      dsimp only at hsequence
      have := hpage.strictly _ _ hkey event hlast
      omega
  · -- nothing of the stream of the scope was applied
    have hnone := hr.not_numbered hkeyed h.mem hcurrent
    by_cases hgap : (call.subscription stream).gapReason = none
    · refine .other hgap hcurrent hnone ?_
      have hwithin := h.inv.within h.mem hgap
      have hzero : (call.subscription stream).requestedSeq = 0 := by
        rcases hrequested with ⟨hreq, hstream⟩ | ⟨hreq, -⟩
        · -- a cursor in another stream would have been told of a gap
          have htruthy := (gapReasonForState_none hgap).1
          rcases hpage.placed.cases_cursor with ⟨hcursor, -⟩ | ⟨epoch, seq, hcursor, hat⟩
          · rw [hreq, hcursor]
            rfl
          exfalso
          rw [hstream, hcursor] at htruthy
          rw [hcursor] at hcurrent
          refine hcurrent (congrArg some (htruthy epoch ?_))
          exact mem_filter_iff.2 ⟨rfl, decide_eq_true (Drawn.ne_empty hat.drawn)⟩
        · exact hreq
      omega
    · refine .behind hgap ?_ ?_
      · intro event hevent heq
        exact absurd heq (hnone event hevent)
      intro hkey
      obtain ⟨epoch', fence', hkeys, hcur, -⟩ := hpage.requested _ hkey
      obtain ⟨rfl, rfl⟩ := rehydrateKey_inj hkeys
      exact absurd hcur hcurrent

end Opening

/-! ## A frame is read -/

theorem numbered_reset (r : Renderer) : numbered r.reset.log = numbered r.log := numbered_quiet rfl

theorem numbered_persistCursor (r : Renderer) : numbered r.persistCursor.log = numbered r.log := by
  unfold persistCursor
  split
  · exact numbered_quiet rfl
  · rfl

theorem Joined.of_numbered {r' : Renderer} (h : Joined epochs scope bus r state)
    (hlog : numbered r'.log = numbered r.log) : Joined epochs scope bus r' state := by
  refine ⟨h.drawn, h.le, ?_⟩
  rw [hlog]
  exact h.others

/-- A cursor of a stream is stored. -/
theorem live_persistCursor (hkeyed : r.keyed = true) (hcurrent : r.cursor.epoch = some epoch)
    (hown : ∀ event ∈ numbered r.log, event.streamEpoch = epoch → (event.seq : Int) ≤ r.cursor.seq)
    (hpast : ∀ fence : Nat, r.lastRehydrateFence = some (rehydrateKey (some epoch) fence) →
      (fence : Int) ≤ r.cursor.seq ∨ fence ≤ bounds.replayBuffer) :
    Live bounds r.persistCursor epoch := by
  have hlog := numbered_persistCursor r
  rw [persistCursor, if_pos hkeyed] at hlog ⊢
  refine ⟨hcurrent, rfl, ?_, hpast⟩
  rw [hlog]
  exact hown

theorem keyed_persistCursor (hkeyed : r.keyed = true) : r.persistCursor.keyed = true := by
  rw [persistCursor, if_pos hkeyed]
  exact hkeyed

/-- Only the page knows of the cursor. -/
theorem Renderer.Sound.move (h : r.Sound bounds epochs scope bus) {cursor : Cursor}
    (hpage : ({ r with cursor := cursor } : Renderer).Page bounds epochs scope bus) :
    ({ r with cursor := cursor } : Renderer).Sound bounds epochs scope bus :=
  ⟨h.gapFree, h.published, h.fences, h.stored, h.saved, h.last, fun _ => hpage⟩

/-- What a frame leaves: the page is sound, and it is a frame further if the socket is open. -/
structure Received (bounds : Bounds) (epochs : EpochSource) (scope : Scope) (bus : Bus)
    (state : StreamState) (gapReason : Option GapReason) (read : Nat) (r' : Renderer) : Prop where
  sound : r'.Sound bounds epochs scope bus
  keyed : r'.keyed = true
  joined : Joined epochs scope bus r' state
  progress : Progress bounds r' state gapReason (read + 1)

theorem elsewhere_self (h : r.cursor.epoch = some epoch) : r.elsewhere epoch = false := by
  by_cases hempty : epoch = ""
  · simp [elsewhere, truthy, h, hempty]
  · simp [elsewhere, truthy, h, hempty, Option.filter]

section Receive

variable {sub : Subscription} {ts : Timestamp} {hello : ClientHello}
variable {reason : String}

variable (hr : r.Sound bounds epochs scope bus) (hkeyed : r.keyed = true)
  (hjoined : Joined epochs scope bus r sub.state)

include hr hkeyed hjoined

theorem received_resync (hgap : sub.gapReason ≠ none)
    (hown : ∀ event ∈ numbered r.log, event.streamEpoch = sub.state.epoch →
      event.seq ≤ sub.state.maxSeq ∧ bounds.replayBuffer < sub.state.maxSeq)
    (hlast : r.lastRehydrateFence = some (rehydrateKey (some sub.state.epoch) sub.state.maxSeq) →
      sinceRehydrate r.log = none) : Received bounds epochs scope bus sub.state sub.gapReason 0
      (r.onmessage (resyncFrame ts sub hello reason)).1 := by
  obtain ⟨r₀, hr₀, heq⟩ := onmessage_resync r ts sub hello reason
  rw [heq]
  have hreset : r₀.Sound bounds epochs scope bus ∧ r₀.keyed = true ∧
      numbered r₀.log = numbered r.log ∧ r₀.lastRehydrateFence = r.lastRehydrateFence ∧
      sinceRehydrate r₀.log = sinceRehydrate r.log := by
    rcases hr₀ with rfl | rfl
    · exact ⟨hr, hkeyed, rfl, rfl, rfl⟩
    · exact ⟨hr.reset, hkeyed, numbered_reset r, rfl, sinceRehydrate_concat _ _⟩
  obtain ⟨hsound, hkeyed₀, hnumbered, hfence, hsince⟩ := hreset
  rw [← hfence, ← hsince] at hlast
  have hturned := (hsound.turn_cases hkeyed₀ sub.state.maxSeq hlast).1
  have hlog : numbered (r₀.turn sub.state.epoch sub.state.maxSeq).log = numbered r.log :=
    hturned.numbered.trans hnumbered
  constructor
  · refine hsound.turn hkeyed₀ hjoined.drawn hjoined.le ?_ ?_ hlast
    · intro event hevent hepoch
      rw [hnumbered] at hevent
      exact Nat.lt_of_lt_of_le (hown event hevent hepoch).2 hjoined.le
    · rw [hnumbered]
      exact hjoined.others
  · exact hturned.keyed.trans hkeyed₀
  · exact hjoined.of_numbered hlog
  · refine .resynced hgap hturned.cursor hturned.requested hturned.mem hturned.last ?_
    rw [hlog]
    exact fun event hevent hepoch => (hown event hevent hepoch).1

theorem received_sync (hgap : sub.gapReason ≠ none) (hrequested : r.lastRehydrateFence =
      some (rehydrateKey (some sub.state.epoch) sub.state.maxSeq))
    (hmem : .rehydrate (some sub.state.epoch) sub.state.maxSeq ∈ r.log)
    (hlast : sinceRehydrate r.log = none)
    (hown : ∀ event ∈ numbered r.log, event.streamEpoch = sub.state.epoch →
      event.seq ≤ sub.state.maxSeq) : Received bounds epochs scope bus sub.state sub.gapReason 1
      (r.onmessage (syncFrame ts sub reason)).1 := by
  rw [onmessage_sync]
  have hmoved : ({ r with cursor := ⟨some sub.state.epoch, sub.state.maxSeq⟩ } :
      Renderer).Sound bounds epochs scope bus := by
    refine hr.move ⟨?_, ?_, ?_, ?_, ?_⟩
    · refine .inStream _ _ ⟨hjoined.drawn, hjoined.le, ?_, ?_, hjoined.others, ?_⟩
      · exact fun m _ hle => .inr ⟨_, hmem, by omega⟩
      · exact fun event hevent hepoch => .inl (hown event hevent hepoch)
      · exact fun cursor _ _ => ⟨_, hmem⟩
    · intro event hevent
      rw [hlast] at hevent
      cases hevent
    · intro key hkey
      rw [hrequested] at hkey
      cases hkey
      exact ⟨_, _, rfl, rfl, hmem⟩
    · intro epoch fence hkey _
      rw [hrequested] at hkey
      obtain ⟨-, rfl⟩ := rehydrateKey_inj (some.inj hkey)
      exact .inl (Int.le_refl _)
    · intro epoch fence _ event hevent
      rw [hlast] at hevent
      cases hevent
  -- the request was made with the resync
  have hskip : ({ r with cursor := ⟨some sub.state.epoch, sub.state.maxSeq⟩ } :
      Renderer).persistCursor.requestRehydrate (some sub.state.epoch) sub.state.maxSeq =
        ({ r with cursor := ⟨some sub.state.epoch, sub.state.maxSeq⟩ } :
          Renderer).persistCursor := by
    rw [requestRehydrate, if_pos]
    rw [persistCursor, if_pos hkeyed]
    exact hrequested
  rw [hskip]
  constructor
  · exact hmoved.persistCursor (some_ne_none _)
  · exact keyed_persistCursor hkeyed
  · exact hjoined.of_numbered (numbered_persistCursor _)
  refine .synced hgap (live_persistCursor hkeyed rfl ?_ ?_) ?_
  · intro event hevent hepoch
    have := hown event hevent hepoch
    show (event.seq : Int) ≤ sub.state.maxSeq
    omega
  · intro fence hkey
    rw [hrequested] at hkey
    obtain ⟨-, rfl⟩ := rehydrateKey_inj (some.inj hkey)
    exact .inl (Int.le_refl _)
  · exact Int.le_of_eq (by rw [persistCursor, if_pos hkeyed])

/-- The hello of the stream the cursor is in. -/
theorem received_hello {read : Nat} (hread : (if sub.gapReason = none then 1 else 3) = read + 1)
    (hcurrent : r.cursor.epoch = some sub.state.epoch) (hle : r.cursor.seq ≤ sub.state.maxSeq)
    (hown : ∀ event ∈ numbered r.log, event.streamEpoch = sub.state.epoch →
      (event.seq : Int) ≤ r.cursor.seq) (hpast : ∀ fence : Nat,
      r.lastRehydrateFence = some (rehydrateKey (some sub.state.epoch) fence) →
        (fence : Int) ≤ r.cursor.seq ∨ fence ≤ bounds.replayBuffer) :
    Received bounds epochs scope bus sub.state sub.gapReason read
      (r.onmessage (helloFrame ts sub hello)).1 := by
  have hcursor : ({ r with cursor := ⟨some sub.state.epoch, r.cursor.seq⟩ } : Renderer) = r := by
    rw [← hcurrent]
  rw [onmessage_hello r ts sub hello (elsewhere_self hcurrent) hle, hcursor]
  constructor
  · refine hr.persistCursor ?_
    rw [hcurrent]
    exact some_ne_none _
  · exact keyed_persistCursor hkeyed
  · exact hjoined.of_numbered (numbered_persistCursor _)
  · exact .live _ (live_persistCursor hkeyed hcurrent hown hpast) (Nat.le_of_eq hread)

/-- The hello of a stream that is new to the client. -/
theorem received_hello_other (hgap : sub.gapReason = none)
    (hcurrent : r.cursor.epoch ≠ some sub.state.epoch)
    (hown : ∀ event ∈ numbered r.log, event.streamEpoch ≠ sub.state.epoch)
    (hle : sub.state.maxSeq ≤ bounds.replayBuffer) :
    Received bounds epochs scope bus sub.state sub.gapReason 0
      (r.onmessage (helloFrame ts sub hello)).1 := by
  have hread : (if sub.gapReason = none then 1 else 3) ≤ 0 + 1 := by
    rw [if_pos hgap]
  have hpage := hr.page hkeyed
  by_cases helse : r.elsewhere sub.state.epoch = true
  · rw [onmessage_hello_elsewhere r ts sub hello helse]
    have hlast : r.reset.lastRehydrateFence =
        some (rehydrateKey (some sub.state.epoch) sub.state.maxSeq) →
        sinceRehydrate r.reset.log = none := by
      intro hkey
      obtain ⟨epoch, fence, hkeys, hepoch, -⟩ := hpage.requested _ hkey
      obtain ⟨rfl, rfl⟩ := rehydrateKey_inj hkeys
      exact absurd hepoch hcurrent
    have hturned := (hr.reset.turn_cases hkeyed sub.state.maxSeq hlast).1
    have hnumbered : numbered (r.reset.turn sub.state.epoch sub.state.maxSeq).log =
        numbered r.log := hturned.numbered.trans (numbered_reset r)
    have hsound : (r.reset.turn sub.state.epoch sub.state.maxSeq).Sound bounds epochs scope
        bus := by
      refine hr.reset.turn hkeyed hjoined.drawn hjoined.le ?_ ?_ hlast
      · rw [numbered_reset]
        exact fun event hevent hepoch => absurd hepoch (hown event hevent)
      · rw [numbered_reset]
        exact hjoined.others
    have hkeyed' := hturned.keyed.trans (hkeyed : r.reset.keyed = true)
    constructor
    · refine hsound.persistCursor ?_
      rw [hturned.cursor]
      exact some_ne_none _
    · exact keyed_persistCursor hkeyed'
    · exact hjoined.of_numbered ((numbered_persistCursor _).trans hnumbered)
    refine .live _ (live_persistCursor hkeyed' (by rw [hturned.cursor]) ?_ ?_) hread
    · rw [hnumbered]
      exact fun event hevent hepoch => absurd hepoch (hown event hevent)
    intro fence hkey
    rw [hturned.requested] at hkey
    obtain ⟨-, rfl⟩ := rehydrateKey_inj (some.inj hkey)
    exact .inr hle
  -- the client was in no stream yet
  have hfresh : r.cursor = ⟨none, 0⟩ ∧ ∀ cursor, .saved cursor ∉ r.log := by
    cases hcursor : r.cursor with
    | mk current place =>
      have hplaced := hpage.placed
      rw [hcursor] at hplaced hcurrent
      cases hplaced with
      | fresh hnumbered hsaved => exact ⟨rfl, hsaved⟩
      | inStream epoch seq hat =>
        exfalso
        refine helse ?_
        have hne := Drawn.ne_empty hat.drawn
        have hne' := Drawn.ne_empty hjoined.drawn
        have hdiffers : epoch ≠ sub.state.epoch := fun heq => hcurrent (congrArg some heq)
        simp [elsewhere, truthy, hcursor, hne, hne', hdiffers, Option.filter]
  obtain ⟨hcursor, hsaved⟩ := hfresh
  have hnone : r.lastRehydrateFence = none := by
    cases hkey : r.lastRehydrateFence with
    | none => rfl
    | some key =>
      obtain ⟨epoch, fence, -, hepoch, -⟩ := hpage.requested key hkey
      rw [hcursor] at hepoch
      cases hepoch
  have hsince : sinceRehydrate r.log = none := by
    cases hlast : sinceRehydrate r.log with
    | none => rfl
    | some event =>
      have heq := hpage.last event hlast
      rw [hcursor] at heq
      cases heq
  have hzero : r.cursor.seq = 0 := by rw [hcursor]
  rw [onmessage_hello r ts sub hello (by simpa using helse) (by omega), hzero]
  have hmoved : ({ r with cursor := ⟨some sub.state.epoch, 0⟩ } : Renderer).Sound bounds epochs
      scope bus := by
    refine hr.move ⟨?_, ?_, ?_, ?_, ?_⟩
    · refine .inStream _ 0 ⟨hjoined.drawn, Nat.zero_le _, ?_, ?_, hjoined.others, ?_⟩
      · exact fun m hpos hm => absurd hm (by omega)
      · exact fun event hevent hepoch => absurd hepoch (hown event hevent)
      · exact fun cursor hmem => absurd hmem (hsaved cursor)
    · intro event hevent
      rw [hsince] at hevent
      cases hevent
    · intro key hkey
      rw [hnone] at hkey
      cases hkey
    · intro epoch fence hkey
      rw [hnone] at hkey
      cases hkey
    · intro epoch fence hkey
      rw [hnone] at hkey
      cases hkey
  constructor
  · exact hmoved.persistCursor (some_ne_none _)
  · exact keyed_persistCursor hkeyed
  · exact hjoined.of_numbered (numbered_persistCursor _)
  refine .live _ (live_persistCursor hkeyed rfl ?_ ?_) hread
  · exact fun event hevent hepoch => absurd hepoch (hown event hevent)
  intro fence hkey
  rw [hnone] at hkey
  cases hkey

/-- What the iterator returned. -/
theorem received_event (hinv : Inv bounds epochs bus)
    (hbusiness : ∀ event ∈ bus.published, event.type ∉ protocolHandled) (hframed : sub.Framed)
    {read : Nat} (hsub : bus.subscriptions[i]? = some sub) (hlive : Live bounds r sub.state.epoch)
    (hread : (if sub.gapReason = none then 1 else 3) ≤ read) {event : BusEvent}
    (hevent : event ∈ sub.delivered) :
    Received bounds epochs scope bus sub.state sub.gapReason read (r.onmessage event).1 := by
  have hread' := Nat.le_succ_of_le hread
  have hcases : event.seq = 0 ∨ event ∈ bus.events sub.state.epoch := by
    obtain ⟨yielded, frames, hsplit, hyielded, -, -, hzero⟩ := (hinv.yields hsub).stretch
    rw [hsplit] at hevent
    rcases mem_append.1 hevent with hmem | hmem
    · exact .inr (mem_of_mem_drop (hyielded.subset hmem))
    · exact .inl (hzero event hmem)
  have htype : event.type ∉ protocolHandled := by
    rcases hcases with hzero | hmem
    · have herror : event.type = "error" := by
        rcases hframed event (mem_append_right _ hevent) with hpos | herror
        · omega
        · exact herror
      rw [herror]
      decide
    · exact hbusiness event (mem_events.1 hmem).1
  rcases onmessage_event htype hlive.current (Drawn.ne_empty hjoined.drawn) with
    hsame | ⟨hzero, heq⟩ | ⟨hpos, hnext, heq⟩
  · rw [hsame]
    exact ⟨hr, hkeyed, hjoined, .live _ hlive hread'⟩
  · rw [heq]
    have hquiet : numbered (r.applyEvent event).log = numbered r.log :=
      numbered_quiet (if_neg (by omega))
    have haside : (r.applyEvent event).Sound bounds epochs scope _ :=
      hr.aside (if_neg (by omega)) (fun _ => Effect.noConfusion) fun _ _ => Effect.noConfusion
    refine ⟨haside, hkeyed, hjoined.of_numbered hquiet, .live _ ?_ hread'⟩
    refine ⟨hlive.current, hlive.stored, ?_, hlive.past⟩
    rw [hquiet]
    exact hlive.own
  rw [heq]
  have hmem : event ∈ bus.events sub.state.epoch := by
    rcases hcases with hzero | hmem
    · omega
    · exact hmem
  have hepoch := (mem_events.1 hmem).2
  rw [← hepoch] at hlive hmem
  obtain ⟨hsound, hlive', hkeyed'⟩ := hr.applyNext hkeyed hinv hlive hmem hnext
  rw [← hepoch]
  refine ⟨hsound, hkeyed', ⟨hjoined.drawn, hjoined.le, ?_⟩, .live _ (hepoch ▸ hlive') hread'⟩
  intro e he hne
  have hlog : numbered (withEvent r.log event) = numbered r.log ++ [event] :=
    numbered_withEvent hpos
  have he' : e ∈ numbered r.log ++ [event] := by
    rw [← hlog]
    simpa [persistCursor, hkeyed, applyEvent, withEvent] using he
  rcases mem_append.1 he' with he' | he'
  · exact hjoined.others e he' hne
  · rw [mem_singleton.1 he'] at hne
    exact absurd hepoch hne

end Receive

/-- The frame that is next, wherever the page is. -/
theorem World.Sound.received (h : w.Sound bounds epochs scope) (hlink : w.link = some link)
    {accepted : Accepted} (haccepted : link.accepted = some accepted) (hi : link.sub = some i)
    {sub : Subscription} (hsub : w.bus.subscriptions[i]? = some sub)
    (hframe : (handshakeFrames accepted.ts sub accepted.handshake ++
      sub.delivered)[link.read]? = some frame) :
    Received bounds epochs scope w.bus sub.state sub.gapReason link.read
      (w.renderer.onmessage frame).1 := by
  have hsound := h.link link hlink
  have hr := h.renderer
  have hkeyed := hsound.keyed
  obtain ⟨sub', hsub', hjoined, hprogress⟩ := hsound.joined i hi
  cases hsub'.symm.trans hsub
  have hhandshake : accepted.handshake = ⟨accepted.handshake.hello, false⟩ := by
    rw [← hsound.legacy accepted haccepted]
  rw [hhandshake] at hframe
  generalize link.read = read at *
  cases hreason : sub.gapReason with
  | none =>
    simp only [handshakeFrames, hreason] at hframe
    rw [← hreason]
    cases hprogress with
    | behind hgap | resynced hgap | synced hgap => exact absurd hreason hgap
    | same hgap current le own past =>
      cases hframe
      exact received_hello hr hkeyed hjoined (if_pos hgap) current le own past
    | other hgap current own le =>
      cases hframe
      exact received_hello_other hr hkeyed hjoined hgap current own le
    | live read live hread =>
      have hlength : 1 ≤ read := by
        rw [if_pos hreason] at hread
        exact hread
      rw [getElem?_append_right hlength] at hframe
      exact received_event hr hkeyed hjoined h.inv h.business
        (h.framed sub (mem_of_getElem? hsub)) hsub live hread (mem_of_getElem? hframe)
  | some reason =>
    simp only [handshakeFrames, hreason] at hframe
    rw [← hreason]
    have hgap : sub.gapReason ≠ none := by
      rw [hreason]
      exact some_ne_none _
    cases hprogress with
    | behind _ own last =>
      cases hframe
      exact received_resync hr hkeyed hjoined hgap own last
    | resynced _ cursor requested mem last own =>
      cases hframe
      exact received_sync hr hkeyed hjoined hgap requested mem last own
    | synced _ live le =>
      cases hframe
      exact received_hello hr hkeyed hjoined (if_neg hgap) live.current le live.own live.past
    | same hnone | other hnone => exact absurd hnone hgap
    | live read live hread =>
      have hlength : 3 ≤ read := by
        rw [if_neg hgap] at hread
        exact hread
      rw [getElem?_append_right hlength] at hframe
      exact received_event hr hkeyed hjoined h.inv h.business
        (h.framed sub (mem_of_getElem? hsub)) hsub live hread (mem_of_getElem? hframe)

/-! ## The steps -/

theorem World.Sound.read (h : w.Sound bounds epochs scope) (hlink : w.link = some link)
    (hframe : (link.frames w.bus)[link.read]? = some frame) :
    (w.read link frame).Sound bounds epochs scope := by
  have hsound := h.link link hlink
  unfold Link.frames at hframe
  cases haccepted : link.accepted with
  | none => simp [haccepted] at hframe
  | some accepted =>
    cases hi : link.sub with
    | none => simp [haccepted, hi] at hframe
    | some i =>
      obtain ⟨sub, hsub, -⟩ := hsound.joined i hi
      simp only [haccepted, hi, bind_some, hsub] at hframe
      have hreceived := h.received hlink haccepted hi hsub hframe
      refine ⟨h.inv, h.business, h.framed, hreceived.sound, ?_⟩
      intro link' hlink'
      unfold World.read at hlink'
      split at hlink'
      · cases hlink'
        refine ⟨hreceived.keyed, ?_, ?_, hsound.legacy, ?_, ?_⟩
        · intro hnone
          rw [haccepted] at hnone
          cases hnone
        · intro hnone
          rw [hi] at hnone
          cases hnone
        · intro accepted' _ hnone
          rw [hi] at hnone
          cases hnone
        · intro i' hi'
          cases hi.symm.trans hi'
          exact ⟨sub, hsub, hreceived.joined, hreceived.progress⟩
      · cases hlink'

/-- The bus goes on under the connection, and may open its subscription. -/
theorem Link.Sound.opened (h : link.Sound bounds epochs scope bus r) (hinv : Inv bounds epochs bus)
    (hr : r.Sound bounds epochs scope bus) (hl : l.business) :
    (link.opened bus (busStep bounds epochs bus l) l).Sound bounds epochs scope
      (busStep bounds epochs bus l) r := by
  have hmono : link.Sound bounds epochs scope (busStep bounds epochs bus l) r :=
    h.mono (evolves_step hl)
  cases l with
  | register i =>
    dsimp only [Link.opened]
    split
    · rename_i hopened
      obtain ⟨hnone, hcall, hlt⟩ := hopened
      obtain ⟨accepted, haccepted, rfl⟩ := map_eq_some_iff.1 hcall
      obtain ⟨hasks, call, hcall, heq⟩ := h.asked accepted haccepted hnone
      obtain ⟨room, stream, hjoins⟩ := hinv.joins hcall hlt
      have hscope : call.scope = scope := congrArg OpenCall.scope heq
      have hroom : r.Sound bounds epochs call.scope room := by
        rw [hscope]
        exact hr.mono hjoins.before
      have hread := h.unread hnone
      refine ⟨h.keyed, ?_, ?_, h.legacy, ?_, ?_⟩
      · intro hno
        rw [haccepted] at hno
        cases hno
      · intro hno
        cases hno
      · intro accepted' _ hno
        cases hno
      intro j hj
      cases hj
      refine ⟨_, hjoins.opened, ?_, ?_⟩
      · have hjoined := hjoins.joined hroom h.keyed
        rw [hscope] at hjoined
        exact hjoined
      · have hprogress := hjoins.progress hroom h.keyed hasks heq
        rw [hread]
        exact hprogress
    · exact hmono
  | publish scope event | openFenced scope lastSeq streamEpoch startAtLatest | abandon i
  | anext i | wake i | interrupt i | close i | inspect scope | aclose ts =>
    exact hmono

/-- What the bus is to the renderer. -/
theorem World.Sound.server (h : w.Sound bounds epochs scope) (hl : l.business) :
    Inv bounds epochs (busStep bounds epochs w.bus l) ∧
      (∀ event ∈ (busStep bounds epochs w.bus l).published, event.type ∉ protocolHandled) ∧
      (∀ sub ∈ (busStep bounds epochs w.bus l).subscriptions, sub.Framed) ∧
      w.renderer.Sound bounds epochs scope (busStep bounds epochs w.bus l) := by
  have hevolves : Evolves epochs w.bus (busStep bounds epochs w.bus l) := evolves_step hl
  refine ⟨(h.inv.step l).inv, ?_, hevolves.framed h.framed, h.renderer.mono hevolves⟩
  intro event hevent
  rcases hevolves.business event hevent with hold | hnew
  · exact h.business event hold
  · exact hnew

theorem asked_grant {asks : OpenCall} (h : ∃ call, bus.calls[i]? = some call ∧ call.asks = asks) :
    ∃ call, (bus.grantAdmissionWaiters bounds epochs).calls[i]? = some call ∧ call.asks = asks := by
  obtain ⟨call, hcall, heq⟩ := h
  obtain ⟨call', hcall', heq'⟩ := (arranges_grantLoop _ bus).evolves.call hcall
  exact ⟨call', hcall', heq'.trans heq⟩

/-- The call of a connection asks for what its hello says. -/
theorem open_asks (bus : Bus) (lastSeq : Int) (streamEpoch : Option String) (latest : Bool) :
    ∃ call, (bus.awaitScopeAdmission bounds epochs scope lastSeq streamEpoch
      latest).calls[bus.calls.length]? = some call ∧
      call.asks = ⟨scope, lastSeq, streamEpoch, latest, .admitted⟩ := by
  have hlast : ∀ call : OpenCall, (bus.calls ++ [call])[bus.calls.length]? = some call := by
    intro call
    rw [getElem?_append_right (le_rfl), Nat.sub_self]
    rfl
  unfold Bus.awaitScopeAdmission
  split
  · exact ⟨_, hlast _, rfl⟩
  split
  · exact ⟨_, hlast _, rfl⟩
  · exact asked_grant ⟨_, hlast _, rfl⟩

theorem World.Sound.step (h : w.Sound bounds epochs scope) (l : SessionLabel) :
    (sessionStep bounds epochs scope w l).Sound bounds epochs scope := by
  cases l with
  | server label business =>
    obtain ⟨hinv, hbusiness, hframed, hr⟩ := h.server business
    refine ⟨hinv, hbusiness, hframed, hr, ?_⟩
    intro link' hlink'
    obtain ⟨link, hlink, rfl⟩ := map_eq_some_iff.1 hlink'
    exact (h.link link hlink).opened h.inv h.renderer business
  | connect =>
    dsimp only [sessionStep]
    cases hlink : w.link with
    | some link => exact h
    | none =>
      refine ⟨h.inv, h.business, h.framed, h.renderer.load, ?_⟩
      intro link' hlink'
      cases hlink'
      refine ⟨keyed_load _, fun _ => ⟨rfl, rfl⟩, fun _ => rfl, ?_, ?_, ?_⟩
      · intro accepted haccepted
        cases haccepted
      · intro accepted haccepted
        cases haccepted
      · intro i hi
        cases hi
  | accept ts inTime =>
    dsimp only [sessionStep]
    cases hlink : w.link with
    | none => exact h
    | some link =>
      dsimp only
      split
      · exact h
      rename_i hnot
      have hnone : link.accepted = none := by simpa using hnot
      have hsound := h.link link hlink
      obtain ⟨hhello, hsub⟩ := hsound.hello hnone
      obtain ⟨hinv, hbusiness, hframed, hr⟩ := h.server (l := .openFenced scope
        (link.handshake inTime).hello.lastSeq (link.handshake inTime).hello.streamEpoch
        (link.handshake inTime).hello.startAtLatest) trivial
      refine ⟨hinv, hbusiness, hframed, hr, ?_⟩
      intro link' hlink'
      cases hlink'
      refine ⟨hsound.keyed, ?_, hsound.unread, ?_, ?_, ?_⟩
      · intro hno
        cases hno
      · intro accepted haccepted
        cases haccepted
        rfl
      · intro accepted haccepted _
        cases haccepted
        refine ⟨?_, open_asks w.bus _ _ _⟩
        -- a hello that comes too late is replaced by the default one
        cases inTime with
        | true =>
          refine ⟨.inl ?_, ?_⟩
          · show link.hello.lastSeq = _ ∧ link.hello.streamEpoch = _
            rw [hhello]
            exact ⟨rfl, rfl⟩
          · show link.hello.startAtLatest = false
            rw [hhello]
            exact startAtLatest_clientHello _
        | false => exact ⟨.inr ⟨rfl, rfl⟩, rfl⟩
      · intro i hi
        rw [hsub] at hi
        cases hi
  | receive =>
    dsimp only [sessionStep]
    cases hlink : w.link with
    | none => exact h
    | some link =>
      dsimp only
      cases hframe : (link.frames w.bus)[link.read]? with
      | none => exact h
      | some frame => exact h.read hlink hframe
  | ping ts =>
    dsimp only [sessionStep]
    cases hsub : w.link.bind Link.sub with
    | none => exact h
    | some i =>
      obtain ⟨hinv, hbusiness, hframed, hr⟩ := h.server (l := .inspect scope) trivial
      have hbus : ({ w with bus := busStep bounds epochs w.bus (.inspect scope) } :
          World).Sound bounds epochs scope := by
        refine ⟨hinv, hbusiness, hframed, hr, ?_⟩
        intro link hlink
        exact (h.link link hlink).mono (evolves_step (l := .inspect scope) trivial)
      cases (busStep bounds epochs w.bus (.inspect scope)).streams.lookup scope with
      | none => exact hbus
      | some stream =>
        rw [elim_some, onmessage_ping]
        exact hbus
  | disconnect =>
    refine ⟨h.inv, h.business, h.framed, h.renderer, ?_⟩
    intro link hlink
    cases hlink
  | reload =>
    refine ⟨h.inv, h.business, h.framed, h.renderer.reload, ?_⟩
    intro link hlink
    cases hlink

theorem sound_init : World.init.Sound bounds epochs scope := by
  refine ⟨inv_init, ?_, ?_, ?_, ?_⟩
  · intro event hevent
    cases hevent
  · intro sub hsub
    cases hsub
  · refine ⟨gapFree_nil, ?_, ?_, .fresh rfl ?_, rfl, ?_, ?_⟩
    · intro event hevent
      cases hevent
    · intro epoch fence hmem
      cases hmem
    · intro cursor hmem
      cases hmem
    · intro event hevent
      cases hevent
    · intro hkeyed
      cases hkeyed
  · intro link hlink
    cases hlink

theorem sound_run (h : w.Sound bounds epochs scope) (trace : List SessionLabel) :
    (run (sessionStep bounds epochs scope) w trace).Sound bounds epochs scope := by
  induction trace generalizing w with
  | nil => exact h
  | cons l trace ih => exact ih (h.step l)

/-- Whatever the bus, the connections and the page do: the handler applies the events of a stream
once, each one right after the place that is stored, and asks for the state of the server before
it passes over any. -/
theorem delivery_gapFree (bounds : Bounds) (epochs : EpochSource) (scope : Scope)
    (trace : List SessionLabel) :
    GapFree (run (sessionStep bounds epochs scope) .init trace).bus.published
      (run (sessionStep bounds epochs scope) .init trace).renderer.log :=
  (sound_run sound_init trace).renderer.gapFree

/-- A renderer reads one event, is reloaded and goes on with the next. -/
example : (numbered (run (sessionStep smallBounds wordEpochs ⟨"t", "o"⟩) .init
    [.server (.publish ⟨"t", "o"⟩ ⟨"note", 0, none, []⟩) (by simp [BusLabel.business, protocolHandled]),
      .connect, .accept 0 true, .server (.register 0) trivial, .receive,
      .server (.anext 0) trivial, .receive, .reload,
      .server (.publish ⟨"t", "o"⟩ ⟨"note", 0, none, []⟩) (by simp [BusLabel.business, protocolHandled]),
      .connect, .accept 0 true, .server (.register 1) trivial, .receive,
      .server (.anext 1) trivial, .receive]).renderer.log).map BusEvent.seq = [1, 2] := by
  decide +kernel

end Events
