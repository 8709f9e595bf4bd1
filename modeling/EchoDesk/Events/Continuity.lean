import EchoDesk.Events.Changes
import EchoDesk.Events.Steps

/-! # Continuity of a fenced subscription

A client comes back with a position of a stream. Whatever is published, dropped,
closed or removed meanwhile, it is told of a gap and starts at the end of the
stream, or it is given the events after its position one by one, until its queue
overflows, it closes, or the stream ends.
-/

namespace Events

open EchoDesk Transition OrderedLog ReplayLog List

variable {bounds : Bounds} {epochs : EpochSource} {bus bus' : Bus}
variable {sub' : Subscription} {call : OpenCall}

/-! ## A step of the bus -/

/-- What every step keeps: the invariant, and the fences of the subscriptions there are. -/
structure Kept (bounds : Bounds) (epochs : EpochSource) (bus bus' : Bus) : Prop where
  inv : Inv bounds epochs bus'
  fences : bus.fences <+: bus'.fences

theorem Kept.of_same (h : Inv bounds epochs bus') (hsubs : bus'.subscriptions = bus.subscriptions) :
    Kept bounds epochs bus bus' := by
  have hfences : bus'.fences = bus.fences := by rw [Bus.fences, Bus.fences, hsubs]
  exact ⟨h, hfences ▸ prefix_rfl⟩

theorem Kept.of_fences (h : Inv bounds epochs bus') (hfences : bus'.fences = bus.fences) :
    Kept bounds epochs bus bus' := by
  exact ⟨h, hfences ▸ prefix_rfl⟩

theorem Kept.trans {bus'' : Bus} (h : Kept bounds epochs bus bus')
    (h' : Kept bounds epochs bus' bus'') : Kept bounds epochs bus bus'' :=
  ⟨h'.inv, h.fences.trans h'.fences⟩

variable {i : Nat} {sub : Subscription}

/-- What the subscription that is read keeps, all of them keep. -/
theorem map_setSubscription {β : Type} {g : Subscription → β}
    (hsub : bus.subscriptions[i]? = some sub) (hg : g sub' = g sub) :
    (bus.setSubscription i sub').subscriptions.map g = bus.subscriptions.map g := by
  obtain ⟨hlt, rfl⟩ := List.getElem?_eq_some_iff.1 hsub
  rw [Bus.setSubscription, map_set, hg, ← getElem_map g, set_getElem_self]
  rw [length_map]
  exact hlt

theorem Subscription.fence_anext (sub : Subscription) : sub.anext.1.fence = sub.fence := by
  rcases sub.anext_cases with ⟨heq, -⟩ | ⟨heq, -⟩ | ⟨_, _, _, _, -, heq, -⟩ | ⟨-, heq, -⟩
  · rw [heq]
  · rw [heq]
  · rw [heq]
    rfl
  · rw [heq]
    rfl

theorem Subscription.fence_wake (sub : Subscription) : sub.wake.1.fence = sub.fence := by
  unfold Subscription.wake
  split
  · rfl
  · rfl

/-- So does what happens to the queues. -/
theorem map_mapIdx {β : Type} {g : Subscription → β} (l : List Subscription)
    {f : Nat → Subscription → Subscription} (hf : ∀ i sub, g (f i sub) = g sub) :
    (l.mapIdx f).map g = l.map g := by
  apply ext_getElem?
  intro i
  rw [getElem?_map, getElem?_map, getElem?_mapIdx, Option.map_map]
  exact Option.map_congr fun sub _ => hf i sub

theorem Appended.fences {scope : Scope} {stream stream' : ScopeStream} {committed frame : BusEvent}
    (ha : Appended bounds bus bus' scope stream stream' committed frame) :
    bus'.fences = bus.fences := by
  rw [Bus.fences, ha.subscriptions, Bus.fences]
  apply map_mapIdx
  intro i sub
  split
  · rfl
  · rfl

theorem Inv.kept_aclose (h : Inv bounds epochs bus) (ts : Timestamp) :
    Kept bounds epochs bus (bus.aclose bounds ts) := by
  refine Kept.of_fences (h.aclose ts) ?_
  rw [Bus.fences, Bus.aclose, Bus.fences]
  apply map_mapIdx
  intro i sub
  split
  · split
    · rfl
    · rfl
  · rfl

theorem Inv.read (h : Inv bounds epochs bus) (hsub : bus.subscriptions[i]? = some sub)
    (hread : Read sub sub') : Kept bounds epochs bus (bus.setSubscription i sub') := by
  have hsound := h.sound sub (mem_of_getElem? hsub)
  cases hread with
  | anext => exact Kept.of_fences (h.anext hsub) (map_setSubscription hsub sub.fence_anext)
  | wake => exact Kept.of_fences (h.wake hsub) (map_setSubscription hsub sub.fence_wake)
  | interrupt =>
    exact Kept.of_fences (h.setSubscription hsub rfl rfl id
      ⟨hsound.requested, hsound.gap, nofun, hsound.slow⟩) (map_setSubscription hsub rfl)
  | close =>
    exact Kept.of_fences (h.setSubscription hsub rfl rfl (fun _ => rfl)
      ⟨hsound.requested, hsound.gap, hsound.waiting, hsound.slow⟩) (map_setSubscription hsub rfl)

variable {own : Option Nat} {P : EchoEvent → Prop}

/-- Every change keeps the invariant and the fences. -/
theorem Inv.change (h : Inv bounds epochs bus) (hchange : Change bounds epochs own P bus bus') :
    Kept bounds epochs bus bus' := by
  cases hchange with
  | arrange harrange =>
    exact Kept.of_same (h.arrange harrange) (Arranges.same (.single harrange)).1.subscriptions
  | calls hcalls => exact Kept.of_same (h.congr rfl rfl rfl rfl) rfl
  | append hmem hevent =>
    obtain ⟨stream', committed, frame, happended⟩ := appended_append hmem _
    exact Kept.of_fences (happended.inv h) happended.fences
  | subscribe call hmem =>
    refine ⟨h.subscribe call hmem, ?_⟩
    rw [Bus.fences, Bus.fences, Bus.subscribe, map_append]
    exact prefix_append _ _
  | read hown hsub hread => exact h.read hsub hread
  | discard hmem hclosed => exact Kept.of_same (h.discard hmem hclosed) rfl
  | aclose ts => exact h.kept_aclose ts

theorem Inv.changes (h : Inv bounds epochs bus) (hchanges : Changes bounds epochs own P bus bus') :
    Kept bounds epochs bus bus' := by
  induction hchanges with
  | refl => exact Kept.of_same h rfl
  | tail _ hchange ih => exact ih.trans (ih.inv.change hchange)

/-- Every step keeps the invariant and the fences. -/
theorem Inv.step (h : Inv bounds epochs bus) (l : BusLabel) :
    Kept bounds epochs bus (busStep bounds epochs bus l) :=
  h.changes (changes_busStep (P := fun _ => True) fun _ _ _ => trivial)

theorem inv_init : Inv bounds epochs .init := by
  constructor
  · exact nodup_nil
  · exact nodup_nil
  · intro e he
    cases he
  · intro event hevent
    cases hevent
  · intro sub hsub
    cases hsub
  · intro epoch
    exact Dense.nil
  · intro e he
    cases he
  · intro e he
    cases he
  · intro e he
    cases he
  · intro sub hsub
    cases hsub
  · intro i sub hsub
    cases hsub

/-- A run keeps the invariant and the fences. -/
theorem Inv.run (h : Inv bounds epochs bus) (trace : List BusLabel) :
    Kept bounds epochs bus (run (busStep bounds epochs) bus trace) := by
  induction trace generalizing bus with
  | nil => exact Kept.of_same h rfl
  | cons l trace ih => exact (h.step l).trans (ih (h.step l).inv)

/-- The streams, next to all that was published under their epochs. -/
structure Ringed (bounds : Bounds) (bus : Bus) : Prop where
  epochs : (bus.streams.map fun e => e.2.epoch).Nodup
  numbered : ∀ epoch, (bus.events epoch).map BusEvent.seq = List.range' 1 (bus.events epoch).length
  seq : ∀ e ∈ bus.streams, e.2.seq = (bus.events e.2.epoch).length
  ring : ∀ e ∈ bus.streams, e.2.history = keepLast bounds.replayBuffer (bus.events e.2.epoch)

theorem rings_exact (bounds : Bounds) (epochs : EpochSource) (trace : List BusLabel) :
    Ringed bounds (run (busStep bounds epochs) .init trace) := by
  have h : Inv bounds epochs (run (busStep bounds epochs) .init trace) := (inv_init.run trace).inv
  exact ⟨h.distinct, fun epoch => map_stretch (h.dense epoch) List.prefix_rfl, h.seq, h.history⟩

/-! ## What the client gets -/

/-- What the iterator of a subscription returns, of the events its stream published. -/
structure Yields (bus : Bus) (sub : Subscription) : Prop where
  /-- It returned a stretch of them from the resume point on, each with the next number,
  and a frame of the bus at most behind it. -/
  stretch : ∃ yielded frames, sub.delivered = yielded ++ frames ∧
    yielded <+: (bus.events sub.state.epoch).drop sub.resumeSeq ∧
    yielded.map BusEvent.seq = List.range' (sub.resumeSeq + 1) yielded.length ∧
    frames.length ≤ 1 ∧ ∀ frame ∈ frames, frame.seq = 0
  /-- Unless it was closed or overflowed, all of them were returned or are pending. -/
  complete : sub.closed = false →
    (∃ frame ∈ sub.given, frame.seq = 0 ∧ frame.isSlowConsumer = true) ∨
      ∃ frames, sub.given = (bus.events sub.state.epoch).drop sub.resumeSeq ++ frames ∧
        frames.length ≤ 1 ∧ ∀ frame ∈ frames, frame.seq = 0
  /-- The next one that is pending is the next one it returns. -/
  next : sub.closed = false → sub.slowConsumerSeen = false →
    ∀ event rest, sub.pending = event :: rest → sub.anext.2 = .event event
  /-- After the frame of an overflow it raises. -/
  raises : sub.closed = false → (∃ event ∈ sub.delivered, event.isSlowConsumer = true) →
    sub.anext = (sub, .slowConsumerError)

theorem CutOff.yields {extra : List BusEvent} (h : Inv bounds epochs bus)
    (hcut : CutOff (bus.events sub.state.epoch) sub.resumeSeq sub.given extra)
    (hlength : extra.length ≤ 1) (hseq : ∀ frame ∈ extra, frame.seq = 0) :
    ∃ yielded frames, sub.delivered = yielded ++ frames ∧
      yielded <+: (bus.events sub.state.epoch).drop sub.resumeSeq ∧
      yielded.map BusEvent.seq = List.range' (sub.resumeSeq + 1) yielded.length ∧
      frames.length ≤ 1 ∧ ∀ frame ∈ frames, frame.seq = 0 := by
  obtain ⟨yielded, frames, hyielded, hframes, hsplit⟩ := CutOff.delivered hcut
  refine ⟨yielded, frames, hsplit, hyielded, map_stretch (h.dense _) hyielded, ?_, ?_⟩
  · exact Nat.le_trans hframes.length_le hlength
  · exact fun frame hframe => hseq frame (hframes.subset hframe)

/-- Wherever a subscription stands, its iterator returns what it should. -/
theorem Inv.yields (h : Inv bounds epochs bus) (hsub : bus.subscriptions[i]? = some sub) :
    Yields bus sub := by
  have hsound := h.sound sub (mem_of_getElem? hsub)
  have hcut : ∃ extra, CutOff (bus.events sub.state.epoch) sub.resumeSeq sub.given extra ∧
      extra.length ≤ 1 ∧ (∀ frame ∈ extra, frame.seq = 0) ∧
      (sub.closed = false → (∃ frame ∈ sub.given, frame.seq = 0 ∧ frame.isSlowConsumer = true) ∨
          sub.given = (bus.events sub.state.epoch).drop sub.resumeSeq ++ extra) := by
    cases h.standing i sub hsub with
    | subscribed e he hi =>
      obtain ⟨sub', hsub', hend⟩ := h.atEnd e he i hi
      cases (Option.mem_def.1 hsub').symm.trans hsub
      have hfollows := hend.follows
      rw [← hend.epoch] at hfollows
      refine ⟨[], hfollows.leave, Nat.zero_le 1, by simp, fun _ => .inr ?_⟩
      rw [hfollows.eq, append_nil]
    | overflowed frame hseq hslow hcut =>
      refine ⟨[frame], hcut, Nat.le_refl 1, by simpa using hseq, fun _ => .inl ?_⟩
      obtain ⟨p, -, hgiven⟩ := hcut.stretch
      exact ⟨frame, by rw [hgiven]; simp, hseq, hslow⟩
    | closed hclosed hcut =>
      refine ⟨[], hcut, Nat.zero_le 1, by simp, fun hopen => ?_⟩
      rw [hclosed] at hopen
      cases hopen
    | ended given extra hgone hextra hlength hfollows hgiven =>
      refine ⟨extra, ⟨hfollows.le, given, ?_, hgiven⟩, hlength, hextra, fun _ => .inr ?_⟩
      · exact hfollows.eq ▸ prefix_rfl
      · rw [hgiven, hfollows.eq]
  obtain ⟨extra, hcut, hlength, hseq, hcomplete⟩ := hcut
  constructor
  · exact CutOff.yields h hcut hlength hseq
  · intro hopen
    rcases hcomplete hopen with hslow | hgiven
    · exact .inl hslow
    · exact .inr ⟨extra, hgiven, hlength, hseq⟩
  · intro hopen hslow event rest hpending
    rcases sub.anext_cases with ⟨-, hc⟩ | ⟨-, hs⟩ | ⟨event', _, _, _, hp, heq, -⟩ | ⟨hp, -⟩
    · rw [hopen] at hc
      cases hc
    · rw [hslow] at hs
      cases hs
    · rw [heq]
      rw [hpending] at hp
      exact congrArg Outcome.event (cons.inj hp).1.symm
    · rw [hpending] at hp
      cases hp
  · rintro hopen ⟨event, hevent, hslow⟩
    have hseen : sub.slowConsumerSeen = true := by
      rw [hsound.slow, any_eq_true]
      exact ⟨event, hevent, hslow⟩
    rw [Subscription.anext, if_neg (by simp [hopen]), if_pos hseen]

/-- A call that opened a subscription found or made the stream of its scope. -/
theorem registered (hcall : bus.calls[i]? = some call) (hlt : bus.subscriptions.length <
      (busStep bounds epochs bus (.register i)).subscriptions.length) :
    ∃ room stream, bus.streamLocked bounds epochs call.scope = some room ∧
      room.streams.lookup call.scope = some stream ∧
      busStep bounds epochs bus (.register i) =
        (((room.subscribe call stream).completeScopeAdmission call.scope
          call.admission).setPhase i .opened).grantAdmissionWaiters bounds epochs := by
  dsimp only [busStep] at hlt ⊢
  rw [hcall] at hlt ⊢
  dsimp only at hlt ⊢
  by_cases hready : call.ready bus.futures = true
  · rw [if_pos hready] at hlt ⊢
    unfold Bus.register at hlt ⊢
    cases hlocked : bus.streamLocked bounds epochs call.scope with
    | none =>
      exfalso
      simp only [hlocked] at hlt
      cases hadmission : call.admission with
      | none =>
        simp only [hadmission] at hlt
        exact Nat.lt_irrefl _ hlt
      | some future =>
        simp only [hadmission] at hlt
        rw [Bus.cancelScopeAdmission, same_grant.subscriptions] at hlt
        exact Nat.lt_irrefl _ hlt
    | some room =>
      simp only [hlocked] at hlt ⊢
      cases hlookup : room.streams.lookup call.scope with
      | none =>
        exfalso
        simp only [hlookup] at hlt
        rw [(arranges_streamLocked hlocked).same.1.subscriptions] at hlt
        exact Nat.lt_irrefl _ hlt
      | some stream => exact ⟨room, stream, rfl, hlookup, rfl⟩
  · rw [if_neg hready] at hlt
    exact absurd hlt (Nat.lt_irrefl _)

/-- The readers are those of the stream and the one that was added. -/
theorem readers_registered (bus : Bus) (i : Nat) (call : OpenCall) (stream : ScopeStream) :
    let bus' := (((bus.subscribe call stream).completeScopeAdmission call.scope
      call.admission).setPhase i .opened).grantAdmissionWaiters bounds epochs
    bus'.subscriptions = bus.subscriptions ++ [call.subscription stream] ∧
      bus'.published = bus.published := by
  obtain ⟨grants, hgrants⟩ :=
    completeScopeAdmission_eq (bus.subscribe call stream) call.scope call.admission
  rw [hgrants]
  exact ⟨same_grant.subscriptions, same_grant.published⟩

/-- The subscription a call opens is made of the stream as it then is. -/
theorem Inv.opened (h : Inv bounds epochs bus) (hcall : bus.calls[i]? = some call)
    (hsub : (busStep bounds epochs bus (.register i)).subscriptions[bus.subscriptions.length]? =
      some sub) :
    ∃ stream, sub = call.subscription stream ∧ stream.seq =
      ((busStep bounds epochs bus (.register i)).events stream.epoch).length := by
  obtain ⟨room, stream, hlocked, hlookup, heq⟩ :=
    registered hcall (List.getElem?_eq_some_iff.1 hsub).1
  obtain ⟨hroom, hsame⟩ := h.streamLocked hlocked
  have hmem := mem_of_lookup hlookup
  obtain ⟨hsubs, hpublished⟩ := @readers_registered bounds epochs room i call stream
  refine ⟨stream, ?_, ?_⟩
  · rw [heq, hsubs, hsame.subscriptions, getElem?_append_right (Nat.le_refl _),
      Nat.sub_self] at hsub
    exact (Option.some.inj hsub).symm
  · rw [heq, Bus.events, hpublished]
    exact hroom.seq _ hmem

/-- What a client asks for: the position it saw, or the latest one. -/
def OpenCall.asked (call : OpenCall) (maxSeq : Nat) : Nat :=
  if call.startAtLatest then maxSeq else call.lastSeq.toNat

/-- Whatever happens before a client comes back and after it: either its subscription reports
a gap and starts at the end of the stream, or it starts after the position asked for, in the
stream the client saw; and from there it is given the events one by one. -/
theorem fenced_continuity (bounds : Bounds) (epochs : EpochSource) (before after : List BusLabel)
    (i : Nat) (call : OpenCall) (sub : Subscription)
    (hcall : (run (busStep bounds epochs) .init before).calls[i]? = some call)
    (hopened : (run (busStep bounds epochs) .init before).subscriptions.length <
      (run (busStep bounds epochs) .init (before ++ [.register i])).subscriptions.length)
    (hsub : (run (busStep bounds epochs) .init (before ++ .register i :: after)).subscriptions[
      (run (busStep bounds epochs) .init before).subscriptions.length]? = some sub) :
    (sub.gapReason ≠ none ∧ sub.resumeSeq = maxPos BusEvent.seq
        ((run (busStep bounds epochs) .init (before ++ [.register i])).events sub.state.epoch) ∨
      sub.gapReason = none ∧ sub.resumeSeq = call.asked sub.state.maxSeq ∧
        ∀ epoch ∈ truthy call.streamEpoch, epoch = sub.state.epoch) ∧
    Yields (run (busStep bounds epochs) .init (before ++ .register i :: after)) sub := by
  have hinv : Inv bounds epochs (run (busStep bounds epochs) .init before) :=
    (inv_init.run before).inv
  have hlater := ((hinv.step (.register i)).inv.run after).fences
  have hend : Inv bounds epochs (run (busStep bounds epochs) .init (before ++ .register i :: after)) :=
    (inv_init.run _).inv
  refine ⟨?_, hend.yields hsub⟩
  rw [run_snoc] at hopened ⊢
  rw [run_append, run_cons] at hsub
  generalize run (busStep bounds epochs) .init before = bus at *
  obtain ⟨opened, hget⟩ : ∃ opened, (busStep bounds epochs bus
      (.register i)).subscriptions[bus.subscriptions.length]? = some opened :=
    ⟨_, List.getElem?_eq_getElem hopened⟩
  obtain ⟨stream, rfl, hseq⟩ := hinv.opened hcall hget
  -- the fence of the subscription is the one it was opened with
  have hfence : sub.fence = (call.subscription stream).fence := by
    obtain ⟨more, hmore⟩ := hlater
    have h₁ : (busStep bounds epochs bus (.register i)).fences[bus.subscriptions.length]? =
        some (call.subscription stream).fence := by
      rw [Bus.fences, List.getElem?_map, hget]
      rfl
    have h₂ : (run (busStep bounds epochs) (busStep bounds epochs bus (.register i))
        after).fences[bus.subscriptions.length]? = some sub.fence := by
      rw [Bus.fences, List.getElem?_map, hsub]
      rfl
    rw [← hmore, List.getElem?_append_left (List.getElem?_eq_some_iff.1 h₁).1, h₁] at h₂
    exact (Option.some.inj h₂).symm
  have hstate : sub.state = stream.state := congrArg Fence.state hfence
  have hgap : sub.gapReason = (call.subscription stream).gapReason := congrArg Fence.gapReason hfence
  have hresume : sub.resumeSeq = (call.subscription stream).resumeSeq :=
    congrArg Fence.resumeSeq hfence
  have hepoch : sub.state.epoch = stream.epoch := by rw [hstate]; rfl
  have hsound := call.sound_subscription stream
  rw [hgap, hresume, hepoch, ((hinv.step (.register i)).inv.dense _).maxPos_eq, ← hseq]
  by_cases hnone : (call.subscription stream).gapReason = none
  · right
    refine ⟨hnone, ?_, ?_⟩
    · rw [hsound.requested hnone, hstate]
      rfl
    · exact (gapReasonForState_none hnone).1
  · exact .inl ⟨hnone, hsound.gap hnone⟩

/-- Small bounds. -/
def smallBounds : Bounds := ⟨2, 2, 1, 1, by decide, by decide, by decide, by decide⟩

/-- Epochs that are words of one letter. -/
def wordEpochs : EpochSource where
  hex n := String.ofList (List.replicate (n + 1) 'a')
  nonempty n h := by
    have := congrArg String.toList h
    simp at this
  distinct m n h := by
    have := congrArg (fun s => s.toList.length) h
    simpa using this

/-- A client saw the first of two events of a stream and comes back. -/
def comesBack : List BusLabel :=
  [.publish ⟨"t", "o"⟩ ⟨"note", 0, none, []⟩, .publish ⟨"t", "o"⟩ ⟨"note", 0, none, []⟩,
    .openFenced ⟨"t", "o"⟩ 1 (some "a") false]

/-- One more event is published, and the client reads on. -/
def readsOn : List BusLabel :=
  [.publish ⟨"t", "o"⟩ ⟨"note", 0, none, []⟩, .anext 0, .anext 0, .anext 0]

theorem fenced_continuity_comesBack : ∃ sub, (run (busStep smallBounds wordEpochs) .init
      (comesBack ++ .register 0 :: readsOn)).subscriptions[0]? = some sub ∧
    sub.delivered.map BusEvent.seq = [2, 3] ∧
    Yields (run (busStep smallBounds wordEpochs) .init (comesBack ++ .register 0 :: readsOn)) sub := by
  have hseqs : ((run (busStep smallBounds wordEpochs) .init
      (comesBack ++ .register 0 :: readsOn)).subscriptions[0]?.map fun sub =>
        sub.delivered.map BusEvent.seq) = some [2, 3] := by decide +kernel
  have hzero : (run (busStep smallBounds wordEpochs) .init comesBack).subscriptions.length = 0 := by
    decide +kernel
  obtain ⟨sub, hsub, hseqs⟩ := Option.map_eq_some_iff.1 hseqs
  refine ⟨sub, hsub, hseqs, ?_⟩
  exact (fenced_continuity smallBounds wordEpochs comesBack readsOn 0
    ⟨⟨"t", "o"⟩, 1, some "a", false, .admitted⟩ sub (by decide +kernel) (by decide +kernel)
    (by rw [hzero]; exact hsub)).2

end Events
