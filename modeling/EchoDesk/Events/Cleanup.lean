import EchoDesk.Events.Continuity
import EchoDesk.Events.Generators

/-! # What a closed generator leaves behind

A generator that is closed in its `try` takes its queue out of the stream; one that is closed
while it replays does not. Once a queue is in no stream, no step puts it back or into it.
-/

namespace Events

open EchoDesk Transition List Option

variable {bounds : Bounds} {epochs : EpochSource} {bus bus' bus'' : Bus}
variable {scope : Scope}
variable {own queue : Option Nat} {P : EchoEvent → Prop}

/-- No stream has the queue among its subscribers. -/
def Bus.Unregistered (bus : Bus) (queue : Nat) : Prop :=
  ∀ e ∈ bus.streams, queue ∉ e.2.subscribers

/-- What a step leaves as it is: queues keep their scope, none that was there is registered again,
and the ones that are not registered keep what they hold, but for the one the step is about. -/
structure Unmoved (own : Option Nat) (bus bus' : Bus) : Prop where
  length : bus.subscriptions.length ≤ bus'.subscriptions.length
  scope : ∀ q < bus.subscriptions.length,
    bus'.subscriptions[q]?.map Subscription.scope = bus.subscriptions[q]?.map Subscription.scope
  queue : ∀ q < bus.subscriptions.length, own ≠ some q → bus.Unregistered q →
    bus'.subscriptions[q]?.map Subscription.queue = bus.subscriptions[q]?.map Subscription.queue
  registered : ∀ e' ∈ bus'.streams, ∀ q ∈ e'.2.subscribers,
    (∃ e ∈ bus.streams, e.1 = e'.1 ∧ q ∈ e.2.subscribers) ∨ bus.subscriptions.length ≤ q ∧
        bus'.subscriptions[q]?.map Subscription.scope = some e'.1

theorem Unmoved.refl (own : Option Nat) (bus : Bus) : Unmoved own bus bus where
  length := Nat.le_refl _
  scope _ _ := rfl
  queue _ _ _ _ := rfl
  registered e he _ hq := .inl ⟨e, he, rfl, hq⟩

variable {q g : Nat} {stream : ScopeStream} {sub : Subscription} {generator : Generator}

theorem Unmoved.unregistered (h : Unmoved own bus bus') (hlt : q < bus.subscriptions.length)
    (hq : bus.Unregistered q) : bus'.Unregistered q := by
  intro e' he' hmem
  rcases h.registered e' he' q hmem with ⟨e, he, -, hold⟩ | ⟨hle, -⟩
  · exact hq e he hold
  · omega

theorem Unmoved.trans (h : Unmoved own bus bus') (h' : Unmoved own bus' bus'') :
    Unmoved own bus bus'' where
  length := Nat.le_trans h.length h'.length
  scope q hq := (h'.scope q (Nat.lt_of_lt_of_le hq h.length)).trans (h.scope q hq)
  queue q hq hown hfree :=
    (h'.queue q (Nat.lt_of_lt_of_le hq h.length) hown (h.unregistered hq hfree)).trans
      (h.queue q hq hown hfree)
  registered e'' he'' q hq := by
    rcases h'.registered e'' he'' q hq with ⟨e', he', hscope', hq'⟩ | ⟨hle, hnew⟩
    · rcases h.registered e' he' q hq' with ⟨e, he, hscope, hq⟩ | ⟨hle, hnew⟩
      · exact .inl ⟨e, he, hscope.trans hscope', hq⟩
      refine .inr ⟨hle, ?_⟩
      have hlt : q < bus'.subscriptions.length := by
        obtain ⟨sub, hsub, -⟩ := map_eq_some_iff.1 hnew
        exact (List.getElem?_eq_some_iff.1 hsub).1
      rw [h'.scope q hlt, hnew, hscope']
    · exact .inr ⟨Nat.le_trans h.length hle, hnew⟩

/-- The streams keep or lose subscribers, and the subscriptions stay as they are. -/
theorem Unmoved.of_streams (own : Option Nat) (hsubs : bus'.subscriptions = bus.subscriptions)
    (hstreams : ∀ e' ∈ bus'.streams, ∀ q ∈ e'.2.subscribers,
      ∃ e ∈ bus.streams, e.1 = e'.1 ∧ q ∈ e.2.subscribers) : Unmoved own bus bus' where
  length := Nat.le_of_eq (by rw [hsubs])
  scope _ _ := by rw [hsubs]
  queue _ _ _ _ := by rw [hsubs]
  registered e' he' q hq := .inl (hstreams e' he' q hq)

/-! ## The changes of the bus -/

theorem unmoved_same (own : Option Nat) (hstreams : bus'.streams = bus.streams)
    (hsubs : bus'.subscriptions = bus.subscriptions) : Unmoved own bus bus' := by
  refine .of_streams own hsubs ?_
  rw [hstreams]
  exact fun e he q hq => ⟨e, he, rfl, hq⟩

theorem Arrange.unmoved (own : Option Nat) (h : Arrange epochs bus bus') :
    Unmoved own bus bus' := by
  refine .of_streams own (Arranges.same (.single h)).1.subscriptions ?_
  intro e he q hq
  cases h with
  | admission waiters grants futures => exact ⟨e, he, rfl, hq⟩
  | touch hmem =>
    rcases mem_append.1 he with he | he
    · exact ⟨e, (mem_popScope.1 he).1, rfl, hq⟩
    · rw [mem_singleton.1 he] at hq ⊢
      exact ⟨_, hmem, rfl, hq⟩
  | remove hfind => exact ⟨e, (mem_popScope.1 he).1, rfl, hq⟩
  | addStream hnew =>
    rcases mem_addStream.1 he with he | rfl
    · exact ⟨e, he, rfl, hq⟩
    · cases hq

theorem Arranges.unmoved (own : Option Nat) (h : Arranges epochs bus bus') :
    Unmoved own bus bus' := by
  induction h with
  | refl => exact .refl own bus
  | tail _ h ih => exact ih.trans (h.unmoved own)

theorem unmoved_grant (own : Option Nat) (bus : Bus) :
    Unmoved own bus (bus.grantAdmissionWaiters bounds epochs) :=
  (arranges_grantLoop _ bus).unmoved own

/-- A stream loses subscribers. -/
theorem unmoved_setStream (own : Option Nat) {stream' : ScopeStream}
    (hmem : (scope, stream) ∈ bus.streams)
    (hsubset : ∀ q ∈ stream'.subscribers, q ∈ stream.subscribers) :
    Unmoved own bus (bus.setStream scope stream') := by
  refine .of_streams own rfl ?_
  intro e he q hq
  rcases mem_setStream.1 he with ⟨he, -⟩ | ⟨rfl, -⟩
  · exact ⟨e, he, rfl, hq⟩
  · exact ⟨_, hmem, rfl, hsubset q hq⟩

/-- The subscriptions that are registered are changed, but not their scopes. -/
theorem unmoved_mapIdx (own : Option Nat) {f : Nat → Subscription → Subscription}
    (hscope : ∀ q sub, (f q sub).scope = sub.scope)
    (hqueue : ∀ q sub, bus.Unregistered q → (f q sub).queue = sub.queue) :
    Unmoved own bus { bus with subscriptions := bus.subscriptions.mapIdx f } where
  length := by simp
  scope q _ := by
    rw [getElem?_mapIdx]
    cases bus.subscriptions[q]? with
    | none => rfl
    | some sub => exact congrArg some (hscope q sub)
  queue q _ _ hfree := by
    rw [getElem?_mapIdx]
    cases bus.subscriptions[q]? with
    | none => rfl
    | some sub => exact congrArg some (hqueue q sub hfree)
  registered e he q hq := .inl ⟨e, he, rfl, hq⟩

theorem unmoved_append (own : Option Nat) (hmem : (scope, stream) ∈ bus.streams)
    (event : EchoEvent) : Unmoved own bus (bus.append bounds scope stream event) := by
  obtain ⟨stream', committed, frame, ha⟩ : ∃ stream' committed frame,
      Appended bounds bus (bus.append bounds scope stream event) scope stream stream' committed
        frame := appended_append hmem event
  -- the queues are written first: those that are full are taken out of the stream with it
  have hput : Unmoved own bus { bus with
      subscriptions := bus.subscriptions.mapIdx fun q sub =>
        if q ∈ stream.subscribers then sub.put bounds committed frame else sub } := by
    refine unmoved_mapIdx own ?_ ?_
    · intro q sub
      split
      · rfl
      · rfl
    · intro q sub hfree
      rw [if_neg (hfree _ hmem)]
  have hset : Unmoved own bus (Bus.setStream { bus with
      subscriptions := bus.subscriptions.mapIdx fun q sub =>
        if q ∈ stream.subscribers then sub.put bounds committed frame else sub } scope stream') := by
    refine hput.trans (unmoved_setStream own hmem ?_)
    intro q hq
    rw [ha.subscribers'] at hq
    exact (mem_filter.1 hq).1
  exact hset.trans (unmoved_same own ha.streams ha.subscriptions)

/-- A queue is added to a stream. -/
theorem unmoved_attach (own : Option Nat) (hmem : (scope, stream) ∈ bus.streams)
    (hscope : sub.scope = scope) :
    Unmoved own bus (bus.attach scope stream sub) where
  length := by
    show _ ≤ (bus.subscriptions ++ [sub]).length
    rw [length_append]
    omega
  scope q hq := by
    show (bus.subscriptions ++ [sub])[q]?.map _ = _
    rw [getElem?_append_left hq]
  queue q hq _ _ := by
    show (bus.subscriptions ++ [sub])[q]?.map _ = _
    rw [getElem?_append_left hq]
  registered e he q hq := by
    rcases mem_setStream.1 he with ⟨he, -⟩ | ⟨rfl, -⟩
    · exact .inl ⟨e, he, rfl, hq⟩
    rcases mem_append.1 hq with hq | hq
    · exact .inl ⟨_, hmem, rfl, hq⟩
    right
    rw [mem_singleton.1 hq]
    refine ⟨Nat.le_refl _, ?_⟩
    show (bus.subscriptions ++ [sub])[bus.subscriptions.length]?.map _ = _
    rw [getElem?_concat_length, map_some, hscope]

/-- A subscription is replaced by one of the same scope. -/
theorem unmoved_setSubscription {sub' : Subscription} (hsub : bus.subscriptions[q]? = some sub)
    (hscope : sub'.scope = sub.scope) :
    Unmoved (some q) bus (bus.setSubscription q sub') where
  length := by simp [Bus.setSubscription]
  scope p hp := by
    show (bus.subscriptions.set q sub')[p]?.map _ = _
    by_cases hsame : q = p
    · subst hsame
      rw [getElem?_set_self hp, hsub, map_some, map_some, hscope]
    · rw [getElem?_set_ne hsame]
  queue p _ hown _ := by
    show (bus.subscriptions.set q sub')[p]?.map _ = _
    rw [getElem?_set_ne (fun hsame => hown (congrArg some hsame))]
  registered e he _ hq := .inl ⟨e, he, rfl, hq⟩

theorem unmoved_told (own : Option Nat) (bus : Bus) (ts : Timestamp) : Unmoved own bus { bus with
    subscriptions := bus.subscriptions.mapIdx fun i sub =>
      match bus.streams.find? fun entry => entry.2.subscribers.contains i with
      | some entry =>
        if sub.full bounds then sub
        else { sub with queue := sub.queue ++ [shuttingDownFrame ts entry.2] }
      | none => sub } := by
  refine unmoved_mapIdx own ?_ ?_
  · intro q sub
    split
    · split
      · rfl
      · rfl
    · rfl
  intro q sub hfree
  split
  · rename_i entry hfind
    have hmem := find?_some hfind
    rw [contains_iff_mem] at hmem
    exact absurd hmem (hfree entry (mem_of_find?_eq_some hfind))
  · rfl

theorem unmoved_aclose (own : Option Nat) (bus : Bus) (ts : Timestamp) :
    Unmoved own bus (bus.aclose bounds ts) := by
  refine (unmoved_told own bus ts).trans (.of_streams own rfl ?_)
  intro e he
  cases he

theorem Subscription.scope_anext (sub : Subscription) : sub.anext.1.scope = sub.scope := by
  unfold Subscription.anext
  split
  · rfl
  split
  · rfl
  split
  · rfl
  split
  · rfl
  · rfl

theorem Subscription.scope_wake (sub : Subscription) : sub.wake.1.scope = sub.scope := by
  unfold Subscription.wake
  split
  · rfl
  · rfl

theorem Change.unmoved (h : Change bounds epochs own P bus bus') : Unmoved own bus bus' := by
  cases h with
  | arrange h => exact h.unmoved own
  | calls h => exact unmoved_same own rfl rfl
  | append hmem hevent => exact unmoved_append own hmem _
  | subscribe call hmem => exact unmoved_attach own hmem rfl
  | read hown hsub hread =>
    subst hown
    cases hread with
    | anext => exact unmoved_setSubscription hsub (Subscription.scope_anext _)
    | wake => exact unmoved_setSubscription hsub (Subscription.scope_wake _)
    | interrupt | close => exact unmoved_setSubscription hsub rfl
  | discard hmem hclosed =>
    exact unmoved_setStream own hmem fun q hq => (mem_filter.1 hq).1
  | aclose ts => exact unmoved_aclose own _ ts

theorem Changes.unmoved (h : Changes bounds epochs own P bus bus') : Unmoved own bus bus' := by
  induction h with
  | refl => exact .refl own bus
  | tail _ h ih => exact ih.trans h.unmoved

theorem unmoved_busStep (bus : Bus) (l : BusLabel) :
    Unmoved l.own bus (busStep bounds epochs bus l) :=
  (changes_busStep (P := fun _ => True) fun _ _ _ => trivial).unmoved

theorem unmoved_settled (own : Option Nat) (bus : Bus) (call : OpenCall) (i : Nat) :
    Unmoved own bus (((bus.completeScopeAdmission call.scope call.admission).setPhase i
      .opened).grantAdmissionWaiters bounds epochs) :=
  (changes_settled (P := fun _ => True) i call).unmoved

/-- The queue that was attached is of the scope of its subscription. -/
theorem scope_attached (bus : Bus) (call : OpenCall) (stream : ScopeStream) (sub : Subscription)
    (i : Nat) :
    (((((bus.attach call.scope stream sub).completeScopeAdmission call.scope
      call.admission).setPhase i .opened).grantAdmissionWaiters bounds
        epochs).subscriptions[bus.subscriptions.length]?).map Subscription.scope =
      some sub.scope := by
  have hsubs : (bus.attach call.scope stream sub).subscriptions = bus.subscriptions ++ [sub] := rfl
  have hlt : bus.subscriptions.length < (bus.attach call.scope stream sub).subscriptions.length := by
    rw [hsubs, length_append, length_singleton]
    omega
  rw [(unmoved_settled none (bus.attach call.scope stream sub) call i).scope _ hlt, hsubs,
    getElem?_concat_length, map_some]

theorem unmoved_cancel (own : Option Nat) (bus : Bus) (i : Nat) (scope : Scope) (future : Nat) :
    Unmoved own bus ((bus.setPhase i .raised).cancelScopeAdmission bounds epochs scope future) :=
  (changes_cancel (P := fun _ => True) i scope future).unmoved

theorem unmoved_closeFencedSubscription (own : Option Nat) (bus : Bus) (scope : Scope) (i : Nat) :
    Unmoved own bus (bus.closeFencedSubscription bounds epochs scope i) := by
  unfold Bus.closeFencedSubscription
  cases hlookup : bus.streams.lookup scope with
  | none => exact unmoved_grant own bus
  | some stream =>
    refine Unmoved.trans ?_ (unmoved_grant own _)
    exact unmoved_setStream own (mem_of_lookup hlookup) fun q hq => (mem_filter.1 hq).1

/-! ## Where the queues of the generators are -/

variable {s : GeneratorBus}

/-- Each queue is in the stream of its scope, and no two generators have the same one. -/
structure Housed (s : GeneratorBus) : Prop where
  subscribers : ∀ e ∈ s.bus.streams, ∀ q ∈ e.2.subscribers,
    s.bus.subscriptions[q]?.map Subscription.scope = some e.1
  places : ∀ generator ∈ s.generators, ∀ scope q,
    generator.phase = .replaying scope q ∨ generator.phase = .live scope q →
      s.bus.subscriptions[q]?.map Subscription.scope = some scope
  queues : ∀ generator ∈ s.generators, ∀ q, generator.phase.queue? = some q →
    q < s.bus.subscriptions.length
  distinct : ∀ (g g' : Nat) (a b : Generator) (q : Nat), s.generators[g]? = some a →
    s.generators[g']? = some b → a.phase.queue? = some q →
    b.phase.queue? = some q → g = g'

theorem housed_init : Housed .init where
  subscribers := nofun
  places := nofun
  queues := nofun
  distinct _ _ _ _ _ ha := nomatch ha

/-- The subscribers of a stream after a step of the bus. -/
theorem Housed.subscribers_of_unmoved (h : Housed s) (hunmoved : Unmoved own s.bus bus') :
    ∀ e ∈ bus'.streams, ∀ q ∈ e.2.subscribers,
      bus'.subscriptions[q]?.map Subscription.scope = some e.1 := by
  intro e he q hq
  rcases hunmoved.registered e he q hq with ⟨e₀, he₀, hscope, hq₀⟩ | ⟨-, hnew⟩
  · have hold := h.subscribers e₀ he₀ q hq₀
    have hlt : q < s.bus.subscriptions.length := by
      obtain ⟨sub, hsub, -⟩ := map_eq_some_iff.1 hold
      exact (List.getElem?_eq_some_iff.1 hsub).1
    rw [hunmoved.scope q hlt, hold, hscope]
  · exact hnew

/-- A step of the bus alone. -/
theorem Housed.unmoved (h : Housed s) (hunmoved : Unmoved own s.bus bus') :
    Housed { s with bus := bus' } where
  subscribers := h.subscribers_of_unmoved hunmoved
  places generator hmem scope q hphase := by
    have hold := h.places generator hmem scope q hphase
    have hlt : q < s.bus.subscriptions.length := by
      obtain ⟨sub, hsub, -⟩ := map_eq_some_iff.1 hold
      exact (List.getElem?_eq_some_iff.1 hsub).1
    exact (hunmoved.scope q hlt).trans hold
  queues generator hmem q hq := Nat.lt_of_lt_of_le (h.queues generator hmem q hq) hunmoved.length
  distinct := h.distinct

theorem getElem?_generators (s : GeneratorBus) (g j : Nat) (phase : GeneratorPhase) :
    (s.setPhase g phase).generators[j]? =
      if g = j then (s.generators[j]?).map fun generator => { generator with phase := phase }
      else s.generators[j]? := by
  show (s.generators.modify g _)[j]? = _
  rw [getElem?_modify]
  split
  · rfl
  cases s.generators[j]? with
  | none | some a => rfl

/-- A generator of the new list is an old one, or the one that was moved on. -/
theorem generator_cases {j : Nat} {phase : GeneratorPhase}
    (h : (s.setPhase g phase).generators[j]? = some generator) :
    (j ≠ g ∧ s.generators[j]? = some generator) ∨ (j = g ∧ generator.phase = phase) := by
  rw [getElem?_generators] at h
  split at h
  · rename_i hsame
    obtain ⟨old, -, rfl⟩ := map_eq_some_iff.1 h
    exact .inr ⟨hsame.symm, rfl⟩
  · rename_i hne
    exact .inl ⟨Ne.symm hne, h⟩

/-- No other generator has the queue. -/
def Mine (s : GeneratorBus) (g q : Nat) : Prop :=
  ∀ (j : Nat) (b : Generator), s.generators[j]? = some b → b.phase.queue? = some q → j = g

/-- A generator is moved on: without a queue, or with one that no other has. -/
theorem Housed.setPhase (h : Housed s) (g : Nat) (phase : GeneratorPhase)
    (hqueue : ∀ q, phase.queue? = some q → q < s.bus.subscriptions.length ∧ Mine s g q)
    (hplace : ∀ scope q, phase = .replaying scope q ∨ phase = .live scope q →
      s.bus.subscriptions[q]?.map Subscription.scope = some scope) :
    Housed (s.setPhase g phase) where
  subscribers := h.subscribers
  places generator hmem scope q hphase := by
    obtain ⟨j, hj⟩ := getElem?_of_mem hmem
    rcases generator_cases hj with ⟨-, hold⟩ | ⟨-, heq⟩
    · exact h.places generator (mem_of_getElem? hold) scope q hphase
    · rw [heq] at hphase
      exact hplace scope q hphase
  queues generator hmem q hq := by
    obtain ⟨j, hj⟩ := getElem?_of_mem hmem
    rcases generator_cases hj with ⟨-, hold⟩ | ⟨-, heq⟩
    · exact h.queues generator (mem_of_getElem? hold) q hq
    · rw [heq] at hq
      exact (hqueue q hq).1
  distinct j k a b q ha hb hqa hqb := by
    rcases generator_cases ha with ⟨hj, ha⟩ | ⟨hj, heq⟩
    · rcases generator_cases hb with ⟨-, hb⟩ | ⟨hk, heq⟩
      · exact h.distinct j k a b q ha hb hqa hqb
      · rw [heq] at hqb
        exact absurd ((hqueue q hqb).2 j a ha hqa) hj
    · rcases generator_cases hb with ⟨hk, hb⟩ | ⟨hk, -⟩
      · rw [heq] at hqa
        exact absurd ((hqueue q hqa).2 k b hb hqb) hk
      · rw [hj, hk]

theorem Housed.mine (h : Housed s) (hg : s.generators[g]? = some generator)
    (hq : generator.phase.queue? = some q) : Mine s g q :=
  fun j b hb hqb => h.distinct j g b generator q hb hg hqb hq

theorem unmoved_getLive (bus : Bus) (q : Nat) : Unmoved (some q) bus (bus.getLive q) := by
  unfold Bus.getLive
  split
  · rename_i sub hsub
    split
    · exact unmoved_setSubscription hsub rfl
    · exact unmoved_setSubscription hsub rfl
  · exact .refl _ bus

theorem unmoved_replay (s : GeneratorBus) (g : Nat) (scope : Scope) (q : Nat) :
    Unmoved (some q) s.bus (s.replay g scope q).bus := by
  unfold GeneratorBus.replay
  split
  · rename_i sub hsub
    split
    · exact unmoved_setSubscription hsub rfl
    · exact unmoved_getLive s.bus q
  · exact .refl _ s.bus

theorem Housed.replay (h : Housed s) (hmine : Mine s g q)
    (hplace : s.bus.subscriptions[q]?.map Subscription.scope = some scope) :
    Housed (s.replay g scope q) := by
  have hlt : q < s.bus.subscriptions.length := by
    obtain ⟨sub, hsub, -⟩ := map_eq_some_iff.1 hplace
    exact (List.getElem?_eq_some_iff.1 hsub).1
  have hmove : ∀ phase : GeneratorPhase, phase.queue? = some q →
      (∀ scope' q', phase = .replaying scope' q' ∨ phase = .live scope' q' → scope' = scope) →
      Housed (s.setPhase g phase) := by
    intro phase hphase hscope
    refine h.setPhase g phase ?_ ?_
    · intro q' hq'
      cases hphase.symm.trans hq'
      exact ⟨hlt, hmine⟩
    intro scope' q' hcases
    have hq' : phase.queue? = some q' := by
      rcases hcases with rfl | rfl
      · rfl
      · rfl
    cases hphase.symm.trans hq'
    rw [hscope scope' q hcases]
    exact hplace
  unfold GeneratorBus.replay
  split
  · rename_i sub hsub
    split
    · have hreplaying : Housed (s.setPhase g (.replaying scope q)) := by
        refine hmove _ rfl ?_
        rintro scope' q' (heq | heq)
        · cases heq
          rfl
        · cases heq
      exact hreplaying.unmoved (unmoved_setSubscription hsub rfl)
    have hlive : Housed (s.setPhase g (.live scope q)) := by
      refine hmove _ rfl ?_
      rintro scope' q' (heq | heq)
      · cases heq
      · cases heq
        rfl
    exact hlive.unmoved (unmoved_getLive s.bus q)
  · exact h

/-- A generator that ends without a queue, or with the one it had. -/
theorem Housed.finish (h : Housed s)
    (hqueue : ∀ q, queue = some q → q < s.bus.subscriptions.length ∧ Mine s g q) :
    Housed (s.setPhase g (.ended queue)) := by
  refine h.setPhase g _ hqueue ?_
  rintro scope q (heq | heq)
  · cases heq
  · cases heq

theorem Housed.register (h : Housed s) (g i : Nat) (generator : Generator) (call : OpenCall) :
    Housed (s.register bounds epochs g i generator call) := by
  unfold GeneratorBus.register
  cases hlocked : s.bus.streamLocked bounds epochs call.scope with
  | none =>
    have hended : ∀ bus', Unmoved none s.bus bus' →
        Housed (GeneratorBus.setPhase { s with bus := bus' } g (.ended none)) :=
      fun _ hunmoved => (h.unmoved hunmoved).finish nofun
    cases call.admission with
    | none => exact hended _ (unmoved_same none rfl rfl)
    | some future => exact hended _ (unmoved_cancel none _ i _ future)
  | some bus' =>
    have hstream := (arranges_streamLocked hlocked).unmoved none
    dsimp only
    cases hlookup : bus'.streams.lookup call.scope with
    | none => exact h
    | some stream =>
      have hattached := @unmoved_attach _ _ _ (generatorSubscription call.scope generator.sinceSeq stream) none
        (mem_of_lookup hlookup) rfl
      have hsettled := hattached.trans (@unmoved_settled bounds epochs none _ call i)
      refine (h.unmoved (hstream.trans hsettled)).replay ?_ (scope_attached bus' call stream _ i)
      -- the queue is new, so no generator has it
      intro j b hb hqb
      have hold := h.queues b (mem_of_getElem? hb) _ hqb
      have hlength := hstream.length
      omega

theorem Housed.close (h : Housed s) (hg : s.generators[g]? = some generator) :
    Housed (s.close bounds epochs g generator) := by
  have hown : ∀ q, generator.phase.queue? = some q → q < s.bus.subscriptions.length ∧ Mine s g q :=
    fun q hq => ⟨h.queues generator (mem_of_getElem? hg) q hq, h.mine hg hq⟩
  unfold GeneratorBus.close
  split
  · exact h.finish nofun
  · have hended : Housed (s.setPhase g (.ended none)) := h.finish nofun
    exact hended.unmoved (unmoved_busStep _ (.abandon _))
  · rename_i scope q hphase
    rw [hphase] at hown
    exact h.finish hown
  · rename_i scope q hphase
    rw [hphase] at hown
    have hended : Housed (s.setPhase g (.ended (some q))) := h.finish hown
    exact hended.unmoved (unmoved_closeFencedSubscription none _ _ _)
  · exact h

theorem Housed.step (h : Housed s) (l : GeneratorLabel) :
    Housed (generatorStep bounds epochs s l) := by
  cases l with
  | bus l =>
    dsimp only [generatorStep]
    split
    · exact h.unmoved (unmoved_busStep s.bus l)
    · exact h
  | subscribe sinceSeq =>
    -- a generator that was not started has no queue
    have hcases : ∀ {j : Nat} {generator : Generator} {q : Nat},
        (s.generators ++ [⟨sinceSeq, .created⟩])[j]? = some generator →
        generator.phase.queue? = some q → s.generators[j]? = some generator := by
      intro j generator q hj hq
      rw [getElem?_append] at hj
      split at hj
      · exact hj
      · rw [mem_singleton.1 (mem_of_getElem? hj)] at hq
        cases hq
    constructor
    · exact h.subscribers
    · intro generator hmem scope q hphase
      rcases mem_append.1 hmem with hmem | hmem
      · exact h.places generator hmem scope q hphase
      rw [mem_singleton.1 hmem] at hphase
      rcases hphase with heq | heq
      · cases heq
      · cases heq
    · intro generator hmem q hq
      obtain ⟨j, hj⟩ := getElem?_of_mem hmem
      exact h.queues generator (mem_of_getElem? (hcases hj hq)) q hq
    · intro g g' a b q ha hb hqa hqb
      exact h.distinct g g' a b q (hcases ha hqa) (hcases hb hqb) hqa hqb
  | start g scope =>
    dsimp only [generatorStep]
    split
    · have hmoved : Housed (s.setPhase g (.admitting s.bus.calls.length)) := by
        refine h.setPhase g _ nofun ?_
        rintro scope q (heq | heq)
        · cases heq
        · cases heq
      exact hmoved.unmoved (unmoved_busStep _ (.openFenced _ _ _ _))
    · exact h
  | enter g =>
    dsimp only [generatorStep]
    split
    · split
      · split
        · exact h.register g _ _ _
        split
        · exact h.finish nofun
        · exact h
      · exact h
    · exact h
  | next g =>
    dsimp only [generatorStep]
    split
    · rename_i sinceSeq scope q hg
      exact h.replay (h.mine hg rfl) (h.places _ (mem_of_getElem? hg) scope q (.inl rfl))
    · rename_i sinceSeq scope q hg
      split
      · split
        · exact h
        split
        · exact h.close hg
        · exact h.unmoved (unmoved_getLive s.bus q)
      · exact h
    · exact h
  | wake g =>
    dsimp only [generatorStep]
    split
    · split
      · rename_i sub hsub
        exact h.unmoved (unmoved_setSubscription hsub sub.scope_wake)
      · exact h
    · exact h
  | close g =>
    dsimp only [generatorStep]
    split
    · rename_i generator hg
      exact h.close hg
    · exact h

/-! ## Closed generators -/

theorem unmoved_close (s : GeneratorBus) (g : Nat) (generator : Generator) :
    Unmoved none s.bus (s.close bounds epochs g generator).bus := by
  unfold GeneratorBus.close
  split
  · exact .refl none s.bus
  · exact unmoved_busStep _ (.abandon _)
  · exact .refl none s.bus
  · exact unmoved_closeFencedSubscription none _ _ _
  · exact .refl none s.bus

/-- A generator that registers is about its new queue. -/
theorem unmoved_generatorRegister (s : GeneratorBus) (g i : Nat) (generator : Generator)
    (call : OpenCall) :
    ∃ p, s.bus.subscriptions.length ≤ p ∧
      Unmoved (some p) s.bus (s.register bounds epochs g i generator call).bus := by
  unfold GeneratorBus.register
  cases hlocked : s.bus.streamLocked bounds epochs call.scope with
  | none =>
    refine ⟨_, Nat.le_refl _, ?_⟩
    cases call.admission with
    | none => exact unmoved_same _ rfl rfl
    | some future => exact unmoved_cancel _ _ i _ future
  | some bus' =>
    have hstream := (arranges_streamLocked hlocked).unmoved (some bus'.subscriptions.length)
    refine ⟨bus'.subscriptions.length, hstream.length, ?_⟩
    dsimp only
    cases hlookup : bus'.streams.lookup call.scope with
    | none => exact .refl _ s.bus
    | some stream =>
      refine Unmoved.trans ?_ (unmoved_replay _ g call.scope bus'.subscriptions.length)
      exact hstream.trans ((unmoved_attach _ (mem_of_lookup hlookup) rfl).trans
        (unmoved_settled _ _ call i))

/-- The queue of a generator that has ended is no step's own. -/
theorem Housed.unmoved_step (bounds : Bounds) (epochs : EpochSource) (h : Housed s) {g₀ : Nat}
    (hg₀ : s.generators[g₀]? = some generator) (hended : generator.phase = .ended (some q))
    (l : GeneratorLabel) :
    ∃ own, own ≠ some q ∧ Unmoved own s.bus (generatorStep bounds epochs s l).bus := by
  have hq : generator.phase.queue? = some q := by
    rw [hended]
    rfl
  have hlt := h.queues generator (mem_of_getElem? hg₀) q hq
  -- a generator that is not done has another queue
  have hother : ∀ {g p : Nat} {a : Generator}, s.generators[g]? = some a →
      a.phase.queue? = some p → a.phase ≠ .ended (some q) → (some p : Option Nat) ≠ some q := by
    intro g p a ha hp hopen hsame
    cases hsame
    obtain rfl := h.distinct g g₀ a generator q ha hg₀ hp hq
    cases ha.symm.trans hg₀
    exact hopen hended
  have hnone : (none : Option Nat) ≠ some q := nofun
  cases l with
  | bus l =>
    dsimp only [generatorStep]
    split
    · rename_i hforeign
      refine ⟨l.own, ?_, unmoved_busStep s.bus l⟩
      intro hown
      have hall : ∀ i, l.own = some i → s.generators.all (fun a => a.phase.queue? ≠ some i) = true := by
        intro i hi
        cases l with
        | anext j | wake j | interrupt j | close j =>
          cases hi
          exact hforeign
        | publish scope event | openFenced scope lastSeq streamEpoch startAtLatest | register j
        | abandon j | inspect scope | aclose ts =>
          cases hi
      have hfree := all_eq_true.1 (hall q hown) generator (mem_of_getElem? hg₀)
      rw [decide_eq_true_eq] at hfree
      exact hfree hq
    · exact ⟨none, hnone, .refl none s.bus⟩
  | subscribe sinceSeq => exact ⟨none, hnone, .refl none s.bus⟩
  | start g scope =>
    dsimp only [generatorStep]
    split
    · exact ⟨none, hnone, unmoved_busStep _ (.openFenced _ _ _ _)⟩
    · exact ⟨none, hnone, .refl none s.bus⟩
  | enter g =>
    dsimp only [generatorStep]
    split
    · split
      · rename_i call _
        split
        · obtain ⟨p, hp, hunmoved⟩ := unmoved_generatorRegister s g _ _ call
          refine ⟨some p, ?_, hunmoved⟩
          intro hsame
          have := some.inj hsame
          omega
        · split
          · exact ⟨none, hnone, .refl none s.bus⟩
          · exact ⟨none, hnone, .refl none s.bus⟩
      · exact ⟨none, hnone, .refl none s.bus⟩
    · exact ⟨none, hnone, .refl none s.bus⟩
  | next g =>
    dsimp only [generatorStep]
    split
    · rename_i sinceSeq scope p hg
      exact ⟨some p, hother hg rfl nofun, unmoved_replay s g scope p⟩
    · rename_i sinceSeq scope p hg
      split
      · split
        · exact ⟨none, hnone, .refl none s.bus⟩
        split
        · exact ⟨none, hnone, unmoved_closeFencedSubscription none _ _ _⟩
        · exact ⟨some p, hother hg rfl nofun, unmoved_getLive s.bus p⟩
      · exact ⟨none, hnone, .refl none s.bus⟩
    · exact ⟨none, hnone, .refl none s.bus⟩
  | wake g =>
    dsimp only [generatorStep]
    split
    · rename_i sinceSeq scope p hg
      split
      · rename_i sub hsub
        exact ⟨some p, hother hg rfl nofun, unmoved_setSubscription hsub sub.scope_wake⟩
      · exact ⟨none, hnone, .refl none s.bus⟩
    · exact ⟨none, hnone, .refl none s.bus⟩
  | close g =>
    dsimp only [generatorStep]
    split
    · exact ⟨none, hnone, unmoved_close s g _⟩
    · exact ⟨none, hnone, .refl none s.bus⟩

/-- At most the phase of the generator is another one. -/
def MovesOnly (g : Nat) (s s' : GeneratorBus) : Prop :=
  s'.generators = s.generators ∨ ∃ phase, s'.generators = (s.setPhase g phase).generators

theorem movesOnly_replay (s : GeneratorBus) (g : Nat) (scope : Scope) (q : Nat) :
    MovesOnly g s (s.replay g scope q) := by
  unfold GeneratorBus.replay
  split
  · split
    · exact .inr ⟨_, rfl⟩
    · exact .inr ⟨_, rfl⟩
  · exact .inl rfl

theorem movesOnly_register (s : GeneratorBus) (g i : Nat) (generator : Generator) (call : OpenCall) :
    MovesOnly g s (s.register bounds epochs g i generator call) := by
  unfold GeneratorBus.register
  split
  · exact .inr ⟨_, rfl⟩
  split
  · exact .inl rfl
  · exact movesOnly_replay _ g call.scope _

theorem movesOnly_close (s : GeneratorBus) (g : Nat) (generator : Generator) :
    MovesOnly g s (s.close bounds epochs g generator) := by
  unfold GeneratorBus.close
  split
  · exact .inr ⟨_, rfl⟩
  · exact .inr ⟨_, rfl⟩
  · exact .inr ⟨_, rfl⟩
  · exact .inr ⟨_, rfl⟩
  · exact .inl rfl

theorem MovesOnly.other {g g₀ : Nat} {s s' : GeneratorBus} (h : MovesOnly g s s') (hne : g ≠ g₀) :
    s'.generators[g₀]? = s.generators[g₀]? := by
  rcases h with heq | ⟨phase, heq⟩
  · rw [heq]
  · rw [heq, getElem?_generators, if_neg hne]

/-- A generator that has ended stays as it is. -/
theorem ended_step {g₀ : Nat} (hg₀ : s.generators[g₀]? = some generator)
    (hended : generator.phase = .ended queue) (l : GeneratorLabel) :
    (generatorStep bounds epochs s l).generators[g₀]? = some generator := by
  have hne : ∀ {g : Nat} {a : Generator}, s.generators[g]? = some a → a.phase ≠ .ended queue →
      g ≠ g₀ := by
    rintro g a ha hopen rfl
    cases ha.symm.trans hg₀
    exact hopen hended
  cases l with
  | bus l =>
    dsimp only [generatorStep]
    split
    · exact hg₀
    · exact hg₀
  | subscribe sinceSeq =>
    show (s.generators ++ [_])[g₀]? = _
    rw [getElem?_append_left (List.getElem?_eq_some_iff.1 hg₀).1]
    exact hg₀
  | start g scope =>
    dsimp only [generatorStep]
    split
    · rename_i sinceSeq hg
      have hmoves : MovesOnly g s (s.setPhase g (.admitting s.bus.calls.length)) := .inr ⟨_, rfl⟩
      exact (hmoves.other (hne hg nofun)).trans hg₀
    · exact hg₀
  | enter g =>
    dsimp only [generatorStep]
    split
    · rename_i sinceSeq i hg
      split
      · rename_i call hcall
        split
        · exact ((movesOnly_register s g i _ call).other (hne hg nofun)).trans hg₀
        split
        · have hmoves : MovesOnly g s (s.setPhase g (.ended none)) := .inr ⟨_, rfl⟩
          exact (hmoves.other (hne hg nofun)).trans hg₀
        · exact hg₀
      · exact hg₀
    · exact hg₀
  | next g =>
    dsimp only [generatorStep]
    split
    · rename_i sinceSeq scope q hg
      exact ((movesOnly_replay s g scope q).other (hne hg nofun)).trans hg₀
    · rename_i sinceSeq scope q hg
      split
      · split
        · exact hg₀
        split
        · exact ((movesOnly_close s g _).other (hne hg nofun)).trans hg₀
        · exact hg₀
      · exact hg₀
    · exact hg₀
  | wake g =>
    dsimp only [generatorStep]
    split
    · split
      · exact hg₀
      · exact hg₀
    · exact hg₀
  | close g =>
    dsimp only [generatorStep]
    split
    · rename_i a ha
      by_cases hsame : g = g₀
      · subst hsame
        cases ha.symm.trans hg₀
        unfold GeneratorBus.close
        rw [hended]
        exact hg₀
      · exact ((movesOnly_close s g a).other hsame).trans hg₀
    · exact hg₀

/-! ## The law -/

/-- Whatever happens from here on, the queue is in no stream and holds what it holds now. -/
def Released (bounds : Bounds) (epochs : EpochSource) (s : GeneratorBus) (q : Nat) : Prop :=
  ∀ after : List GeneratorLabel, (run (generatorStep bounds epochs) s after).bus.Unregistered q ∧
      (run (generatorStep bounds epochs) s after).bus.subscriptions[q]?.map Subscription.queue =
        s.bus.subscriptions[q]?.map Subscription.queue

/-- A generator that is closed here leaves no queue behind. -/
def Cleans (bounds : Bounds) (epochs : EpochSource) (s : GeneratorBus) (g : Nat) : Prop :=
  ∀ generator q, s.generators[g]? = some generator → generator.phase.isOpen = true →
    generator.phase.queue? = some q →
      Released bounds epochs (generatorStep bounds epochs s (.close g)) q

/-- The generator is suspended in its replay, and its queue is in a stream. -/
def HeldInReplay (s : GeneratorBus) (g : Nat) : Prop :=
  ∃ generator scope q, s.generators[g]? = some generator ∧ generator.phase = .replaying scope q ∧
    ¬ s.bus.Unregistered q

theorem released_of_ended (h : Housed s) (hg : s.generators[g]? = some generator)
    (hended : generator.phase = .ended (some q)) (hfree : s.bus.Unregistered q) :
    Released bounds epochs s q := by
  intro after
  induction after generalizing s with
  | nil => exact ⟨hfree, rfl⟩
  | cons l after ih =>
    obtain ⟨own, hown, hunmoved⟩ := h.unmoved_step bounds epochs hg hended l
    have hlt : q < s.bus.subscriptions.length :=
      h.queues generator (mem_of_getElem? hg) q (by rw [hended]; rfl)
    obtain ⟨hfree', hqueue⟩ := ih (h.step l) (ended_step hg hended l) (hunmoved.unregistered hlt hfree)
    exact ⟨hfree', hqueue.trans (hunmoved.queue q hlt hown hfree)⟩

/-- The `finally` of a generator takes its queue out of the stream of its scope. -/
theorem Housed.unregistered_close (h : Housed s)
    (hplace : s.bus.subscriptions[q]?.map Subscription.scope = some scope) :
    (s.bus.closeFencedSubscription bounds epochs scope q).Unregistered q := by
  have hlt : q < s.bus.subscriptions.length := by
    obtain ⟨sub, hsub, -⟩ := map_eq_some_iff.1 hplace
    exact (List.getElem?_eq_some_iff.1 hsub).1
  -- it is in no other stream
  have hscope : ∀ e ∈ s.bus.streams, q ∈ e.2.subscribers → e.1 = scope := by
    intro e he hq
    exact some.inj ((h.subscribers e he q hq).symm.trans hplace)
  unfold Bus.closeFencedSubscription
  cases hlookup : s.bus.streams.lookup scope with
  | none =>
    refine (unmoved_grant none s.bus).unregistered hlt ?_
    intro e he hq
    apply lookup_eq_none hlookup
    rw [← hscope e he hq]
    exact mem_map_of_mem he
  | some stream =>
    refine (unmoved_grant none _).unregistered hlt ?_
    intro e he hq
    rcases mem_setStream.1 he with ⟨he, hne⟩ | ⟨rfl, -⟩
    · exact hne (hscope e he hq)
    · have hfiltered := (mem_filter.1 hq).2
      simp at hfiltered

theorem housed_run (bounds : Bounds) (epochs : EpochSource) (trace : List GeneratorLabel) :
    Housed (run (generatorStep bounds epochs) .init trace) :=
  run_invariant (fun _ l h => h.step l) housed_init trace

/-- In every reachable state and at every point where a generator is closed, its queue is in no
stream from then on and is given no event, if and only if the generator is not suspended in its
replay with its queue in a stream. -/
theorem subscribe_cleans_iff (bounds : Bounds) (epochs : EpochSource) (trace : List GeneratorLabel)
    (g : Nat) :
    Cleans bounds epochs (run (generatorStep bounds epochs) .init trace) g ↔
      ¬ HeldInReplay (run (generatorStep bounds epochs) .init trace) g := by
  have hplaced := housed_run bounds epochs trace
  generalize run (generatorStep bounds epochs) .init trace = s at hplaced
  constructor
  · rintro hcleans ⟨generator, scope, q, hg, hphase, hheld⟩
    have hreleased := hcleans generator q hg (by rw [hphase]; rfl) (by rw [hphase]; rfl) []
    apply hheld
    have hfree := hreleased.1
    simp only [run_nil, generatorStep, hg, GeneratorBus.close, hphase] at hfree
    exact hfree
  intro hheld generator q hg hopen hq
  have hclose : generatorStep bounds epochs s (.close g) = s.close bounds epochs g generator := by
    simp only [generatorStep, hg]
  rw [hclose]
  have hstep : Housed (s.close bounds epochs g generator) := hplaced.close hg
  have hended : ∀ q', (s.setPhase g (.ended (some q'))).generators[g]? =
      some { generator with phase := .ended (some q') } := by
    intro q'
    rw [getElem?_generators, if_pos rfl, hg]
    rfl
  cases hphase : generator.phase with
  | created | admitting i =>
    rw [hphase] at hq
    cases hq
  | ended queue =>
    rw [hphase] at hopen
    cases hopen
  | replaying scope q' =>
    rw [hphase] at hq
    obtain rfl := some.inj hq
    have hfree : s.bus.Unregistered q' := by
      by_contra hregistered
      exact hheld ⟨generator, scope, q', hg, hphase, hregistered⟩
    unfold GeneratorBus.close at hstep ⊢
    rw [hphase] at hstep ⊢
    exact released_of_ended hstep (hended q') rfl hfree
  | live scope q' =>
    rw [hphase] at hq
    obtain rfl := some.inj hq
    have hplace := hplaced.places generator (List.mem_of_getElem? hg) scope q' (.inr hphase)
    unfold GeneratorBus.close at hstep ⊢
    rw [hphase] at hstep ⊢
    exact released_of_ended hstep (hended q') rfl (hplaced.unregistered_close hplace)

/-! A consumer reads the first of two events that are replayed, and closes. -/

def stopsInReplay : List GeneratorLabel :=
  [.bus (.publish ⟨"t", "o"⟩ ⟨"note", 0, none, []⟩),
    .bus (.publish ⟨"t", "o"⟩ ⟨"note", 0, none, []⟩),
    .subscribe 0, .start 0 ⟨"t", "o"⟩, .enter 0]

theorem stopsInReplay_leaks :
    ¬ Cleans smallBounds wordEpochs (run (generatorStep smallBounds wordEpochs) .init stopsInReplay)
      0 := by
  intro h
  have hregistered := h ⟨0, .replaying ⟨"t", "o"⟩ 0⟩ 0 (by decide +kernel) rfl rfl []
  have hfree := hregistered.1
  revert hfree
  unfold Bus.Unregistered
  decide +kernel

end Events
