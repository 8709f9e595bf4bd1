import EchoDesk.Events.Continuity
import EchoDesk.Events.Generators

/-! # Room for streams, and who waits for it

A grant makes the stream of its scope at once, so what the bound holds down is the number of
streams. The invariant ties each waiter and each grant to the call that waits with its future:
the call goes on or is abandoned, and takes them along.
-/

namespace Events

open EchoDesk Transition List Bus

/-- A call waits for the scope with the future. -/
def Bus.Awaits (bus : Bus) (scope : Scope) (future : Nat) : Prop :=
  ∃ (i : Nat) (call : OpenCall), bus.calls[i]? = some call ∧ call.scope = scope ∧
    call.phase = .waiting future

/-- What holds of the admission to the streams. Futures are numbered as the calls arrive. -/
structure Admission (bounds : Bounds) (bus : Bus) : Prop where
  scopes : (bus.streams.map Prod.fst).Nodup
  bounded : bus.streams.length ≤ bounds.maxScopeStreams
  waiters : (bus.admissionWaiters.map Prod.fst).Nodup
  grants : (bus.admissionGrants.map Prod.fst).Nodup
  ordered : (bus.admissionWaiters.map Prod.snd).Pairwise (· < ·)
  waiting : ∀ e ∈ bus.admissionWaiters, bus.futures[e.2]? = some .pending ∧ bus.Awaits e.1 e.2
  granted : ∀ e ∈ bus.admissionGrants, bus.futures[e.2]? = some .done ∧ bus.Awaits e.1 e.2 ∧
    e.1 ∈ bus.streams.map Prod.fst
  fifo : ∀ e ∈ bus.admissionWaiters, ∀ g, bus.futures[g]? = some .done → g < e.2
  owners : ∀ (i j : Nat) (a b : OpenCall) (future : Nat), bus.calls[i]? = some a →
    bus.calls[j]? = some b → a.phase = .waiting future → b.phase = .waiting future → i = j
  numbered : ∀ call ∈ bus.calls, ∀ future, call.phase = .waiting future →
    future < bus.futures.length

variable {bounds : Bounds} {epochs : EpochSource} {bus bus' : Bus}
variable {call : OpenCall} {scope : Scope}
variable {waiters : List (Scope × Nat)} {future : Nat} {phase : CallPhase}

theorem admission_init (bounds : Bounds) : Admission bounds .init := by
  constructor
  · exact nodup_nil
  · exact Nat.zero_le _
  · exact nodup_nil
  · exact nodup_nil
  · exact .nil
  · exact nofun
  · exact nofun
  · exact nofun
  · intro i j a b future ha
    cases ha
  · exact nofun

/-- Only the scopes of the streams and the desk of the calls matter. -/
theorem Admission.congr (h : Admission bounds bus)
    (hscopes : bus'.streams.map Prod.fst = bus.streams.map Prod.fst)
    (hwaiters : bus'.admissionWaiters = bus.admissionWaiters)
    (hgrants : bus'.admissionGrants = bus.admissionGrants)
    (hfutures : bus'.futures = bus.futures) (hcalls : bus'.calls = bus.calls) :
    Admission bounds bus' := by
  have hlength : bus'.streams.length = bus.streams.length := by
    rw [← length_map (f := Prod.fst), hscopes, length_map]
  have hawaits : ∀ scope future, bus.Awaits scope future → bus'.Awaits scope future := by
    intro scope future hawait
    unfold Awaits
    rw [hcalls]
    exact hawait
  constructor
  · rw [hscopes]
    exact h.scopes
  · rw [hlength]
    exact h.bounded
  · rw [hwaiters]
    exact h.waiters
  · rw [hgrants]
    exact h.grants
  · rw [hwaiters]
    exact h.ordered
  · rw [hwaiters, hfutures]
    exact fun e he => ⟨(h.waiting e he).1, hawaits _ _ (h.waiting e he).2⟩
  · rw [hgrants, hfutures, hscopes]
    exact fun e he => ⟨(h.granted e he).1, hawaits _ _ (h.granted e he).2.1, (h.granted e he).2.2⟩
  · rw [hwaiters, hfutures]
    exact h.fifo
  · rw [hcalls]
    exact h.owners
  · rw [hcalls, hfutures]
    exact h.numbered

/-! ## Streams -/

/-- The streams are changed within the bound, and the granted ones stay. -/
theorem Admission.restream (h : Admission bounds bus) {streams : List (Scope × ScopeStream)}
    {epochs : Nat} (hscopes : (streams.map Prod.fst).Nodup)
    (hbounded : streams.length ≤ bounds.maxScopeStreams)
    (hgranted : ∀ e ∈ bus.admissionGrants, e.1 ∈ streams.map Prod.fst) :
    Admission bounds { bus with streams := streams, epochs := epochs } :=
  { h with
    scopes := hscopes
    bounded := hbounded
    granted := fun e he => ⟨(h.granted e he).1, (h.granted e he).2.1, hgranted e he⟩ }

/-- A stream that is removed to make room was not granted. -/
theorem Admission.makeRoom (h : Admission bounds bus) (hroom : bus.makeRoom bounds = some bus') :
    Admission bounds bus' ∧ bus'.streams.length < bounds.maxScopeStreams ∧
      ∃ streams, bus' = { bus with streams := streams } ∧ ∀ e ∈ streams, e ∈ bus.streams := by
  unfold Bus.makeRoom at hroom
  split at hroom
  · rename_i hlt
    cases hroom
    exact ⟨h, hlt, _, rfl, fun _ he => he⟩
  obtain ⟨e, hfind, rfl⟩ := Option.map_eq_some_iff.1 hroom
  have hmem := mem_of_find?_eq_some hfind
  have hremovable := find?_some hfind
  simp only [Bus.removable, Bool.and_eq_true, Option.isNone_iff_eq_none] at hremovable
  have hsub : (popScope bus.streams e.1).Sublist bus.streams := filter_sublist
  have hshort : (popScope bus.streams e.1).length < bus.streams.length := by
    refine length_filter_lt_length_iff_exists.2 ⟨e, hmem, ?_⟩
    simp
  have hbounded := h.bounded
  refine ⟨?_, ?_, _, rfl, fun e' he' => hsub.subset he'⟩
  · refine h.restream ((hsub.map Prod.fst).nodup h.scopes) (by omega) ?_
    intro grant hgrant
    obtain ⟨e', he', heq⟩ := mem_map.1 (h.granted grant hgrant).2.2
    refine mem_map.2 ⟨e', mem_popScope.2 ⟨he', ?_⟩, heq⟩
    intro hsame
    apply lookup_eq_none hremovable.2
    rw [← hsame, heq]
    exact mem_map_of_mem hgrant
  · show (popScope bus.streams e.1).length < _
    omega

/-- What `_stream_locked` does: the scope has a stream, and the streams of the others stay or go
without having been granted. -/
theorem Admission.streamLocked (h : Admission bounds bus)
    (hlocked : bus.streamLocked bounds epochs scope = some bus') :
    Admission bounds bus' ∧ scope ∈ bus'.streams.map Prod.fst ∧
      bus'.admissionWaiters = bus.admissionWaiters ∧ bus'.admissionGrants = bus.admissionGrants ∧
      bus'.futures = bus.futures ∧ bus'.calls = bus.calls ∧
      bus'.subscriptions = bus.subscriptions := by
  unfold Bus.streamLocked at hlocked
  cases hlookup : bus.streams.lookup scope with
  | some stream =>
    rw [hlookup] at hlocked
    cases hlocked
    have hperm := popScope_perm h.scopes (mem_of_lookup hlookup)
    refine ⟨?_, ?_, rfl, rfl, rfl, rfl, rfl⟩
    · refine h.restream ((hperm.map Prod.fst).nodup_iff.2 h.scopes) ?_ ?_
      · rw [hperm.length_eq]
        exact h.bounded
      · intro e he
        exact (hperm.map Prod.fst).mem_iff.2 (h.granted e he).2.2
    · simp
  | none =>
    rw [hlookup] at hlocked
    obtain ⟨room, hroom, rfl⟩ := Option.map_eq_some_iff.1 hlocked
    obtain ⟨hadmission, hlt, streams, rfl, hsubset⟩ := h.makeRoom hroom
    have hnew : scope ∉ streams.map Prod.fst := by
      intro hmem
      obtain ⟨e, he, heq⟩ := mem_map.1 hmem
      exact lookup_eq_none hlookup (mem_map.2 ⟨e, hsubset e he, heq⟩)
    refine ⟨?_, ?_, rfl, rfl, rfl, rfl, rfl⟩
    · refine hadmission.restream ?_ ?_ ?_
      · rw [map_append, nodup_append]
        refine ⟨hadmission.scopes, nodup_singleton _, ?_⟩
        rintro a ha b hb rfl
        rw [map_singleton, mem_singleton] at hb
        rw [hb] at ha
        exact hnew ha
      · rw [length_append, length_singleton]
        exact hlt
      · intro e he
        rw [map_append]
        exact mem_append_left _ (hadmission.granted e he).2.2
    · simp

/-! ## Grants -/

theorem lookup_of_mem {β : Type} {d : List (Scope × β)} (h : (d.map Prod.fst).Nodup) {b : β}
    (hmem : (scope, b) ∈ d) : d.lookup scope = some b := by
  cases hlookup : d.lookup scope with
  | none => exact absurd (mem_map_of_mem hmem) (lookup_eq_none hlookup)
  | some b' =>
    have heq := inj_on_of_nodup_map h hmem (mem_of_lookup hlookup) rfl
    rw [(Prod.mk.inj heq).2]

/-- Waiters and grants are dropped. -/
theorem Admission.thin (h : Admission bounds bus) {grants : List (Scope × Nat)}
    (hwaiters : waiters.Sublist bus.admissionWaiters)
    (hgrants : grants.Sublist bus.admissionGrants) :
    Admission bounds { bus with admissionWaiters := waiters, admissionGrants := grants } where
  __ := h
  waiters := h.waiters.sublist (hwaiters.map _)
  grants := h.grants.sublist (hgrants.map _)
  ordered := h.ordered.sublist (hwaiters.map _)
  waiting e he := h.waiting e (hwaiters.subset he)
  granted e he := h.granted e (hgrants.subset he)
  fifo e he := h.fifo e (hwaiters.subset he)

/-- The first waiter is granted the stream of its scope. -/
theorem Admission.grant
    (h : Admission bounds { bus with admissionWaiters := (scope, future) :: waiters })
    (hstream : scope ∈ bus.streams.map Prod.fst) :
    Admission bounds { bus with
      admissionWaiters := waiters
      admissionGrants := setGrant bus.admissionGrants scope future
      futures := bus.futures.set future .done } := by
  have hlt : ∀ e ∈ waiters, future < e.2 := by
    intro e he
    exact (pairwise_cons.1 h.ordered).1 _ (mem_map_of_mem he)
  obtain ⟨hpending, hawaits⟩ := h.waiting _ mem_cons_self
  have hbound : future < bus.futures.length := (List.getElem?_eq_some_iff.1 hpending).1
  have hset : ∀ g, (bus.futures.set future .done)[g]? =
      if g = future then some .done else bus.futures[g]? := by
    intro g
    rw [getElem?_set]
    by_cases hg : future = g
    · rw [if_pos hg, if_pos hbound, if_pos hg.symm]
    · rw [if_neg hg, if_neg (Ne.symm hg)]
  constructor
  · exact h.scopes
  · exact h.bounded
  · exact (nodup_cons.1 h.waiters).2
  · rw [setGrant, map_append, nodup_append]
    refine ⟨h.grants.sublist (filter_sublist.map _), nodup_singleton _, ?_⟩
    rintro a ha b hb rfl
    rw [map_singleton, mem_singleton] at hb
    obtain ⟨e, he, rfl⟩ := mem_map.1 ha
    exact (mem_popScope.1 he).2 hb
  · exact (pairwise_cons.1 h.ordered).2
  · intro e he
    obtain ⟨hfuture, hawait⟩ := h.waiting e (mem_cons_of_mem _ he)
    refine ⟨?_, hawait⟩
    rw [hset, if_neg (Nat.ne_of_gt (hlt e he))]
    exact hfuture
  · intro e he
    rcases mem_append.1 he with he | he
    · obtain ⟨hdone, hrest⟩ := h.granted e (mem_popScope.1 he).1
      refine ⟨?_, hrest⟩
      rw [hset]
      split
      · rfl
      · exact hdone
    · rw [mem_singleton.1 he]
      refine ⟨?_, hawaits, hstream⟩
      rw [hset, if_pos rfl]
  · -- a future that is done was so before, or was the first of those that wait
    intro e he g hg
    rw [hset] at hg
    split at hg
    · rename_i hsame
      rw [hsame]
      exact hlt e he
    · exact h.fifo e (mem_cons_of_mem _ he) g hg
  · exact h.owners
  · intro call hcall f hf
    rw [length_set]
    exact h.numbered call hcall f hf

/-- The stream of a scope is the same, whoever waits. -/
theorem streamLocked_waiters (waiters : List (Scope × Nat))
    (hlocked : bus.streamLocked bounds epochs scope = some bus') :
    streamLocked bounds epochs { bus with admissionWaiters := waiters } scope =
      some { bus' with admissionWaiters := waiters } := by
  unfold streamLocked at hlocked ⊢
  cases hlookup : bus.streams.lookup scope with
  | some stream =>
    rw [hlookup] at hlocked
    cases hlocked
    rfl
  | none =>
    rw [hlookup] at hlocked
    obtain ⟨room, hroom, rfl⟩ := Option.map_eq_some_iff.1 hlocked
    unfold makeRoom at hroom ⊢
    split at hroom
    · rename_i hlt
      cases hroom
      rw [if_pos hlt]
      rfl
    rename_i hfull
    obtain ⟨e, hfind, rfl⟩ := Option.map_eq_some_iff.1 hroom
    rw [if_neg hfull]
    have hfind' : bus.streams.find? (removable { bus with admissionWaiters := waiters }) =
        some e := hfind
    rw [hfind']
    rfl

theorem Admission.grantLoop (waiters : List (Scope × Nat))
    (h : Admission bounds { bus with admissionWaiters := waiters }) :
    Admission bounds (grantLoop bounds epochs waiters bus) := by
  induction waiters generalizing bus with
  | nil => exact h
  | cons e waiters ih =>
    obtain ⟨scope, future⟩ := e
    have hdrop : Admission bounds { bus with admissionWaiters := waiters } :=
      h.thin (sublist_cons_self _ _) (List.Sublist.refl _)
    unfold Events.grantLoop
    split
    · exact h
    split
    · exact ih hdrop
    cases hlocked : bus.streamLocked bounds epochs scope with
    | none => exact hdrop
    | some bus' =>
      obtain ⟨hadmission, hstream, -, -, -, -, -⟩ :=
        h.streamLocked (streamLocked_waiters _ hlocked)
      exact ih (hadmission.grant hstream)

theorem Admission.grantAdmissionWaiters (h : Admission bounds bus) :
    Admission bounds (bus.grantAdmissionWaiters bounds epochs) := h.grantLoop bus.admissionWaiters

/-! ## Calls -/

theorem getElem?_setPhase (bus : Bus) (i j : Nat) (phase : CallPhase) :
    (bus.setPhase i phase).calls[j]? =
      if i = j then (bus.calls[j]?).map fun call => { call with phase := phase }
      else bus.calls[j]? := by
  show (bus.calls.modify i _)[j]? = _
  rw [getElem?_modify]
  split
  · rfl
  cases bus.calls[j]? with
  | none | some a => rfl

variable {i : Nat}

/-- A call that waits after another one was moved on did so before. -/
theorem waiting_of_setPhase {j : Nat} (hphase : ∀ f, phase ≠ .waiting f) {a : OpenCall} {f : Nat}
    (ha : (bus.setPhase i phase).calls[j]? = some a) (hf : a.phase = .waiting f) :
    j ≠ i ∧ bus.calls[j]? = some a := by
  rw [getElem?_setPhase] at ha
  split at ha
  · obtain ⟨b, -, rfl⟩ := Option.map_eq_some_iff.1 ha
    exact absurd hf (hphase f)
  · rename_i hne
    exact ⟨Ne.symm hne, ha⟩

section

variable (h : Admission bounds bus) (hcall : bus.calls[i]? = some call)

include h hcall

/-- A call that no longer waits, once its future is neither among the waiters nor granted. -/
theorem Admission.setPhase (hphase : ∀ f, phase ≠ .waiting f)
    (hwaiters : ∀ e ∈ bus.admissionWaiters, call.phase ≠ .waiting e.2)
    (hgrants : ∀ e ∈ bus.admissionGrants, call.phase ≠ .waiting e.2) :
    Admission bounds (bus.setPhase i phase) := by
  have hawaits : ∀ scope f, call.phase ≠ .waiting f → bus.Awaits scope f →
      (bus.setPhase i phase).Awaits scope f := by
    rintro scope f hne ⟨j, a, ha, hscope, hf⟩
    refine ⟨j, a, ?_, hscope, hf⟩
    rw [getElem?_setPhase, if_neg]
    · exact ha
    rintro rfl
    cases hcall.symm.trans ha
    exact hne hf
  constructor
  · exact h.scopes
  · exact h.bounded
  · exact h.waiters
  · exact h.grants
  · exact h.ordered
  · intro e he
    exact ⟨(h.waiting e he).1, hawaits _ _ (hwaiters e he) (h.waiting e he).2⟩
  · intro e he
    obtain ⟨hdone, hawait, hstream⟩ := h.granted e he
    exact ⟨hdone, hawaits _ _ (hgrants e he) hawait, hstream⟩
  · exact h.fifo
  · intro j k a b f ha hb hfa hfb
    exact h.owners j k a b f (waiting_of_setPhase hphase ha hfa).2
      (waiting_of_setPhase hphase hb hfb).2 hfa hfb
  · intro a ha f hf
    obtain ⟨j, hj⟩ := getElem?_of_mem ha
    exact h.numbered a (mem_of_getElem? (waiting_of_setPhase hphase hj hf).2) f hf

/-- A call that did not wait. -/
theorem Admission.raise (hphase : ∀ f, call.phase ≠ .waiting f) :
    Admission bounds (bus.setPhase i .raised) :=
  h.setPhase hcall nofun (fun e _ => hphase e.2) fun e _ => hphase e.2

/-- The entries of a future are those of the call that waits with it. -/
theorem Admission.entry {e : Scope × Nat} (hphase : call.phase = .waiting e.2)
    (hawait : bus.Awaits e.1 e.2) : e.1 = call.scope := by
  obtain ⟨j, a, ha, hscope, hf⟩ := hawait
  obtain rfl := h.owners i j call a e.2 hcall ha hphase hf
  cases hcall.symm.trans ha
  exact hscope.symm

/-- A call that is abandoned takes its waiter and its grant along. -/
theorem Admission.abandon (hphase : call.phase = .waiting future) : Admission bounds
      ((bus.setPhase i .raised).cancelScopeAdmission bounds epochs call.scope future) := by
  have hgone : ∀ (d : List (Scope × Nat)), (d.map Prod.fst).Nodup → (∀ e ∈ d, bus.Awaits e.1 e.2) →
      ∀ e ∈ (if d.lookup call.scope = some future then popScope d call.scope else d),
        call.phase ≠ .waiting e.2 := by
    intro d hnodup hd e he hf
    have hmem : e ∈ d := by
      split at he
      · exact (mem_popScope.1 he).1
      · exact he
    have hscope := h.entry hcall hf (hd e hmem)
    have hfuture : e.2 = future := by
      rw [hphase] at hf
      exact (CallPhase.waiting.inj hf).symm
    have hlookup : d.lookup call.scope = some future := by
      refine lookup_of_mem hnodup ?_
      rw [← hscope, ← hfuture]
      exact hmem
    rw [if_pos hlookup] at he
    exact (mem_popScope.1 he).2 hscope
  have hdrop : Admission bounds (bus.dropAdmission call.scope future) := by
    refine h.thin ?_ ?_
    · split
      · exact filter_sublist
      · exact List.Sublist.refl _
    · split
      · exact filter_sublist
      · exact List.Sublist.refl _
  have hset : Admission bounds ((bus.dropAdmission call.scope future).setPhase i .raised) :=
    hdrop.setPhase hcall nofun (hgone _ h.waiters fun e he => (h.waiting e he).2)
      (hgone _ h.grants fun e he => (h.granted e he).2.1)
  exact hset.grantAdmissionWaiters

/-- A call that is past its wait and gives up its grant. -/
theorem Admission.settle (hready : call.ready bus.futures = true) (phase : CallPhase)
    (hphase : ∀ f, phase ≠ .waiting f) :
    Admission bounds ((bus.completeScopeAdmission call.scope call.admission).setPhase i phase) := by
  cases hcallPhase : call.phase with
  | waiting future =>
    have hdone : bus.futures[future]? = some .done := by
      unfold OpenCall.ready at hready
      rw [hcallPhase] at hready
      exact beq_iff_eq.1 hready
    have hadmission : call.admission = some future := by
      unfold OpenCall.admission
      rw [hcallPhase]
    -- the future is done, so it is no waiter's
    have hwaiters : ∀ e ∈ bus.admissionWaiters, call.phase ≠ .waiting e.2 := by
      intro e he hf
      obtain rfl : future = e.2 := CallPhase.waiting.inj (hcallPhase.symm.trans hf)
      have hpending := (h.waiting e he).1
      rw [hdone] at hpending
      cases hpending
    rw [hadmission]
    unfold completeScopeAdmission
    dsimp only
    split
    · have hthin : Admission bounds { bus with
          admissionGrants := popScope bus.admissionGrants call.scope } :=
        h.thin (List.Sublist.refl _) filter_sublist
      refine hthin.setPhase hcall hphase hwaiters ?_
      intro e he hf
      obtain ⟨hmem, hne⟩ := mem_popScope.1 he
      exact hne (h.entry hcall hf (h.granted e hmem).2.1)
    rename_i hlookup
    refine h.setPhase hcall hphase hwaiters ?_
    intro e he hf
    apply hlookup
    obtain rfl : future = e.2 := CallPhase.waiting.inj (hcallPhase.symm.trans hf)
    refine lookup_of_mem h.grants ?_
    rw [← h.entry hcall hf (h.granted e he).2.1]
    exact he
  | admitted =>
    have hadmission : call.admission = none := by
      unfold OpenCall.admission
      rw [hcallPhase]
    rw [hadmission]
    refine h.setPhase hcall hphase ?_ ?_
    · intro e _
      rw [hcallPhase]
      exact nofun
    · intro e _
      rw [hcallPhase]
      exact nofun
  | opened | raised =>
    unfold OpenCall.ready at hready
    rw [hcallPhase] at hready
    cases hready

end

/-- A call that is there and does not wait. -/
theorem Admission.addCall (h : Admission bounds bus) (hphase : ∀ f, call.phase ≠ .waiting f) :
    Admission bounds { bus with calls := bus.calls ++ [call] } := by
  have hother : ∀ {j : Nat} {a : OpenCall} {f : Nat}, (bus.calls ++ [call])[j]? = some a →
      a.phase = .waiting f → bus.calls[j]? = some a := by
    intro j a f ha hf
    rw [getElem?_append] at ha
    split at ha
    · exact ha
    · obtain rfl := mem_singleton.1 (mem_of_getElem? ha)
      exact absurd hf (hphase f)
  have hawaits : ∀ scope f, bus.Awaits scope f →
      Awaits { bus with calls := bus.calls ++ [call] } scope f := by
    rintro scope f ⟨j, a, ha, hrest⟩
    refine ⟨j, a, ?_, hrest⟩
    rw [getElem?_append_left (List.getElem?_eq_some_iff.1 ha).1]
    exact ha
  constructor
  · exact h.scopes
  · exact h.bounded
  · exact h.waiters
  · exact h.grants
  · exact h.ordered
  · exact fun e he => ⟨(h.waiting e he).1, hawaits _ _ (h.waiting e he).2⟩
  · exact fun e he => ⟨(h.granted e he).1, hawaits _ _ (h.granted e he).2.1, (h.granted e he).2.2⟩
  · exact h.fifo
  · intro j k a b f ha hb hfa hfb
    exact h.owners j k a b f (hother ha hfa) (hother hb hfb) hfa hfb
  · intro a ha f hf
    obtain ⟨j, hj⟩ := getElem?_of_mem ha
    exact h.numbered a (mem_of_getElem? (hother hj hf)) f hf

/-- A call that joins the waiters. -/
theorem Admission.addWaiter (h : Admission bounds bus) (call : OpenCall)
    (hphase : call.phase = .waiting bus.futures.length)
    (hnew : bus.admissionWaiters.lookup call.scope = none) :
    Admission bounds { bus with
      calls := bus.calls ++ [call]
      futures := bus.futures ++ [FutureState.pending]
      admissionWaiters := bus.admissionWaiters ++ [(call.scope, bus.futures.length)] } := by
  have hold : ∀ {f : Nat} {state : FutureState}, bus.futures[f]? = some state →
      (bus.futures ++ [FutureState.pending])[f]? = some state := by
    intro f state hf
    rw [getElem?_append_left (List.getElem?_eq_some_iff.1 hf).1]
    exact hf
  have hlt : ∀ e ∈ bus.admissionWaiters, e.2 < bus.futures.length :=
    fun e he => (List.getElem?_eq_some_iff.1 (h.waiting e he).1).1
  have hawaits : ∀ scope f, bus.Awaits scope f → Awaits { bus with
      calls := bus.calls ++ [call]
      futures := bus.futures ++ [FutureState.pending]
      admissionWaiters := bus.admissionWaiters ++ [(call.scope, bus.futures.length)] } scope f := by
    rintro scope f ⟨j, a, ha, hrest⟩
    refine ⟨j, a, ?_, hrest⟩
    rw [getElem?_append_left (List.getElem?_eq_some_iff.1 ha).1]
    exact ha
  -- the future is new, so no other call waits with it
  have hcases : ∀ {j : Nat} {a : OpenCall} {f : Nat}, (bus.calls ++ [call])[j]? = some a →
      a.phase = .waiting f → (bus.calls[j]? = some a ∧ f < bus.futures.length) ∨
        (j = bus.calls.length ∧ f = bus.futures.length) := by
    intro j a f ha hf
    rw [getElem?_append] at ha
    split at ha
    · exact .inl ⟨ha, h.numbered a (mem_of_getElem? ha) f hf⟩
    have hj := (List.getElem?_eq_some_iff.1 ha).1
    rw [length_singleton] at hj
    obtain rfl := mem_singleton.1 (mem_of_getElem? ha)
    exact .inr ⟨by omega, (CallPhase.waiting.inj (hphase.symm.trans hf)).symm⟩
  constructor
  · exact h.scopes
  · exact h.bounded
  · rw [map_append, nodup_append]
    refine ⟨h.waiters, nodup_singleton _, ?_⟩
    rintro a ha b hb rfl
    rw [map_singleton, mem_singleton] at hb
    rw [hb] at ha
    exact lookup_eq_none hnew ha
  · exact h.grants
  · rw [map_append, pairwise_append]
    refine ⟨h.ordered, pairwise_singleton _ _, ?_⟩
    intro f hf g hg
    obtain ⟨e, he, rfl⟩ := mem_map.1 hf
    rw [map_singleton, mem_singleton] at hg
    rw [hg]
    exact hlt e he
  · intro e he
    rcases mem_append.1 he with he | he
    · exact ⟨hold (h.waiting e he).1, hawaits _ _ (h.waiting e he).2⟩
    rw [mem_singleton.1 he]
    refine ⟨?_, bus.calls.length, call, ?_, rfl, hphase⟩
    · exact getElem?_concat_length
    · exact getElem?_concat_length
  · intro e he
    obtain ⟨hdone, hawait, hstream⟩ := h.granted e he
    exact ⟨hold hdone, hawaits _ _ hawait, hstream⟩
  · intro e he g hg
    rw [getElem?_append] at hg
    split at hg
    · rename_i hbound
      rcases mem_append.1 he with he | he
      · exact h.fifo e he g hg
      · rw [mem_singleton.1 he]
        exact hbound
    · have hpending := mem_singleton.1 (mem_of_getElem? hg)
      cases hpending
  · intro j k a b f ha hb hfa hfb
    rcases hcases ha hfa with ⟨ha', hf⟩ | ⟨hj, hf⟩
    · rcases hcases hb hfb with ⟨hb', -⟩ | ⟨-, hf'⟩
      · exact h.owners j k a b f ha' hb' hfa hfb
      · omega
    · rcases hcases hb hfb with ⟨-, hf'⟩ | ⟨hk, -⟩
      · omega
      · omega
  · intro a ha f hf
    rw [length_append, length_singleton]
    obtain ⟨j, hj⟩ := getElem?_of_mem ha
    rcases hcases hj hf with ⟨-, hlt⟩ | ⟨-, heq⟩
    · omega
    · omega

/-! ## Steps -/

section

variable (h : Admission bounds bus)

include h

theorem Admission.awaitScopeAdmission (scope : Scope) (lastSeq : Int)
    (streamEpoch : Option String) (startAtLatest : Bool) :
    Admission bounds
      (bus.awaitScopeAdmission bounds epochs scope lastSeq streamEpoch startAtLatest) := by
  unfold Bus.awaitScopeAdmission
  split
  · exact h.addCall nofun
  split
  · exact h.addCall nofun
  rename_i hfree
  rw [Bool.or_eq_true, not_or, Bool.not_eq_true, Option.isSome_eq_false_iff,
    Option.isNone_iff_eq_none] at hfree
  have hadd := h.addWaiter
    ⟨scope, lastSeq, streamEpoch, startAtLatest, .waiting bus.futures.length⟩ rfl hfree.1
  exact hadd.grantAdmissionWaiters

theorem Admission.publishTo (scope : Scope) (event : EchoEvent) :
    Admission bounds (bus.publishTo bounds epochs scope event) := by
  have hgrant : Admission bounds (bus.grantAdmissionWaiters bounds epochs) :=
    h.grantAdmissionWaiters
  unfold Bus.publishTo
  dsimp only
  cases hlocked : (bus.grantAdmissionWaiters bounds epochs).streamLocked bounds epochs scope with
  | none => exact hgrant
  | some bus' =>
    obtain ⟨hadmission, -⟩ := hgrant.streamLocked hlocked
    dsimp only
    cases bus'.streams.lookup scope with
    | none => exact hadmission
    | some stream =>
      refine hadmission.congr ?_ rfl rfl rfl rfl
      exact scopes_setStream _ _ _

theorem Admission.closeFencedSubscription (scope : Scope) (i : Nat) :
    Admission bounds (bus.closeFencedSubscription bounds epochs scope i) := by
  unfold Bus.closeFencedSubscription
  cases bus.streams.lookup scope with
  | none => exact h.grantAdmissionWaiters
  | some stream =>
    have hset : Admission bounds (bus.setStream scope { stream with
        subscribers := stream.subscribers.filter (· ≠ i) }) :=
      h.congr (scopes_setStream _ _ _) rfl rfl rfl rfl
    exact hset.grantAdmissionWaiters

theorem Admission.aclose (ts : Timestamp) :
    Admission bounds (bus.aclose bounds ts) := by
  constructor
  · exact nodup_nil
  · exact Nat.zero_le _
  · exact nodup_nil
  · exact nodup_nil
  · exact .nil
  · exact nofun
  · exact nofun
  · exact nofun
  · exact h.owners
  intro call hcall f hf
  show f < (bus.futures.mapIdx _).length
  rw [length_mapIdx]
  exact h.numbered call hcall f hf

/-- Registering a queue for a call that is past its wait. -/
theorem Admission.attached (hcall : bus.calls[i]? = some call)
    (hready : call.ready bus.futures = true) {stream : ScopeStream} {sub : Subscription} :
    Admission bounds ((((bus.attach call.scope stream sub).completeScopeAdmission call.scope
      call.admission).setPhase i .opened).grantAdmissionWaiters bounds epochs) := by
  have hattach : Admission bounds (bus.attach call.scope stream sub) :=
    h.congr (scopes_setStream bus _ _) rfl rfl rfl rfl
  have hsettle := hattach.settle hcall hready .opened nofun
  exact hsettle.grantAdmissionWaiters

end

theorem OpenCall.waiting_of_admission (h : call.admission = some future) :
    call.phase = .waiting future := by
  unfold OpenCall.admission at h
  split at h
  · rename_i f hphase
    rw [hphase, Option.some.inj h]
  · cases h

theorem OpenCall.not_waiting_of_admission (h : call.admission = none) (f : Nat) :
    call.phase ≠ .waiting f := by
  intro hphase
  unfold OpenCall.admission at h
  rw [hphase] at h
  cases h

theorem Admission.register (h : Admission bounds bus) (hcall : bus.calls[i]? = some call)
    (hready : call.ready bus.futures = true) :
    Admission bounds (bus.register bounds epochs i call) := by
  unfold Bus.register
  cases hlocked : bus.streamLocked bounds epochs call.scope with
  | none =>
    cases hadmission : call.admission with
    | none => exact h.raise hcall (OpenCall.not_waiting_of_admission hadmission)
    | some future => exact h.abandon hcall (OpenCall.waiting_of_admission hadmission)
  | some bus' =>
    obtain ⟨hadmission, -, -, -, hfutures, hcalls, -⟩ := h.streamLocked hlocked
    dsimp only
    cases bus'.streams.lookup call.scope with
    | none => exact hadmission
    | some stream =>
      rw [← hcalls] at hcall
      rw [← hfutures] at hready
      exact hadmission.attached hcall hready

theorem Admission.abandonCall (h : Admission bounds bus) (i : Nat) :
    Admission bounds (bus.abandonCall bounds epochs i) := by
  unfold Bus.abandonCall
  cases hcall : bus.calls[i]? with
  | none => exact h
  | some call =>
    dsimp only
    cases hphase : call.phase with
    | waiting future => exact h.abandon hcall hphase
    | admitted =>
      refine h.raise hcall ?_
      intro f
      rw [hphase]
      exact nofun
    | opened | raised => exact h

theorem Admission.setSubscription (h : Admission bounds bus) (i : Nat) (sub : Subscription) :
    Admission bounds (bus.setSubscription i sub) := h.congr rfl rfl rfl rfl rfl

theorem Admission.busStep (h : Admission bounds bus) (l : BusLabel) :
    Admission bounds (busStep bounds epochs bus l) := by
  cases l with
  | publish scope event => exact h.publishTo scope event
  | openFenced scope lastSeq streamEpoch startAtLatest =>
    exact h.awaitScopeAdmission scope lastSeq streamEpoch startAtLatest
  | register i =>
    dsimp only [Events.busStep]
    cases hcall : bus.calls[i]? with
    | none => exact h
    | some call =>
      dsimp only
      split
      · rename_i hready
        exact h.register hcall hready
      · exact h
  | abandon i => exact h.abandonCall i
  | anext i =>
    dsimp only [Events.busStep]
    cases bus.subscriptions[i]? with
    | none => exact h
    | some sub =>
      dsimp only
      split
      · exact h
      · exact h.setSubscription i _
  | wake i | interrupt i =>
    dsimp only [Events.busStep]
    cases bus.subscriptions[i]? with
    | none => exact h
    | some sub => exact h.setSubscription i _
  | close i =>
    dsimp only [Events.busStep]
    cases bus.subscriptions[i]? with
    | none => exact h
    | some sub =>
      dsimp only
      split
      · exact h
      · exact (h.setSubscription i _).closeFencedSubscription sub.scope i
  | inspect scope =>
    dsimp only [Events.busStep]
    cases bus.streams.lookup scope with
    | some stream => exact h
    | none =>
      dsimp only
      cases hlocked : bus.streamLocked bounds epochs scope with
      | none => exact h
      | some bus' => exact (h.streamLocked hlocked).1
  | aclose ts => exact h.aclose ts

/-! ## Steps of the generators -/

variable {s : GeneratorBus}

theorem Admission.getLive (h : Admission bounds bus) (queue : Nat) :
    Admission bounds (bus.getLive queue) := by
  unfold Bus.getLive
  split
  · split
    · exact h.setSubscription queue _
    · exact h.setSubscription queue _
  · exact h

theorem Admission.replay (h : Admission bounds s.bus) (g : Nat) (scope : Scope) (queue : Nat) :
    Admission bounds (s.replay g scope queue).bus := by
  unfold GeneratorBus.replay
  split
  · split
    · exact h.setSubscription queue _
    · exact h.getLive queue
  · exact h

theorem Admission.generatorRegister (h : Admission bounds s.bus) (g : Nat) (generator : Generator)
    (hcall : s.bus.calls[i]? = some call) (hready : call.ready s.bus.futures = true) :
    Admission bounds (s.register bounds epochs g i generator call).bus := by
  unfold GeneratorBus.register
  cases hlocked : s.bus.streamLocked bounds epochs call.scope with
  | none =>
    cases hadmission : call.admission with
    | none => exact h.raise hcall (OpenCall.not_waiting_of_admission hadmission)
    | some future => exact h.abandon hcall (OpenCall.waiting_of_admission hadmission)
  | some bus' =>
    obtain ⟨hadmission, -, -, -, hfutures, hcalls, -⟩ := h.streamLocked hlocked
    dsimp only
    cases bus'.streams.lookup call.scope with
    | none => exact h
    | some stream =>
      rw [← hcalls] at hcall
      rw [← hfutures] at hready
      exact (hadmission.attached hcall hready).replay g call.scope _

theorem Admission.close (h : Admission bounds s.bus) (g : Nat) (generator : Generator) :
    Admission bounds (s.close bounds epochs g generator).bus := by
  unfold GeneratorBus.close
  split
  · exact h
  · exact h.abandonCall _
  · exact h
  · exact h.closeFencedSubscription _ _
  · exact h

theorem Admission.generatorStep (h : Admission bounds s.bus) (l : GeneratorLabel) :
    Admission bounds (generatorStep bounds epochs s l).bus := by
  cases l with
  | bus l =>
    dsimp only [Events.generatorStep]
    split
    · exact h.busStep l
    · exact h
  | subscribe sinceSeq => exact h
  | start g scope =>
    dsimp only [Events.generatorStep]
    split
    · exact h.awaitScopeAdmission scope _ none false
    · exact h
  | enter g =>
    dsimp only [Events.generatorStep]
    split
    · split
      · rename_i call hcall
        split
        · rename_i hready
          exact h.generatorRegister g _ hcall hready
        · split
          · exact h
          · exact h
      · exact h
    · exact h
  | next g =>
    dsimp only [Events.generatorStep]
    split
    · exact h.replay g _ _
    · split
      · split
        · exact h
        split
        · exact h.close g _
        · exact h.getLive _
      · exact h
    · exact h
  | wake g =>
    dsimp only [Events.generatorStep]
    split
    · split
      · exact h.setSubscription _ _
      · exact h
    · exact h
  | close g =>
    dsimp only [Events.generatorStep]
    split
    · exact h.close g _
    · exact h

theorem admission_run (bounds : Bounds) (epochs : EpochSource) (trace : List GeneratorLabel) :
    Admission bounds (run (generatorStep bounds epochs) .init trace).bus := by
  have hstep : ∀ (s : GeneratorBus) (l : GeneratorLabel), Admission bounds s.bus →
      Admission bounds (generatorStep bounds epochs s l).bus := fun _ l h => h.generatorStep l
  exact run_invariant hstep (admission_init bounds) trace

/-! ## What a call leaves behind -/

/-- The call is done, and the others are as they were. -/
def Settles (bus bus' : Bus) (i : Nat) : Prop :=
  ∃ phase : CallPhase, (∀ f, phase ≠ .waiting f) ∧ bus'.calls = (bus.setPhase i phase).calls

theorem settles_setPhase (bus : Bus) (i : Nat) (phase : CallPhase) (hphase : ∀ f, phase ≠ .waiting f) :
    Settles bus (bus.setPhase i phase) i := ⟨phase, hphase, rfl⟩

theorem Settles.congr {bus'' : Bus} (h : Settles bus bus' i) (hcalls : bus''.calls = bus'.calls) :
    Settles bus bus'' i := by
  obtain ⟨phase, hphase, heq⟩ := h
  exact ⟨phase, hphase, hcalls.trans heq⟩

theorem settles_cancel (bus : Bus) (i : Nat) (scope : Scope) (future : Nat) :
    Settles bus ((bus.setPhase i .raised).cancelScopeAdmission bounds epochs scope future) i :=
  (settles_setPhase bus i .raised nofun).congr (arranges_grantLoop _ _).same.2

theorem settles_abandonCall (hcall : bus.calls[i]? = some call)
    (hready : call.ready bus.futures = true) : Settles bus (bus.abandonCall bounds epochs i) i := by
  unfold abandonCall
  rw [hcall]
  dsimp only
  unfold OpenCall.ready at hready
  cases hphase : call.phase with
  | waiting future => exact settles_cancel bus i call.scope future
  | admitted => exact settles_setPhase bus i .raised nofun
  | opened | raised =>
    rw [hphase] at hready
    cases hready

theorem calls_completeScopeAdmission (bus : Bus) (scope : Scope) (future : Option Nat) :
    (bus.completeScopeAdmission scope future).calls = bus.calls := by
  unfold completeScopeAdmission
  split
  · split
    · rfl
    · rfl
  · rfl

theorem settles_attached (bus : Bus) (i : Nat) (call : OpenCall) (stream : ScopeStream)
    (sub : Subscription) :
    Settles bus ((((bus.attach call.scope stream sub).completeScopeAdmission call.scope
      call.admission).setPhase i .opened).grantAdmissionWaiters bounds epochs) i := by
  refine ⟨.opened, nofun, (arranges_grantLoop _ _).same.2.trans ?_⟩
  unfold setPhase
  rw [calls_completeScopeAdmission]
  rfl

/-- The stream that `_stream_locked` returns is found again. -/
theorem Admission.exists_stream (h : Admission bounds bus)
    (hlocked : bus.streamLocked bounds epochs scope = some bus') :
    ∃ stream, bus'.streams.lookup scope = some stream := by
  cases hlookup : bus'.streams.lookup scope with
  | none => exact absurd (h.streamLocked hlocked).2.1 (lookup_eq_none hlookup)
  | some stream => exact ⟨stream, rfl⟩

theorem Settles.of_calls {bus₀ : Bus} (h : Settles bus bus' i) (hcalls : bus.calls = bus₀.calls) :
    Settles bus₀ bus' i := by
  obtain ⟨phase, hphase, heq⟩ := h
  refine ⟨phase, hphase, heq.trans ?_⟩
  unfold setPhase
  rw [hcalls]

theorem Admission.settles_register (h : Admission bounds bus) (i : Nat) (call : OpenCall) :
    Settles bus (bus.register bounds epochs i call) i := by
  unfold Bus.register
  cases hlocked : bus.streamLocked bounds epochs call.scope with
  | none =>
    cases call.admission with
    | none => exact settles_setPhase bus i .raised nofun
    | some future => exact settles_cancel bus i call.scope future
  | some bus' =>
    obtain ⟨stream, hstream⟩ := h.exists_stream hlocked
    dsimp only
    rw [hstream]
    exact (settles_attached bus' i call stream _).of_calls (arranges_streamLocked hlocked).same.2

theorem calls_replay (s : GeneratorBus) (g : Nat) (scope : Scope) (queue : Nat) :
    (s.replay g scope queue).bus.calls = s.bus.calls := by
  unfold GeneratorBus.replay
  split
  · split
    · rfl
    unfold getLive
    split
    · split
      · rfl
      · rfl
    · rfl
  · rfl

theorem Admission.settles_generatorRegister (h : Admission bounds s.bus) (g i : Nat)
    (generator : Generator) (call : OpenCall) :
    Settles s.bus (s.register bounds epochs g i generator call).bus i := by
  unfold GeneratorBus.register
  cases hlocked : s.bus.streamLocked bounds epochs call.scope with
  | none =>
    cases call.admission with
    | none => exact settles_setPhase s.bus i .raised nofun
    | some future => exact settles_cancel s.bus i call.scope future
  | some bus' =>
    obtain ⟨stream, hstream⟩ := h.exists_stream hlocked
    dsimp only
    rw [hstream]
    exact ((settles_attached bus' i call stream _).of_calls (arranges_streamLocked hlocked).same.2).congr
      (calls_replay _ g call.scope _)

/-! ## The law -/

/-- The call alone waits with the future. -/
def Bus.Owns (bus : Bus) (i : Nat) (scope : Scope) (future : Nat) : Prop :=
  (∃ call, bus.calls[i]? = some call ∧ call.scope = scope ∧ call.phase = .waiting future) ∧
    ∀ (j : Nat) (other : OpenCall), bus.calls[j]? = some other →
      other.phase = .waiting future → j = i

/-- The step takes the call on after its wait, or ends it. -/
inductive Moves (s : GeneratorBus) (i : Nat) : GeneratorLabel → Prop where
  | register (h : s.foreign (.register i) = true) : Moves s i (.bus (.register i))
  | abandon (h : s.foreign (.abandon i) = true) : Moves s i (.bus (.abandon i))
  | enter (g : Nat) (sinceSeq : Int) (h : s.generators[g]? = some ⟨sinceSeq, .admitting i⟩) :
    Moves s i (.enter g)
  | close (g : Nat) (sinceSeq : Int) (h : s.generators[g]? = some ⟨sinceSeq, .admitting i⟩) :
    Moves s i (.close g)

theorem exists_moves (s : GeneratorBus) (i : Nat) : ∃ l, Moves s i l := by
  cases hforeign : s.foreign (.abandon i) with
  | true => exact ⟨_, .abandon hforeign⟩
  | false =>
    unfold GeneratorBus.foreign at hforeign
    rw [all_eq_false] at hforeign
    obtain ⟨generator, hmem, hphase⟩ := hforeign
    rw [decide_eq_true_eq, not_not] at hphase
    obtain ⟨g, hg⟩ := getElem?_of_mem hmem
    refine ⟨.close g, .close g generator.sinceSeq ?_⟩
    rw [hg, ← hphase]

/-- A call that had its grant is done with its next step. -/
theorem Admission.settles_moves (h : Admission bounds s.bus) (hcall : s.bus.calls[i]? = some call)
    (hready : call.ready s.bus.futures = true) {l : GeneratorLabel} (hmoves : Moves s i l) :
    Settles s.bus (Events.generatorStep bounds epochs s l).bus i := by
  cases hmoves with
  | register hforeign =>
    simp only [Events.generatorStep, hforeign, if_true, Events.busStep, hcall, hready]
    exact h.settles_register i call
  | abandon hforeign =>
    simp only [Events.generatorStep, hforeign, if_true]
    exact settles_abandonCall hcall hready
  | enter g sinceSeq hg =>
    simp only [Events.generatorStep, hg, hcall, hready, if_true]
    exact h.settles_generatorRegister g i _ call
  | close g sinceSeq hg =>
    simp only [Events.generatorStep, hg]
    exact settles_abandonCall hcall hready

/-- In every reachable state there are at most as many streams as the bound, and each grant has
its stream among them; no future that is done was made after one that still waits; and each grant
is of one call that still waits with its future, and that gives it up with its next step. -/
theorem admission_sound (bounds : Bounds) (epochs : EpochSource) (trace : List GeneratorLabel) :
    let s := run (generatorStep bounds epochs) .init trace
    s.bus.streams.length ≤ bounds.maxScopeStreams ∧
      (∀ e ∈ s.bus.admissionGrants, (s.bus.streams.lookup e.1).isSome = true) ∧
      (∀ e ∈ s.bus.admissionWaiters, ∀ g, s.bus.futures[g]? = some .done → g < e.2) ∧
      ∀ e ∈ s.bus.admissionGrants, ∃ i, s.bus.Owns i e.1 e.2 ∧ (∃ l, Moves s i l) ∧
        ∀ l, Moves s i l →
          ∀ e' ∈ (generatorStep bounds epochs s l).bus.admissionGrants, e'.2 ≠ e.2 := by
  intro s
  have h : Admission bounds s.bus := admission_run bounds epochs trace
  refine ⟨h.bounded, ?_, h.fifo, ?_⟩
  · intro e he
    rw [Option.isSome_iff_ne_none]
    intro hnone
    exact lookup_eq_none hnone (h.granted e he).2.2
  intro e he
  obtain ⟨hdone, ⟨i, call, hcall, hscope, hphase⟩, -⟩ := h.granted e he
  have hready : call.ready s.bus.futures = true := by
    unfold OpenCall.ready
    rw [hphase]
    exact beq_iff_eq.2 hdone
  refine ⟨i, ⟨⟨call, hcall, hscope, hphase⟩, ?_⟩, exists_moves s i, ?_⟩
  · intro j other hother hf
    exact h.owners j i other call e.2 hother hcall hf hphase
  -- whoever holds a grant after the step waited with its future before
  intro l hmoves e' he' hsame
  have hsettles : Settles s.bus (generatorStep bounds epochs s l).bus i :=
    h.settles_moves hcall hready hmoves
  obtain ⟨phase, hphase', heq⟩ := hsettles
  obtain ⟨-, ⟨j, other, hother, -, hf⟩, -⟩ := (h.generatorStep l).granted e' he'
  rw [heq] at hother
  obtain ⟨hne, hother⟩ := waiting_of_setPhase hphase' hother hf
  rw [hsame] at hf
  exact hne (h.owners j i other call e.2 hother hcall hf hphase)

/-! A grant makes its stream at once: with one stream, a call that has not gone on yet holds both. -/

theorem grant_beside_stream : ¬ ∀ trace : List GeneratorLabel,
      (run (generatorStep smallBounds wordEpochs) .init trace).bus.streams.length +
        (run (generatorStep smallBounds wordEpochs) .init trace).bus.admissionGrants.length ≤
          smallBounds.maxScopeStreams := by
  intro h
  have hsum := h [.bus (.openFenced ⟨"t", "o"⟩ 0 none false)]
  revert hsum
  decide

end Events
