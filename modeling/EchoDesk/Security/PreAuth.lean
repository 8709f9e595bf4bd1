import EchoDesk.Core.Python
import EchoDesk.Foundations.Keyed
import EchoDesk.Foundations.SlidingWindow
import EchoDesk.Foundations.Tally
import EchoDesk.Foundations.Transition

/-! # Admission before authentication

`PreAuthAdmission` of `app/security/access.py`. Leases count against a global ceiling and one of
their peer, and the attempts of a peer against a window. The peers are kept in an ordered
dictionary up to a bound: when it is full, the first peer without a lease gives way, and its
attempts are forgotten. The critical sections do not suspend, so each call is one step.
-/

namespace Security.PreAuth

open EchoDesk Transition SlidingWindow Tally List Keyed

/-! ## The gate -/

/-- The arguments of the gate; times are nanoseconds of the monotonic clock. -/
structure Bounds where
  channel : String
  globalConcurrent : Nat
  peerConcurrent : Nat
  globalAttempts : Nat
  peerAttempts : Nat
  window : Int
  maxPeers : Nat
  valid : channel ≠ "" ∧ 1 ≤ globalConcurrent ∧ 1 ≤ peerConcurrent ∧ 1 ≤ globalAttempts ∧
    1 ≤ peerAttempts ∧ 0 < window ∧ 1 ≤ maxPeers

structure Peer where
  key : String
  attempts : List Int
  active : Nat
  lastSeen : Int

/-- `_peers`, the peer that came last at the end. -/
abbrev Peers : Type := Keyed Peer.key

structure Gate where
  globalWindow : List Int
  globalActive : Nat
  peers : Peers

/-- `PreAuthAdmissionError`. -/
structure AdmissionError where
  channel : String
  reason : String
  retryAfterS : Int

/-- `_trim`. -/
def trim (cutoff : Int) (window : List Int) : List Int := window.dropWhile fun t => t ≤ cutoff

def retryAfter (bounds : Bounds) (window : List Int) (now : Int) : Int :=
  match window with
  | [] => 1
  | first :: _ => max 1 ((first + bounds.window - now) / 1000000000)

/-- The peer that gives way to a new one. -/
def victim? (bounds : Bounds) (peers : Peers) (key : String) : Option Peer :=
  if (peers.get? key).isNone ∧ bounds.maxPeers ≤ peers.rows.length then
    peers.rows.find? fun peer => peer.active = 0
  else none

/-- `_peer_locked`: the peer, which goes to the end, and the others; none without room for it. -/
def peerLocked (bounds : Bounds) (peers : Peers) (key : String) (now : Int) :
    Option (Peer × Peers) :=
  match peers.get? key with
  | some peer => some (peer, peers.erase key)
  | none =>
    if bounds.maxPeers ≤ peers.rows.length then
      match peers.rows.find? fun peer => peer.active = 0 with
      | none => none
      | some victim => some (⟨key, [], 0, now⟩, peers.erase victim.key)
    else some (⟨key, [], 0, now⟩, peers)

/-- `peer_key.strip() or "unknown"`. -/
def peerKey (key : String) : String := if strip key = "" then "unknown" else strip key

/-- `acquire`; a lease is the key of its peer. -/
def acquire (bounds : Bounds) (gate : Gate) (now : Int) (key : String) :
    Except AdmissionError Unit × Gate :=
  let cutoff := now - bounds.window
  let window := trim cutoff gate.globalWindow
  match peerLocked bounds gate.peers (peerKey key) now with
  | none => (.error ⟨bounds.channel, "capacity", 1⟩, { gate with globalWindow := window })
  | some (peer, others) =>
    let attempts := trim cutoff peer.attempts
    if bounds.globalAttempts ≤ window.length then
      (.error ⟨bounds.channel, "rate limit", retryAfter bounds window now⟩,
        ⟨window, gate.globalActive, others.put ⟨peer.key, attempts, peer.active, now⟩⟩)
    else if bounds.peerAttempts ≤ attempts.length then
      (.error ⟨bounds.channel, "rate limit", retryAfter bounds attempts now⟩,
        ⟨window, gate.globalActive, others.put ⟨peer.key, attempts, peer.active, now⟩⟩)
    else if bounds.globalConcurrent ≤ gate.globalActive ∨ bounds.peerConcurrent ≤ peer.active then
      -- a rejection for capacity uses up the rate as well
      (.error ⟨bounds.channel, "capacity", 1⟩, ⟨window ++ [now], gate.globalActive,
        others.put ⟨peer.key, attempts ++ [now], peer.active, now⟩⟩)
    else
      (.ok (), ⟨window ++ [now], gate.globalActive + 1,
        others.put ⟨peer.key, attempts ++ [now], peer.active + 1, now⟩⟩)

/-- `_release`; none when it returns early. -/
def release (gate : Gate) (now : Int) (key : String) : Option Gate :=
  match gate.peers.get? key with
  | none => none
  | some peer =>
    if peer.active < 1 then none
    else some { gate with
      globalActive := gate.globalActive - 1
      peers := gate.peers.put ⟨peer.key, peer.attempts, peer.active - 1, now⟩ }

/-! ## Steps -/

/-- `_PreAuthAdmissionLease`, and when it was given. -/
structure Lease where
  key : String
  admitted : Int
  released : Bool

structure System where
  now : Int
  gate : Gate
  leases : List Lease
  /-- The leases that the gate has taken back. -/
  returned : List Nat

def System.init (now : Int) : System := ⟨now, ⟨[], 0, Keyed.empty⟩, [], []⟩

/-- A call, some time after the one before it. -/
inductive Label where
  | acquire (elapsed : Nat) (key : String)
  | release (elapsed : Nat) (lease : Nat)

def step (bounds : Bounds) (s : System) : Label → System
  | .acquire elapsed key =>
    let now := s.now + elapsed
    match PreAuth.acquire bounds s.gate now key with
    | (.error _, gate) => { s with now := now, gate := gate }
    | (.ok _, gate) =>
      { s with now := now, gate := gate, leases := s.leases ++ [⟨peerKey key, now, false⟩] }
  | .release elapsed i =>
    let now := s.now + elapsed
    match s.leases[i]? with
    | none => { s with now := now }
    | some lease =>
      if lease.released then { s with now := now }
      else
        let leases := s.leases.set i { lease with released := true }
        match PreAuth.release s.gate now lease.key with
        | none => { s with now := now, leases := leases }
        | some gate => ⟨now, gate, leases, s.returned ++ [i]⟩

def activeOf (peers : Peers) (key : String) : Nat := ((peers.get? key).map Peer.active).getD 0

def attemptsOf (peers : Peers) (key : String) : List Int :=
  ((peers.get? key).map Peer.attempts).getD []

/-- The lease of a peer is not given back. -/
def Lease.held (key : String) (lease : Lease) : Bool := lease.key = key ∧ lease.released = false

/-- The times at which leases were given to a peer. -/
def System.admittedOf (s : System) (key : String) : List Int :=
  (s.leases.filter fun lease => lease.key = key).map Lease.admitted

/-- The counts are those of the leases that are held, within their bounds, and the gate has taken
back each released lease once. -/
structure Accounted (bounds : Bounds) (s : System) : Prop where
  total : s.gate.globalActive = total Peer.active s.gate.peers.rows
  globalBound : s.gate.globalActive ≤ bounds.globalConcurrent
  peerBound : ∀ peer ∈ s.gate.peers, peer.active ≤ bounds.peerConcurrent
  held : ∀ key, activeOf s.gate.peers key = s.leases.countP (Lease.held key)
  once : s.returned.Nodup
  returned : ∀ i, i ∈ s.returned ↔ ∃ lease, s.leases[i]? = some lease ∧ lease.released = true
  tracked : ∀ lease ∈ s.leases, lease.released = false →
    ∃ peer ∈ s.gate.peers, peer.key = lease.key ∧ 1 ≤ peer.active

/-- No window holds more leases of a peer than its attempts are limited to. -/
def RateLimited (bounds : Bounds) (s : System) : Prop :=
  ∀ key, Limited bounds.window bounds.peerAttempts (s.admittedOf key)

/-- A peer that gives way has no attempt in the window. -/
def Idle (bounds : Bounds) (s : System) : Label → Prop
  | .acquire elapsed key => ∀ victim ∈ victim? bounds s.gate.peers (peerKey key),
    ∀ t ∈ victim.attempts, t ≤ s.now + elapsed - bounds.window
  | .release _ _ => True

instance (bounds : Bounds) (s : System) : (l : Label) → Decidable (Idle bounds s l)
  | .acquire _ _ => inferInstanceAs (Decidable (∀ _ ∈ _, _))
  | .release _ _ => .isTrue trivial

/-! ## What a call does -/

variable {bounds : Bounds} {s : System} {peers others : Peers} {peer : Peer} {key : String}
variable {now : Int}
variable {returned : List Nat} {gate : Gate}

theorem activeOf_put (peers : Peers) (peer : Peer) (key : String) :
    activeOf (peers.put peer) key = if key = peer.key then peer.active else activeOf peers key := by
  unfold activeOf
  rw [get?_put]
  split
  · rfl
  · rfl

theorem attemptsOf_put (peers : Peers) (peer : Peer) (key : String) :
    attemptsOf (peers.put peer) key =
      if key = peer.key then peer.attempts else attemptsOf peers key := by
  unfold attemptsOf
  rw [get?_put]
  split
  · rfl
  · rfl

/-- Taking a peer out takes its count out. -/
theorem total_erase (hpeer : peers.get? peer.key = some peer) :
    total Peer.active peers.rows = peer.active + total Peer.active (peers.erase peer.key).rows := by
  have hperm := perm_put peers peer
  rw [put_self hpeer] at hperm
  unfold total
  rw [(hperm.map Peer.active).sum_eq]
  rfl

theorem total_put (peers : Peers) (peer : Peer) : total Peer.active (peers.put peer).rows =
    peer.active + total Peer.active (peers.erase peer.key).rows := by
  unfold total
  rw [((perm_put peers peer).map Peer.active).sum_eq]
  rfl

/-- The peer comes with what is kept of it, and at most one other goes: without a lease. -/
theorem peerLocked_cases (h : peerLocked bounds peers key now = some (peer, others)) :
    (peer.key = key ∧ others.get? key = none) ∧
    (peer.active = activeOf peers key ∧ peer.attempts = attemptsOf peers key) ∧
    total Peer.active peers.rows = peer.active + total Peer.active others.rows ∧
    (∀ q ∈ others, q ∈ peers) ∧
    ∀ k, k ≠ key → others.get? k = peers.get? k ∨ others.get? k = none ∧
      ∃ victim ∈ victim? bounds peers key, peers.get? k = some victim ∧ victim.active = 0 := by
  unfold peerLocked at h
  split at h
  · rename_i found hfound
    cases h
    have hkey := (mem_get?.1 hfound).2
    subst hkey
    refine ⟨⟨rfl, by rw [get?_erase, if_pos rfl]⟩, ?_, total_erase hfound, ?_, ?_⟩
    · unfold activeOf attemptsOf
      rw [hfound]
      exact ⟨rfl, rfl⟩
    · exact fun q hq => (mem_erase.1 hq).1
    · intro k hk
      rw [get?_erase, if_neg hk]
      exact .inl rfl
  rename_i hnone
  have hnew : activeOf peers key = 0 ∧ attemptsOf peers key = [] := by
    unfold activeOf attemptsOf
    rw [hnone]
    exact ⟨rfl, rfl⟩
  split at h
  · rename_i hfull
    split at h
    · cases h
    rename_i victim hvictim
    cases h
    have hmem : victim ∈ peers := mem_of_find?_eq_some hvictim
    have hidle : victim.active = 0 := by simpa using find?_some hvictim
    have hget : peers.get? victim.key = some victim := mem_get?.2 ⟨hmem, rfl⟩
    refine ⟨⟨rfl, ?_⟩, ⟨hnew.1.symm, hnew.2.symm⟩, ?_, ?_, ?_⟩
    · rw [get?_erase, hnone, ite_self]
    · rw [total_erase hget, hidle]
    · exact fun q hq => (mem_erase.1 hq).1
    intro k _
    rw [get?_erase]
    split
    · rename_i hk
      have hwhich : victim? bounds peers key = some victim := by
        rw [victim?, if_pos ⟨by rw [hnone]; rfl, hfull⟩]
        exact hvictim
      exact .inr ⟨rfl, victim, hwhich, by rw [hk]; exact hget, hidle⟩
    · exact .inl rfl
  · cases h
    exact ⟨⟨rfl, hnone⟩, ⟨hnew.1.symm, hnew.2.symm⟩, (Nat.zero_add _).symm, fun q hq => hq,
      fun k _ => .inl rfl⟩

/-- A call fails before it reaches the peers, or writes its peer: with a lease that has room, or
without one. -/
theorem acquire_cases (bounds : Bounds) (gate : Gate) (now : Int) (key : String) :
    (∃ e window, acquire bounds gate now key = (.error e, { gate with globalWindow := window })) ∨
    ∃ peer others window attempts,
      peerLocked bounds gate.peers (peerKey key) now = some (peer, others) ∧
      ((∃ e, acquire bounds gate now key = (.error e, ⟨window, gate.globalActive,
          others.put ⟨peer.key, attempts, peer.active, now⟩⟩) ∧
          ∃ more, attempts = trim (now - bounds.window) peer.attempts ++ more ∧
            (more = [] ∨ more = [now])) ∨
        (acquire bounds gate now key = (.ok (), ⟨window, gate.globalActive + 1,
            others.put ⟨peer.key, attempts, peer.active + 1, now⟩⟩) ∧
          attempts = trim (now - bounds.window) peer.attempts ++ [now] ∧
          (trim (now - bounds.window) peer.attempts).length < bounds.peerAttempts ∧
          gate.globalActive < bounds.globalConcurrent ∧ peer.active < bounds.peerConcurrent)) := by
  unfold acquire
  cases hlocked : peerLocked bounds gate.peers (peerKey key) now with
  | none => exact .inl ⟨_, _, rfl⟩
  | some locked =>
    obtain ⟨peer, others⟩ := locked
    right
    dsimp only
    by_cases hglobal : bounds.globalAttempts ≤ (trim (now - bounds.window) gate.globalWindow).length
    · rw [if_pos hglobal]
      exact ⟨peer, others, _, _, rfl, .inl ⟨_, rfl, [], (append_nil _).symm, .inl rfl⟩⟩
    rw [if_neg hglobal]
    by_cases hpeer : bounds.peerAttempts ≤ (trim (now - bounds.window) peer.attempts).length
    · rw [if_pos hpeer]
      exact ⟨peer, others, _, _, rfl, .inl ⟨_, rfl, [], (append_nil _).symm, .inl rfl⟩⟩
    rw [if_neg hpeer]
    by_cases hfull : bounds.globalConcurrent ≤ gate.globalActive ∨
        bounds.peerConcurrent ≤ peer.active
    · rw [if_pos hfull]
      exact ⟨peer, others, _, _, rfl, .inl ⟨_, rfl, [now], rfl, .inr rfl⟩⟩
    · rw [if_neg hfull]
      exact ⟨peer, others, _, _, rfl, .inr ⟨rfl, rfl, by omega, by omega, by omega⟩⟩

/-! ## Accounting -/

theorem accounted_init (bounds : Bounds) (now : Int) : Accounted bounds (.init now) where
  total := rfl
  globalBound := Nat.zero_le _
  peerBound _ h := absurd h (not_mem_empty _)
  held _ := rfl
  once := nodup_nil
  returned i := by simp [System.init]
  tracked _ h := absurd h not_mem_nil

variable {leases : List Lease} {lease : Lease}

/-- A peer whose lease is held is one that the counts know. -/
theorem exists_tracked (h : ∀ key, activeOf peers key = leases.countP (Lease.held key))
    (hlease : lease ∈ leases) (hheld : lease.released = false) :
    ∃ peer ∈ peers, peer.key = lease.key ∧ 1 ≤ peer.active := by
  have hcount : 0 < leases.countP (Lease.held lease.key) :=
    countP_pos_iff.2 ⟨lease, hlease, by simp [Lease.held, hheld]⟩
  rw [← h, activeOf] at hcount
  cases hget : peers.get? lease.key with
  | none =>
    rw [hget] at hcount
    cases hcount
  | some peer =>
    rw [hget] at hcount
    obtain ⟨hmem, hkey⟩ := mem_get?.1 hget
    exact ⟨peer, hmem, hkey, hcount⟩

/-- The peer is written back with the leases it has been given. -/
theorem Accounted.admit (h : Accounted bounds s) (window attempts : List Int) {new : List Lease}
    (hlocked : peerLocked bounds s.gate.peers key now = some (peer, others))
    (hnew : ∀ lease ∈ new, lease.key = key ∧ lease.released = false)
    (hglobal : s.gate.globalActive + new.length ≤ bounds.globalConcurrent)
    (hpeer : peer.active + new.length ≤ bounds.peerConcurrent) :
    Accounted bounds ⟨now, ⟨window, s.gate.globalActive + new.length,
      others.put ⟨peer.key, attempts, peer.active + new.length, now⟩⟩, s.leases ++ new,
      s.returned⟩ := by
  obtain ⟨⟨rfl, hfresh⟩, ⟨hactive, -⟩, htotal, hsub, hothers⟩ := peerLocked_cases hlocked
  have hheld : ∀ k, activeOf (others.put ⟨peer.key, attempts, peer.active + new.length, now⟩) k =
      (s.leases ++ new).countP (Lease.held k) := by
    intro k
    rw [activeOf_put, countP_append, ← h.held]
    split
    · rename_i hk
      have hall : new.countP (Lease.held k) = new.length := by
        refine countP_eq_length.2 ?_
        intro lease hlease
        simp [Lease.held, hnew lease hlease, hk]
      rw [hall, hk, ← hactive]
    rename_i hk
    have hnone : new.countP (Lease.held k) = 0 := by
      refine countP_eq_zero.2 ?_
      intro lease hlease
      simp [Lease.held, hnew lease hlease, Ne.symm hk]
    rw [hnone, Nat.add_zero]
    -- the peer that gives way has no lease
    unfold activeOf
    rcases hothers k hk with hsame | ⟨hgone, victim, -, hvictim, hidle⟩
    · rw [hsame]
    · rw [hgone, hvictim]
      exact hidle.symm
  constructor
  · show s.gate.globalActive + new.length = _
    rw [total_put, erase_of_get?_none hfresh, h.total, htotal]
    show _ = peer.active + new.length + _
    omega
  · exact hglobal
  · intro q hq
    rcases mem_put.1 hq with rfl | ⟨hq, -⟩
    · exact hpeer
    · exact h.peerBound q (hsub q hq)
  · exact hheld
  · exact h.once
  · intro i
    rw [h.returned]
    constructor
    · rintro ⟨lease, hlease, hreleased⟩
      exact ⟨lease, getElem?_append_left (List.getElem?_eq_some_iff.1 hlease).1 ▸ hlease, hreleased⟩
    rintro ⟨lease, hlease, hreleased⟩
    rw [getElem?_append] at hlease
    split at hlease
    · exact ⟨lease, hlease, hreleased⟩
    have hfalse := (hnew lease (mem_of_getElem? hlease)).2
    rw [hreleased] at hfalse
    cases hfalse
  · exact fun lease hlease => exists_tracked hheld hlease

/-- A call that changes the windows and the clock only. -/
theorem Accounted.wait (h : Accounted bounds s) (now : Int) (window : List Int) :
    Accounted bounds { s with now := now, gate := { s.gate with globalWindow := window } } :=
  ⟨h.total, h.globalBound, h.peerBound, h.held, h.once, h.returned, h.tracked⟩

/-- A lease that is held is taken back. -/
theorem Accounted.takeBack (h : Accounted bounds s) {i : Nat} (hlease : s.leases[i]? = some lease)
    (hheld : lease.released = false) :
    ∃ peer, s.gate.peers.get? lease.key = some peer ∧
      release s.gate now lease.key = some { s.gate with
        globalActive := s.gate.globalActive - 1
        peers := s.gate.peers.put ⟨peer.key, peer.attempts, peer.active - 1, now⟩ } ∧
      Accounted bounds ⟨now, { s.gate with
        globalActive := s.gate.globalActive - 1
        peers := s.gate.peers.put ⟨peer.key, peer.attempts, peer.active - 1, now⟩ },
        s.leases.set i { lease with released := true }, s.returned ++ [i]⟩ := by
  obtain ⟨peer, hpeer, hkey, hactive⟩ := h.tracked lease (mem_of_getElem? hlease) hheld
  have hget : s.gate.peers.get? lease.key = some peer := mem_get?.2 ⟨hpeer, hkey⟩
  obtain ⟨hi, hentry⟩ := List.getElem?_eq_some_iff.1 hlease
  have hcount : ∀ k, activeOf (s.gate.peers.put ⟨peer.key, peer.attempts, peer.active - 1, now⟩) k =
      (s.leases.set i { lease with released := true }).countP (Lease.held k) := by
    intro k
    rw [activeOf_put, countP_set hi, ← h.held, hentry]
    have hgone : Lease.held k { lease with released := true } = false := by simp [Lease.held]
    rw [hgone]
    split
    · rename_i hk
      have hk : k = lease.key := Eq.trans hk hkey
      have hmine : Lease.held k lease = true := by simp [Lease.held, hheld, hk]
      rw [hmine, hk, activeOf, hget]
      rfl
    rename_i hk
    have hother : Lease.held k lease = false := by
      simp only [Lease.held, hheld, decide_eq_false_iff_not, not_and]
      exact fun heq => absurd (heq.symm.trans hkey.symm) hk
    rw [hother]
    rfl
  refine ⟨peer, hget, ?_, ?_⟩
  · unfold release
    rw [hget]
    dsimp only
    rw [if_neg (by omega)]
  have htotal := h.total
  rw [total_erase (by rw [hkey]; exact hget)] at htotal
  constructor
  · show s.gate.globalActive - 1 = _
    rw [total_put]
    show _ = peer.active - 1 + Tally.total Peer.active (s.gate.peers.erase peer.key).rows
    omega
  · exact (Nat.sub_le _ _).trans h.globalBound
  · intro q hq
    rcases mem_put.1 hq with rfl | ⟨hq, -⟩
    · exact (Nat.sub_le _ _).trans (h.peerBound peer hpeer)
    · exact h.peerBound q hq
  · exact hcount
  · rw [nodup_append]
    refine ⟨h.once, nodup_singleton i, ?_⟩
    intro j hj j' hj' heq
    rw [heq, mem_singleton.1 hj'] at hj
    obtain ⟨other, hother, hreleased⟩ := (h.returned i).1 hj
    rw [hlease] at hother
    cases hother
    rw [hheld] at hreleased
    cases hreleased
  · intro j
    rw [mem_append, mem_singleton, h.returned]
    by_cases hj : j = i
    · subst hj
      rw [getElem?_set_self hi]
      exact ⟨fun _ => ⟨_, rfl, rfl⟩, fun _ => .inr rfl⟩
    · rw [getElem?_set_ne (Ne.symm hj)]
      exact ⟨fun hor => hor.resolve_right hj, .inl⟩
  · exact fun other hother => exists_tracked hcount hother

theorem accounted_step (s : System) (l : Label) (h : Accounted bounds s) :
    Accounted bounds (step bounds s l) := by
  cases l with
  | acquire elapsed key =>
    unfold step
    dsimp only
    rcases acquire_cases bounds s.gate (s.now + elapsed) key with
      ⟨e, window, heq⟩ | ⟨peer, others, window, attempts, hlocked, ⟨e, heq, -⟩ | ⟨heq, -, -, hglobal,
        hpeer⟩⟩
    · rw [heq]
      exact h.wait _ window
    · rw [heq]
      have hactive := (peerLocked_cases hlocked).2.1.1
      have hbound : peer.active ≤ bounds.peerConcurrent := by
        rw [hactive, activeOf]
        cases hget : s.gate.peers.get? (peerKey key) with
        | none => exact Nat.zero_le _
        | some old => exact h.peerBound old (mem_get?.1 hget).1
      have hnone : ∀ lease ∈ ([] : List Lease), lease.key = peerKey key ∧ lease.released = false :=
        fun _ hlease => by cases hlease
      have hkept := h.admit window attempts hlocked hnone h.globalBound hbound
      rw [append_nil] at hkept
      exact hkept
    · rw [heq]
      have hone : ∀ lease ∈ [Lease.mk (peerKey key) (s.now + elapsed) false],
          lease.key = peerKey key ∧ lease.released = false := by
        intro lease hlease
        rw [mem_singleton.1 hlease]
        exact ⟨rfl, rfl⟩
      exact h.admit window attempts hlocked hone hglobal hpeer
  | release elapsed i =>
    unfold step
    dsimp only
    split
    · exact h.wait _ _
    rename_i lease hlease
    split
    · exact h.wait _ _
    rename_i hheld
    obtain ⟨peer, -, hrelease, hnext⟩ := h.takeBack hlease (Bool.eq_false_iff.2 hheld)
    rw [hrelease]
    exact hnext

/-! ## The rate -/

/-- The attempts of a peer are in order, and its leases of the last window are among them. -/
structure Timed (bounds : Bounds) (s : System) : Prop where
  sorted : ∀ peer ∈ s.gate.peers, peer.attempts.Pairwise (· ≤ ·) ∧ ∀ t ∈ peer.attempts, t ≤ s.now
  kept : ∀ key, (recent bounds.window s.now (s.admittedOf key)).Sublist
    (recent bounds.window s.now (attemptsOf s.gate.peers key))
  limited : RateLimited bounds s

theorem timed_init (bounds : Bounds) (now : Int) : Timed bounds (.init now) where
  sorted _ h := absurd h (not_mem_empty _)
  kept _ := .slnil
  limited _ := limited_nil

theorem Timed.kept_later (h : Timed bounds s) (hnow : s.now ≤ now) (key : String) :
    (recent bounds.window now (s.admittedOf key)).Sublist
      (recent bounds.window now (attemptsOf s.gate.peers key)) := by
  rw [← recent_recent hnow, ← recent_recent hnow (attemptsOf s.gate.peers key)]
  exact (h.kept key).filter _

/-- Time passes, and the gate keeps the attempts of its peers. -/
theorem Timed.wait (h : Timed bounds s) (hnow : s.now ≤ now)
    (hpeers : ∀ q ∈ gate.peers, ∃ q' ∈ s.gate.peers, q.attempts = q'.attempts)
    (hattempts : ∀ key, attemptsOf gate.peers key = attemptsOf s.gate.peers key)
    (hleases : ∀ key, System.admittedOf ⟨now, gate, leases, returned⟩ key = s.admittedOf key) :
    Timed bounds ⟨now, gate, leases, returned⟩ := by
  constructor
  · intro q hq
    obtain ⟨q', hq', heq⟩ := hpeers q hq
    rw [heq]
    exact ⟨(h.sorted q' hq').1, fun t ht => ((h.sorted q' hq').2 t ht).trans hnow⟩
  · intro k
    rw [hleases]
    rw [hattempts]
    exact h.kept_later hnow k
  · intro k
    rw [hleases]
    exact h.limited k

/-- A lease that is released was given all the same. -/
theorem admitted_set {i : Nat} (h : leases[i]? = some lease) (key : String) :
    ((leases.set i { lease with released := true }).filter fun l => l.key = key).map
      Lease.admitted = (leases.filter fun l => l.key = key).map Lease.admitted := by
  induction leases generalizing i with
  | nil => cases h
  | cons head rest ih =>
    cases i with
    | zero =>
      cases h
      rw [set_cons_zero, filter_cons, filter_cons]
      split
      · rfl
      · rfl
    | succ i =>
      rw [set_cons_succ, filter_cons, filter_cons]
      split
      · exact congrArg (head.admitted :: ·) (ih h)
      · exact ih h

/-- A peer is written back with what is left of its attempts, and more of them. -/
theorem Timed.write (h : Timed bounds s) (hnow : s.now ≤ now) {active : Nat} {more : List Int}
    (hlocked : peerLocked bounds s.gate.peers key now = some (peer, others))
    (hidle : ∀ victim ∈ victim? bounds s.gate.peers key, ∀ t ∈ victim.attempts,
      t ≤ now - bounds.window) (hmore : more = [] ∨ more = [now]) (hpeers : gate.peers = others.put
      ⟨peer.key, trim (now - bounds.window) peer.attempts ++ more, active, now⟩)
    (hleases : ∀ k, System.admittedOf ⟨now, gate, leases, returned⟩ k = s.admittedOf k ∨
      k = key ∧ more = [now] ∧ System.admittedOf ⟨now, gate, leases, returned⟩ k =
        s.admittedOf k ++ [now] ∧
        (trim (now - bounds.window) peer.attempts).length < bounds.peerAttempts) :
    Timed bounds ⟨now, gate, leases, returned⟩ := by
  obtain ⟨⟨rfl, hfresh⟩, ⟨-, hattempts⟩, -, hsub, hothers⟩ := peerLocked_cases hlocked
  have hsorted : peer.attempts.Pairwise (· ≤ ·) ∧ ∀ t ∈ peer.attempts, t ≤ s.now := by
    rw [hattempts, attemptsOf]
    cases hget : s.gate.peers.get? peer.key with
    | none => exact ⟨.nil, fun _ ht => absurd ht not_mem_nil⟩
    | some old => exact h.sorted old (mem_get?.1 hget).1
  have htrim : trim (now - bounds.window) peer.attempts =
      recent bounds.window now (attemptsOf s.gate.peers peer.key) := by
    rw [← hattempts]
    exact dropWhile_eq_recent hsorted.1
  have hmine : attemptsOf gate.peers peer.key =
      recent bounds.window now (attemptsOf s.gate.peers peer.key) ++ more := by
    rw [hpeers, attemptsOf_put, if_pos rfl, htrim]
  have htwice : recent bounds.window now (recent bounds.window now
      (attemptsOf s.gate.peers peer.key)) =
      recent bounds.window now (attemptsOf s.gate.peers peer.key) := recent_recent le_rfl _
  constructor
  · intro q hq
    rw [hpeers] at hq
    rcases mem_put.1 hq with rfl | ⟨hq, -⟩
    · have hold : ∀ t ∈ trim (now - bounds.window) peer.attempts, t ≤ now := by
        intro t ht
        exact (hsorted.2 t ((dropWhile_sublist _).subset ht)).trans hnow
      have hpair := hsorted.1.sublist (dropWhile_sublist fun t => t ≤ now - bounds.window)
      rcases hmore with rfl | rfl
      · rw [append_nil]
        exact ⟨hpair, hold⟩
      refine ⟨pairwise_append.2 ⟨hpair, pairwise_singleton _ _, ?_⟩, ?_⟩
      · intro t ht t' ht'
        rw [mem_singleton.1 ht']
        exact hold t ht
      · intro t ht
        rcases mem_append.1 ht with ht | ht
        · exact hold t ht
        · exact Int.le_of_eq (mem_singleton.1 ht)
    · exact ⟨(h.sorted q (hsub q hq)).1, fun t ht => ((h.sorted q (hsub q hq)).2 t ht).trans hnow⟩
  · intro k
    rcases hleases k with heq | ⟨rfl, rfl, heq, -⟩
    · rw [heq]
      have hlater := h.kept_later hnow k
      by_cases hk : k = peer.key
      · subst hk
        rw [hmine, recent_append, htwice]
        exact hlater.trans (sublist_append_left _ _)
      rw [hpeers, attemptsOf_put, if_neg hk]
      rcases hothers k hk with hsame | ⟨hgone, victim, hvictim, hget, -⟩
      · rw [attemptsOf, hsame]
        exact hlater
      -- what is forgotten of the victim is old
      have hold : recent bounds.window now (attemptsOf s.gate.peers k) = [] := by
        rw [attemptsOf, hget]
        refine filter_eq_nil_iff.2 ?_
        intro t ht
        simpa using hidle victim hvictim t ht
      rw [hold] at hlater
      rw [sublist_nil.1 hlater]
      exact nil_sublist _
    · rw [heq, hmine, recent_append, recent_append, htwice]
      exact (h.kept_later hnow peer.key).append_right _
  · intro k
    rcases hleases k with heq | ⟨rfl, -, heq, hroom⟩
    · rw [heq]
      exact h.limited k
    · rw [heq]
      rw [htrim] at hroom
      exact (h.limited _).append ((h.kept_later hnow _).length_le.trans_lt hroom)

theorem timed_step (s : System) (l : Label) (hidle : Idle bounds s l) (h : Timed bounds s) :
    Timed bounds (step bounds s l) := by
  cases l with
  | acquire elapsed key =>
    have hnow : s.now ≤ s.now + elapsed := by omega
    unfold step
    dsimp only
    rcases acquire_cases bounds s.gate (s.now + elapsed) key with
      ⟨e, window, heq⟩ | ⟨peer, others, window, attempts, hlocked,
        ⟨e, heq, more, rfl, hmore⟩ | ⟨heq, rfl, hroom, -, -⟩⟩
    · rw [heq]
      exact h.wait hnow (fun q hq => ⟨q, hq, rfl⟩) (fun _ => rfl) fun _ => rfl
    · rw [heq]
      exact h.write hnow hlocked hidle hmore rfl fun _ => .inl rfl
    rw [heq]
    refine h.write hnow hlocked hidle (.inr rfl) rfl ?_
    intro k
    unfold System.admittedOf
    rw [filter_append, map_append]
    by_cases hk : k = peerKey key
    · exact .inr ⟨hk, rfl, by simp [hk], hroom⟩
    · exact .inl (by simp [Ne.symm hk])
  | release elapsed i =>
    have hnow : s.now ≤ s.now + elapsed := by omega
    unfold step
    dsimp only
    split
    · exact h.wait hnow (fun q hq => ⟨q, hq, rfl⟩) (fun _ => rfl) fun _ => rfl
    rename_i lease hlease
    split
    · exact h.wait hnow (fun q hq => ⟨q, hq, rfl⟩) (fun _ => rfl) fun _ => rfl
    split
    · exact h.wait hnow (fun q hq => ⟨q, hq, rfl⟩) (fun _ => rfl) (admitted_set hlease)
    rename_i gate hrelease
    unfold release at hrelease
    split at hrelease
    · cases hrelease
    rename_i peer hget
    split at hrelease
    · cases hrelease
    cases hrelease
    obtain ⟨hpeer, hkey⟩ := mem_get?.1 hget
    refine h.wait hnow ?_ ?_ (admitted_set hlease)
    · intro q hq
      rcases mem_put.1 hq with rfl | ⟨hq, -⟩
      · exact ⟨peer, hpeer, rfl⟩
      · exact ⟨q, hq, rfl⟩
    intro k
    rw [attemptsOf_put]
    split
    · rename_i hk
      rw [attemptsOf, Eq.trans hk hkey, hget]
      rfl
    · rfl

/-! ## Runs -/

/-- Every run accounts for its leases; and while the peers that give way have no attempt in the
window, no window holds more leases of a peer than its limit. -/
theorem admission_accounted (bounds : Bounds) (now : Int) (trace : List Label) :
    Accounted bounds (run (step bounds) (.init now) trace) ∧
      (Meets (step bounds) (Idle bounds) (.init now) trace →
        RateLimited bounds (run (step bounds) (.init now) trace)) := by
  have haccounted : ∀ s l, Accounted bounds s → Accounted bounds (step bounds s l) :=
    fun s l h => accounted_step s l h
  have htimed : ∀ s l, Idle bounds s l → Timed bounds s → Timed bounds (step bounds s l) :=
    fun s l hl h => timed_step s l hl h
  refine ⟨run_invariant haccounted (accounted_init bounds now) trace, fun hidle => ?_⟩
  exact (run_invariant_of_meets htimed hidle (timed_init bounds now)).limited

/-- One attempt in a second, and room for one peer. -/
def onePeer : Bounds := ⟨"http", 4, 2, 8, 1, 1000000000, 1, by decide⟩

/-- Two peers a second apart, and a lease that is released twice. -/
def apart : List Label := [.acquire 0 "a", .release 1 0, .release 1 0, .acquire 1000000000 "b"]

theorem admission_accounted_apart : Accounted onePeer (run (step onePeer) (.init 0) apart) ∧
    RateLimited onePeer (run (step onePeer) (.init 0) apart) :=
  ⟨(admission_accounted onePeer 0 apart).1,
    (admission_accounted onePeer 0 apart).2 (by decide +kernel)⟩

/-- Between two attempts of a peer another one comes, and the first is forgotten. -/
def between : List Label :=
  [.acquire 0 "a", .release 1 0, .acquire 1 "b", .release 1 1, .acquire 1 "a"]

theorem admission_breaks : ¬ ∀ (bounds : Bounds) (now : Int) (trace : List Label),
    Accounted bounds (run (step bounds) (.init now) trace) ∧
      RateLimited bounds (run (step bounds) (.init now) trace) := by
  intro h
  have hlimited := (h onePeer 0 between).2 "a" (-1)
  revert hlimited
  decide +kernel

end Security.PreAuth
