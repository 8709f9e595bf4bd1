import EchoDesk.Foundations.Keyed
import EchoDesk.Foundations.SlidingWindow
import EchoDesk.Foundations.Transition
import EchoDesk.Security.Governor
import Mathlib.Algebra.Order.Group.Int

/-! # The rate of WebSocket frames

`admit_websocket_frame` of `app/security/governor.py`. The times of the frames that were
admitted for a principal within the last second are kept in an ordered dictionary, which
holds the scopes that were used last, up to a bound.
-/

namespace Security

open EchoDesk Transition SlidingWindow List Option

/-- `1.0` second of the monotonic clock, in nanoseconds. -/
def framePeriod : Int := 1000000000

/-- An entry of `_websocket_frames`. -/
structure FrameTimes where
  scope : Scope
  times : List Int

/-- `_websocket_frames`, the entry that was used last at the end. -/
abbrev FrameWindows : Type := Keyed FrameTimes.scope

/-- The settings of the limit. -/
structure FrameLimits where
  clientFramesPerSecond : Nat
  scopeMaxStreams : Nat
  clientFramesPerSecond_pos : 1 ≤ clientFramesPerSecond
  scopeMaxStreams_pos : 1 ≤ scopeMaxStreams

/-- `QuotaExceeded` for `websocket_frames`. -/
structure FrameQuotaExceeded where
  limit : Nat
  used : Nat
  retryAfterS : Nat

/-- An entry without its old frames, if any are left. -/
def FrameTimes.prune (cutoff : Int) (entry : FrameTimes) : Option FrameTimes :=
  let times := entry.times.dropWhile fun t => t ≤ cutoff
  if times = [] then none else some ⟨entry.scope, times⟩

theorem FrameTimes.scope_of_prune {cutoff : Int} {entry pruned : FrameTimes}
    (h : entry.prune cutoff = some pruned) : pruned.scope = entry.scope := by
  unfold FrameTimes.prune at h
  dsimp only at h
  split at h
  · cases h
  · rw [← some.inj h]

/-- The entries without their old frames, and without those that have no others. -/
def pruneFrames (cutoff : Int) (windows : FrameWindows) : FrameWindows :=
  windows.filterMap (FrameTimes.prune cutoff) fun _ _ h => FrameTimes.scope_of_prune h

/-- The times of a scope. -/
def timesOf (windows : FrameWindows) (scope : Scope) : List Int :=
  ((windows.get? scope).map FrameTimes.times).getD []

/-- `admit_websocket_frame` at the time `now`. -/
def admitFrame (limits : FrameLimits) (windows : FrameWindows) (now : Int) (principal : Caller) :
    Except FrameQuotaExceeded Unit × FrameWindows :=
  if !isGoverned principal then (.ok (), windows)
  else
    let windows := pruneFrames (now - framePeriod) windows
    let times := timesOf windows principal.scope
    let others := windows.erase principal.scope
    if limits.clientFramesPerSecond ≤ times.length then
      (.error ⟨limits.clientFramesPerSecond, times.length, 1⟩, others.put ⟨principal.scope, times⟩)
    else
      (.ok (), (others.put ⟨principal.scope, times ++ [now]⟩).takeLast limits.scopeMaxStreams)

/-! ## Runs -/

/-- The clock, the windows, and the frames of governed principals that were admitted. -/
structure FrameSystem where
  now : Int
  windows : FrameWindows
  admitted : List (Scope × Int)

def FrameSystem.init (now : Int) : FrameSystem := ⟨now, Keyed.empty, []⟩

/-- A frame of a principal, some time after the one before it. -/
structure Frame where
  elapsed : Nat
  principal : Caller

/-- What is admitted is counted for the scope of a governed principal. -/
def FrameSystem.step (limits : FrameLimits) (s : FrameSystem) (frame : Frame) : FrameSystem :=
  let now := s.now + frame.elapsed
  match admitFrame limits s.windows now frame.principal with
  | (.error _, windows) => ⟨now, windows, s.admitted⟩
  | (.ok _, windows) =>
    ⟨now, windows, if isGoverned frame.principal then s.admitted ++ [(frame.principal.scope, now)]
      else s.admitted⟩

/-- The times of the frames that were admitted for a scope. -/
def FrameSystem.admittedOf (s : FrameSystem) (scope : Scope) : List Int :=
  (s.admitted.filter fun e => e.1 = scope).map Prod.snd

/-- In every window of the period at most the limit of frames is admitted for a principal. -/
def FrameSystem.RateLimited (limits : FrameLimits) (s : FrameSystem) : Prop :=
  ∀ scope, Limited framePeriod limits.clientFramesPerSecond (s.admittedOf scope)

/-- There is room for a frame that is admitted: the scopes of others with a frame in the last
period are fewer than the bound. -/
def Roomy (limits : FrameLimits) (s : FrameSystem) (frame : Frame) : Prop :=
  let windows := pruneFrames (s.now + frame.elapsed - framePeriod) s.windows
  isGoverned frame.principal = true →
    (timesOf windows frame.principal.scope).length < limits.clientFramesPerSecond →
    (windows.erase frame.principal.scope).rows.length < limits.scopeMaxStreams

instance (limits : FrameLimits) (s : FrameSystem) (frame : Frame) :
    Decidable (Roomy limits s frame) := inferInstanceAs (Decidable (_ → _ → _))

/-! ## What the windows hold -/

theorem timesOf_prune (cutoff : Int) (windows : FrameWindows) (scope : Scope) :
    timesOf (pruneFrames cutoff windows) scope =
      (timesOf windows scope).dropWhile fun t => t ≤ cutoff := by
  unfold timesOf pruneFrames
  rw [Keyed.get?_filterMap]
  cases windows.get? scope with
  | none => rfl
  | some entry =>
    simp only [bind_some, map_some, getD_some, FrameTimes.prune]
    split
    · rename_i hempty
      rw [hempty]
      rfl
    · rfl

theorem timesOf_put_erase (windows : FrameWindows) (scope : Scope) (times : List Int)
    (other : Scope) :
    timesOf ((windows.erase scope).put ⟨scope, times⟩) other =
      if other = scope then times else timesOf windows other := by
  unfold timesOf
  rw [Keyed.get?_put, Keyed.get?_erase]
  split
  · rfl
  · rfl

/-- The windows hold the frames of the last period, and no window of them is over the limit. -/
structure Inv (limits : FrameLimits) (s : FrameSystem) : Prop where
  sorted : ∀ scope, (timesOf s.windows scope).Pairwise (· ≤ ·)
  past : ∀ scope, ∀ t ∈ timesOf s.windows scope, t ≤ s.now
  kept : ∀ scope, ∀ now, s.now ≤ now →
    recent framePeriod now (timesOf s.windows scope) = recent framePeriod now (s.admittedOf scope)
  limited : s.RateLimited limits

variable {limits : FrameLimits} {s : FrameSystem}

theorem inv_init (limits : FrameLimits) (now : Int) : Inv limits (.init now) where
  sorted _ := .nil
  past _ _ ht := nomatch ht
  kept _ _ _ := rfl
  limited _ := limited_nil

/-- The windows are pruned at a later time, and a frame is added to those that are not full. -/
theorem Inv.next (h : Inv limits s) {now : Int} {windows : FrameWindows}
    {admitted : List (Scope × Int)} (hnow : s.now ≤ now) (added : Scope → List Int)
    (hadded : ∀ scope, added scope = [] ∨ added scope = [now] ∧
      (recent framePeriod now (timesOf s.windows scope)).length < limits.clientFramesPerSecond)
    (htimes : ∀ scope, timesOf windows scope =
      recent framePeriod now (timesOf s.windows scope) ++ added scope)
    (hadmitted : ∀ scope, FrameSystem.admittedOf ⟨now, windows, admitted⟩ scope =
      s.admittedOf scope ++ added scope) :
    Inv limits ⟨now, windows, admitted⟩ where
  sorted scope := by
    rw [htimes]
    have hold : (recent framePeriod now (timesOf s.windows scope)).Pairwise (· ≤ ·) :=
      (h.sorted scope).sublist filter_sublist
    rcases hadded scope with heq | ⟨heq, -⟩
    · rw [heq, append_nil]
      exact hold
    rw [heq, pairwise_append]
    refine ⟨hold, pairwise_singleton _ _, ?_⟩
    intro t ht t' ht'
    rw [mem_singleton.1 ht']
    exact (h.past scope t (mem_of_mem_filter ht)).trans hnow
  past scope := by
    intro t ht
    rw [htimes, mem_append] at ht
    rcases ht with ht | ht
    · exact (h.past scope t (mem_of_mem_filter ht)).trans hnow
    rcases hadded scope with heq | ⟨heq, -⟩
    · rw [heq] at ht
      cases ht
    · rw [heq] at ht
      exact Int.le_of_eq (mem_singleton.1 ht)
  kept scope := by
    intro later hlater
    rw [htimes, hadmitted, recent_append, recent_append, recent_recent hlater,
      h.kept scope later (hnow.trans hlater)]
  limited scope := by
    rw [hadmitted]
    rcases hadded scope with heq | ⟨heq, hroom⟩
    · rw [heq, append_nil]
      exact h.limited scope
    · rw [heq]
      rw [h.kept scope now hnow] at hroom
      exact (h.limited scope).append hroom

/-- All that a frame can come to. -/
theorem FrameSystem.step_cases (limits : FrameLimits) (s : FrameSystem) (frame : Frame) :
    (isGoverned frame.principal = false ∧
      s.step limits frame = ⟨s.now + frame.elapsed, s.windows, s.admitted⟩) ∨
    ∃ windows times, windows = pruneFrames (s.now + frame.elapsed - framePeriod) s.windows ∧
      times = timesOf windows frame.principal.scope ∧ isGoverned frame.principal = true ∧
      ((limits.clientFramesPerSecond ≤ times.length ∧ s.step limits frame = ⟨s.now + frame.elapsed,
            (windows.erase frame.principal.scope).put ⟨frame.principal.scope, times⟩,
            s.admitted⟩) ∨
        (times.length < limits.clientFramesPerSecond ∧ s.step limits frame = ⟨s.now + frame.elapsed,
            ((windows.erase frame.principal.scope).put
              ⟨frame.principal.scope, times ++ [s.now + frame.elapsed]⟩).takeLast
                limits.scopeMaxStreams,
            s.admitted ++ [(frame.principal.scope, s.now + frame.elapsed)]⟩)) := by
  unfold FrameSystem.step admitFrame
  cases hgoverned : isGoverned frame.principal with
  | false => exact .inl ⟨rfl, rfl⟩
  | true =>
    right
    refine ⟨_, _, rfl, rfl, rfl, ?_⟩
    simp only [Bool.not_true, Bool.false_eq_true, if_false]
    split
    · rename_i heq
      split at heq
      · rename_i hfull
        obtain rfl := (congrArg Prod.snd heq)
        exact .inl ⟨hfull, rfl⟩
      · cases heq
    · rename_i heq
      split at heq
      · cases heq
      · obtain rfl := (congrArg Prod.snd heq)
        exact .inr ⟨by omega, rfl⟩

theorem admittedOf_append (s : FrameSystem) (now : Int) (windows : FrameWindows)
    (scope other : Scope) (t : Int) :
    FrameSystem.admittedOf ⟨now, windows, s.admitted ++ [(scope, t)]⟩ other =
      s.admittedOf other ++ if other = scope then [t] else [] := by
  unfold FrameSystem.admittedOf
  rw [filter_append, map_append, filter_cons, filter_nil]
  congr 1
  by_cases hsame : other = scope
  · simp [hsame]
  · simp [hsame, Ne.symm hsame]

theorem inv_step {frame : Frame} (hroomy : Roomy limits s frame) (h : Inv limits s) :
    Inv limits (s.step limits frame) := by
  have hnow : s.now ≤ s.now + frame.elapsed := by omega
  have hpruned : ∀ scope,
      timesOf (pruneFrames (s.now + frame.elapsed - framePeriod) s.windows) scope =
        recent framePeriod (s.now + frame.elapsed) (timesOf s.windows scope) := by
    intro scope
    rw [timesOf_prune, dropWhile_eq_recent (h.sorted scope)]
  rcases s.step_cases limits frame with ⟨-, heq⟩ |
    ⟨windows, times, rfl, rfl, hgoverned, ⟨-, heq⟩ | ⟨hroom, heq⟩⟩
  · rw [heq]
    exact ⟨h.sorted, fun scope t ht => (h.past scope t ht).trans hnow,
      fun scope later hlater => h.kept scope later (hnow.trans hlater), h.limited⟩
  · -- nothing is added
    rw [heq]
    refine h.next hnow (fun _ => []) (fun _ => .inl rfl) ?_ fun _ => (append_nil _).symm
    intro scope
    rw [timesOf_put_erase, append_nil, ← hpruned]
    split
    · rename_i hsame
      rw [hsame]
    · rfl
  -- there is room, so the frame is added and no entry goes
  rw [heq, Keyed.takeLast_of_le]
  · refine h.next hnow
      (fun scope => if scope = frame.principal.scope then [s.now + frame.elapsed] else [])
      ?_ ?_ fun scope => admittedOf_append s _ _ _ scope _
    · intro scope
      split
      · rename_i hsame
        right
        rw [hpruned] at hroom
        rw [hsame]
        exact ⟨rfl, hroom⟩
      · exact .inl rfl
    · intro scope
      rw [timesOf_put_erase, ← hpruned]
      split
      · rename_i hsame
        rw [hsame]
      · rw [append_nil]
  · exact (Keyed.length_put_erase _ _).trans_le (hroomy hgoverned hroom)

/-- In every run in which there is room for each frame that is admitted, every window of the
period holds at most the limit of the frames of each principal. -/
theorem frames_limited (limits : FrameLimits) (now : Int) {trace : List Frame}
    (h : Meets (FrameSystem.step limits) (Roomy limits) (.init now) trace) :
    (run (FrameSystem.step limits) (.init now) trace).RateLimited limits :=
  (run_invariant_of_meets (fun _ _ hroomy hinv => inv_step hroomy hinv) h
    (inv_init limits now)).limited

/-! One frame a second, and windows for one principal: two principals take turns. -/

def oneFrame : FrameLimits := ⟨1, 1, Nat.le_refl 1, Nat.le_refl 1⟩

def frameOf (owner : String) (elapsed : Nat) : Frame := ⟨elapsed, ⟨⟨"t", "d", owner⟩, .publicMode⟩⟩

theorem frames_limited_apart : Meets (FrameSystem.step oneFrame) (Roomy oneFrame) (.init 0)
        [frameOf "a" 0, frameOf "a" 5, frameOf "b" 1000000000] ∧
      (run (FrameSystem.step oneFrame) (.init 0)
        [frameOf "a" 0, frameOf "a" 5, frameOf "b" 1000000000]).RateLimited oneFrame :=
  have h : Meets (FrameSystem.step oneFrame) (Roomy oneFrame) (.init 0)
      [frameOf "a" 0, frameOf "a" 5, frameOf "b" 1000000000] := by decide +kernel
  ⟨h, frames_limited oneFrame 0 h⟩

theorem frames_over_limit : ¬ (run (FrameSystem.step oneFrame) (.init 0)
      [frameOf "a" 0, frameOf "b" 1, frameOf "a" 1]).RateLimited oneFrame := by
  intro h
  have hwindow := h ⟨"t", "a"⟩ (-1)
  revert hwindow
  decide +kernel

end Security
