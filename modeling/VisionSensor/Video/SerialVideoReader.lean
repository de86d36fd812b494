import Mathlib.Order.Bounds.Defs
import VisionSensor.Lib.FuelLoop
import VisionSensor.Video.FrameKeys

/-! The thread of `SerialVideoReader`: every frame is queued, and one frame of each second is held in
the index, from which the search at `frontOfIndexerTime` removes one when it is full. -/
namespace VisionSensor
open FuelLoop GuardedRun

/-- `SerialVideoReader` as far as `run` writes it, and the locals of `run`. `prev` is always a
date, and so is `frontOfIndexerTime` after the first frame. -/
structure SerialVideoReader where
  mFrameQueue : List (Ptime × Mat) := []
  mFrameIndexer : FrameIndexer := []
  mReady : Bool := false
  prev : ℤ
  frontOfIndexerTime : Ptime := none
  deriving DecidableEq, Repr

namespace SerialVideoReader

def mMaxFrames : ℕ := 100

def mHoldingFramesSeconds : ℕ := 100

/-- The queue of `run` takes a frame. -/
def pushFrame (mFrameQueue : List (Ptime × Mat)) (now : Ptime) (frame : Mat) :
    List (Ptime × Mat) :=
  if mFrameQueue.length < mMaxFrames then mFrameQueue ++ [(now, frame)]
  else mFrameQueue.tail ++ [(now, frame)]

/-- The loop that looks for the oldest key. -/
def searchFront (mFrameIndexer : FrameIndexer) : ℕ → Ptime → Option Ptime :=
  loop fun frontOfIndexerTime =>
    if (mFrameIndexer.lookup frontOfIndexerTime).isSome then .inr frontOfIndexerTime
    else .inl (frontOfIndexerTime.addSeconds 1)

/-- The index gives up one frame when it is full. -/
def evict (fuel : ℕ) (r : SerialVideoReader) : Option SerialVideoReader :=
  if r.mFrameIndexer.length ≥ mHoldingFramesSeconds then
    (searchFront r.mFrameIndexer fuel r.frontOfIndexerTime).map fun frontOfIndexerTime =>
      { r with
        frontOfIndexerTime := frontOfIndexerTime
        mFrameIndexer := r.mFrameIndexer.erase frontOfIndexerTime }
  else some r

/-- The part of an iteration of `run` that keeps the index. -/
def indexFrame (fuel : ℕ) (r : SerialVideoReader) (now : ℤ) (frame : Mat) :
    Option SerialVideoReader :=
  if r.mFrameIndexer.isEmpty then
    some { r with
      frontOfIndexerTime := some now
      mFrameIndexer := r.mFrameIndexer.insert (some now) frame }
  else
    (evict fuel r).map fun r =>
      if now - r.prev = 1 then
        { r with mFrameIndexer := r.mFrameIndexer.insert (some now) frame }
      else r

/-- One iteration of `run` with the time stamp and the frame it reads; `none` when the search is not
over after `fuel` seconds. -/
def iterate (fuel : ℕ) (r : SerialVideoReader) (captured : ℤ × Mat) : Option SerialVideoReader :=
  let (now, frame) := captured
  let r := { r with mFrameQueue := pushFrame r.mFrameQueue (some now) frame }
  (indexFrame fuel r now frame).map fun r => { r with prev := now, mReady := true }

/-- The thread before its first frame. -/
def start (prev : ℤ) : SerialVideoReader := { prev := prev }

variable {mFrameIndexer : FrameIndexer} {fuel : ℕ} {r u : SerialVideoReader}

/-- The search ends at the first key that is not before the front. -/
theorem searchFront_spec {front : ℤ} {time : Ptime}
    (h : searchFront mFrameIndexer fuel (some front) = some time) :
    ∃ k, time = some k ∧ IsLeast {k | k ∈ mFrameIndexer.keys ∧ front ≤ k} k := by
  refine loop_spec (I := fun time => ∃ t, time = some t ∧ front ≤ t ∧
    ∀ k ∈ mFrameIndexer.keys, front ≤ k → t ≤ k)
    (Q := fun time => ∃ k, time = some k ∧ IsLeast {k | k ∈ mFrameIndexer.keys ∧ front ≤ k} k)
    ?_ ?_ ⟨front, rfl, le_refl _, fun _ _ h => h⟩ h
  · rintro s s' ⟨t, rfl, hfront, hleast⟩ hbody
    split_ifs at hbody with hfound
    obtain rfl := Sum.inl.inj hbody
    refine ⟨t + 1, rfl, by omega, fun k hk hkfront => ?_⟩
    have hle := hleast k hk hkfront
    have hne : t ≠ k := by
      rintro rfl
      exact hfound (FrameIndexer.lookup_key_isSome_iff.mpr hk)
    omega
  · rintro s s' ⟨t, rfl, hfront, hleast⟩ hbody
    split_ifs at hbody with hfound
    obtain rfl := Sum.inr.inj hbody
    exact ⟨t, rfl, ⟨FrameIndexer.lookup_key_isSome_iff.mp hfound, hfront⟩, fun k hk =>
      hleast k hk.1 hk.2⟩

/-- The search ends if and only if some key is not before the front. -/
theorem searchFront_ends_iff (front : ℤ) :
    (∃ fuel time, searchFront mFrameIndexer fuel (some front) = some time) ↔
      ∃ k ∈ mFrameIndexer.keys, front ≤ k := by
  constructor
  · rintro ⟨fuel, time, h⟩
    obtain ⟨k, -, hk, -⟩ := searchFront_spec h
    exact ⟨k, hk.1, hk.2⟩
  · rintro ⟨k, hk, hfront⟩
    -- the distance to that key is the variant
    refine loop_ends (I := fun time => ∃ t, time = some t ∧ t ≤ k)
      (fun time => (k - time.getD 0).toNat) ?_ ⟨front, rfl, hfront⟩
    rintro s s' ⟨t, rfl, hle⟩ hbody
    split_ifs at hbody with hfound
    obtain rfl := Sum.inl.inj hbody
    have hne : t ≠ k := by
      rintro rfl
      exact hfound (FrameIndexer.lookup_key_isSome_iff.mpr hk)
    refine ⟨⟨t + 1, rfl, by omega⟩, ?_⟩
    simp only [Ptime.addSeconds, Option.map_some, Option.getD_some]
    omega

/-- What one frame does to the seconds of the index and its front, before the frame itself is put
in. -/
def Evicts (keys : Finset ℤ) (front : ℤ) (keys' : Finset ℤ) (front' : ℤ) : Prop :=
  (keys.card < mHoldingFramesSeconds ∧ keys' = keys ∧ front' = front) ∨
    (mHoldingFramesSeconds ≤ keys.card ∧ IsLeast {k | k ∈ keys ∧ front ≤ k} front' ∧
      keys' = keys.erase front')

/-- The index has its keys, and its front is a date unless it is empty. -/
structure Sound (r : SerialVideoReader) : Prop where
  keyed : r.mFrameIndexer.Keyed
  front : r.mFrameIndexer ≠ [] → r.frontOfIndexerTime.isSome

theorem start_sound (prev : ℤ) : (start prev).Sound :=
  ⟨⟨(fun _ h => nomatch h), List.nodup_nil⟩, fun h => absurd rfl h⟩

theorem evict_ends_iff {front : ℤ} (hkeyed : r.mFrameIndexer.Keyed)
    (hfront : r.frontOfIndexerTime = some front) :
    (∃ fuel u, evict fuel r = some u) ↔
      (mHoldingFramesSeconds ≤ r.mFrameIndexer.keys.card →
        ∃ k ∈ r.mFrameIndexer.keys, front ≤ k) := by
  unfold evict
  rw [hkeyed.card_keys, hfront, ← searchFront_ends_iff]
  by_cases hfull : r.mFrameIndexer.length ≥ mHoldingFramesSeconds
  · simp only [if_pos hfull, Option.map_eq_some_iff]
    constructor
    · rintro ⟨fuel, u, time, htime, -⟩ _
      exact ⟨fuel, time, htime⟩
    · intro h
      obtain ⟨fuel, time, htime⟩ := h hfull
      exact ⟨fuel, _, time, htime, rfl⟩
  · simp only [if_neg hfull]
    exact iff_of_true ⟨0, r, rfl⟩ fun h => absurd h hfull

theorem evict_spec {front : ℤ} (hkeyed : r.mFrameIndexer.Keyed)
    (hfront : r.frontOfIndexerTime = some front) (h : evict fuel r = some u) :
    u.mFrameIndexer.Keyed ∧ u.mFrameQueue = r.mFrameQueue ∧ u.prev = r.prev ∧
      (∀ e ∈ u.mFrameIndexer, e ∈ r.mFrameIndexer) ∧
      ∃ front', u.frontOfIndexerTime = some front' ∧
        Evicts r.mFrameIndexer.keys front u.mFrameIndexer.keys front' := by
  unfold evict at h
  unfold Evicts
  rw [hkeyed.card_keys]
  split_ifs at h with hfull
  · obtain ⟨time, htime, rfl⟩ := Option.map_eq_some_iff.mp h
    rw [hfront] at htime
    obtain ⟨k, rfl, hleast⟩ := searchFront_spec htime
    exact ⟨hkeyed.erase _, rfl, rfl, fun e he => List.mem_of_mem_eraseP he, k, rfl,
      .inr ⟨hfull, hleast, hkeyed.keys_erase k⟩⟩
  · obtain rfl := Option.some.inj h
    exact ⟨hkeyed, rfl, rfl, fun e he => he, front, hfront, .inl ⟨Nat.not_le.mp hfull, rfl, rfl⟩⟩

/-- How one frame changes the index. -/
def Indexes (r : SerialVideoReader) (now : ℤ) (u : SerialVideoReader) : Prop :=
  (r.mFrameIndexer = [] ∧ u.frontOfIndexerTime = some now ∧ u.mFrameIndexer.keys = {now}) ∨
    r.mFrameIndexer ≠ [] ∧ ∃ front front' keys,
      r.frontOfIndexerTime = some front ∧ u.frontOfIndexerTime = some front' ∧
      Evicts r.mFrameIndexer.keys front keys front' ∧
      u.mFrameIndexer.keys = if now - r.prev = 1 then insert now keys else keys

/-- Everything an iteration does. -/
theorem iterate_spec {now : ℤ} {frame : Mat} (hr : r.Sound)
    (h : iterate fuel r (now, frame) = some u) :
    u.Sound ∧ u.prev = now ∧ u.mFrameQueue = pushFrame r.mFrameQueue (some now) frame ∧
      (∀ e ∈ u.mFrameIndexer, e ∈ r.mFrameIndexer ∨ e = (some now, frame)) ∧ r.Indexes now u := by
  obtain ⟨v, hv, rfl⟩ := Option.map_eq_some_iff.mp h
  unfold indexFrame at hv
  split_ifs at hv with hempty
  · have hnil : r.mFrameIndexer = [] := List.isEmpty_iff.mp hempty
    obtain rfl := Option.some.inj hv
    refine ⟨⟨hr.keyed.insert now frame, fun _ => rfl⟩, rfl, rfl, fun e he =>
      FrameIndexer.mem_insert he, .inl ⟨hnil, rfl, ?_⟩⟩
    simp only [FrameIndexer.keys_insert, hnil]
    rfl
  · have hne : r.mFrameIndexer ≠ [] := fun hnil => hempty (List.isEmpty_iff.mpr hnil)
    obtain ⟨front, hfront⟩ := Option.isSome_iff_exists.mp (hr.front hne)
    obtain ⟨w, hw, rfl⟩ := Option.map_eq_some_iff.mp hv
    obtain ⟨hkeyed, hqueue, hprev, hsub, front', hfront', hevicts⟩ :=
      evict_spec (r := { r with mFrameQueue := pushFrame r.mFrameQueue (some now) frame })
        hr.keyed hfront hw
    simp only at hqueue hprev hevicts hsub
    split_ifs with hdiff
    · refine ⟨⟨hkeyed.insert now frame, fun _ => by simp [hfront']⟩, rfl, hqueue, ?_,
        .inr ⟨hne, front, front', _, hfront, hfront', hevicts, ?_⟩⟩
      · intro e he
        exact (FrameIndexer.mem_insert he).imp_left (hsub e)
      · rw [if_pos (hprev ▸ hdiff)]
        exact FrameIndexer.keys_insert now frame
    · refine ⟨⟨hkeyed, fun _ => by simp [hfront']⟩, rfl, hqueue, fun e he => .inl (hsub e he),
        .inr ⟨hne, front, front', _, hfront, hfront', hevicts, ?_⟩⟩
      rw [if_neg (hprev ▸ hdiff)]

/-- An iteration ends if and only if a full index has a key that is not before the front. -/
theorem iterate_ends_iff (hr : r.Sound) (captured : ℤ × Mat) :
    (∃ fuel u, iterate fuel r captured = some u) ↔
      (mHoldingFramesSeconds ≤ r.mFrameIndexer.keys.card →
        ∃ k ∈ r.mFrameIndexer.keys, ∀ front ∈ r.frontOfIndexerTime, front ≤ k) := by
  obtain ⟨now, frame⟩ := captured
  let q : SerialVideoReader := { r with mFrameQueue := pushFrame r.mFrameQueue (some now) frame }
  by_cases hnil : r.mFrameIndexer = []
  · have hkeys : ¬ mHoldingFramesSeconds ≤ r.mFrameIndexer.keys.card := by
      rw [hr.keyed.card_keys, hnil]
      decide
    refine iff_of_true ⟨0, ?_⟩ fun hfull => absurd hfull hkeys
    simp [iterate, indexFrame, hnil]
  · obtain ⟨front, hfront⟩ := Option.isSome_iff_exists.mp (hr.front hnil)
    have hempty : r.mFrameIndexer.isEmpty = false := by simpa using hnil
    have hevict := evict_ends_iff (r := q) hr.keyed hfront
    simp only [hfront, Option.mem_some_iff, forall_eq']
    rw [← hevict]
    simp only [iterate, indexFrame, hempty, Bool.false_eq_true, if_false, Option.map_eq_some_iff]
    constructor
    · rintro ⟨fuel, u, _, ⟨v, hv, -⟩, -⟩
      exact ⟨fuel, v, hv⟩
    · rintro ⟨fuel, v, hv⟩
      exact ⟨fuel, _, _, ⟨v, hv, rfl⟩, rfl⟩

theorem iterate_mono : FuelMono iterate := by
  intro m n r captured u hle h
  obtain ⟨now, frame⟩ := captured
  obtain ⟨v, hv, rfl⟩ := Option.map_eq_some_iff.mp h
  refine Option.map_eq_some_iff.mpr ⟨v, ?_, rfl⟩
  unfold indexFrame at hv ⊢
  split_ifs at hv ⊢ with hempty
  · exact hv
  · obtain ⟨w, hw, rfl⟩ := Option.map_eq_some_iff.mp hv
    refine Option.map_eq_some_iff.mpr ⟨w, ?_, rfl⟩
    unfold evict at hw ⊢
    split_ifs at hw ⊢ with hfull
    · obtain ⟨time, htime, rfl⟩ := Option.map_eq_some_iff.mp hw
      exact Option.map_eq_some_iff.mpr ⟨time, loop_mono hle htime, rfl⟩
    · exact hw

end SerialVideoReader
end VisionSensor
