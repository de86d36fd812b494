import Mathlib.Data.List.Basic
import Mathlib.Tactic.Tauto
import VisionSensor.Core.Types

/-! The frames `SerialVideoReader` holds by the second, and the search of `readAt` among them. -/
namespace VisionSensor

/-- `mFrameIndexer`: a key occurs once. -/
abbrev FrameIndexer := List (Ptime × Mat)

namespace FrameIndexer

/-- The first second with a frame, counted from `time`; at most ten are added. -/
def search (mFrameIndexer : FrameIndexer) (time : Ptime) : Option ℕ :=
  (List.range 11).find? fun i => (mFrameIndexer.lookup (time.addSeconds i)).isSome

/-- `readAt`: the answer, and what it leaves in `frame`. -/
def readAt (mFrameIndexer : FrameIndexer) (frame : Mat) (time : Ptime) : Bool × Mat :=
  if mFrameIndexer.isEmpty then (false, frame)
  else match mFrameIndexer.search time with
    | some i => (true, (mFrameIndexer.lookup (time.addSeconds i)).getD frame)
    | none => (false, frame)

/-- The first second with a frame, within ten seconds of `time`, has a picture. -/
def HoldsPicture (mFrameIndexer : FrameIndexer) (time : Ptime) : Prop :=
  ∃ (i : ℕ) (frame : Mat), i ≤ 10 ∧ mFrameIndexer.lookup (time.addSeconds i) = some frame ∧
    (∀ j < i, mFrameIndexer.lookup (time.addSeconds j) = none) ∧ frame.empty = false

variable {mFrameIndexer : FrameIndexer} {time : Ptime}

theorem search_eq_some {i : ℕ} :
    mFrameIndexer.search time = some i ↔
      i ≤ 10 ∧ (mFrameIndexer.lookup (time.addSeconds i)).isSome ∧
        ∀ j < i, mFrameIndexer.lookup (time.addSeconds j) = none := by
  unfold search
  rw [List.find?_range_eq_some, List.mem_range, Nat.lt_succ_iff]
  simp only [Bool.not_eq_true', Option.isSome_eq_false_iff, Option.isNone_iff_eq_none]
  tauto

/-- An empty `frame` is filled exactly when a picture is held. -/
theorem readAt_picture_iff :
    (mFrameIndexer.readAt Mat.none time).2.empty = false ↔ mFrameIndexer.HoldsPicture time := by
  constructor
  · intro h
    unfold readAt at h
    split_ifs at h
    · cases h
    · cases hs : mFrameIndexer.search time with
      | none =>
        rw [hs] at h
        cases h
      | some i =>
        obtain ⟨hi, hsome, hbefore⟩ := search_eq_some.mp hs
        obtain ⟨frame, hframe⟩ := Option.isSome_iff_exists.mp hsome
        rw [hs] at h
        refine ⟨i, frame, hi, hframe, hbefore, ?_⟩
        simpa [hframe] using h
  · rintro ⟨i, frame, hi, hframe, hbefore, hpicture⟩
    have hs : mFrameIndexer.search time = some i :=
      search_eq_some.mpr ⟨hi, by rw [hframe]; rfl, hbefore⟩
    have hne : mFrameIndexer.isEmpty = false := by
      cases mFrameIndexer with
      | nil => cases hframe
      | cons e l => rfl
    simp [readAt, hne, hs, hframe, hpicture]

end FrameIndexer
end VisionSensor
