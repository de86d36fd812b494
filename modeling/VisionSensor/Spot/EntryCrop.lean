import VisionSensor.Spot.ParkingSpot

/-! The crop on entry. The guard of `enter` compares the width of the region with the rows of the
image and its height with the columns, and leaves out where the region lies. -/
namespace VisionSensor

/-- What `cv::Mat` asserts before it crops. -/
def Rect.Inside (ROI : Rect) (image : Mat) : Prop :=
  0 ≤ ROI.x ∧ 0 ≤ ROI.width ∧ ROI.x + ROI.width ≤ image.cols ∧
    0 ≤ ROI.y ∧ 0 ≤ ROI.height ∧ ROI.y + ROI.height ≤ image.rows

theorem Mat.crop_isSome_iff (image : Mat) (ROI : Rect) :
    (image.crop ROI).isSome ↔ ROI.Inside image := by
  unfold Mat.crop Rect.Inside
  split_ifs with h
  · exact iff_of_true rfl h
  · exact iff_of_false (by decide) h

namespace ParkingSpot

/-- The guard under which `enter` applies `entryImage(ROI)`. -/
def AppliesROI (entryImage : Mat) (ROI : Rect) : Prop :=
  ROI.width ≤ entryImage.rows ∧ ROI.height ≤ entryImage.cols

instance (entryImage : Mat) (ROI : Rect) : Decidable (AppliesROI entryImage ROI) :=
  inferInstanceAs (Decidable (_ ∧ _))

theorem entryCrop_eq (entryImage : Mat) (ROI : Rect) : entryCrop entryImage ROI =
    if AppliesROI entryImage ROI then entryImage.crop ROI else some entryImage := rfl

/-- The second picture of the message, if the crop has not thrown. -/
theorem enter_mCropFrame (env : EntryServices) (s : ParkingSpot) (entryImage : Mat) (ROI : Rect)
    (entryTime : Ptime) (PN : String) :
    (s.enter env entryImage ROI entryTime PN).map (fun entered => entered.2.mCropFrame) =
      entryCrop entryImage ROI := by
  unfold enter
  rw [Option.map_map]
  exact Option.map_id'

/-- `enter` throws exactly where its guard lets a region through that is not inside the image. -/
theorem enter_eq_none_iff (env : EntryServices) (s : ParkingSpot) (entryImage : Mat) (ROI : Rect)
    (entryTime : Ptime) (PN : String) : s.enter env entryImage ROI entryTime PN = none ↔
      AppliesROI entryImage ROI ∧ ¬ ROI.Inside entryImage := by
  rw [← Mat.crop_isSome_iff, ← Option.map_eq_none_iff (f := fun entered => entered.2.mCropFrame),
    enter_mCropFrame, entryCrop_eq]
  split_ifs with happlies <;> simp [happlies]

/-- Where the guard lets only regions inside the image through, an `enter` sends what is cropped. -/
theorem enter_sends {entryImage : Mat} {ROI : Rect}
    (h : AppliesROI entryImage ROI → ROI.Inside entryImage) (env : EntryServices) (s : ParkingSpot)
    (entryTime : Ptime) (PN : String) : ∃ s' msg,
      enter env s entryImage ROI entryTime PN = some (s', msg) ∧ some msg.mCropFrame =
        if AppliesROI entryImage ROI then entryImage.crop ROI else some entryImage := by
  cases henter : enter env s entryImage ROI entryTime PN with
  | none =>
    obtain ⟨happlies, houtside⟩ := (enter_eq_none_iff ..).mp henter
    exact absurd (h happlies) houtside
  | some entered =>
    refine ⟨entered.1, entered.2, rfl, ?_⟩
    rw [← entryCrop_eq, ← enter_mCropFrame env s entryImage ROI entryTime PN, henter]
    rfl

/-- The region is applied only inside the image, there always when it has an area, and otherwise
the whole image is sent. -/
structure CropsSafely (entryImage : Mat) (ROI : Rect) : Prop where
  inside : AppliesROI entryImage ROI → ROI.Inside entryImage
  applied : ROI.Inside entryImage → 0 < ROI.width → 0 < ROI.height → AppliesROI entryImage ROI
  sent : ∀ env s entryTime PN, ∃ s' msg,
    enter env s entryImage ROI entryTime PN = some (s', msg) ∧ some msg.mCropFrame =
      if AppliesROI entryImage ROI then entryImage.crop ROI else some entryImage

/-- Regions inside the image have to fit with the sides of the image swapped as well, and those that
stick out are only caught when they are wider than the image is high or higher than it is wide. -/
theorem cropsSafely_iff (entryImage : Mat) (ROI : Rect) : CropsSafely entryImage ROI ↔
    (ROI.Inside entryImage ∧ (ROI.width = 0 ∨ ROI.height = 0 ∨
        ROI.width ≤ entryImage.rows ∧ ROI.height ≤ entryImage.cols)) ∨
      (¬ ROI.Inside entryImage ∧
        (entryImage.rows < ROI.width ∨ entryImage.cols < ROI.height)) := by
  constructor
  · rintro ⟨hinside, happlied, -⟩
    by_cases h : ROI.Inside entryImage
    · have hwidth : 0 ≤ ROI.width := h.2.1
      have hheight : 0 ≤ ROI.height := h.2.2.2.2.1
      refine .inl ⟨h, ?_⟩
      by_cases harea : 0 < ROI.width ∧ 0 < ROI.height
      · exact .inr (.inr (happlied h harea.1 harea.2))
      · omega
    · refine .inr ⟨h, ?_⟩
      have hguard : ¬ AppliesROI entryImage ROI := fun happlies => h (hinside happlies)
      unfold AppliesROI at hguard
      omega
  · intro h
    have hinside : AppliesROI entryImage ROI → ROI.Inside entryImage := by
      rintro ⟨hwidth, hheight⟩
      rcases h with ⟨h, -⟩ | ⟨-, houtside⟩
      · exact h
      · omega
    refine ⟨hinside, ?_, enter_sends hinside⟩
    intro h' hwidth hheight
    rcases h with ⟨-, hzero | hzero | hfits⟩ | ⟨h, -⟩
    · omega
    · omega
    · exact hfits
    · exact absurd h' h

/-- A region at the right border of a landscape image passes the guard. -/
theorem not_cropsSafely_right_border :
    ¬ ∀ entryImage : Mat, 0 < entryImage.rows → 0 < entryImage.cols →
      ∀ ROI, CropsSafely entryImage ROI := by
  intro h
  have hcrops := h ⟨480, 640, List.replicate 480 (List.replicate 640 0)⟩ (by decide) (by decide)
    ⟨600, 0, 100, 100⟩
  have hinside := hcrops.inside (by decide)
  exact absurd hinside.2.2.1 (by decide)

end ParkingSpot
end VisionSensor
