import Mathlib.Data.Rat.Floor
import VisionSensor.Core.Types
import VisionSensor.Lib.HalfEven

/-! `MotionDetection`: the size motion is looked for at, and the region of the mask a frame's region
of interest is taken to. Numbers of type `double` are exact. -/
namespace VisionSensor

/-- `cv::Size`. -/
structure Size where
  width : ℤ
  height : ℤ
  deriving DecidableEq, Repr

def computeImageRatio (width height : ℤ) : ℚ :=
  if width ≤ 0 ∨ height ≤ 0 then 0
  else if width < height then height / width
  else width / height

/-- `sum(mask)[0]`. -/
def Mat.sum (m : Mat) : ℕ := (m.pixels.map List.sum).sum

/-- `mFGMaskMOG2` is the mask of the last frame, which `update` brings to the target size first. -/
structure MotionDetection where
  mTargetSize : Size
  mResize : Bool
  mFGMaskMOG2 : Mat
  mMinMotionArea : ℤ
  mMaxMotionArea : ℤ

namespace MotionDetection

/-- `cvRound`. -/
def cvRound (value : ℚ) : ℤ := HalfEven.round value

/-- The target size of the constructor. The rounded ratio is not negative, so its halves go up. -/
def targetSize (imageSize : Size) : Size :=
  let ratio := ⌊computeImageRatio imageSize.width imageSize.height / (1 / 100) + 1 / 2⌋
  if ratio = 125 then ⟨800, 640⟩
  else if ratio = 177 ∨ ratio = 178 then ⟨1024, 576⟩
  else if ratio = 160 then ⟨960, 600⟩
  else ⟨800, 600⟩

def new (imageSize : Size) : MotionDetection :=
  if imageSize.width > 0 ∧ imageSize.height > 0 then ⟨targetSize imageSize, true, .none, 1, 30⟩
  else ⟨⟨0, 0⟩, false, .none, 1, 30⟩

/-- The region of interest of a frame, at the target size. -/
def resizeROI (d : MotionDetection) (frame : Mat) (ROI : Rect) : Rect :=
  let ratio_x := (d.mTargetSize.width : ℚ) / frame.cols
  let ratio_y := (d.mTargetSize.height : ℚ) / frame.rows
  ⟨cvRound (ROI.x * ratio_x), cvRound (ROI.y * ratio_y), cvRound (ROI.width * ratio_x),
    cvRound (ROI.height * ratio_y)⟩

/-- `none` is the exception of a region that is not inside the mask. -/
def isMotionDetected (d : MotionDetection) (frame : Mat) (ROI : Rect) : Option Bool :=
  if ROI.area = 0 then
    let motionArea : ℤ := (d.mFGMaskMOG2.sum / 255 : ℕ)
    some (d.mMinMotionArea < motionArea ∧
      motionArea < frame.cols * frame.rows * d.mMaxMotionArea / 100)
  else
    let ROI := if d.mResize then d.resizeROI frame ROI else ROI
    (d.mFGMaskMOG2.crop ROI).map fun maskROI =>
      let motionArea : ℤ := (maskROI.sum / 255 : ℕ)
      d.mMinMotionArea < motionArea ∧ motionArea < ROI.area * d.mMaxMotionArea / 100

/-- A rectangle with nothing outside an image of the size. -/
def Inside (r : Rect) (size : Size) : Prop :=
  0 ≤ r.x ∧ r.x + r.width ≤ size.width ∧ 0 ≤ r.y ∧ r.y + r.height ≤ size.height

/-- Every target size is even in both directions. -/
theorem targetSize_even (imageSize : Size) :
    (0 ≤ (targetSize imageSize).width ∧ (targetSize imageSize).width % 2 = 0) ∧
      0 ≤ (targetSize imageSize).height ∧ (targetSize imageSize).height % 2 = 0 := by
  unfold targetSize
  dsimp only
  split_ifs <;> decide

theorem new_eq {imageSize : Size} (hw : 0 < imageSize.width) (hh : 0 < imageSize.height) :
    new imageSize = ⟨targetSize imageSize, true, .none, 1, 30⟩ := if_pos ⟨hw, hh⟩

/-- Along one axis: a stretch inside `0 .. n`, scaled to an even length, is inside it. -/
theorem scaled_inside {x len n target : ℤ} (hx : 0 ≤ x) (hlen : 0 < len) (hend : x + len ≤ n)
    (hpos : 0 ≤ target) (heven : target % 2 = 0) :
    0 ≤ cvRound (x * (target / n : ℚ)) ∧ 0 ≤ cvRound (len * (target / n : ℚ)) ∧
      cvRound (x * (target / n : ℚ)) + cvRound (len * (target / n : ℚ)) ≤ target := by
  have hn : (0 : ℚ) < n := by exact_mod_cast (show 0 < n by omega)
  have hratio : 0 ≤ (target / n : ℚ) := div_nonneg (by exact_mod_cast hpos) hn.le
  have hxq : (0 : ℚ) ≤ x := by exact_mod_cast hx
  have hlenq : (0 : ℚ) ≤ len := by exact_mod_cast hlen.le
  refine ⟨HalfEven.round_nonneg (mul_nonneg hxq hratio),
    HalfEven.round_nonneg (mul_nonneg hlenq hratio), HalfEven.round_add_round_le heven ?_⟩
  have hendq : (x + len : ℚ) ≤ n := by exact_mod_cast hend
  calc (x * (target / n) + len * (target / n) : ℚ)
      = (x + len) * (target / n) := by rw [add_mul]
    _ ≤ n * (target / n) := mul_le_mul_of_nonneg_right hendq hratio
    _ = target := mul_div_cancel₀ _ hn.ne'

section Region

variable {imageSize : Size} {frame : Mat} {ROI : Rect}

theorem isMotionDetected_isSome {d : MotionDetection} (hresize : d.mResize = true)
    (hinside : Inside (d.resizeROI frame ROI) d.mTargetSize)
    (hsize : 0 ≤ (d.resizeROI frame ROI).width ∧ 0 ≤ (d.resizeROI frame ROI).height)
    (hcols : (d.mFGMaskMOG2.cols : ℤ) = d.mTargetSize.width)
    (hrows : (d.mFGMaskMOG2.rows : ℤ) = d.mTargetSize.height) :
    (d.isMotionDetected frame ROI).isSome = true := by
  obtain ⟨hx, hright, hy, hbottom⟩ := hinside
  unfold isMotionDetected
  split_ifs with harea
  · rfl
  · rw [Option.isSome_map, Mat.crop, if_pos]
    · rfl
    · rw [hcols, hrows]
      exact ⟨hx, hsize.1, hright, hy, hsize.2, hbottom⟩

/-- The region of interest of a frame, taken to the target size, is inside the mask, and motion is
looked for without a failure. -/
theorem resized_ROI_inside_mask (hw : 0 < imageSize.width) (hh : 0 < imageSize.height)
    (hx : 0 ≤ ROI.x) (hy : 0 ≤ ROI.y) (hwidth : 0 < ROI.width) (hheight : 0 < ROI.height)
    (hright : ROI.x + ROI.width ≤ frame.cols) (hbottom : ROI.y + ROI.height ≤ frame.rows) :
    Inside ((new imageSize).resizeROI frame ROI) (new imageSize).mTargetSize ∧
      ∀ mask : Mat, (mask.cols : ℤ) = (new imageSize).mTargetSize.width →
        (mask.rows : ℤ) = (new imageSize).mTargetSize.height →
        (isMotionDetected { new imageSize with mFGMaskMOG2 := mask } frame ROI).isSome = true := by
  obtain ⟨⟨hpos, heven⟩, hpos', heven'⟩ := targetSize_even imageSize
  obtain ⟨hx', hwidth', hright'⟩ := scaled_inside hx hwidth hright hpos heven
  obtain ⟨hy', hheight', hbottom'⟩ := scaled_inside hy hheight hbottom hpos' heven'
  rw [new_eq hw hh]
  have hinside : Inside (resizeROI ⟨targetSize imageSize, true, .none, 1, 30⟩ frame ROI)
      (targetSize imageSize) := ⟨hx', hright', hy', hbottom'⟩
  refine ⟨hinside, ?_⟩
  intro mask hcols hrows
  exact isMotionDetected_isSome rfl hinside ⟨hwidth', hheight'⟩ hcols hrows

/-- A mask of the target size of such a frame, with motion all over. -/
def fullMask : Mat := ⟨576, 1024, List.replicate 576 (List.replicate 1024 255)⟩

/-- A region at the right and lower border of a frame of 1920 by 1080. -/
theorem resized_ROI_inside_mask_border :
    Inside ((new ⟨1920, 1080⟩).resizeROI ⟨1080, 1920, []⟩ ⟨1621, 701, 299, 379⟩)
        (new ⟨1920, 1080⟩).mTargetSize ∧
      (isMotionDetected { new ⟨1920, 1080⟩ with mFGMaskMOG2 := fullMask } ⟨1080, 1920, []⟩
        ⟨1621, 701, 299, 379⟩).isSome = true := by
  obtain ⟨hinside, hmask⟩ := @resized_ROI_inside_mask ⟨1920, 1080⟩ ⟨1080, 1920, []⟩
    ⟨1621, 701, 299, 379⟩ (by decide) (by decide) (by decide) (by decide) (by decide) (by decide)
    (by decide) (by decide)
  exact ⟨hinside, hmask fullMask (by decide +kernel) (by decide +kernel)⟩

end Region

end MotionDetection
end VisionSensor
