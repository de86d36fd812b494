import Mathlib.Order.Interval.Finset.Basic
import Mathlib.Data.Int.ConditionallyCompleteOrder
import Mathlib.Data.Int.Interval
import Mathlib.Tactic.Linarith
import VisionSensor.Detect.Localizer

/-! What the answer of `localizer_detect` says: of a list, that one of its boxes alone would be
found on the spot; of one box, how its overlap with the spot is measured. -/
namespace VisionSensor

/-- The overlap found covers more than half of the spot. -/
def OverHalf (ROI : Rect) (size : ℤ) : Prop := (size : ℚ) / ROI.area > 1 / 2

theorem overHalf_iff {ROI : Rect} (h : 0 < ROI.area) (size : ℤ) :
    OverHalf ROI size ↔ ROI.area < 2 * size := by
  have hq : (0 : ℚ) < ROI.area := by exact_mod_cast h
  unfold OverHalf
  rw [gt_iff_lt, lt_div_iff₀ hq, one_div_mul_eq_div, div_lt_iff₀ (by norm_num)]
  norm_cast
  omega

theorem overHalf_mono {ROI : Rect} (h : 0 < ROI.area) (m n : ℤ) (hmn : m ≤ n) :
    OverHalf ROI m → OverHalf ROI n := by
  rw [overHalf_iff h, overHalf_iff h]
  omega

theorem not_overHalf_zero {ROI : Rect} : ¬ OverHalf ROI 0 := by
  unfold OverHalf
  norm_num

theorem localizer_detect_overHalf (car : List Rect) (ROI : Rect) :
    (localizer_detect car ROI).1 = true ↔ OverHalf ROI (searchMax car ROI).2 := by
  simp only [localizer_detect, OverHalf]
  split_ifs with h <;> simp only [h]

/-- The search answers for its boxes one by one. -/
theorem localizer_detect_exists {ROI : Rect} (h : 0 < ROI.area) (car : List Rect) :
    (localizer_detect car ROI).1 = true ↔
      ∃ x ∈ car, ∃ size, size_inter ROI x = some size ∧ OverHalf ROI size := by
  rw [localizer_detect_overHalf, searchMax_eq]
  exact FirstMax.scan_mem_upper_iff (overHalf_mono h) not_overHalf_zero

theorem localizer_detect_singleton {ROI : Rect} (h : 0 < ROI.area) (x : Rect) :
    (localizer_detect [x] ROI).1 = true ↔
      ∃ size, size_inter ROI x = some size ∧ ROI.area < 2 * size := by
  simp only [localizer_detect_exists h, List.mem_singleton, exists_eq_left, overHalf_iff h]

theorem localizer_detect_any {ROI : Rect} (h : 0 < ROI.area) (car : List Rect) :
    (localizer_detect car ROI).1 = car.any fun x => (localizer_detect [x] ROI).1 := by
  rw [Bool.eq_iff_iff, localizer_detect_exists h, List.any_eq_true]
  simp only [localizer_detect_exists h, List.mem_singleton, exists_eq_left]

/-- The search for the largest overlap loses nothing: a list of boxes fills the spot exactly when
one of them does, in any order and put together in any way, and the box erased is in the list. -/
theorem localizer_detect_loses_nothing {ROI : Rect} (h : 0 < ROI.area) (car : List Rect) :
    ((localizer_detect car ROI).1 = true ↔ ∃ x ∈ car, (localizer_detect [x] ROI).1 = true) ∧
      (∀ car', car.Perm car' → (localizer_detect car ROI).1 = (localizer_detect car' ROI).1) ∧
      (∀ car', (localizer_detect (car ++ car') ROI).1 =
        ((localizer_detect car ROI).1 || (localizer_detect car' ROI).1)) ∧
      ((localizer_detect car ROI).1 = true → ∃ i < car.length, (searchMax car ROI).1 = some i ∧
        (localizer_detect car ROI).2 = car.eraseIdx i) := by
  refine ⟨?_, ?_, ?_, ?_⟩
  · rw [localizer_detect_any h, List.any_eq_true]
  · intro car' hperm
    rw [localizer_detect_any h car, localizer_detect_any h car']
    exact hperm.any_eq
  · intro car'
    rw [localizer_detect_any h, List.any_append, ← localizer_detect_any h, ← localizer_detect_any h]
  · intro htrue
    have hhalf := (localizer_detect_overHalf car ROI).mp htrue
    rw [searchMax_eq] at hhalf
    obtain ⟨i, hi, hidx⟩ := FirstMax.scan_index not_overHalf_zero hhalf
    rw [← searchMax_eq] at hidx hhalf
    refine ⟨i, hi, hidx, ?_⟩
    unfold OverHalf at hhalf
    simp only [localizer_detect, hidx, if_pos hhalf]

/-- A box off the spot and a box on it. -/
theorem localizer_detect_loses_nothing_pair :
    ((localizer_detect [⟨7, 7, 9, 9⟩, ⟨1, 2, 10, 10⟩] ⟨0, 0, 10, 10⟩).1 = true ↔
      ∃ x ∈ [⟨7, 7, 9, 9⟩, ⟨1, 2, 10, 10⟩], (localizer_detect [x] ⟨0, 0, 10, 10⟩).1 = true) ∧
    (localizer_detect [⟨7, 7, 9, 9⟩, ⟨1, 2, 10, 10⟩] ⟨0, 0, 10, 10⟩).1 =
      (localizer_detect [⟨1, 2, 10, 10⟩, ⟨7, 7, 9, 9⟩] ⟨0, 0, 10, 10⟩).1 ∧
    ∃ i < 2, (searchMax [⟨7, 7, 9, 9⟩, ⟨1, 2, 10, 10⟩] ⟨0, 0, 10, 10⟩).1 = some i ∧
      (localizer_detect [⟨7, 7, 9, 9⟩, ⟨1, 2, 10, 10⟩] ⟨0, 0, 10, 10⟩).2 =
        [⟨7, 7, 9, 9⟩, ⟨1, 2, 10, 10⟩].eraseIdx i := by
  have harea : 0 < Rect.area ⟨0, 0, 10, 10⟩ := by decide
  obtain ⟨hany, hperm, -, hidx⟩ := localizer_detect_loses_nothing harea
    [⟨7, 7, 9, 9⟩, ⟨1, 2, 10, 10⟩]
  exact ⟨hany, hperm _ (List.Perm.swap _ _ _), hidx (by decide +kernel)⟩

/-- The length the half-open lines have in common. -/
def lineInter (start length carStart carLength : ℤ) : ℤ :=
  max 0 (min (start + length) (carStart + carLength) - max start carStart)

theorem lineInter_eq_card (start length carStart carLength : ℤ) :
    lineInter start length carStart carLength =
      (Finset.Ico start (start + length) ∩ Finset.Ico carStart (carStart + carLength)).card := by
  rw [Finset.Ico_inter_Ico, Int.card_Ico, lineInter]
  omega

/-- How far the line that starts first goes on behind a line that lies strictly inside it. -/
def overhang (start length carStart carLength : ℤ) : ℤ :=
  max 0 (if carStart < start then carStart + carLength - (start + length)
    else start + length - (carStart + carLength))

/-- The area of the intersection of the half-open rectangles. -/
def Rect.interArea (ROI car : Rect) : ℤ :=
  lineInter ROI.x ROI.width car.x car.width * lineInter ROI.y ROI.height car.y car.height

/-- The same area with the line inside another one drawn out to the end of that other line. -/
def Rect.drawnOutArea (ROI car : Rect) : ℤ :=
  (lineInter ROI.x ROI.width car.x car.width + overhang ROI.x ROI.width car.x car.width) *
    (lineInter ROI.y ROI.height car.y car.height + overhang ROI.y ROI.height car.y car.height)

def SizeFits (ROI car : Rect) : Prop :=
  2 / 5 ≤ (car.area : ℚ) / ROI.area ∧ (car.area : ℚ) / ROI.area ≤ 3 / 2

/-- What the test is for: a box of about the size of the spot covers more than half of it. -/
def Covers (ROI car : Rect) : Prop :=
  SizeFits ROI car ∧ (ROI.interArea car : ℚ) > 1 / 2 * ROI.area

/-- On one axis neither line starts first. -/
def SharesStart (ROI car : Rect) : Prop := ROI.x = car.x ∨ ROI.y = car.y

/-- A box of fitting size is taken wrongly: one that starts together with the spot on an axis and
covers more than half of it, or one that covers at most half of it, but more once drawn out. -/
def Misjudged (ROI car : Rect) : Prop :=
  SizeFits ROI car ∧
    (SharesStart ROI car ∧ ROI.area < 2 * ROI.interArea car ∨
      ¬ SharesStart ROI car ∧ 2 * ROI.interArea car ≤ ROI.area ∧
        ROI.area < 2 * ROI.drawnOutArea car)

/-- What the four tests find on one axis: nothing when the lines start together, else the common
part and the overhang. -/
theorem lineOverlap_eq {start length carStart carLength : ℤ} (hl : 0 < length)
    (hc : 0 < carLength) :
    lineOverlap start length carStart carLength =
      if start = carStart ∨ lineInter start length carStart carLength = 0 then none
      else some (lineInter start length carStart carLength +
        overhang start length carStart carLength) := by
  unfold lineOverlap lineInter overhang
  split_ifs <;> first
    | rfl
    | omega
    | (rw [Option.some.injEq]; omega)

theorem lineInter_nonneg (start length carStart carLength : ℤ) :
    0 ≤ lineInter start length carStart carLength := le_max_left _ _

theorem overhang_nonneg (start length carStart carLength : ℤ) :
    0 ≤ overhang start length carStart carLength := le_max_left _ _

/-- Lines that do not meet have no overhang. -/
theorem overhang_eq_zero {start length carStart carLength : ℤ} (hl : 0 < length)
    (hc : 0 < carLength) (h : lineInter start length carStart carLength = 0) :
    overhang start length carStart carLength = 0 := by
  unfold lineInter at h
  unfold overhang
  split_ifs <;> omega

theorem Rect.interArea_le_drawnOutArea (ROI car : Rect) :
    ROI.interArea car ≤ ROI.drawnOutArea car := by
  apply mul_le_mul
  · exact le_add_of_nonneg_right (overhang_nonneg ..)
  · exact le_add_of_nonneg_right (overhang_nonneg ..)
  · exact lineInter_nonneg ..
  · exact add_nonneg (lineInter_nonneg ..) (overhang_nonneg ..)

theorem size_inter_of_fits {ROI car : Rect} (h : SizeFits ROI car) :
    size_inter ROI car =
      (lineOverlap ROI.x ROI.width car.x car.width).bind fun xline =>
        (lineOverlap ROI.y ROI.height car.y car.height).map fun yline => xline * yline := by
  apply if_neg
  rw [not_or, not_lt, gt_iff_lt, not_lt]
  exact h

theorem size_inter_of_not_fits {ROI car : Rect} (h : ¬ SizeFits ROI car) :
    size_inter ROI car = none := by
  apply if_pos
  rw [SizeFits, not_and_or, not_le, not_le] at h
  exact h

section Positive

variable {ROI car : Rect} (hw : 0 < ROI.width) (hh : 0 < ROI.height) (hcw : 0 < car.width)
  (hch : 0 < car.height)

include hw hh hcw hch

/-- Drawing out covers nothing where a line has nothing in common with the spot's. -/
theorem lineInter_pos_of_drawnOut (h : 0 < ROI.drawnOutArea car) :
    0 < lineInter ROI.x ROI.width car.x car.width ∧
      0 < lineInter ROI.y ROI.height car.y car.height := by
  have hx := lineInter_nonneg ROI.x ROI.width car.x car.width
  have hy := lineInter_nonneg ROI.y ROI.height car.y car.height
  refine ⟨lt_of_le_of_ne hx fun hx0 => ?_, lt_of_le_of_ne hy fun hy0 => ?_⟩
  · rw [Rect.drawnOutArea, ← hx0, overhang_eq_zero hw hcw hx0.symm, zero_add, zero_mul] at h
    exact absurd h (lt_irrefl 0)
  · rw [Rect.drawnOutArea, ← hy0, overhang_eq_zero hh hch hy0.symm, zero_add, mul_zero] at h
    exact absurd h (lt_irrefl 0)

/-- The overlap found, where it is positive. -/
theorem size_inter_pos_iff (hs : SizeFits ROI car) (size : ℤ) :
    size_inter ROI car = some size ∧ 0 < size ↔
      ¬ SharesStart ROI car ∧ size = ROI.drawnOutArea car ∧ 0 < size := by
  rw [size_inter_of_fits hs, lineOverlap_eq hw hcw, lineOverlap_eq hh hch]
  constructor
  · rintro ⟨h, hpos⟩
    obtain ⟨xline, hx, h⟩ := Option.bind_eq_some_iff.mp h
    obtain ⟨yline, hy, rfl⟩ := Option.map_eq_some_iff.mp h
    split_ifs at hx hy with hx0 hy0
    obtain rfl := Option.some.inj hx
    obtain rfl := Option.some.inj hy
    rw [not_or] at hx0 hy0
    exact ⟨not_or.mpr ⟨hx0.1, hy0.1⟩, rfl, hpos⟩
  · rintro ⟨hstart, rfl, hpos⟩
    obtain ⟨hx, hy⟩ := lineInter_pos_of_drawnOut hw hh hcw hch hpos
    obtain ⟨hx0, hy0⟩ := not_or.mp hstart
    rw [if_neg (not_or.mpr ⟨hx0, hx.ne'⟩), if_neg (not_or.mpr ⟨hy0, hy.ne'⟩)]
    exact ⟨rfl, hpos⟩

/-- The overlap of a box that is over half of the spot. -/
theorem size_inter_over_half (hs : SizeFits ROI car) :
    (∃ size, size_inter ROI car = some size ∧ ROI.area < 2 * size) ↔
      ¬ SharesStart ROI car ∧ ROI.area < 2 * ROI.drawnOutArea car := by
  have harea : 0 < ROI.area := mul_pos hw hh
  constructor
  · rintro ⟨size, hsize, hhalf⟩
    obtain ⟨hstart, rfl, -⟩ :=
      (size_inter_pos_iff hw hh hcw hch hs size).mp ⟨hsize, by omega⟩
    exact ⟨hstart, hhalf⟩
  · rintro ⟨hstart, hhalf⟩
    have hpos : 0 < ROI.drawnOutArea car := by omega
    have hsize := (size_inter_pos_iff hw hh hcw hch hs _).mpr ⟨hstart, rfl, hpos⟩
    exact ⟨_, hsize.1, hhalf⟩

end Positive

/-- The code's answer for one box in the terms of its overlap. -/
theorem localizer_detect_drawnOut {ROI car : Rect} (hw : 0 < ROI.width) (hh : 0 < ROI.height)
    (hcw : 0 < car.width) (hch : 0 < car.height) :
    (localizer_detect [car] ROI).1 = true ↔
      SizeFits ROI car ∧ ¬ SharesStart ROI car ∧ ROI.area < 2 * ROI.drawnOutArea car := by
  rw [localizer_detect_singleton (mul_pos hw hh)]
  by_cases hs : SizeFits ROI car
  · rw [size_inter_over_half hw hh hcw hch hs]
    simp only [hs, true_and]
  · simp only [size_inter_of_not_fits hs, hs, reduceCtorEq, false_and, exists_false]

/-- The occupancy test of one box is exact unless the box is misjudged. -/
theorem localizer_detect_exact_iff {ROI car : Rect} (hw : 0 < ROI.width) (hh : 0 < ROI.height)
    (hcw : 0 < car.width) (hch : 0 < car.height) :
    ((localizer_detect [car] ROI).1 = true ↔ Covers ROI car) ↔ ¬ Misjudged ROI car := by
  have hle := Rect.interArea_le_drawnOutArea ROI car
  have hcover : (ROI.interArea car : ℚ) > 1 / 2 * ROI.area ↔ ROI.area < 2 * ROI.interArea car := by
    rw [gt_iff_lt, one_div_mul_eq_div, div_lt_iff₀ (by norm_num)]
    norm_cast
    omega
  rw [localizer_detect_drawnOut hw hh hcw hch, Covers, hcover, Misjudged]
  by_cases hs : SizeFits ROI car
  · by_cases hns : SharesStart ROI car
    · simp only [hs, hns, not_true_eq_false, false_and, and_false, true_and, or_false, false_iff]
    · simp only [hs, hns, not_false_eq_true, false_and, true_and, false_or]
      omega
  · simp only [hs, false_and, not_false_eq_true]

/-- A box across one corner of the spot. -/
theorem localizer_detect_exact_shifted :
    ((localizer_detect [⟨1, 2, 10, 10⟩] ⟨0, 0, 10, 10⟩).1 = true ↔
        Covers ⟨0, 0, 10, 10⟩ ⟨1, 2, 10, 10⟩) ↔
      ¬ Misjudged ⟨0, 0, 10, 10⟩ ⟨1, 2, 10, 10⟩ :=
  localizer_detect_exact_iff (by decide) (by decide) (by decide) (by decide)

/-- A box exactly on the spot is not seen. -/
theorem box_on_spot_not_detected :
    (localizer_detect [⟨0, 0, 10, 10⟩] ⟨0, 0, 10, 10⟩).1 = false ∧
      Covers ⟨0, 0, 10, 10⟩ ⟨0, 0, 10, 10⟩ := by
  refine ⟨by decide +kernel, ⟨?_, ?_⟩, ?_⟩ <;> decide +kernel

end VisionSensor
