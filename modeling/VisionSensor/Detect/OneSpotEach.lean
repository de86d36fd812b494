import Mathlib.Data.List.Perm.Subperm
import VisionSensor.Detect.OccupancyTest

/-! Which vehicle boxes one pass of `updateSpots` counts for two spots. `localizer_detect` erases
the box it has matched from its own copy, so nothing but the rectangles decides. -/
namespace VisionSensor

/-- Positive width and height. -/
def Rect.Positive (r : Rect) : Prop := 0 < r.width ∧ 0 < r.height

/-- The half-open rectangles have no point in common. -/
def Rect.Disjoint (r r' : Rect) : Prop :=
  r.x + r.width ≤ r'.x ∨ r'.x + r'.width ≤ r.x ∨ r.y + r.height ≤ r'.y ∨ r'.y + r'.height ≤ r.y

/-- One vehicle fills at most one spot: no more spots than boxes are found occupied, and no box
is matched for two of them. -/
def OneSpotEach (car ROIs : List Rect) : Prop :=
  (answers car ROIs).count true ≤ car.length ∧ (ROIs.filterMap (matchedIdx car)).Nodup

/-- The box is of allowed size and starts on neither axis together with the spot, so that its
overlap is measured. -/
def Measured (ROI car : Rect) : Prop := SizeFits ROI car ∧ ¬ SharesStart ROI car

/-- The box covers more than half of the spot once drawn out. -/
def CoversDrawnOut (ROI car : Rect) : Prop := Measured ROI car ∧ ROI.area < 2 * ROI.drawnOutArea car

/-- One line lies behind the other, and a third one reaches into both. -/
def AcrossGap (start length start' length' carStart carLength : ℤ) : Prop :=
  start + length ≤ start' ∧ carStart < start + length ∧ start' < carStart + carLength ∨
    start' + length' ≤ start ∧ carStart < start' + length' ∧ start < carStart + carLength

/-- The box lies across the border between two spots. -/
def AcrossBorder (r r' car : Rect) : Prop :=
  AcrossGap r.x r.width r'.x r'.width car.x car.width ∨
    AcrossGap r.y r.height r'.y r'.height car.y car.height

/-- The box lies across the border between two spots and covers more than half of both. -/
structure Straddles (r r' car : Rect) : Prop where
  border : AcrossBorder r r' car
  first : CoversDrawnOut r car
  second : CoversDrawnOut r' car

/-- Some other box covers more of the spot than the box `c` at `i`, or as much from further ahead
in the list. -/
def Surpassed (car : List Rect) (ROI : Rect) (i : ℕ) (c : Rect) : Prop :=
  ∃ j d, car[j]? = some d ∧ Measured ROI d ∧
    (ROI.drawnOutArea c < ROI.drawnOutArea d ∨ j < i ∧ ROI.drawnOutArea c ≤ ROI.drawnOutArea d)

/-- A box straddles two spots, and no other box covers more of either. -/
def Straddled (car : List Rect) (r r' : Rect) : Prop :=
  ∃ i c, car[i]? = some c ∧ Straddles r r' c ∧ ¬ Surpassed car r i c ∧ ¬ Surpassed car r' i c

theorem count_answers (car ROIs : List Rect) :
    (answers car ROIs).count true = (ROIs.filterMap (matchedIdx car)).length := by
  induction ROIs with
  | nil => rfl
  | cons ROI ROIs ih =>
    have h := (localizer_detect_matched car ROI).1
    unfold answers at ih ⊢
    rw [List.map_cons, List.count_cons, ih, h, List.filterMap_cons]
    cases matchedIdx car ROI <;> simp

/-- Boxes matched for one spot each are at least as many as the spots. -/
theorem length_le_of_nodup {car ROIs : List Rect} (h : (ROIs.filterMap (matchedIdx car)).Nodup) :
    (ROIs.filterMap (matchedIdx car)).length ≤ car.length := by
  have hsub : ROIs.filterMap (matchedIdx car) ⊆ List.range car.length := by
    intro i hi
    obtain ⟨ROI, -, hROI⟩ := List.mem_filterMap.mp hi
    exact List.mem_range.mpr ((localizer_detect_matched car ROI).2 i hROI).1
  simpa using (h.subperm hsub).length_le

theorem oneSpotEach_iff_fills (car ROIs : List Rect) :
    OneSpotEach car ROIs ↔ ROIs.Pairwise fun r r' => ∀ i, ¬ (Fills car r i ∧ Fills car r' i) := by
  have hpairs : (ROIs.filterMap (matchedIdx car)).Nodup ↔
      ROIs.Pairwise fun r r' => ∀ i, ¬ (Fills car r i ∧ Fills car r' i) := by
    rw [List.Nodup, List.pairwise_filterMap]
    apply List.Pairwise.iff
    intro r r'
    simp only [matchedIdx_eq_some_iff]
    constructor
    · rintro h i ⟨hi, hi'⟩
      exact h i hi i hi' rfl
    · rintro h i hi j hj rfl
      exact h i ⟨hi, hj⟩
  rw [← hpairs]
  unfold OneSpotEach
  rw [count_answers]
  exact and_iff_right_of_imp length_le_of_nodup

variable {car : List Rect} {ROI : Rect}

/-- The measured boxes are those with an overlap, as far as it is positive. -/
theorem size_inter_measured_iff (hROI : ROI.Positive) {d : Rect} (hd : d.Positive) (n : ℤ) :
    size_inter ROI d = some n ∧ 0 < n ↔ Measured ROI d ∧ n = ROI.drawnOutArea d ∧ 0 < n := by
  unfold Measured
  by_cases hs : SizeFits ROI d
  · rw [size_inter_pos_iff hROI.1 hROI.2 hd.1 hd.2 hs, and_iff_right hs]
  · simp only [size_inter_of_not_fits hs, hs, reduceCtorEq, false_and]

/-- The box a spot is filled by, in the terms of the rectangles. -/
theorem fills_iff (hROI : ROI.Positive) (hcar : ∀ c ∈ car, c.Positive) (i : ℕ) :
    Fills car ROI i ↔
      ∃ c, car[i]? = some c ∧ CoversDrawnOut ROI c ∧ ¬ Surpassed car ROI i c := by
  have hmeasure : ∀ (j : ℕ) (d : Rect), car[j]? = some d → ∀ n, size_inter ROI d = some n ∧ 0 < n ↔
      Measured ROI d ∧ n = ROI.drawnOutArea d ∧ 0 < n := fun _ d hd =>
    size_inter_measured_iff hROI (hcar d (List.mem_of_getElem? hd))
  have harea : 0 < ROI.area := mul_pos hROI.1 hROI.2
  constructor
  · rintro ⟨n, hmax, hhalf⟩
    obtain ⟨c, hc, hn⟩ := Option.bind_eq_some_iff.mp hmax.value
    obtain ⟨hmeas, rfl, hpos⟩ := (hmeasure i c hc n).mp ⟨hn, hmax.above⟩
    refine ⟨c, hc, ⟨hmeas, (overHalf_iff harea _).mp hhalf⟩, ?_⟩
    rintro ⟨j, d, hd, hmeasd, hmore⟩
    have hposd : 0 < ROI.drawnOutArea d := by omega
    have hval : FirstMax.valueAt (size_inter ROI) car j = some (ROI.drawnOutArea d) := by
      rw [FirstMax.valueAt, hd, Option.bind_some]
      exact ((hmeasure j d hd _).mpr ⟨hmeasd, rfl, hposd⟩).1
    rcases hmore with hmore | ⟨hj, hmore⟩
    · exact absurd (hmax.max j _ hval) (not_le.mpr hmore)
    · exact absurd (hmax.first j hj _ hval) (not_lt.mpr hmore)
  · rintro ⟨c, hc, ⟨hmeas, hhalf⟩, hfirst⟩
    have hpos : 0 < ROI.drawnOutArea c := by omega
    have hvalue := ((hmeasure i c hc _).mpr ⟨hmeas, rfl, hpos⟩).1
    -- a box with a positive overlap is measured, so it would surpass `c` with a larger one
    have hother : ∀ j w, FirstMax.valueAt (size_inter ROI) car j = some w → 0 < w →
        ∃ d, car[j]? = some d ∧ Measured ROI d ∧ w = ROI.drawnOutArea d := by
      intro j w hw hwpos
      obtain ⟨d, hd, hdw⟩ := Option.bind_eq_some_iff.mp hw
      obtain ⟨hmeasd, hwd, -⟩ := (hmeasure j d hd w).mp ⟨hdw, hwpos⟩
      exact ⟨d, hd, hmeasd, hwd⟩
    refine ⟨ROI.drawnOutArea c, ⟨?_, hpos, ?_, ?_⟩, (overHalf_iff harea _).mpr hhalf⟩
    · rw [FirstMax.valueAt, hc, Option.bind_some, hvalue]
    · intro j w hw
      by_contra hlt
      obtain ⟨d, hd, hmeasd, rfl⟩ := hother j w hw (by omega)
      exact hfirst ⟨j, d, hd, hmeasd, .inl (not_le.mp hlt)⟩
    · intro j hj w hw
      by_contra hle
      obtain ⟨d, hd, hmeasd, rfl⟩ := hother j w hw (by omega)
      exact hfirst ⟨j, d, hd, hmeasd, .inr ⟨hj, not_lt.mp hle⟩⟩

/-- Lines that meet reach over each other's start. -/
theorem lineInter_pos {start length carStart carLength : ℤ}
    (h : 0 < lineInter start length carStart carLength) :
    start < carStart + carLength ∧ carStart < start + length := by
  unfold lineInter at h
  omega

/-- A box that covers more than half of two spots apart from each other lies across their border. -/
theorem acrossBorder_of_covers {r r' c : Rect} (hr : r.Positive) (hr' : r'.Positive)
    (hc : c.Positive) (hdisjoint : r.Disjoint r') (h : CoversDrawnOut r c)
    (h' : CoversDrawnOut r' c) : AcrossBorder r r' c := by
  have harea : 0 < r.area := mul_pos hr.1 hr.2
  have harea' : 0 < r'.area := mul_pos hr'.1 hr'.2
  have hpos := h.2
  have hpos' := h'.2
  obtain ⟨hx, hy⟩ := lineInter_pos_of_drawnOut hr.1 hr.2 hc.1 hc.2 (by omega)
  obtain ⟨hx', hy'⟩ := lineInter_pos_of_drawnOut hr'.1 hr'.2 hc.1 hc.2 (by omega)
  rcases hdisjoint with hd | hd | hd | hd
  · exact .inl (.inl ⟨hd, (lineInter_pos hx).2, (lineInter_pos hx').1⟩)
  · exact .inl (.inr ⟨hd, (lineInter_pos hx').2, (lineInter_pos hx).1⟩)
  · exact .inr (.inl ⟨hd, (lineInter_pos hy).2, (lineInter_pos hy').1⟩)
  · exact .inr (.inr ⟨hd, (lineInter_pos hy').2, (lineInter_pos hy).1⟩)

/-- A pass gives every vehicle to at most one of the spots, which lie apart from each other,
exactly when no box straddles two of them without being surpassed on one. -/
theorem oneSpotEach_iff {car ROIs : List Rect} (hcar : ∀ c ∈ car, c.Positive)
    (hROIs : ∀ r ∈ ROIs, r.Positive) (hdisjoint : ROIs.Pairwise Rect.Disjoint) :
    OneSpotEach car ROIs ↔ ROIs.Pairwise fun r r' => ¬ Straddled car r r' := by
  have hapart : ∀ R : Rect → Rect → Prop,
      ROIs.Pairwise R ↔ ROIs.Pairwise fun r r' => r.Disjoint r' ∧ R r r' := by
    intro R
    rw [List.pairwise_and_iff, and_iff_right hdisjoint]
  rw [oneSpotEach_iff_fills, hapart, hapart fun r r' => ¬ Straddled car r r']
  apply List.Pairwise.iff_of_mem
  intro r r' hr hr'
  apply and_congr_right
  intro hd
  have hr := hROIs r hr
  have hr' := hROIs r' hr'
  rw [← not_exists, not_iff_not]
  simp only [fills_iff hr hcar, fills_iff hr' hcar]
  constructor
  · rintro ⟨i, ⟨c, hc, hcover, hfirst⟩, c', hc', hcover', hfirst'⟩
    obtain rfl := Option.some.inj (hc.symm.trans hc')
    have hpos := hcar c (List.mem_of_getElem? hc)
    exact ⟨i, c, hc, ⟨acrossBorder_of_covers hr hr' hpos hd hcover hcover', hcover, hcover'⟩,
      hfirst, hfirst'⟩
  · rintro ⟨i, c, hc, hstraddles, hfirst, hfirst'⟩
    exact ⟨i, ⟨c, hc, hstraddles.first, hfirst⟩, c, hc, hstraddles.second, hfirst'⟩

/-- A box across the border and a box on the second spot, which covers more of that one. -/
theorem oneSpotEach_surpassed :
    OneSpotEach [⟨2, 1, 15, 9⟩, ⟨11, 1, 9, 9⟩] [⟨0, 0, 10, 10⟩, ⟨10, 0, 10, 10⟩] ∧
      Straddles ⟨0, 0, 10, 10⟩ ⟨10, 0, 10, 10⟩ ⟨2, 1, 15, 9⟩ := by
  have hfits : SizeFits ⟨0, 0, 10, 10⟩ ⟨2, 1, 15, 9⟩ ∧ SizeFits ⟨10, 0, 10, 10⟩ ⟨2, 1, 15, 9⟩ ∧
      SizeFits ⟨10, 0, 10, 10⟩ ⟨11, 1, 9, 9⟩ := by
    unfold SizeFits
    decide +kernel
  constructor
  · refine (oneSpotEach_iff ?_ ?_ ?_).mpr ?_
    · simp [Rect.Positive]
    · simp [Rect.Positive]
    · simp [Rect.Disjoint]
    · rw [List.pairwise_pair]
      rintro ⟨i, c, hc, hstraddles, -, hfirst⟩
      rcases i with _ | _ | i
      · obtain rfl := Option.some.inj hc
        exact hfirst ⟨1, _, rfl, ⟨hfits.2.2, by simp [SharesStart]⟩, .inl (by decide)⟩
      · obtain rfl := Option.some.inj hc
        exact absurd hstraddles.border (by simp [AcrossBorder, AcrossGap])
      · cases hc
  · exact ⟨by simp [AcrossBorder, AcrossGap], ⟨⟨hfits.1, by simp [SharesStart]⟩, by decide⟩,
      ⟨hfits.2.1, by simp [SharesStart]⟩, by decide⟩

/-- A box across the line between two neighbouring spots is counted for both: erasing it from
the copy leaves the caller's list as it was. -/
theorem one_box_fills_two_spots :
    let ROIs := [⟨0, 0, 10, 10⟩, ⟨10, 0, 10, 10⟩]
    let car := [⟨2, 1, 15, 9⟩]
    (∀ r ∈ ROIs ++ car, 0 < r.width ∧ 0 < r.height) ∧ ROIs.Pairwise Rect.Disjoint ∧
      answers car ROIs = [true, true] ∧ ¬ OneSpotEach car ROIs := by
  have hanswers : answers [⟨2, 1, 15, 9⟩] [⟨0, 0, 10, 10⟩, ⟨10, 0, 10, 10⟩] = [true, true] := by
    decide +kernel
  refine ⟨by decide, by simp [Rect.Disjoint], hanswers, fun h => ?_⟩
  have hcount := h.1
  rw [hanswers] at hcount
  exact absurd hcount (by decide)

end VisionSensor
