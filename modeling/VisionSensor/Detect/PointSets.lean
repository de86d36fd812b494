import VisionSensor.Detect.Geometry
import VisionSensor.Lib.SetOverlap
import Mathlib.Data.Int.ConditionallyCompleteOrder
import Mathlib.Data.Int.Interval
import Mathlib.Data.Finset.Prod

/-! Lines and rectangles as the sets of their integer points, and the overlap measures of the box
filters as counts of points. -/
namespace VisionSensor.Geo
open Finset

noncomputable def Line.points (l : Line) : Finset ℤ := Icc l.low l.high

noncomputable def Rect.points (r : Rect) : Finset (ℤ × ℤ) := r.xline.points ×ˢ r.yline.points

/-- The points of an intersection, of which `None` has none. -/
noncomputable def commonPoints (o : Option Rect) : Finset (ℤ × ℤ) := o.elim ∅ Rect.points

namespace Line

theorem mem_points {l : Line} {z : ℤ} : z ∈ l.points ↔ l.low ≤ z ∧ z ≤ l.high := mem_Icc

theorem points_nonempty (l : Line) : l.points.Nonempty := ⟨l.low, mem_points.mpr ⟨le_rfl, l.valid⟩⟩

theorem card_points (l : Line) : (#l.points : ℤ) = l.length := by
  have h := l.valid
  rw [points, Int.card_Icc, length]
  omega

end Line

namespace Rect

theorem mem_points {r : Rect} {p : ℤ × ℤ} :
    p ∈ r.points ↔ (r.xline.low ≤ p.1 ∧ p.1 ≤ r.xline.high) ∧
      (r.yline.low ≤ p.2 ∧ p.2 ≤ r.yline.high) := by
  rw [points, mem_product, Line.mem_points, Line.mem_points]

theorem points_nonempty (r : Rect) : r.points.Nonempty :=
  r.xline.points_nonempty.product r.yline.points_nonempty

theorem card_points (r : Rect) : (#r.points : ℤ) = r.area := by
  rw [points, card_product, Nat.cast_mul, Line.card_points, Line.card_points, area]

theorem area_cast (r : Rect) : (r.area : ℚ) = #r.points := by
  rw [← r.card_points, Int.cast_natCast]

/-- The corners tell two rectangles apart. -/
theorem points_injective {r s : Rect} (h : r.points = s.points) : r = s := by
  obtain ⟨⟨rxl, rxh, hrx⟩, ⟨ryl, ryh, hry⟩⟩ := r
  obtain ⟨⟨sxl, sxh, hsx⟩, ⟨syl, syh, hsy⟩⟩ := s
  have low := (Finset.ext_iff.mp h (rxl, ryl)).mp (mem_points.mpr ⟨⟨le_rfl, hrx⟩, le_rfl, hry⟩)
  have high := (Finset.ext_iff.mp h (rxh, ryh)).mp (mem_points.mpr ⟨⟨hrx, le_rfl⟩, hry, le_rfl⟩)
  have low' := (Finset.ext_iff.mp h (sxl, syl)).mpr (mem_points.mpr ⟨⟨le_rfl, hsx⟩, le_rfl, hsy⟩)
  have high' := (Finset.ext_iff.mp h (sxh, syh)).mpr (mem_points.mpr ⟨⟨hsx, le_rfl⟩, hsy, le_rfl⟩)
  simp only [mem_points] at low high low' high'
  obtain ⟨rfl, rfl, rfl, rfl⟩ : rxl = sxl ∧ rxh = sxh ∧ ryl = syl ∧ ryh = syh := by omega
  rfl

end Rect

theorem points_line_intersection (a b : Line) :
    (line_intersection a b).elim ∅ Line.points = a.points ∩ b.points := by
  ext z
  rw [line_intersection_eq, mem_inter, Line.mem_points, Line.mem_points]
  split_ifs with h
  · show z ∈ Line.points _ ↔ _
    rw [Line.mem_points]
    show max a.low b.low ≤ z ∧ z ≤ min a.high b.high ↔ _
    omega
  · simp only [Option.elim_none, notMem_empty, false_iff]
    omega

/-- Each axis is cut by itself; where one has nothing in common, the rectangles have not. -/
theorem points_rect_intersection (r s : Rect) :
    commonPoints (rect_intersection r s) = r.points ∩ s.points := by
  rw [Rect.points, Rect.points, product_inter_product, ← points_line_intersection,
    ← points_line_intersection, rect_intersection]
  cases line_intersection r.xline s.xline with
  | none => simp [commonPoints]
  | some x =>
    cases line_intersection r.yline s.yline with
    | none => simp [commonPoints]
    | some y => rfl

theorem rect_intersection_eq_none_iff (r s : Rect) :
    rect_intersection r s = none ↔ Disjoint r.points s.points := by
  rw [disjoint_iff_inter_eq_empty, ← points_rect_intersection]
  cases rect_intersection r s with
  | none => simp [commonPoints]
  | some t => simp [commonPoints, t.points_nonempty.ne_empty]

theorem points_of_rect_intersection {r s t : Rect} (h : rect_intersection r s = some t) :
    t.points = r.points ∩ s.points := by
  rw [← points_rect_intersection, h]
  rfl

theorem rect_iou_eq (r s : Rect) : rect_iou r s = SetOverlap.iou r.points s.points := by
  rw [SetOverlap.iou, SetOverlap.card_union_cast, rect_iou]
  cases h : rect_intersection r s with
  | none =>
    have := disjoint_iff_inter_eq_empty.mp ((rect_intersection_eq_none_iff r s).mp h)
    simp [this]
  | some t => simp only [Rect.area_cast, points_of_rect_intersection h]

theorem rect_ios_eq (r s : Rect) : rect_ios r s = SetOverlap.ios r.points s.points := by
  rw [SetOverlap.ios, rect_ios]
  cases h : rect_intersection r s with
  | none =>
    have := disjoint_iff_inter_eq_empty.mp ((rect_intersection_eq_none_iff r s).mp h)
    simp [this]
  | some t =>
    -- The first rectangle is the small one only when it is strictly smaller.
    have hsmall : ((if r.area < s.area then r else s).area : ℚ)
        = (min #r.points #s.points : ℕ) := by
      have hr := r.card_points
      have hs := s.card_points
      rw [Rect.area_cast]
      split_ifs with hlt
      · rw [min_eq_left (by omega)]
      · rw [min_eq_right (by omega)]
    simp only [hsmall, Rect.area_cast, points_of_rect_intersection h]

/-- The intersection of two rectangles is the intersection of their point sets, and the two
measures count its points against the union and against the smaller set. -/
theorem rect_overlap_is_set_overlap (r s : Rect) :
    (rect_intersection r s = none ↔ Disjoint r.points s.points) ∧
      (∀ t, rect_intersection r s = some t → t.points = r.points ∩ s.points) ∧
      rect_iou r s = #(r.points ∩ s.points) / #(r.points ∪ s.points) ∧
      rect_ios r s = #(r.points ∩ s.points) / (min #r.points #s.points : ℕ) ∧
      rect_iou r s = rect_iou s r ∧ rect_ios r s = rect_ios s r ∧
      (0 ≤ rect_iou r s ∧ rect_iou r s ≤ 1) ∧ (0 ≤ rect_ios r s ∧ rect_ios r s ≤ 1) ∧
      (rect_iou r s = 1 ↔ r = s) := by
  refine ⟨rect_intersection_eq_none_iff r s, fun t => points_of_rect_intersection,
    rect_iou_eq r s, rect_ios_eq r s, rect_iou_comm r s, rect_ios_comm r s, ?_, ?_, ?_⟩
  · rw [rect_iou_eq]
    exact ⟨SetOverlap.iou_nonneg _ _, SetOverlap.iou_le_one _ _⟩
  · rw [rect_ios_eq]
    exact ⟨SetOverlap.ios_nonneg _ _, SetOverlap.ios_le_one _ _⟩
  · rw [rect_iou_eq, SetOverlap.iou_eq_one_iff r.points_nonempty]
    exact ⟨Rect.points_injective, fun h => h ▸ rfl⟩

end VisionSensor.Geo
