import Mathlib.Algebra.Order.Ring.Rat

/-! Rectangles with inclusive integer ends, and the two overlap measures of the box filters.
Division is exact. -/
namespace VisionSensor.Geo

/-- A line from `low` to `high`, both included. The constructor asserts that they are in order. -/
structure Line where
  low : ℤ
  high : ℤ
  valid : low ≤ high

namespace Line

def length (l : Line) : ℤ := l.high - l.low + 1

end Line

structure Rect where
  xline : Line
  yline : Line

def Rect.area (r : Rect) : ℤ := r.xline.length * r.yline.length

/-- `line_intersection` once the line that starts first comes first. The assertion of the
result holds. -/
def orderedIntersection (line1 line2 : Line) : Option Line :=
  if hd : line1.high < line2.low then none
  else
    some ⟨line2.low, if line1.high < line2.high then line1.high else line2.high, by
      have := line2.valid
      split_ifs <;> omega⟩

def line_intersection (line1 line2 : Line) : Option Line :=
  if line1.low > line2.low then orderedIntersection line2 line1
  else orderedIntersection line1 line2

def rect_intersection (rect1 rect2 : Rect) : Option Rect :=
  match line_intersection rect1.xline rect2.xline, line_intersection rect1.yline rect2.yline with
  | some xline, some yline => some ⟨xline, yline⟩
  | _, _ => none

def rect_iou (rect1 rect2 : Rect) : ℚ :=
  match rect_intersection rect1 rect2 with
  | none => 0
  | some intersection => intersection.area / (rect1.area + rect2.area - intersection.area)

def rect_ios (rect1 rect2 : Rect) : ℚ :=
  match rect_intersection rect1 rect2 with
  | none => 0
  | some intersection =>
      let small := if rect1.area < rect2.area then rect1 else rect2
      intersection.area / small.area

theorem line_intersection_eq (a b : Line) :
    line_intersection a b =
      if h : max a.low b.low ≤ min a.high b.high then some ⟨_, _, h⟩ else none := by
  have ha := a.valid
  have hb := b.valid
  unfold line_intersection orderedIntersection
  split_ifs <;> first
    | rfl
    | omega
    | (rw [dif_pos (by omega)]; simp only [Option.some.injEq, Line.mk.injEq]; omega)

theorem line_intersection_comm (a b : Line) : line_intersection a b = line_intersection b a := by
  simp only [line_intersection_eq, max_comm a.low, min_comm a.high]

theorem rect_intersection_comm (r s : Rect) : rect_intersection r s = rect_intersection s r := by
  unfold rect_intersection
  rw [line_intersection_comm r.xline, line_intersection_comm r.yline]

theorem rect_iou_comm (r s : Rect) : rect_iou r s = rect_iou s r := by
  unfold rect_iou
  rw [rect_intersection_comm, add_comm (r.area : ℚ)]

theorem rect_ios_comm (r s : Rect) : rect_ios r s = rect_ios s r := by
  unfold rect_ios
  rw [rect_intersection_comm]
  have harea : (if r.area < s.area then r else s).area = (if s.area < r.area then s else r).area := by
    split_ifs <;> omega
  simp only [harea]

end VisionSensor.Geo
