import Mathlib.Data.List.Sort
import VisionSensor.Detect.Geometry
import VisionSensor.Lib.PairSweep

/-! `filter_bbox_iou` and `filter_bbox_ios`, the non-maximum suppression of the detector, with the
list indices of the source. Each is a sweep over the pairs of the sorted list. -/
namespace VisionSensor

structure BBox where
  rect : Geo.Rect
  conf : ℚ
  name : String
  label : ℤ

def BBox.area (b : BBox) : ℤ := b.rect.area

namespace FilterBBox

/-- Whether `victim is left`. `min` returns the first of two with equal keys. -/
def victimIsLeft (left right : BBox) : Bool :=
  if left.conf = right.conf then decide (left.area ≤ right.area)
  else decide (left.conf ≤ right.conf)

/-- The inner loop; it ends at the end of the list or by the `break` after `left` is popped.
`none` is an `IndexError`. -/
def rightLoop (overlap : Geo.Rect → Geo.Rect → ℚ) (threshold : ℚ) (bboxes : List BBox)
    (left_idx right_idx : ℕ) : Option (List BBox) :=
  if h : right_idx < bboxes.length then
    match bboxes[left_idx]? with
    | none => none
    | some left =>
        let right := bboxes[right_idx]
        if overlap left.rect right.rect < threshold then
          rightLoop overlap threshold bboxes left_idx (right_idx + 1)
        else if victimIsLeft left right then some (bboxes.eraseIdx left_idx)
        else rightLoop overlap threshold (bboxes.eraseIdx right_idx) left_idx right_idx
  else some bboxes
termination_by bboxes.length - right_idx
decreasing_by
  · omega
  · rw [List.length_eraseIdx_of_lt h]
    omega

theorem rightLoop_length {overlap : Geo.Rect → Geo.Rect → ℚ} {threshold : ℚ}
    {bboxes res : List BBox} {left_idx right_idx : ℕ}
    (h : rightLoop overlap threshold bboxes left_idx right_idx = some res) :
    res.length ≤ bboxes.length := by
  fun_induction rightLoop overlap threshold bboxes left_idx right_idx with
  | case1 => cases h
  | case2 _ _ _ _ _ _ _ ih => exact ih h
  | case3 bboxes left_idx =>
    obtain rfl := Option.some.inj h
    exact (List.eraseIdx_sublist _ _).length_le
  | case4 _ _ _ _ _ _ _ _ ih => exact (ih h).trans (List.eraseIdx_sublist _ _).length_le
  | case5 =>
    obtain rfl := Option.some.inj h
    exact le_rfl

/-- The outer loop. -/
def leftLoop (overlap : Geo.Rect → Geo.Rect → ℚ) (threshold : ℚ) (bboxes : List BBox)
    (left_idx : ℕ) : Option (List BBox) :=
  if left_idx + 1 < bboxes.length then
    match h : rightLoop overlap threshold bboxes left_idx (left_idx + 1) with
    | none => none
    | some bboxes' => leftLoop overlap threshold bboxes' (left_idx + 1)
  else some bboxes
termination_by bboxes.length - left_idx
decreasing_by
  have := rightLoop_length h
  omega

/-- `bboxes.sort(key=functools.cmp_to_key(bb.BBox.xcmp))`, a stable sort. -/
def sortByX (bboxes : List BBox) : List BBox :=
  bboxes.insertionSort fun a b => a.rect.xline.low ≤ b.rect.xline.low

/-- The body shared by the two filters. -/
def filterBy (overlap : Geo.Rect → Geo.Rect → ℚ) (threshold : ℚ) (bboxes : List BBox) :
    Option (List BBox) :=
  leftLoop overlap threshold (sortByX bboxes) 0

def filter_bbox_iou (bboxes : List BBox) (iou_threshold : ℚ) : Option (List BBox) :=
  filterBy Geo.rect_iou iou_threshold bboxes

def filter_bbox_ios (bboxes : List BBox) (ios_threshold : ℚ) : Option (List BBox) :=
  filterBy Geo.rect_ios ios_threshold bboxes

def filter_bbox (bboxes : List BBox) (ios_threshold iou_threshold : ℚ) : Option (List BBox) :=
  (filter_bbox_iou bboxes iou_threshold).bind fun bboxes => filter_bbox_ios bboxes ios_threshold

/-- Two boxes overlap at or above the threshold. -/
def hit (overlap : Geo.Rect → Geo.Rect → ℚ) (threshold : ℚ) (a b : BBox) : Bool :=
  !decide (overlap a.rect b.rect < threshold)

/-- The list one filter sweeps over, as a sweep. -/
def swept (overlap : Geo.Rect → Geo.Rect → ℚ) (threshold : ℚ) (bboxes : List BBox) : List BBox :=
  PairSweep.sweep (hit overlap threshold) victimIsLeft (sortByX bboxes)

variable {overlap : Geo.Rect → Geo.Rect → ℚ} {threshold : ℚ}

/-- One iteration of the inner loop. -/
theorem rightLoop_step {bboxes : List BBox} {left_idx right_idx : ℕ} {left right : BBox}
    (hl : bboxes[left_idx]? = some left) (hr : bboxes[right_idx]? = some right) :
    rightLoop overlap threshold bboxes left_idx right_idx =
      if overlap left.rect right.rect < threshold then
        rightLoop overlap threshold bboxes left_idx (right_idx + 1)
      else if victimIsLeft left right then some (bboxes.eraseIdx left_idx)
      else rightLoop overlap threshold (bboxes.eraseIdx right_idx) left_idx right_idx := by
  obtain ⟨hlt, rfl⟩ := List.getElem?_eq_some_iff.mp hr
  conv_lhs => rw [rightLoop]
  rw [dif_pos hlt, hl]

variable (overlap threshold) in
/-- The inner loop holds the left box against the boxes behind the ones already compared. -/
theorem rightLoop_eq (front kept rest : List BBox) (x : BBox) :
    rightLoop overlap threshold (front ++ x :: (kept ++ rest)) front.length
        (front.length + 1 + kept.length) =
      some (match PairSweep.strike (hit overlap threshold) victimIsLeft x rest with
        | (false, rest') => front ++ x :: (kept ++ rest')
        | (true, rest') => front ++ (kept ++ rest')) := by
  induction rest generalizing kept with
  | nil =>
    rw [rightLoop, dif_neg (by simp; omega)]
    simp [PairSweep.strike]
  | cons r rest ih =>
    have hlist : front ++ x :: (kept ++ r :: rest) = (front ++ x :: kept) ++ r :: rest := by simp
    have hlen : front.length + 1 + kept.length = (front ++ x :: kept).length := by
      simp; omega
    have hl : (front ++ x :: (kept ++ r :: rest))[front.length]? = some x := by simp
    have hr : (front ++ x :: (kept ++ r :: rest))[front.length + 1 + kept.length]? = some r := by
      rw [hlist, hlen, List.getElem?_append_right le_rfl]
      simp
    rw [rightLoop_step hl hr]
    by_cases hthr : overlap x.rect r.rect < threshold
    · -- too little overlap: `right_idx` moves on
      have hkeep := ih (kept ++ [r])
      simp only [List.append_assoc, List.singleton_append, List.length_append, List.length_singleton]
        at hkeep
      rw [if_pos hthr, PairSweep.strike_pass (by simp [hit, hthr]), add_assoc (front.length + 1),
        hkeep]
      cases PairSweep.strike (hit overlap threshold) victimIsLeft x rest with
      | mk struck rest' => cases struck <;> rfl
    · have hhit : hit overlap threshold x r = true := by simpa [hit] using hthr
      rw [if_neg hthr]
      cases hv : victimIsLeft x r with
      | true =>
        rw [if_pos rfl, PairSweep.strike_lose hhit hv, List.eraseIdx_append_of_length_le le_rfl]
        simp
      | false =>
        rw [if_neg (by simp), PairSweep.strike_win hhit hv, ← ih kept, hlist, hlen,
          List.eraseIdx_append_of_length_le le_rfl]
        simp

theorem leftLoop_step {bboxes bboxes' : List BBox} {left_idx : ℕ}
    (hlt : left_idx + 1 < bboxes.length)
    (h : rightLoop overlap threshold bboxes left_idx (left_idx + 1) = some bboxes') :
    leftLoop overlap threshold bboxes left_idx =
      leftLoop overlap threshold bboxes' (left_idx + 1) := by
  conv_lhs => rw [leftLoop]
  rw [if_pos hlt]
  split <;> simp_all

/-- The outer loop sweeps over the boxes from `left_idx` on. -/
theorem leftLoop_eq (front l : List BBox) :
    leftLoop overlap threshold (front ++ l) front.length =
      some (front ++ PairSweep.sweep (hit overlap threshold) victimIsLeft l) := by
  induction l using PairSweep.sweep_induction (hit overlap threshold) victimIsLeft
    generalizing front with
  | nil =>
    rw [leftLoop, if_neg (by simp)]
    simp
  | keep x rs rest h ih =>
    have hstep := rightLoop_eq overlap threshold front [] rs x
    have hnext := ih (front ++ [x])
    simp only [List.nil_append, List.length_nil, Nat.add_zero, h, List.append_assoc,
      List.singleton_append, List.length_append, List.length_singleton] at hstep hnext
    rw [PairSweep.sweep_keep h]
    cases rs with
    | nil =>
      obtain rfl : [] = rest := (Prod.mk.inj h).2
      rw [leftLoop, if_neg (by simp)]
      simp
    | cons r rs => rw [leftLoop_step (by simp) hstep, hnext]
  | skip x rs y ys h ih =>
    have hstep := rightLoop_eq overlap threshold front [] rs x
    have hnext := ih (front ++ [y])
    simp only [List.nil_append, List.length_nil, Nat.add_zero, h, List.append_assoc,
      List.singleton_append, List.length_append, List.length_singleton] at hstep hnext
    rw [PairSweep.sweep_skip h]
    have hlen := (PairSweep.strike_sublist (hit overlap threshold) victimIsLeft x rs).length_le
    rw [h] at hlen
    simp only [List.length_cons] at hlen
    rw [leftLoop_step (by simp; omega) hstep, hnext]

/-- No index is ever out of range, and each filter is one sweep over the sorted list. -/
theorem filterBy_eq (overlap : Geo.Rect → Geo.Rect → ℚ) (threshold : ℚ) (bboxes : List BBox) :
    filterBy overlap threshold bboxes = some (swept overlap threshold bboxes) :=
  leftLoop_eq [] (sortByX bboxes)

theorem filter_bbox_eq (bboxes : List BBox) (ios_threshold iou_threshold : ℚ) :
    filter_bbox bboxes ios_threshold iou_threshold =
      some (swept Geo.rect_ios ios_threshold (swept Geo.rect_iou iou_threshold bboxes)) := by
  unfold filter_bbox filter_bbox_iou filter_bbox_ios
  rw [filterBy_eq, Option.bind_some, filterBy_eq]

/-- Boxes in order, of which no two overlap too much, are all kept. -/
theorem filter_bbox_of_clear {bboxes : List BBox} {ios_threshold iou_threshold : ℚ}
    (h : bboxes.Pairwise fun a b => a.rect.xline.low ≤ b.rect.xline.low ∧
      hit Geo.rect_iou iou_threshold a b = false ∧ hit Geo.rect_ios ios_threshold a b = false) :
    filter_bbox bboxes ios_threshold iou_threshold = some bboxes := by
  have hsort : sortByX bboxes = bboxes := List.Pairwise.insertionSort_eq (h.imp And.left)
  have hiou : swept Geo.rect_iou iou_threshold bboxes = bboxes := by
    rw [swept, hsort]
    exact PairSweep.sweep_of_clear _ (h.imp fun hab => hab.2.1)
  have hios : swept Geo.rect_ios ios_threshold bboxes = bboxes := by
    rw [swept, hsort]
    exact PairSweep.sweep_of_clear _ (h.imp fun hab => hab.2.2)
  rw [filter_bbox_eq, hiou, hios]

theorem filter_bbox_subset {bboxes res : List BBox} {ios_threshold iou_threshold : ℚ}
    (h : filter_bbox bboxes ios_threshold iou_threshold = some res) : res ⊆ bboxes := by
  have hswept : ∀ overlap threshold bboxes, swept overlap threshold bboxes ⊆ bboxes := by
    intro overlap threshold bboxes b hb
    exact (List.mem_insertionSort _).mp ((PairSweep.sweep_sublist _).subset hb)
  rw [filter_bbox_eq] at h
  obtain rfl := Option.some.inj h
  exact List.Subset.trans (hswept _ _ _) (hswept _ _ _)

/-- Whenever a pass pops the left box, the box that takes its place overlaps none of the boxes
behind it at or above the threshold. -/
def PassesClear (overlap : Geo.Rect → Geo.Rect → ℚ) (threshold : ℚ) (bboxes : List BBox) : Prop :=
  PairSweep.SkipsClear (hit overlap threshold) victimIsLeft (sortByX bboxes)

/-- No two boxes at different positions overlap at or above a threshold. -/
def Suppressed (ios_threshold iou_threshold : ℚ) (bboxes : List BBox) : Prop :=
  ∀ (i j : ℕ) (a b : BBox), i ≠ j → bboxes[i]? = some a → bboxes[j]? = some b →
    Geo.rect_iou a.rect b.rect < iou_threshold ∧ Geo.rect_ios a.rect b.rect < ios_threshold

theorem suppressed_of_pairwise {ios_threshold iou_threshold : ℚ} {bboxes : List BBox}
    (hiou : bboxes.Pairwise fun a b => hit Geo.rect_iou iou_threshold a b = false)
    (hios : bboxes.Pairwise fun a b => hit Geo.rect_ios ios_threshold a b = false) :
    Suppressed ios_threshold iou_threshold bboxes := by
  have hlt : ∀ (i j : ℕ) (a b : BBox), i < j → bboxes[i]? = some a → bboxes[j]? = some b →
      Geo.rect_iou a.rect b.rect < iou_threshold ∧
        Geo.rect_ios a.rect b.rect < ios_threshold := by
    intro i j a b hij ha hb
    obtain ⟨hi, rfl⟩ := List.getElem?_eq_some_iff.mp ha
    obtain ⟨hj, rfl⟩ := List.getElem?_eq_some_iff.mp hb
    have h1 := List.pairwise_iff_getElem.mp hiou i j hi hj hij
    have h2 := List.pairwise_iff_getElem.mp hios i j hi hj hij
    exact ⟨by simpa [hit] using h1, by simpa [hit] using h2⟩
  intro i j a b hij ha hb
  rcases lt_or_gt_of_ne hij with h | h
  · exact hlt i j a b h ha hb
  · rw [Geo.rect_iou_comm, Geo.rect_ios_comm]
    exact hlt j i b a h hb ha

theorem swept_subperm (overlap : Geo.Rect → Geo.Rect → ℚ) (threshold : ℚ) (bboxes : List BBox) :
    ∃ l, l.Perm bboxes ∧ (swept overlap threshold bboxes).Sublist l :=
  ⟨_, List.perm_insertionSort _ _, PairSweep.sweep_sublist _⟩

/-- If no pass passes over an overlapping pair, suppression suppresses every pair. -/
theorem filter_bbox_suppresses {bboxes res : List BBox} {ios_threshold iou_threshold : ℚ}
    (hiou : PassesClear Geo.rect_iou iou_threshold bboxes)
    (hios : PassesClear Geo.rect_ios ios_threshold (swept Geo.rect_iou iou_threshold bboxes))
    (h : filter_bbox bboxes ios_threshold iou_threshold = some res) :
    Suppressed ios_threshold iou_threshold res := by
  rw [filter_bbox_eq] at h
  obtain rfl := Option.some.inj h
  refine suppressed_of_pairwise ?_ (PairSweep.sweep_pairwise hios)
  -- the second pass only drops boxes, up to the order
  obtain ⟨l, hperm, hsub⟩ := swept_subperm Geo.rect_ios ios_threshold
    (swept Geo.rect_iou iou_threshold bboxes)
  refine List.Pairwise.sublist hsub ((hperm.pairwise_iff ?_).mpr (PairSweep.sweep_pairwise hiou))
  intro a b hab
  simpa [hit, Geo.rect_iou_comm] using hab

/-- A square box with the corner `(x, y)`. -/
def square (x y size : ℕ) (conf : ℚ) : BBox :=
  ⟨⟨⟨x, x + size, by omega⟩, ⟨y, y + size, by omega⟩⟩, conf, "car", 1⟩

/-- Two boxes on one car and a box on another: the weaker one of the first two goes. -/
theorem filter_bbox_suppresses_pair :
    ∃ res, filter_bbox [square 0 0 9 (1 / 2), square 0 0 9 (9 / 10), square 30 0 9 (8 / 10)]
        (9 / 10) (1 / 2) = some res ∧ Suppressed (9 / 10) (1 / 2) res := by
  have hfirst : PairSweep.strike (hit Geo.rect_iou (1 / 2)) victimIsLeft (square 0 0 9 (1 / 2))
      [square 0 0 9 (9 / 10), square 30 0 9 (8 / 10)] =
      (true, [square 0 0 9 (9 / 10), square 30 0 9 (8 / 10)]) :=
    PairSweep.strike_lose (by decide +kernel) (by decide +kernel) _
  have hlast : ∀ overlap threshold, PairSweep.strike (hit overlap threshold) victimIsLeft
      (square 30 0 9 (8 / 10)) [] = (false, []) := fun _ _ => rfl
  have hiou : PassesClear Geo.rect_iou (1 / 2)
      [square 0 0 9 (1 / 2), square 0 0 9 (9 / 10), square 30 0 9 (8 / 10)] :=
    .skip hfirst (by decide +kernel) (.keep (hlast _ _) .nil)
  have hswept : swept Geo.rect_iou (1 / 2)
      [square 0 0 9 (1 / 2), square 0 0 9 (9 / 10), square 30 0 9 (8 / 10)] =
      [square 0 0 9 (9 / 10), square 30 0 9 (8 / 10)] := by
    refine (PairSweep.sweep_skip hfirst).trans ?_
    rw [PairSweep.sweep_keep (hlast _ _), PairSweep.sweep_nil]
  have hios : PassesClear Geo.rect_ios (9 / 10) (swept Geo.rect_iou (1 / 2)
      [square 0 0 9 (1 / 2), square 0 0 9 (9 / 10), square 30 0 9 (8 / 10)]) := by
    rw [hswept]
    exact .keep (PairSweep.strike_pass (by decide +kernel) _) (.keep (hlast _ _) .nil)
  exact ⟨_, filter_bbox_eq _ _ _, filter_bbox_suppresses hiou hios (filter_bbox_eq _ _ _)⟩

/-- The first box is popped for the second, which takes its place and is never held against the
third, with which it overlaps by two thirds. -/
theorem popped_left_skips_next :
    ∃ res, filter_bbox [square 0 0 9 (1 / 2), square 0 0 9 (9 / 10), square 2 0 9 (8 / 10)]
        (9 / 10) (1 / 2) = some res ∧ ¬ Suppressed (9 / 10) (1 / 2) res := by
  have hfirst : PairSweep.strike (hit Geo.rect_iou (1 / 2)) victimIsLeft (square 0 0 9 (1 / 2))
      [square 0 0 9 (9 / 10), square 2 0 9 (8 / 10)] =
      (true, [square 0 0 9 (9 / 10), square 2 0 9 (8 / 10)]) :=
    PairSweep.strike_lose (by decide +kernel) (by decide +kernel) _
  have hlast : ∀ overlap threshold, PairSweep.sweep (hit overlap threshold) victimIsLeft
      [square 2 0 9 (8 / 10)] = [square 2 0 9 (8 / 10)] := fun _ _ => by
    rw [PairSweep.sweep_keep rfl, PairSweep.sweep_nil]
  have hiou : swept Geo.rect_iou (1 / 2)
      [square 0 0 9 (1 / 2), square 0 0 9 (9 / 10), square 2 0 9 (8 / 10)] =
      [square 0 0 9 (9 / 10), square 2 0 9 (8 / 10)] := by
    refine (PairSweep.sweep_skip hfirst).trans ?_
    rw [hlast]
  have hios : swept Geo.rect_ios (9 / 10) [square 0 0 9 (9 / 10), square 2 0 9 (8 / 10)] =
      [square 0 0 9 (9 / 10), square 2 0 9 (8 / 10)] := by
    refine (PairSweep.sweep_keep (PairSweep.strike_pass (by decide +kernel) _)).trans ?_
    rw [← hlast Geo.rect_ios (9 / 10)]
    rfl
  refine ⟨_, filter_bbox_eq _ _ _, ?_⟩
  rw [hiou, hios]
  intro h
  exact absurd (h 0 1 _ _ (by decide) rfl rfl).1 (by decide +kernel)

end FilterBBox
end VisionSensor
