import Mathlib.Data.List.Perm.Subperm
import Mathlib.Data.Prod.Lex
import VisionSensor.Detect.FilterBBox

/-! Why a box is missing from the output of `filter_bbox_iou` or `filter_bbox_ios`. Boxes are told
apart by their position in the input, so that two boxes with the same values stay two. -/
namespace VisionSensor
namespace FilterBBox

/-- Boxes are compared by confidence first, then by area. -/
def rank (b : BBox) : ℚ ×ₗ ℤ := toLex (b.conf, b.area)

theorem rank_le_of_victim {left right : BBox} (h : victimIsLeft left right = true) :
    rank left ≤ rank right := by
  unfold victimIsLeft at h
  split_ifs at h with hconf
  · exact Prod.Lex.toLex_le_toLex.mpr (.inr ⟨hconf, by simpa using h⟩)
  · exact Prod.Lex.toLex_le_toLex.mpr (.inl (lt_of_le_of_ne (by simpa using h) hconf))

theorem rank_le_of_not_victim {left right : BBox} (h : victimIsLeft left right = false) :
    rank right ≤ rank left := by
  unfold victimIsLeft at h
  split_ifs at h with hconf
  · have harea : right.area < left.area := by simpa using h
    exact Prod.Lex.toLex_le_toLex.mpr (.inr ⟨hconf.symm, harea.le⟩)
  · have hlt : right.conf < left.conf := by simpa using h
    exact Prod.Lex.toLex_le_toLex.mpr (.inl hlt)

/-- Two entries of a list without duplicates stand in one order only. -/
theorem not_swapped {α : Type*} {l : List α} (hl : l.Nodup) {a b : α} (h : [a, b].Sublist l) :
    ¬ [b, a].Sublist l := by
  induction l with
  | nil => cases h
  | cons x l ih =>
    obtain ⟨hx, hl⟩ := List.nodup_cons.mp hl
    intro h'
    cases h with
    | cons _ h =>
      cases h' with
      | cons _ h' => exact ih hl h h'
      | cons_cons _ h' => exact hx (h.subset (List.mem_cons_of_mem _ List.mem_cons_self))
    | cons_cons _ h =>
      cases h' with
      | cons _ h' => exact hx (h'.subset (List.mem_cons_of_mem _ List.mem_cons_self))
      | cons_cons _ h' => exact hx (h.subset List.mem_cons_self)

/-- All positions, ordered by a key; positions with one key keep their order. -/
structure StableOrder {n : ℕ} (key : Fin n → ℤ) (order : List (Fin n)) : Prop where
  perm : order.Perm (List.finRange n)
  sorted : order.Pairwise fun i j => key i < key j ∨ key i = key j ∧ i < j

theorem stableOrder_insertionSort {n : ℕ} (key : Fin n → ℤ) :
    StableOrder key ((List.finRange n).insertionSort fun i j => key i ≤ key j) := by
  have hperm := List.perm_insertionSort (fun i j => key i ≤ key j) (List.finRange n)
  refine ⟨hperm, List.pairwise_of_forall_sublist ?_⟩
  intro i j hij
  have : Std.Total fun i j : Fin n => key i ≤ key j := ⟨fun i j => le_total _ _⟩
  have : IsTrans (Fin n) fun i j => key i ≤ key j := ⟨fun i j k => le_trans⟩
  have hkey : key i ≤ key j := by
    simpa using (List.pairwise_insertionSort (fun i j => key i ≤ key j) _).sublist hij
  rcases hkey.lt_or_eq with hlt | heq
  · exact .inl hlt
  refine .inr ⟨heq, ?_⟩
  have hnodup := hperm.nodup_iff.mpr (List.nodup_finRange n)
  have hne : i ≠ j := by simpa using hnodup.sublist hij
  by_contra hge
  -- in the input `j` comes first, and the sort keeps equal keys in place
  have hlt : j < i := lt_of_le_of_ne (not_lt.mp hge) hne.symm
  have hinput : [j, i].Sublist (List.finRange n) := by
    apply List.sublist_of_subperm_of_pairwise (r := (· ≤ ·))
    · exact List.Nodup.subperm (by simpa using hne.symm) fun k _ => List.mem_finRange k
    · simpa using hlt.le
    · exact List.pairwise_le_finRange n
  exact not_swapped hnodup hij (List.pair_sublist_insertionSort heq.ge hinput)

/-- What suppression by one measure does. The boxes in the result stand at the positions `kept`, in
the order of the stable sort by the left edge; a box that is missing overlaps another one that does
not rank below it. -/
structure DropsWithCause (overlap : Geo.Rect → Geo.Rect → ℚ) (threshold : ℚ)
    (bboxes res : List BBox) (order kept : List (Fin bboxes.length)) : Prop where
  stable : StableOrder (fun i => (bboxes.get i).rect.xline.low) order
  sublist : kept.Sublist order
  result : res = kept.map bboxes.get
  nonempty : bboxes ≠ [] → res ≠ []
  cause : ∀ i ∉ kept, ∃ j ≠ i, threshold ≤ overlap (bboxes.get i).rect (bboxes.get j).rect ∧
    rank (bboxes.get i) ≤ rank (bboxes.get j)
  survives : ∀ i, (∀ j ≠ i, threshold ≤ overlap (bboxes.get i).rect (bboxes.get j).rect →
    rank (bboxes.get j) < rank (bboxes.get i)) → i ∈ kept

theorem sortByX_ne_nil {bboxes : List BBox} (h : bboxes ≠ []) : sortByX bboxes ≠ [] := by
  intro hnil
  have hlen := (List.perm_insertionSort (fun a b : BBox => a.rect.xline.low ≤ b.rect.xline.low)
    bboxes).length_eq
  rw [← sortByX, hnil] at hlen
  exact h (List.length_eq_zero_iff.mp hlen.symm)

/-- The positions in the order of the stable sort by the left edge. -/
def orderByX (bboxes : List BBox) : List (Fin bboxes.length) :=
  (List.finRange bboxes.length).insertionSort fun i j =>
    (bboxes.get i).rect.xline.low ≤ (bboxes.get j).rect.xline.low

theorem sortByX_eq_map (bboxes : List BBox) :
    sortByX bboxes = (orderByX bboxes).map bboxes.get := by
  have hmap := List.map_insertionSort
    (fun i j => (bboxes.get i).rect.xline.low ≤ (bboxes.get j).rect.xline.low)
    (s := fun a b : BBox => a.rect.xline.low ≤ b.rect.xline.low) bboxes.get
    (List.finRange bboxes.length) fun _ _ _ _ => Iff.rfl
  rw [List.map_get_finRange] at hmap
  exact hmap.symm

section Positions

variable (overlap : Geo.Rect → Geo.Rect → ℚ) (threshold : ℚ) (bboxes : List BBox)

def hitAt (i j : Fin bboxes.length) : Bool :=
  hit overlap threshold (bboxes.get i) (bboxes.get j)

def losesAt (i j : Fin bboxes.length) : Bool := victimIsLeft (bboxes.get i) (bboxes.get j)

/-- The positions of the boxes that stay. -/
def keptAt : List (Fin bboxes.length) :=
  PairSweep.sweep (hitAt overlap threshold bboxes) (losesAt bboxes) (orderByX bboxes)

theorem swept_eq_map :
    swept overlap threshold bboxes = (keptAt overlap threshold bboxes).map bboxes.get := by
  rw [swept, sortByX_eq_map]
  exact PairSweep.sweep_map bboxes.get _

/-- A box that is missing overlaps another one that does not rank below it. -/
theorem cause_of_missing (hcomm : ∀ r s, overlap r s = overlap s r) {i : Fin bboxes.length}
    (hi : i ∉ keptAt overlap threshold bboxes) :
    ∃ j ≠ i, threshold ≤ overlap (bboxes.get i).rect (bboxes.get j).rect ∧
      rank (bboxes.get i) ≤ rank (bboxes.get j) := by
  have horder : StableOrder (fun i => (bboxes.get i).rect.xline.low) (orderByX bboxes) :=
    stableOrder_insertionSort _
  have hmem : i ∈ orderByX bboxes := horder.perm.mem_iff.mpr (List.mem_finRange i)
  have hnodup : (orderByX bboxes).Nodup := horder.perm.nodup_iff.mpr (List.nodup_finRange _)
  have hsymm : ∀ i j, hitAt overlap threshold bboxes i j = hitAt overlap threshold bboxes j i := by
    intro i j
    simp only [hitAt, hit, hcomm (bboxes.get i).rect]
  have hdominated : PairSweep.Dominated (hitAt overlap threshold bboxes)
      (fun i j => rank (bboxes.get i) ≤ rank (bboxes.get j)) (orderByX bboxes) i :=
    PairSweep.sweep_dominated hsymm (fun _ _ => rank_le_of_victim)
      (fun _ _ => rank_le_of_not_victim) hnodup hmem hi
  obtain ⟨j, -, hne, hj, hrank⟩ := hdominated
  exact ⟨j, hne, by simpa [hitAt, hit] using hj, hrank⟩

end Positions

theorem filterBy_drops_with_cause {overlap : Geo.Rect → Geo.Rect → ℚ}
    (hcomm : ∀ r s, overlap r s = overlap s r) (threshold : ℚ) (bboxes : List BBox) :
    ∃ res order kept, filterBy overlap threshold bboxes = some res ∧
      DropsWithCause overlap threshold bboxes res order kept := by
  refine ⟨_, orderByX bboxes, keptAt overlap threshold bboxes,
    filterBy_eq overlap threshold bboxes, ?_⟩
  exact {
    stable := stableOrder_insertionSort _
    sublist := PairSweep.sweep_sublist _
    result := swept_eq_map overlap threshold bboxes
    nonempty := fun h => PairSweep.sweep_ne_nil (sortByX_ne_nil h)
    cause := fun i hi => cause_of_missing overlap threshold bboxes hcomm hi
    survives := by
      intro i hover
      by_contra hi
      obtain ⟨j, hne, hj, hrank⟩ := cause_of_missing overlap threshold bboxes hcomm hi
      exact absurd (hover j hne hj) (not_lt.mpr hrank) }

/-- Both filters end without an index error, and drop no box without a cause. -/
theorem filters_drop_with_cause (bboxes : List BBox) (threshold : ℚ) :
    (∃ res order kept, filter_bbox_iou bboxes threshold = some res ∧
      DropsWithCause Geo.rect_iou threshold bboxes res order kept) ∧
    (∃ res order kept, filter_bbox_ios bboxes threshold = some res ∧
      DropsWithCause Geo.rect_ios threshold bboxes res order kept) :=
  ⟨filterBy_drops_with_cause Geo.rect_iou_comm threshold bboxes,
    filterBy_drops_with_cause Geo.rect_ios_comm threshold bboxes⟩

end FilterBBox
end VisionSensor
