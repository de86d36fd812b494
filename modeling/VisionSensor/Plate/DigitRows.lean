import VisionSensor.Plate.ParseDigits

/-! What `parse_digits` keeps and how it lays it out: the surest six digits, in at most two rows. -/
namespace VisionSensor.Plate

def first_row_boxes (digit_bboxes : List BBox) : List BBox :=
  FilterBBox.sortByX (splitRows (chosenDigits digit_bboxes)).1

def second_row_boxes (digit_bboxes : List BBox) : List BBox :=
  FilterBBox.sortByX (splitRows (chosenDigits digit_bboxes)).2.1

theorem valid_digit_boxes_eq (digit_bboxes : List BBox) :
    (parse_digits digit_bboxes).valid_digit_boxes =
      first_row_boxes digit_bboxes ++ second_row_boxes digit_bboxes := rfl

theorem pairwise_sortByX (bboxes : List BBox) :
    (FilterBBox.sortByX bboxes).Pairwise fun a b => a.rect.xline.low ≤ b.rect.xline.low :=
  List.pairwise_insertionSort _ _

theorem pairwise_sortByY (bboxes : List BBox) :
    (sortByY bboxes).Pairwise fun a b => a.rect.yline.low ≤ b.rect.yline.low :=
  List.pairwise_insertionSort _ _

theorem pairwise_sortByConf (bboxes : List BBox) :
    (sortByConf bboxes).Pairwise fun a b => a.conf ≤ b.conf :=
  List.pairwise_insertionSort _ _

/-- The last boxes of a list sorted by confidence are its surest. -/
theorem takeLast_surest (n : ℕ) {bboxes : List BBox}
    (h : bboxes.Pairwise fun a b => a.conf ≤ b.conf) :
    ∃ dropped, bboxes = dropped ++ takeLast n bboxes ∧
      ∀ a ∈ dropped, ∀ b ∈ takeLast n bboxes, a.conf ≤ b.conf := by
  unfold takeLast
  split_ifs
  · exact ⟨[], rfl, by simp⟩
  · have hcut := List.take_append_drop (bboxes.length - n) bboxes
    rw [← hcut] at h
    exact ⟨_, hcut.symm, (List.pairwise_append.mp h).2.2⟩

/-- The digits that are not gone on with are less sure than all that are. -/
theorem chosenDigits_surest (digit_bboxes : List BBox) :
    ∃ dropped, (chosenDigits digit_bboxes ++ dropped).Perm digit_bboxes ∧
      ∀ a ∈ dropped, ∀ b ∈ chosenDigits digit_bboxes, a.conf ≤ b.conf := by
  have hlast : ∀ n, ∃ dropped,
      (sortByY (takeLast n (sortByConf digit_bboxes)) ++ dropped).Perm digit_bboxes ∧
        ∀ a ∈ dropped, ∀ b ∈ sortByY (takeLast n (sortByConf digit_bboxes)),
          a.conf ≤ b.conf := by
    intro n
    obtain ⟨dropped, hcut, hle⟩ := takeLast_surest n (pairwise_sortByConf digit_bboxes)
    refine ⟨dropped, ?_, fun a ha b hb => hle a ha b ((List.mem_insertionSort _).mp hb)⟩
    have hback : (dropped ++ takeLast n (sortByConf digit_bboxes)).Perm digit_bboxes :=
      hcut ▸ List.perm_insertionSort _ _
    have hfront := (List.perm_insertionSort (fun a b => a.rect.yline.low ≤ b.rect.yline.low)
      (takeLast n (sortByConf digit_bboxes))).append_right dropped
    exact (hfront.trans List.perm_append_comm).trans hback
  unfold chosenDigits
  split_ifs
  · exact hlast _
  · exact hlast 6
  · refine ⟨[], ?_, by simp⟩
    rw [List.append_nil]
    exact List.perm_insertionSort _ _

/-- The first row is cut from the top. -/
theorem splitRows_above {digit_bboxes : List BBox}
    (h : digit_bboxes.Pairwise fun a b => a.rect.yline.low ≤ b.rect.yline.low) :
    ∀ a ∈ (splitRows digit_bboxes).1, ∀ b ∈ (splitRows digit_bboxes).2.1,
      a.rect.yline.low ≤ b.rect.yline.low := by
  have hcut : ∀ n, ∀ a ∈ digit_bboxes.take n, ∀ b ∈ digit_bboxes.drop n,
      a.rect.yline.low ≤ b.rect.yline.low := by
    intro n
    rw [← List.take_append_drop n digit_bboxes] at h
    exact (List.pairwise_append.mp h).2.2
  unfold splitRows
  split_ifs
  · simp
  · simp
  · exact hcut 1
  · exact hcut 2

theorem splitRows_old_first {digit_bboxes : List BBox} (h : (splitRows digit_bboxes).2.2 = true) :
    (splitRows digit_bboxes).1.length = 1 := by
  unfold splitRows at h ⊢
  split_ifs at h ⊢ with hlen
  rw [List.length_take]
  omega

/-- `parse_digits` keeps the six surest digits, or all when there are fewer, each of them once; it
reads the first row from left to right and then the second, which is nowhere above the first. -/
theorem parse_digits_keeps_surest_in_rows (digit_bboxes : List BBox) :
    (∃ dropped,
      ((parse_digits digit_bboxes).valid_digit_boxes ++ dropped).Perm digit_bboxes ∧
        ∀ a ∈ dropped, ∀ b ∈ (parse_digits digit_bboxes).valid_digit_boxes, a.conf ≤ b.conf) ∧
      (parse_digits digit_bboxes).valid_digit_boxes.length = min 6 digit_bboxes.length ∧
      (parse_digits digit_bboxes).digit_string =
        ((parse_digits digit_bboxes).valid_digit_boxes.map fun b => b.name.toList).flatten ∧
      (parse_digits digit_bboxes).valid_digit_boxes =
        first_row_boxes digit_bboxes ++ second_row_boxes digit_bboxes ∧
      (first_row_boxes digit_bboxes).Pairwise (fun a b => a.rect.xline.low ≤ b.rect.xline.low) ∧
      (second_row_boxes digit_bboxes).Pairwise (fun a b => a.rect.xline.low ≤ b.rect.xline.low) ∧
      (∀ a ∈ first_row_boxes digit_bboxes, ∀ b ∈ second_row_boxes digit_bboxes,
        a.rect.yline.low ≤ b.rect.yline.low) ∧
      ((parse_digits digit_bboxes).is_old_plate = true →
        (first_row_boxes digit_bboxes).length = 1) := by
  have hperm := valid_digit_boxes_perm digit_bboxes
  obtain ⟨dropped, hdropped, hle⟩ := chosenDigits_surest digit_bboxes
  refine ⟨⟨dropped, (hperm.append_right dropped).trans hdropped, ?_⟩, ?_, ?_,
    valid_digit_boxes_eq digit_bboxes, pairwise_sortByX _, pairwise_sortByX _, ?_, ?_⟩
  · intro a ha b hb
    exact hle a ha b (hperm.mem_iff.mp hb)
  · rw [hperm.length_eq, length_chosenDigits]
  · rw [digit_string_eq, joinNames, List.flatMap_def]
  · intro a ha b hb
    exact splitRows_above (pairwise_sortByY _) a ((List.mem_insertionSort _).mp ha) b
      ((List.mem_insertionSort _).mp hb)
  · intro hold
    rw [first_row_boxes, FilterBBox.sortByX, List.length_insertionSort]
    exact splitRows_old_first hold

end VisionSensor.Plate
