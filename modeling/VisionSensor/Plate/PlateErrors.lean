import VisionSensor.Plate.PlateString

/-! When `get_plate_string` raises: the number behind a young mark is converted although no digit
was found. -/
namespace VisionSensor.Plate

theorem region_name {name : String} (h : is_plate_region name = true) :
    is_plate_digits name = false ∧ name.toList ≠ [] := by
  have hall : ∀ n ∈ PLATE_REGIONS, is_plate_digits n = false ∧ n.toList ≠ [] := by decide
  exact hall name (List.contains_iff_mem.mp h)

theorem young_name {name : String} (h : is_plate_young name = true) :
    is_plate_digits name = false ∧ name.toList ≠ [] := by
  obtain rfl : name = PLATE_YOUNG := beq_iff_eq.mp h
  decide

theorem isDigit_of_plate_digits {name : String} (h : is_plate_digits name = true) {c : Char}
    (hc : c ∈ name.toList) : c.isDigit = true := by
  have hall : PLATE_DIGITS.all Char.isDigit = true := by decide
  exact List.all_eq_true.mp hall c (List.contains_iff_mem.mp (List.all_eq_true.mp h c hc))

theorem mem_joinNames {bboxes : List BBox} {c : Char} :
    c ∈ joinNames bboxes ↔ ∃ b ∈ bboxes, c ∈ b.name.toList := List.mem_flatMap

theorem joinNames_eq_nil_iff {bboxes : List BBox} (h : ∀ b ∈ bboxes, b.name ≠ "") :
    joinNames bboxes = [] ↔ bboxes = [] := by
  rw [joinNames, List.flatMap_eq_nil_iff]
  constructor
  · intro hnil
    apply List.eq_nil_iff_forall_not_mem.mpr
    intro b hb
    exact h b hb (String.toList_eq_nil_iff.mp (hnil b hb))
  · rintro rfl b hb
    cases hb

/-- With names that are not empty, the digit string is empty only when there is no digit box. -/
theorem digit_string_eq_nil_iff {bboxes : List BBox} (h : ∀ b ∈ bboxes, b.name ≠ "") :
    (parse_digits bboxes).digit_string = [] ↔ bboxes = [] := by
  have hperm := valid_digit_boxes_perm bboxes
  have hlen : (parse_digits bboxes).valid_digit_boxes.length = min 6 bboxes.length := by
    rw [hperm.length_eq, length_chosenDigits]
  rw [digit_string_eq, joinNames_eq_nil_iff, ← List.length_eq_zero_iff, hlen,
    ← List.length_eq_zero_iff]
  · omega
  · intro b hb
    exact h b (mem_chosenDigits (hperm.mem_iff.mp hb))

theorem isDigit_digit_string {bboxes : List BBox} {c : Char}
    (hc : c ∈ (parse_digits (digitBoxes bboxes)).digit_string) : c.isDigit = true := by
  rw [digit_string_eq] at hc
  obtain ⟨b, hb, hc⟩ := mem_joinNames.mp hc
  have hmem := mem_chosenDigits ((valid_digit_boxes_perm _).mem_iff.mp hb)
  exact isDigit_of_plate_digits (List.mem_filter.mp hmem).2 hc

theorem takeLast_eq_nil_iff {α : Type} {n : ℕ} (hn : n ≠ 0) {l : List α} :
    takeLast n l = [] ↔ l = [] := by
  rw [takeLast, if_neg hn, List.drop_eq_nil_iff, ← List.length_eq_zero_iff]
  omega

/-- The conversion of the last four digits fails only when there is none. -/
theorem int_takeLast_eq_none_iff {digits : List Char} (h : ∀ c ∈ digits, c.isDigit = true) :
    int (takeLast 4 digits) = none ↔ digits = [] := by
  have hall : (takeLast 4 digits).all Char.isDigit = true :=
    List.all_eq_true.mpr fun c hc => h c (takeLast_subset 4 digits hc)
  refine Iff.trans ?_ (takeLast_eq_nil_iff (show 4 ≠ 0 by decide))
  unfold int
  split_ifs with hne
  · exact iff_of_false (by simp) hne.1
  · exact iff_of_true rfl (not_not.mp fun hnil => hne ⟨hnil, hall⟩)

theorem parse_young_eq_none_iff {young_bboxes : List BBox} {region digit_string : List Char} :
    parse_young young_bboxes region digit_string = none ↔
      young_bboxes ≠ [] ∧ region ≠ [] ∧ int (takeLast 4 digit_string) = none := by
  cases young_bboxes with
  | nil => simp [parse_young]
  | cons young rest =>
    by_cases hregion : region = []
    · simp [parse_young, hregion]
    · simp [parse_young, hregion]

/-- The old plate and the five digits index a digit string that has one. -/
theorem lastText_isSome {h : Hanguls} {digit_string : List Char} {is_old_plate : Bool}
    (hold : is_old_plate = true → digit_string ≠ []) :
    (lastText h digit_string is_old_plate).isSome = true := by
  cases digit_string with
  | nil =>
    cases is_old_plate with
    | true => exact absurd rfl (hold rfl)
    | false => rfl
  | cons d rest =>
    unfold lastText
    split_ifs <;> rfl

theorem plateString_isSome {bboxes : List BBox} {d : Digits} {h : Hanguls} {plateType : String}
    (hold : d.is_old_plate = true → d.digit_string ≠ []) :
    (plateString bboxes d h plateType).isSome = true := by
  unfold plateString
  split_ifs
  · rfl
  · rfl
  · rfl
  · rw [Option.isSome_map]
    exact lastText_isSome hold

/-- Among the boxes that are kept there are a region and a young mark, but no digit. -/
def YoungWithoutDigits (rBboxes : List BBox) (rIos rIou : ℚ) : Prop :=
  ∃ bboxes, FilterBBox.filter_bbox rBboxes rIos rIou = some bboxes ∧
    (∃ b ∈ bboxes, is_plate_region b.name = true) ∧
    (∃ b ∈ bboxes, is_plate_young b.name = true) ∧
    ∀ b ∈ bboxes, is_plate_digits b.name = false

theorem digitBoxes_eq_nil_iff {bboxes : List BBox} :
    digitBoxes bboxes = [] ↔ ∀ b ∈ bboxes, is_plate_digits b.name = false := by
  simp [digitBoxes]

/-- A young mark is looked for among the boxes that are no digits, which loses none. -/
theorem young_ne_nil_iff {bboxes : List BBox} :
    (hangulBoxes bboxes).filter (fun bbox => is_plate_young bbox.name) ≠ [] ↔
      ∃ b ∈ bboxes, is_plate_young b.name = true := by
  constructor
  · intro hne
    obtain ⟨b, hb⟩ := List.exists_mem_of_ne_nil _ hne
    obtain ⟨hmem, hyoung⟩ := List.mem_filter.mp hb
    exact ⟨b, (List.mem_filter.mp hmem).1, hyoung⟩
  · rintro ⟨b, hb, hyoung⟩
    apply List.ne_nil_of_mem (a := b)
    exact List.mem_filter.mpr ⟨List.mem_filter.mpr ⟨hb, by simp [(young_name hyoung).1]⟩, hyoung⟩

theorem parse_hanguls_eq_none_iff {bboxes : List BBox} (h : ∀ b ∈ bboxes, b.name ≠ "") :
    parse_hanguls (hangulBoxes bboxes) (parse_digits (digitBoxes bboxes)).digit_string = none ↔
      (∃ b ∈ bboxes, is_plate_region b.name = true) ∧
      (∃ b ∈ bboxes, is_plate_young b.name = true) ∧
      ∀ b ∈ bboxes, is_plate_digits b.name = false := by
  have hdigits : ∀ b ∈ digitBoxes bboxes, b.name ≠ "" := fun b hb => h b (List.mem_filter.mp hb).1
  rw [parse_hanguls, Option.map_eq_none_iff, parse_young_eq_none_iff, young_ne_nil_iff,
    nameOf_chosen_ne_nil_iff fun name => region_name,
    int_takeLast_eq_none_iff fun c => isDigit_digit_string, digit_string_eq_nil_iff hdigits,
    digitBoxes_eq_nil_iff]
  tauto

/-- When no name is empty, a plate is returned exactly when what the filter keeps is not a region
and a young mark without a digit. -/
theorem get_plate_string_returns_iff {rBboxes : List BBox} (rIos rIou : ℚ) (plateType : String)
    (hnames : ∀ b ∈ rBboxes, b.name ≠ "") :
    (get_plate_string rBboxes rIos rIou plateType).isSome = true ↔
      ¬ YoungWithoutDigits rBboxes rIos rIou := by
  obtain ⟨bboxes, hfilter⟩ : ∃ bboxes, FilterBBox.filter_bbox rBboxes rIos rIou = some bboxes :=
    ⟨_, FilterBBox.filter_bbox_eq rBboxes rIos rIou⟩
  have hkept : ∀ b ∈ bboxes, b.name ≠ "" :=
    fun b hb => hnames b (FilterBBox.filter_bbox_subset hfilter hb)
  have hnone := parse_hanguls_eq_none_iff hkept
  have hyoung : YoungWithoutDigits rBboxes rIos rIou ↔
      parse_hanguls (hangulBoxes bboxes) (parse_digits (digitBoxes bboxes)).digit_string =
        none := by
    rw [hnone, YoungWithoutDigits, hfilter]
    simp
  rw [hyoung, get_plate_string, hfilter, Option.bind_some]
  cases hkor : parse_hanguls (hangulBoxes bboxes) (parse_digits (digitBoxes bboxes)).digit_string
    with
  | none => simp [hkor]
  | some h =>
    apply iff_of_true _ (by simp)
    show (Option.bind _ _).isSome = true
    rw [hkor, Option.bind_some]
    apply plateString_isSome
    intro hold hnil
    have hempty : digitBoxes bboxes = [] :=
      (digit_string_eq_nil_iff fun b hb => hkept b (List.mem_filter.mp hb).1).mp hnil
    have hfive := (parse_digits_old.mp hold).1
    rw [length_chosenDigits, hempty] at hfive
    simp at hfive

theorem get_plate_string_returns_flat :
    (get_plate_string flatPlate (4 / 5) (3 / 10) "class0").isSome = true := by
  apply (get_plate_string_returns_iff _ _ _ (by decide)).mpr
  rintro ⟨bboxes, hfilter, ⟨b, hb, hregion⟩, -⟩
  obtain rfl := Option.some.inj (filter_flatPlate.symm.trans hfilter)
  have hnone : ∀ b ∈ flatPlate, is_plate_region b.name = false := by decide
  rw [hnone b hb] at hregion
  cases hregion

/-- A region and a young mark. -/
def markedPlate : List BBox := [named "서울" 0 0, named "영" 20 0]

/-- The empty digit string is converted to a number. -/
theorem marks_without_digits_raise :
    (∀ b ∈ markedPlate, b.name ≠ "") ∧
      get_plate_string markedPlate (4 / 5) (3 / 10) "class0" = none := by
  refine ⟨by decide, ?_⟩
  have hfilter : FilterBBox.filter_bbox markedPlate (4 / 5) (3 / 10) = some markedPlate :=
    FilterBBox.filter_bbox_of_clear (by decide +kernel)
  rw [get_plate_string, hfilter]
  decide +kernel

end VisionSensor.Plate
