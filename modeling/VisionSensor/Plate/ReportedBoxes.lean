import Mathlib.Data.List.Perm.Subperm
import VisionSensor.Plate.DigitRows
import VisionSensor.Plate.PlateErrors

/-! The boxes that are reported with a plate, against those its text is read from. -/
namespace VisionSensor.Plate

def regionBox (bboxes : List BBox) : Option BBox :=
  mostConfident ((hangulBoxes bboxes).filter fun bbox => is_plate_region bbox.name)

def hangulBox (bboxes : List BBox) : Option BBox :=
  mostConfident ((hangulBoxes bboxes).filter fun bbox => is_plate_mid_hangul bbox.name)

def youngBoxes (bboxes : List BBox) : List BBox :=
  (hangulBoxes bboxes).filter fun bbox => is_plate_young bbox.name

/-- The boxes the text is read from, each of them once: the kept digits, the region, the hangul,
and the young mark when the text has it. -/
def readBoxes (bboxes : List BBox) (text : List Char) : List BBox :=
  (parse_digits (digitBoxes bboxes)).valid_digit_boxes ++ (regionBox bboxes).toList ++
    (hangulBox bboxes).toList ++ if '영' ∈ text then (youngBoxes bboxes).take 1 else []

/-- The reported boxes are those the text is read from, and no box is reported more often than the
filter has kept it. -/
def BoxesOfText (rBboxes : List BBox) (rIos rIou : ℚ) (res : PlateString) : Prop :=
  ∃ bboxes, FilterBBox.filter_bbox rBboxes rIos rIou = some bboxes ∧
    res.valid_bboxes.Perm (readBoxes bboxes res.text) ∧ res.valid_bboxes.Subperm bboxes ∧
    (rBboxes.Nodup → res.valid_bboxes.Nodup)

theorem nodup_of_subperm {l m : List BBox} (h : l.Subperm m) (hm : m.Nodup) : l.Nodup := by
  obtain ⟨l', hperm, hsub⟩ := h
  exact hperm.nodup_iff.mp (hsub.nodup hm)

theorem filter_bbox_subperm {rBboxes bboxes : List BBox} {rIos rIou : ℚ}
    (h : FilterBBox.filter_bbox rBboxes rIos rIou = some bboxes) : bboxes.Subperm rBboxes := by
  have hswept : ∀ overlap threshold bboxes,
      (FilterBBox.swept overlap threshold bboxes).Subperm bboxes := by
    intro overlap threshold bboxes
    obtain ⟨l, hperm, hsub⟩ := FilterBBox.swept_subperm overlap threshold bboxes
    exact hsub.subperm.trans hperm.subperm
  rw [FilterBBox.filter_bbox_eq] at h
  obtain rfl := Option.some.inj h
  exact (hswept _ _ _).trans (hswept _ _ _)

theorem valid_digit_boxes_subperm (digit_bboxes : List BBox) :
    (parse_digits digit_bboxes).valid_digit_boxes.Subperm digit_bboxes := by
  obtain ⟨dropped, hperm, -⟩ := chosenDigits_surest digit_bboxes
  have hleft := (List.sublist_append_left (chosenDigits digit_bboxes) dropped).subperm
  exact (valid_digit_boxes_perm digit_bboxes).subperm.trans (hleft.trans hperm.subperm)

/-- One box of each of two kinds that have no name in common. -/
theorem chosen_subperm (kind other : String → Bool) (bboxes : List BBox)
    (hkinds : ∀ name, other name = true → kind name = false) :
    ((mostConfident (bboxes.filter fun bbox => kind bbox.name)).toList ++
      (mostConfident (bboxes.filter fun bbox => other bbox.name)).toList).Subperm bboxes := by
  have hchosen : ∀ l : List BBox, (mostConfident l).toList.Subperm l := by
    intro l
    cases h : mostConfident l with
    | none => exact List.nil_subperm
    | some b => exact List.singleton_subperm_iff.mpr (mostConfident_mem h)
  have hrest : (bboxes.filter fun bbox => other bbox.name).Subperm
      (bboxes.filter fun bbox => !kind bbox.name) := by
    apply (List.monotone_filter_right bboxes _).subperm
    intro b hb
    rw [hkinds _ hb]
    rfl
  have hcut := List.filter_append_perm (fun bbox : BBox => kind bbox.name) bboxes
  exact ((hchosen _).append ((hchosen _).trans hrest)).trans hcut.subperm

theorem digitBoxes_append_perm (bboxes : List BBox) :
    (digitBoxes bboxes ++ hangulBoxes bboxes).Perm bboxes :=
  List.filter_append_perm (fun bbox : BBox => is_plate_digits bbox.name) bboxes

theorem mid_hangul_not_region {name : String} (h : is_plate_mid_hangul name = true) :
    is_plate_region name = false := by
  have hall : ∀ n ∈ PLATE_MID_HANGULS, is_plate_region n = false := by decide
  exact hall name (List.contains_iff_mem.mp h)

/-- The branch on the young mark appends its first box once, and once more when it is read. -/
theorem parse_young_cases {young_bboxes boxes : List BBox} {region digit_string text : List Char}
    (h : parse_young young_bboxes region digit_string = some (text, boxes)) :
    (young_bboxes = [] ∧ boxes = []) ∨
      (young_bboxes ≠ [] ∧ text = [] ∧ boxes.length = 1) ∨
      (young_bboxes ≠ [] ∧ boxes.length = 2) := by
  cases young_bboxes with
  | nil =>
    obtain ⟨rfl, rfl⟩ := Prod.mk.inj (Option.some.inj h)
    exact .inl ⟨rfl, rfl⟩
  | cons young rest =>
    unfold parse_young at h
    split_ifs at h
    · obtain ⟨rfl, rfl⟩ := Prod.mk.inj (Option.some.inj h)
      exact .inr (.inl ⟨by simp, rfl, rfl⟩)
    · obtain ⟨number, -, hnumber⟩ := Option.map_eq_some_iff.mp h
      split_ifs at hnumber
      · obtain ⟨rfl, rfl⟩ := Prod.mk.inj hnumber
        exact .inr (.inr ⟨by simp, rfl⟩)
      · obtain ⟨rfl, rfl⟩ := Prod.mk.inj hnumber
        exact .inr (.inl ⟨by simp, rfl, rfl⟩)

/-- Every `return` puts digits of the digit string around the hangul. -/
theorem lastText_around {h : Hanguls} {digit_string text : List Char} {is_old_plate : Bool}
    (htext : lastText h digit_string is_old_plate = some text) :
    ∃ a b, a ++ b ⊆ digit_string ∧ text = h.around a b := by
  have hcut : ∀ n, digit_string.take n ++ digit_string.drop n ⊆ digit_string := by
    intro n
    rw [List.take_append_drop]
    exact List.Subset.refl _
  have hhead : ∀ d b, digit_string.head? = some d → b ⊆ digit_string → [d] ++ b ⊆ digit_string := by
    intro d b hd hb
    exact List.cons_subset.mpr ⟨List.mem_of_mem_head? hd, hb⟩
  unfold lastText at htext
  split_ifs at htext
  · obtain ⟨d, hd, rfl⟩ := Option.map_eq_some_iff.mp htext
    exact ⟨_, _, hhead d _ hd (takeLast_subset 4 digit_string), rfl⟩
  · obtain rfl := Option.some.inj htext
    exact ⟨_, _, hcut 2, rfl⟩
  · obtain ⟨d, hd, rfl⟩ := Option.map_eq_some_iff.mp htext
    exact ⟨_, _, hhead d _ hd (List.drop_subset _ _), rfl⟩
  · obtain rfl := Option.some.inj htext
    exact ⟨_, _, List.Subset.refl _, rfl⟩

theorem plateString_around {bboxes : List BBox} {d : Digits} {h : Hanguls} {plateType : String}
    {res : PlateString} (hres : plateString bboxes d h plateType = some res) :
    res.valid_bboxes = d.valid_digit_boxes ++ h.valid_kor_bboxes ∧
      ∃ a b, a ++ b ⊆ d.digit_string ∧ res.text = h.around a b := by
  have hcut : d.digit_string.take 2 ++ d.digit_string.drop 2 ⊆ d.digit_string := by
    rw [List.take_append_drop]
    exact List.Subset.refl _
  unfold plateString at hres
  split_ifs at hres
  · obtain rfl := Option.some.inj hres
    exact ⟨rfl, _, _, hcut, rfl⟩
  · obtain rfl := Option.some.inj hres
    exact ⟨rfl, _, _, hcut, rfl⟩
  · obtain rfl := Option.some.inj hres
    exact ⟨rfl, _, _, hcut, rfl⟩
  · obtain ⟨text, htext, rfl⟩ := Option.map_eq_some_iff.mp hres
    exact ⟨rfl, lastText_around htext⟩

theorem chosen_not_young (kind : String → Bool) (names : List String) (bboxes : List BBox)
    (hkind : ∀ name, kind name = true → name ∈ names) (hnames : ∀ n ∈ names, '영' ∉ n.toList) :
    '영' ∉ nameOf (mostConfident (bboxes.filter fun bbox => kind bbox.name)) := by
  cases h : mostConfident (bboxes.filter fun bbox => kind bbox.name) with
  | none => exact List.not_mem_nil
  | some b => exact hnames _ (hkind _ (List.mem_filter.mp (mostConfident_mem h)).2)

/-- The mark is in the text only when `parse_hanguls` returns it. -/
theorem young_mem_text {bboxes : List BBox} {h : Hanguls} {a b : List Char}
    (hkor : parse_hanguls (hangulBoxes bboxes) (parse_digits (digitBoxes bboxes)).digit_string =
      some h)
    (hdigits : a ++ b ⊆ (parse_digits (digitBoxes bboxes)).digit_string)
    (hyoung : h.young = []) : '영' ∉ h.around a b := by
  obtain ⟨young, -, rfl⟩ := Option.map_eq_some_iff.mp hkor
  have hregion := chosen_not_young is_plate_region PLATE_REGIONS (hangulBoxes bboxes)
    (fun name h => List.contains_iff_mem.mp h) (by decide)
  have hhangul := chosen_not_young is_plate_mid_hangul PLATE_MID_HANGULS (hangulBoxes bboxes)
    (fun name h => List.contains_iff_mem.mp h) (by decide)
  have hnumber : '영' ∉ a ++ b := by
    intro hmem
    have hdigit := isDigit_digit_string (hdigits hmem)
    revert hdigit
    decide
  intro hmem
  simp only [Hanguls.around, List.mem_append] at hmem hnumber
  rw [show young.1 = [] from hyoung] at hmem
  rcases hmem with (((hr | ha) | hh) | hb) | hy
  · exact hregion hr
  · exact hnumber (.inl ha)
  · exact hhangul hh
  · exact hnumber (.inr hb)
  · cases hy

/-- The filter keeps a box that is named after the young mark. -/
def KeepsYoung (rBboxes : List BBox) (rIos rIou : ℚ) : Prop :=
  ∃ bboxes, FilterBBox.filter_bbox rBboxes rIos rIou = some bboxes ∧
    ∃ b ∈ bboxes, is_plate_young b.name = true

/-- Without a young mark the reported boxes are a part of those that are kept. -/
theorem reported_subperm (bboxes : List BBox) :
    ((parse_digits (digitBoxes bboxes)).valid_digit_boxes ++
      ((regionBox bboxes).toList ++ (hangulBox bboxes).toList)).Subperm bboxes := by
  have hkor := chosen_subperm is_plate_region is_plate_mid_hangul (hangulBoxes bboxes)
    fun name => mid_hangul_not_region
  exact ((valid_digit_boxes_subperm _).append hkor).trans (digitBoxes_append_perm bboxes).subperm

/-- The reported boxes are those of the text exactly when no young mark is kept. -/
theorem get_plate_string_boxes_iff {rBboxes : List BBox} {rIos rIou : ℚ} {plateType : String}
    {res : PlateString} (hres : get_plate_string rBboxes rIos rIou plateType = some res) :
    BoxesOfText rBboxes rIos rIou res ↔ ¬ KeepsYoung rBboxes rIos rIou := by
  obtain ⟨bboxes, hfilter, hres⟩ := Option.bind_eq_some_iff.mp hres
  obtain ⟨h, hkor, hres⟩ := Option.bind_eq_some_iff.mp hres
  obtain ⟨hvalid, a, b, hdigits, htext⟩ := plateString_around hres
  have hkeeps : KeepsYoung rBboxes rIos rIou ↔ youngBoxes bboxes ≠ [] := by
    rw [KeepsYoung, hfilter, youngBoxes, young_ne_nil_iff]
    simp
  have hplain := young_mem_text hkor hdigits
  obtain ⟨⟨text, boxes⟩, hyoung, rfl⟩ := Option.map_eq_some_iff.mp hkor
  change res.valid_bboxes = _ ++ ((regionBox bboxes).toList ++ boxes ++ (hangulBox bboxes).toList)
    at hvalid
  rw [hkeeps, not_not]
  constructor
  · rintro ⟨bboxes', hfilter', hperm, -⟩
    obtain rfl := Option.some.inj (hfilter.symm.trans hfilter')
    have hlen := hperm.length_eq
    simp only [hvalid, readBoxes, List.length_append] at hlen
    rcases parse_young_cases hyoung with ⟨hnil, -⟩ | ⟨-, rfl, hone⟩ | ⟨-, htwo⟩
    · exact hnil
    · rw [htext, if_neg (hplain rfl), hone, List.length_nil] at hlen
      omega
    · have htake : (if '영' ∈ res.text then (youngBoxes bboxes).take 1 else []).length ≤ 1 := by
        split_ifs
        · exact List.length_take_le 1 _
        · exact Nat.zero_le 1
      omega
  · intro hnil
    have hsub := reported_subperm bboxes
    rcases parse_young_cases hyoung with ⟨-, rfl⟩ | ⟨hne, -⟩ | ⟨hne, -⟩
    · rw [List.append_nil] at hvalid
      rw [← hvalid] at hsub
      refine ⟨bboxes, hfilter, ?_, hsub, ?_⟩
      · rw [readBoxes, hnil, List.take_nil, ite_self, List.append_nil, List.append_assoc, hvalid]
      · intro hnodup
        exact nodup_of_subperm (hsub.trans (filter_bbox_subperm hfilter)) hnodup
    · exact absurd hnil hne
    · exact absurd hnil hne

theorem get_plate_string_boxes_flat :
    ∃ res, get_plate_string flatPlate (4 / 5) (3 / 10) "class0" = some res ∧
      BoxesOfText flatPlate (4 / 5) (3 / 10) res := by
  have herror : (get_plate_string flatPlate (4 / 5) (3 / 10) "class0").map
      PlateString.parse_error = some "" := by
    rw [get_plate_string, filter_flatPlate]
    decide +kernel
  obtain ⟨res, hres, -⟩ := Option.map_eq_some_iff.mp herror
  refine ⟨res, hres, (get_plate_string_boxes_iff hres).mpr ?_⟩
  rintro ⟨bboxes, hfilter, b, hb, hyoung⟩
  obtain rfl := Option.some.inj (filter_flatPlate.symm.trans hfilter)
  have hnone : ∀ b ∈ flatPlate, is_plate_young b.name = false := by decide
  rw [hnone b hb] at hyoung
  cases hyoung

/-- A young mark in front of a full plate without a region. -/
def youngPlate : List BBox := named "영" 0 0 ::
  [named "1" 10 0, named "2" 20 0, named "가" 30 0, named "3" 40 0, named "4" 50 0, named "5" 60 0,
    named "6" 70 0]

/-- The mark is not in the text, but its box is reported. -/
theorem unread_mark_is_reported :
    ∃ res, get_plate_string youngPlate (4 / 5) (3 / 10) "class0" = some res ∧
      res.parse_error = "" ∧ res.text = "12가3456".toList ∧
      ¬ BoxesOfText youngPlate (4 / 5) (3 / 10) res := by
  have hfilter : FilterBBox.filter_bbox youngPlate (4 / 5) (3 / 10) = some youngPlate :=
    FilterBBox.filter_bbox_of_clear (by decide +kernel)
  have hall : (get_plate_string youngPlate (4 / 5) (3 / 10) "class0").map
      (fun res => (res.parse_error, res.text, res.valid_bboxes.length)) =
        some ("", "12가3456".toList, 8) := by
    rw [get_plate_string, hfilter]
    decide +kernel
  obtain ⟨res, hres, hparts⟩ := Option.map_eq_some_iff.mp hall
  obtain ⟨herror, htext, hlen⟩ : res.parse_error = "" ∧ res.text = "12가3456".toList ∧
      res.valid_bboxes.length = 8 := by simpa using hparts
  refine ⟨res, hres, herror, htext, ?_⟩
  rintro ⟨bboxes, hfilter', hperm, -⟩
  obtain rfl := Option.some.inj (hfilter.symm.trans hfilter')
  have hread : (readBoxes youngPlate "12가3456".toList).length = 7 := by decide +kernel
  have hsame := hperm.length_eq
  rw [htext, hread, hlen] at hsame
  cases hsame

end VisionSensor.Plate
