import VisionSensor.Detect.Inference
import VisionSensor.Plate.PlateErrors
import VisionSensor.Plate.Validator

/-! From the output of the recogniser to the validator: which of the plates that `recognition`
returns without an error keep to the grammar, and which `is_valid_plate` accepts. -/
namespace VisionSensor.Plate
open Validator (Grammar Numbered NumberEnd is_valid_plate)

/-- `recognition`, for a plate image of `h` rows and `w` columns; `none` is an exception. -/
def recognition (mul : ℚ → ℕ → ℚ) (h w : ℕ) (category_index : List (ℤ × Inference.Category))
    (out : Inference.NetworkOutput) (rIos rIou : ℚ) (plateType : String) : Option PlateString :=
  (Inference.predict mul h w (Inference.detect category_index out)).bind fun rBboxes =>
    get_plate_string rBboxes rIos rIou plateType

/-- The plate types `get_plate_string` knows; any other one has no error of its own. -/
def KnownType (plateType : String) : Prop :=
  plateType ∈ ["class0", "class1", "class2", "class3", "class5"]

theorem errorText_ne (code : String) (h : code ∈ Error_Table.map Prod.fst) :
    errorText code ≠ "" := by
  have hall : ∀ code ∈ Error_Table.map Prod.fst, errorText code ≠ "" := by decide
  exact hall code h

/-- For a plate type it knows, no error means six digits. -/
theorem six_of_typeError {plateType : String} {hangul digit_string : List Char}
    (hknown : KnownType plateType) (h : typeError plateType hangul digit_string = "") :
    6 ≤ digit_string.length := by
  by_contra hlen
  have hshort : digit_string.length < 6 := by omega
  unfold typeError at h
  rw [if_pos hshort, if_pos hshort] at h
  split_ifs at h with h₁ h₂ h₃ h₄
  · exact errorText_ne _ (by decide) h
  · exact errorText_ne _ (by decide) h
  · exact errorText_ne _ (by decide) h
  · exact errorText_ne _ (by decide) h
  · unfold KnownType at hknown
    simp only [List.mem_cons, List.not_mem_nil, or_false] at hknown
    tauto

/-- A plate without an error has come to the last `return` statements. -/
theorem plateString_unerring {bboxes : List BBox} {d : Digits} {h : Hanguls} {plateType : String}
    {res : PlateString} (hres : plateString bboxes d h plateType = some res)
    (herror : res.parse_error = "") : h.hangul ≠ [] ∧
      lastText h d.digit_string d.is_old_plate = some res.text ∧
      typeError plateType h.hangul d.digit_string = "" := by
  unfold plateString at hres
  split_ifs at hres with hnone hfew hkor
  · obtain rfl := Option.some.inj hres
    exact absurd herror (errorText_ne "204" (by decide))
  · obtain rfl := Option.some.inj hres
    exact absurd herror (errorText_ne "202" (by decide))
  · obtain rfl := Option.some.inj hres
    exact absurd herror (errorText_ne "201" (by decide))
  · obtain ⟨text, htext, rfl⟩ := Option.map_eq_some_iff.mp hres
    exact ⟨hkor, htext, herror⟩

/-- What the Korean parts of a plate with a hangul are made of. -/
structure Parts (h : Hanguls) : Prop where
  region : h.region = [] ∨ Validator.is_plate_region h.region = true
  hangul : ∃ c, h.hangul = [c] ∧ Validator.is_plate_hangul c = true ∧
    Validator.is_plate_digits [c] = false
  young : h.young = [] ∨ h.young = PLATE_YOUNG.toList ∧ h.region ≠ []

theorem mid_hangul_char {name : String} (h : is_plate_mid_hangul name = true) :
    ∃ c, name.toList = [c] ∧ Validator.is_plate_hangul c = true ∧
      Validator.is_plate_digits [c] = false := by
  have hall : ∀ n ∈ PLATE_MID_HANGULS, n.toList.length = 1 ∧
      (n.toList.all fun c => Validator.is_plate_hangul c && !Validator.is_plate_digits [c]) =
        true := by decide
  obtain ⟨hlen, hchar⟩ := hall name (List.contains_iff_mem.mp h)
  obtain ⟨c, hc⟩ := List.length_eq_one_iff.mp hlen
  rw [hc, List.all_cons, List.all_nil, Bool.and_true, Bool.and_eq_true, Bool.not_eq_true'] at hchar
  exact ⟨c, hc, hchar⟩

/-- A chosen name is the name of a box of its kind. -/
theorem nameOf_chosen {kind : String → Bool} {bboxes : List BBox} (P : List Char → Prop)
    (hP : ∀ name, kind name = true → P name.toList) :
    nameOf (mostConfident (bboxes.filter fun bbox => kind bbox.name)) = [] ∨
      P (nameOf (mostConfident (bboxes.filter fun bbox => kind bbox.name))) := by
  cases h : mostConfident (bboxes.filter fun bbox => kind bbox.name) with
  | none => exact .inl rfl
  | some b => exact .inr (hP b.name (List.mem_filter.mp (mostConfident_mem h)).2)

theorem parse_young_text {young_bboxes boxes : List BBox} {region digit_string text : List Char}
    (hyoung : ∀ b ∈ young_bboxes, is_plate_young b.name = true)
    (h : parse_young young_bboxes region digit_string = some (text, boxes)) :
    text = [] ∨ text = PLATE_YOUNG.toList ∧ region ≠ [] := by
  cases young_bboxes with
  | nil =>
    obtain ⟨rfl, -⟩ := Prod.mk.inj (Option.some.inj h)
    exact .inl rfl
  | cons young rest =>
    unfold parse_young at h
    split_ifs at h with hregion
    · obtain ⟨rfl, -⟩ := Prod.mk.inj (Option.some.inj h)
      exact .inl rfl
    · obtain ⟨number, -, hnumber⟩ := Option.map_eq_some_iff.mp h
      split_ifs at hnumber
      · obtain ⟨rfl, -⟩ := Prod.mk.inj hnumber
        have hname : young.name = PLATE_YOUNG := beq_iff_eq.mp (hyoung young List.mem_cons_self)
        exact .inr ⟨by rw [hname], hregion⟩
      · obtain ⟨rfl, -⟩ := Prod.mk.inj hnumber
        exact .inl rfl

theorem parse_hanguls_parts {hangul_bboxes : List BBox} {digit_string : List Char} {h : Hanguls}
    (hkor : parse_hanguls hangul_bboxes digit_string = some h) (hhangul : h.hangul ≠ []) :
    Parts h := by
  obtain ⟨⟨young, boxes⟩, hyoung, rfl⟩ := Option.map_eq_some_iff.mp hkor
  constructor
  · refine nameOf_chosen (fun text => Validator.is_plate_region text = true) fun name hname => ?_
    exact List.contains_iff_mem.mpr (List.mem_map_of_mem (List.contains_iff_mem.mp hname))
  · exact (nameOf_chosen (fun text => ∃ c, text = [c] ∧ Validator.is_plate_hangul c = true ∧
      Validator.is_plate_digits [c] = false) fun name => mid_hangul_char).resolve_left hhangul
  · refine parse_young_text (fun b hb => ?_) hyoung
    exact (List.mem_filter.mp hb).2

theorem digit_string_digits (bboxes : List BBox) :
    Validator.is_plate_digits (parse_digits (digitBoxes bboxes)).digit_string = true := by
  rw [digit_string_eq]
  refine List.all_eq_true.mpr fun c hc => ?_
  obtain ⟨b, hb, hc⟩ := mem_joinNames.mp hc
  have hmem := mem_chosenDigits ((valid_digit_boxes_perm _).mem_iff.mp hb)
  exact List.all_eq_true.mp (List.mem_filter.mp hmem).2 c hc

/-- A plate whose second character is no digit does not begin with two. -/
theorem not_numbered_second {kind : List Char → Prop} {d c : Char} {rest : List Char}
    (hc : Validator.is_plate_digits [c] = false) : ¬ Numbered kind (d :: c :: rest) := by
  rintro ⟨two, hangul, tail, hlen, hdigits, -, -, heq⟩
  obtain ⟨x, y, rfl⟩ := List.length_eq_two.mp hlen
  have hsecond : c = y := (List.cons.inj (List.cons.inj heq).2).1
  rw [hsecond, (Validator.digits_cons.mp hdigits).2] at hc
  cases hc

section Text

variable {region number : List Char}

/-- Behind the region the grammar is a matter of the number, which begins with a digit. -/
theorem grammar_region_iff (hregion : region = [] ∨ Validator.is_plate_region region = true)
    {d : Char} (hd : Validator.is_plate_digits [d] = true) (hfirst : ∃ rest, number = d :: rest) :
    Grammar (region ++ number) ↔ Numbered NumberEnd number := by
  obtain ⟨rest, hnumber⟩ := hfirst
  constructor
  · rintro ⟨region', number', hregion', hnumbered, heq⟩
    rcases hregion with rfl | hregion <;> rcases hregion' with rfl | hregion'
    · rw [List.nil_append, List.nil_append] at heq
      exact heq ▸ hnumbered
    · rw [List.nil_append, hnumber] at heq
      exact absurd heq (Validator.no_region hd number' hregion')
    · obtain ⟨c, cs, rfl, hc⟩ := Validator.numbered_head hnumbered
      exact absurd heq.symm (Validator.no_region hc number hregion)
    · obtain ⟨a, b, rfl, -⟩ := Validator.region_cases hregion
      obtain ⟨a', b', rfl, -⟩ := Validator.region_cases hregion'
      obtain ⟨-, rfl⟩ := List.append_inj heq rfl
      exact hnumbered
  · intro hnumbered
    exact ⟨region, number, hregion, hnumbered, rfl⟩

/-- The validator refuses every region. -/
theorem valid_region_iff (hregion : region = [] ∨ Validator.is_plate_region region = true)
    {d : Char} (hd : Validator.is_plate_digits [d] = true) (hfirst : ∃ rest, number = d :: rest) :
    is_valid_plate (region ++ number) = some true ↔
      region = [] ∧ Numbered (fun tail => Validator.afterHangul tail = true) number := by
  obtain ⟨rest, hnumber⟩ := hfirst
  rcases hregion with rfl | hregion
  · rw [List.nil_append, hnumber, Validator.is_valid_plate_digit hd,
      Validator.afterRegion_eq_true_iff]
    exact (and_iff_right rfl).symm
  · obtain ⟨a, b, rfl, ha⟩ := Validator.region_cases hregion
    rw [List.cons_append, Validator.is_valid_plate_not_digit ha]
    simp

end Text

/-- The text of six digits, cut behind the second one or, for an old plate, without the second. -/
theorem lastText_six {h : Hanguls} {a b c d e f : Char} (is_old_plate : Bool) :
    lastText h [a, b, c, d, e, f] is_old_plate =
      some (h.region ++ if is_old_plate then a :: (h.hangul ++ [c, d, e, f] ++ h.young)
        else [a, b] ++ (h.hangul ++ [c, d, e, f] ++ h.young)) := by
  cases is_old_plate <;> simp [lastText, takeLast, Hanguls.around]

theorem eq_six {l : List Char} (h : l.length = 6) :
    ∃ a b c d e f, l = [a, b, c, d, e, f] := by
  match l, h with
  | [a, b, c, d, e, f], _ => exact ⟨a, b, c, d, e, f, rfl⟩

/-- Six digits and a hangul make a plate of the grammar unless the second digit is left out, and
one that is accepted when there is no region either. -/
theorem text_of_six {h : Hanguls} (hparts : Parts h) {digit_string text : List Char}
    {is_old_plate : Bool} (hdigits : Validator.is_plate_digits digit_string = true)
    (hlen : digit_string.length = 6) (htext : lastText h digit_string is_old_plate = some text) :
    (Grammar text ↔ is_old_plate = false) ∧
      (is_valid_plate text = some true ↔ is_old_plate = false ∧ h.region = []) := by
  obtain ⟨a, b, c, d, e, f, rfl⟩ := eq_six hlen
  obtain ⟨x, hx, hhangul, hnot⟩ := hparts.hangul
  rw [lastText_six, hx] at htext
  obtain rfl := Option.some.inj htext
  obtain ⟨ha, hrest⟩ := Validator.digits_cons.mp hdigits
  have htwo : Validator.is_plate_digits [a, b] = true ∧
      Validator.is_plate_digits [c, d, e, f] = true :=
    Validator.digits_append.mp (show Validator.is_plate_digits ([a, b] ++ [c, d, e, f]) = true from
      hdigits)
  have hfirst : ∃ rest, (if is_old_plate then a :: ([x] ++ [c, d, e, f] ++ h.young)
      else [a, b] ++ ([x] ++ [c, d, e, f] ++ h.young)) = a :: rest := by
    cases is_old_plate <;> exact ⟨_, rfl⟩
  rw [grammar_region_iff hparts.region ha hfirst, valid_region_iff hparts.region ha hfirst]
  cases is_old_plate with
  | true => simp [not_numbered_second hnot]
  | false =>
    have hend : NumberEnd ([c, d, e, f] ++ h.young) :=
      ⟨_, _, rfl, htwo.2, hparts.young.imp id fun hyoung => hyoung.1, rfl⟩
    have hnumbered {kind : List Char → Prop} (hkind : kind ([c, d, e, f] ++ h.young)) :
        Numbered kind ([a, b] ++ ([x] ++ [c, d, e, f] ++ h.young)) :=
      ⟨[a, b], x, _, rfl, htwo.1, hhangul, hkind, rfl⟩
    constructor
    · exact iff_of_true (hnumbered hend) rfl
    · rw [and_comm]
      exact and_congr_left' (iff_of_true
        (hnumbered ((Validator.afterHangul_iff _).mpr (.inl hend))) rfl)

/-- What the recogniser reports is a digit only under a name of one character. -/
def DigitNames (category_index : List (ℤ × Inference.Category)) : Prop :=
  ∀ entry ∈ category_index, is_plate_digits entry.2.name = true → entry.2.name.length = 1

/-- A class without a category is a digit, too: its name is `0`. -/
theorem predicted_names {mul : ℚ → ℕ → ℚ} {h w : ℕ}
    {category_index : List (ℤ × Inference.Category)} {out : Inference.NetworkOutput}
    {rBboxes : List BBox} (hnames : DigitNames category_index)
    (hp : Inference.predict mul h w (Inference.detect category_index out) = some rBboxes) :
    ∀ b ∈ rBboxes, is_plate_digits b.name = true → b.name.length = 1 := by
  intro b hb hdigit
  obtain ⟨i, hi⟩ := List.mem_iff_getElem?.mp hb
  obtain ⟨k, -, hk⟩ := Option.map_eq_some_iff.mp ((Inference.predict_spec hp).2 i b |>.mp hi).2.name
  cases hcat : Inference.categoryOf category_index k with
  | none =>
    rw [hcat] at hk
    rw [← hk]
    decide
  | some c =>
    obtain ⟨entry, hentry, rfl⟩ := Option.map_eq_some_iff.mp hcat
    rw [hcat] at hk
    rw [← hk] at hdigit ⊢
    exact hnames entry (List.mem_of_find?_eq_some hentry) hdigit

/-- Whatever the network reports for the image of a plate: a text that comes back without an error
keeps to the grammar unless it is six digits taken for an old plate, and is accepted by the validator
unless it is that or has a region. -/
theorem recognised_plate_valid_iff {mul : ℚ → ℕ → ℚ} {h w : ℕ}
    {category_index : List (ℤ × Inference.Category)} {out : Inference.NetworkOutput}
    {rIos rIou : ℚ} {plateType : String} {res : PlateString} (hnames : DigitNames category_index)
    (hknown : KnownType plateType)
    (hres : recognition mul h w category_index out rIos rIou plateType = some res)
    (herror : res.parse_error = "") :
    ∃ rBboxes bboxes,
      Inference.predict mul h w (Inference.detect category_index out) = some rBboxes ∧
      FilterBBox.filter_bbox rBboxes rIos rIou = some bboxes ∧
      (Grammar res.text ↔ ¬ OldPlate (chosenDigits (digitBoxes bboxes))) ∧
      (is_valid_plate res.text = some true ↔ ¬ OldPlate (chosenDigits (digitBoxes bboxes)) ∧
        ∀ b ∈ bboxes, is_plate_region b.name = false) := by
  obtain ⟨rBboxes, hpredict, hres⟩ := Option.bind_eq_some_iff.mp hres
  obtain ⟨bboxes, hfilter, hres⟩ := Option.bind_eq_some_iff.mp hres
  obtain ⟨kor, hkor, hres⟩ := Option.bind_eq_some_iff.mp hres
  obtain ⟨hhangul, htext, htype⟩ := plateString_unerring hres herror
  have hparts := parse_hanguls_parts hkor hhangul
  have hdigits := digit_string_digits bboxes
  have hone : ∀ b ∈ digitBoxes bboxes, b.name.length = 1 := by
    intro b hb
    obtain ⟨hmem, hdigit⟩ := List.mem_filter.mp hb
    exact predicted_names hnames hpredict b (FilterBBox.filter_bbox_subset hfilter hmem) hdigit
  have hlen : (parse_digits (digitBoxes bboxes)).digit_string.length = 6 := by
    have hle := length_digit_string hone
    have hge := six_of_typeError hknown htype
    omega
  obtain ⟨hgrammar, hvalid⟩ := text_of_six hparts hdigits hlen htext
  have hold : (parse_digits (digitBoxes bboxes)).is_old_plate = false ↔
      ¬ OldPlate (chosenDigits (digitBoxes bboxes)) := by
    rw [← parse_digits_old, Bool.not_eq_true]
  have hregion : kor.region = [] ↔ ∀ b ∈ bboxes, is_plate_region b.name = false := by
    obtain ⟨young, -, rfl⟩ := Option.map_eq_some_iff.mp hkor
    have hne := @nameOf_chosen_ne_nil_iff is_plate_region bboxes fun name => region_name
    rw [← not_iff_not]
    refine hne.trans ?_
    simp
  refine ⟨rBboxes, bboxes, hpredict, hfilter, hgrammar.trans hold, ?_⟩
  rw [hvalid, hold, hregion]

/-- A recogniser with a class for each character of one plate. -/
def plateNames : List (ℤ × Inference.Category) :=
  [(1, ⟨1, "1"⟩), (2, ⟨1, "2"⟩), (3, ⟨1, "가"⟩), (4, ⟨1, "3"⟩), (5, ⟨1, "4"⟩), (6, ⟨1, "5"⟩),
    (7, ⟨1, "6"⟩)]

/-- The seven characters on one line. -/
def plateOutput : Inference.NetworkOutput where
  boxes := [⟨0, 0, 9 / 100, 9 / 100⟩, ⟨0, 10 / 100, 9 / 100, 19 / 100⟩,
    ⟨0, 20 / 100, 9 / 100, 29 / 100⟩, ⟨0, 30 / 100, 9 / 100, 39 / 100⟩,
    ⟨0, 40 / 100, 9 / 100, 49 / 100⟩, ⟨0, 50 / 100, 9 / 100, 59 / 100⟩,
    ⟨0, 60 / 100, 9 / 100, 69 / 100⟩]
  scores := [1, 1, 1, 1, 1, 1, 1]
  classes := [1, 2, 3, 4, 5, 6, 7]
  scores_aligned := rfl
  classes_aligned := rfl

deriving instance DecidableEq for Geo.Line, Geo.Rect, BBox

theorem predict_plateOutput : Inference.predict (fun x n => x * n) 100 100
    (Inference.detect plateNames plateOutput) = some flatPlate := by
  decide +kernel

theorem recognised_plate_valid_flat :
    ∃ res, recognition (fun x n => x * n) 100 100 plateNames plateOutput (4 / 5) (3 / 10) "class0" =
        some res ∧ res.parse_error = "" ∧ Grammar res.text ∧ is_valid_plate res.text = some true := by
  have herror : (recognition (fun x n => x * n) 100 100 plateNames plateOutput (4 / 5) (3 / 10)
      "class0").map PlateString.parse_error = some "" := by
    rw [recognition, predict_plateOutput, Option.bind_some, get_plate_string, filter_flatPlate]
    decide +kernel
  obtain ⟨res, hres, herror⟩ := Option.map_eq_some_iff.mp herror
  obtain ⟨rBboxes, bboxes, hpredict, hfilter, hgrammar, hvalid⟩ :=
    recognised_plate_valid_iff (by unfold DigitNames; decide) (by unfold KnownType; decide) hres
      herror
  obtain rfl := Option.some.inj (predict_plateOutput.symm.trans hpredict)
  obtain rfl := Option.some.inj (filter_flatPlate.symm.trans hfilter)
  have hflat : ¬ OldPlate (chosenDigits (digitBoxes flatPlate)) := by
    rw [← parse_digits_old]
    decide +kernel
  exact ⟨res, hres, herror, hgrammar.mpr hflat, hvalid.mpr ⟨hflat, by decide⟩⟩

end VisionSensor.Plate
