import VisionSensor.Plate.ParseDigits

/-! The text of a number plate: `parse_hanguls`, and `get_plate_string`, which cuts the digit string
in two and puts the hangul between the parts. `none` is an exception. -/
namespace VisionSensor.Plate

/-- The entries of `Error_Table` that `get_plate_string` uses. -/
def Error_Table : List (String × String) :=
  [("201", "RECOG : No Hangul"), ("202", "RECOG : No digits"), ("204", "RECOG : No plate string"),
    ("205", "RECOG : Missing some digits, Need to extend left and right"),
    ("206", "RECOG : Missing some digits need to extend right margin"),
    ("207", "RECOG : Missing hangul need to extend left margin")]

def errorText (code : String) : String := (Error_Table.lookup code).getD ""

/-- The box with the highest confidence, the last one on ties. -/
def mostConfident : List BBox → Option BBox
  | [] => none
  | b :: bs => some (bs.foldl (fun best b => if best.conf ≤ b.conf then b else best) b)

def nameOf (b : Option BBox) : List Char := b.elim [] fun b => b.name.toList

/-- `int(digits)` of a string of digits; the empty one raises a `ValueError`. -/
def int (digits : List Char) : Option ℕ :=
  if digits ≠ [] ∧ digits.all Char.isDigit then some (Nat.ofDigitChars 10 digits 0) else none

/-- What `parse_hanguls` returns. -/
structure Hanguls where
  region : List Char
  hangul : List Char
  young : List Char
  valid_kor_bboxes : List BBox

/-- The branch on `young_bboxes`: the text, and the boxes appended. -/
def parse_young (young_bboxes : List BBox) (region digit_string : List Char) :
    Option (List Char × List BBox) :=
  match young_bboxes with
  | [] => some ([], [])
  | young :: _ =>
      if region = [] then some ([], [young])
      else (int (takeLast 4 digit_string)).map fun number =>
        if 5001 ≤ number ∧ number ≤ 8999 then (young.name.toList, [young, young])
        else ([], [young])

def parse_hanguls (hangul_bboxes : List BBox) (digit_string : List Char) : Option Hanguls :=
  let region := mostConfident (hangul_bboxes.filter fun bbox => is_plate_region bbox.name)
  let hangul := mostConfident (hangul_bboxes.filter fun bbox => is_plate_mid_hangul bbox.name)
  (parse_young (hangul_bboxes.filter fun bbox => is_plate_young bbox.name) (nameOf region)
    digit_string).map fun young =>
      ⟨nameOf region, nameOf hangul, young.1, region.toList ++ young.2 ++ hangul.toList⟩

/-- The error for the type of the plate. -/
def typeError (plateType : String) (hangul digit_string : List Char) : String :=
  if plateType = "class0" ∨ plateType = "class1" ∨ plateType = "class3" then
    if digit_string.length < 6 then
      if digit_string = [] then errorText "202" else errorText "205"
    else ""
  else if plateType = "class2" ∨ plateType = "class5" then
    if digit_string.length < 6 then
      if digit_string = [] then errorText "202" else errorText "206"
    else if hangul = [] then errorText "207"
    else ""
  else ""

/-- `region + a + hangul + b + young`. -/
def Hanguls.around (h : Hanguls) (a b : List Char) : List Char :=
  h.region ++ a ++ h.hangul ++ b ++ h.young

/-- The text of the last `return` statements. -/
def lastText (h : Hanguls) (digit_string : List Char) (is_old_plate : Bool) : Option (List Char) :=
  if is_old_plate then
    digit_string.head?.map fun d => h.around [d] (takeLast 4 digit_string)
  else if digit_string.length = 6 then some (h.around (digit_string.take 2) (digit_string.drop 2))
  else if digit_string.length = 5 then
    digit_string.head?.map fun d => h.around [d] (digit_string.drop 1)
  else some (h.around [] digit_string)

/-- What `get_plate_string` returns. -/
structure PlateString where
  text : List Char
  parse_error : String
  bboxes : List BBox
  valid_bboxes : List BBox

/-- The boxes whose names are digits. -/
def digitBoxes (bboxes : List BBox) : List BBox := bboxes.filter fun bbox => is_plate_digits bbox.name

def hangulBoxes (bboxes : List BBox) : List BBox :=
  bboxes.filter fun bbox => !is_plate_digits bbox.name

/-- `get_plate_string` after the boxes have been filtered and parsed. -/
def plateString (bboxes : List BBox) (d : Digits) (h : Hanguls) (plateType : String) :
    Option PlateString :=
  let valid_bboxes := d.valid_digit_boxes ++ h.valid_kor_bboxes
  let cut := h.around (d.digit_string.take 2) (d.digit_string.drop 2)
  if h.region = [] ∧ h.hangul = [] ∧ d.digit_string = [] then
    some ⟨cut, errorText "204", bboxes, valid_bboxes⟩
  else if bboxes.length ≤ 4 then some ⟨cut, errorText "202", bboxes, valid_bboxes⟩
  else if h.hangul = [] then some ⟨cut, errorText "201", bboxes, valid_bboxes⟩
  else (lastText h d.digit_string d.is_old_plate).map fun text =>
    ⟨text, typeError plateType h.hangul d.digit_string, bboxes, valid_bboxes⟩

def get_plate_string (rBboxes : List BBox) (rIos rIou : ℚ) (plateType : String) :
    Option PlateString :=
  (FilterBBox.filter_bbox rBboxes rIos rIou).bind fun bboxes =>
    let d := parse_digits (digitBoxes bboxes)
    (parse_hanguls (hangulBoxes bboxes) d.digit_string).bind fun h =>
      plateString bboxes d h plateType

/-- The text is the digit string cut in two around the hangul, between the region and `young`. -/
def Holds (h : Hanguls) (digit_string text : List Char) : Prop :=
  ∃ a b, a ++ b = digit_string ∧ text = h.around a b

theorem holds_take (h : Hanguls) (digit_string : List Char) (n : ℕ) :
    Holds h digit_string (h.around (digit_string.take n) (digit_string.drop n)) :=
  ⟨_, _, List.take_append_drop n digit_string, rfl⟩

theorem Hanguls.length_around (h : Hanguls) (a b : List Char) :
    (h.around a b).length =
      h.region.length + h.hangul.length + h.young.length + (a ++ b).length := by
  simp only [around, List.length_append]
  omega

theorem takeLast_tail (d : Char) {rest : List Char} (h : rest.length = 4) :
    takeLast 4 (d :: rest) = rest := by
  unfold takeLast
  rw [if_neg (by decide), List.length_cons, h]
  rfl

/-- The branch for old plates takes the first and the last four of the digits, which are all of
them when there are five. -/
theorem old_holds_iff (h : Hanguls) (d : Char) {rest : List Char} (hlen : 4 ≤ rest.length) :
    Holds h (d :: rest) (h.around [d] (takeLast 4 (d :: rest))) ↔ rest.length = 4 := by
  constructor
  · rintro ⟨a, b, hab, htext⟩
    have htake : (takeLast 4 (d :: rest)).length = 4 :=
      length_takeLast (by rw [List.length_cons]; omega) (by simp)
    have hsum := congrArg List.length htext
    rw [Hanguls.length_around, Hanguls.length_around, hab, List.length_append, htake] at hsum
    simp only [List.length_cons, List.length_nil] at hsum
    omega
  · intro hrest
    rw [takeLast_tail d hrest]
    exact ⟨[d], rest, rfl, rfl⟩

/-- The last `return` statements hold all digits, but for six digits of an old plate. -/
theorem lastText_holds_iff {h : Hanguls} {digit_string text : List Char} {is_old_plate : Bool}
    (hold : is_old_plate = true → 5 ≤ digit_string.length) (hlen : digit_string.length ≤ 6)
    (htext : lastText h digit_string is_old_plate = some text) :
    Holds h digit_string text ↔ ¬ (is_old_plate = true ∧ digit_string.length = 6) := by
  unfold lastText at htext
  cases is_old_plate with
  | true =>
    obtain ⟨d, hd, rfl⟩ := Option.map_eq_some_iff.mp htext
    obtain ⟨rest, rfl⟩ := List.head?_eq_some_iff.mp hd
    have hrest := hold rfl
    rw [List.length_cons] at hrest hlen ⊢
    rw [old_holds_iff h d (by omega)]
    constructor
    · intro h4 ⟨_, h6⟩
      omega
    · intro hnot
      have h6 : rest.length + 1 ≠ 6 := fun h6 => hnot ⟨rfl, h6⟩
      omega
  | false =>
    rw [if_neg (by decide)] at htext
    apply iff_of_true _ (by simp)
    split_ifs at htext
    · obtain rfl := Option.some.inj htext
      exact holds_take h digit_string 2
    · obtain ⟨d, hd, rfl⟩ := Option.map_eq_some_iff.mp htext
      obtain ⟨rest, rfl⟩ := List.head?_eq_some_iff.mp hd
      exact ⟨[d], rest, rfl, rfl⟩
    · obtain rfl := Option.some.inj htext
      exact ⟨[], digit_string, rfl, rfl⟩

/-- No character of the hangul tables is a digit, and no name of theirs is empty. -/
theorem mid_hangul_name {name : String} (h : is_plate_mid_hangul name = true) :
    is_plate_digits name = false ∧ name.toList ≠ [] := by
  have hall : ∀ n ∈ PLATE_MID_HANGULS, is_plate_digits n = false ∧ n.toList ≠ [] := by decide
  exact hall name (List.contains_iff_mem.mp h)

theorem mostConfident_mem {bboxes : List BBox} {b : BBox} (h : mostConfident bboxes = some b) :
    b ∈ bboxes := by
  cases bboxes with
  | nil => cases h
  | cons c cs =>
    obtain rfl := Option.some.inj h
    induction cs generalizing c with
    | nil => exact List.mem_cons_self
    | cons d ds ih =>
      rw [List.foldl_cons]
      split_ifs
      · exact List.mem_cons_of_mem c (ih d rfl)
      · rcases List.mem_cons.mp (ih c rfl) with hc | hd
        · exact List.mem_cons.mpr (.inl hc)
        · exact List.mem_cons_of_mem c (List.mem_cons_of_mem d hd)

theorem mostConfident_isSome {bboxes : List BBox} :
    (mostConfident bboxes).isSome ↔ bboxes ≠ [] := by
  cases bboxes <;> simp [mostConfident]

/-- A name is chosen exactly when one of the boxes has a name of that kind. -/
theorem nameOf_chosen_ne_nil_iff {kind : String → Bool} {bboxes : List BBox}
    (hkind : ∀ name, kind name = true → is_plate_digits name = false ∧ name.toList ≠ []) :
    nameOf (mostConfident ((hangulBoxes bboxes).filter fun bbox => kind bbox.name)) ≠ [] ↔
      ∃ b ∈ bboxes, kind b.name = true := by
  constructor
  · intro hne
    cases hbest : mostConfident ((hangulBoxes bboxes).filter fun bbox => kind bbox.name) with
    | none => exact absurd (by rw [hbest]; rfl) hne
    | some b =>
      obtain ⟨hb, hname⟩ := List.mem_filter.mp (mostConfident_mem hbest)
      exact ⟨b, (List.mem_filter.mp hb).1, hname⟩
  · rintro ⟨b, hb, hname⟩
    have hkor : b ∈ hangulBoxes bboxes :=
      List.mem_filter.mpr ⟨hb, by simp [(hkind _ hname).1]⟩
    have hmem : b ∈ (hangulBoxes bboxes).filter fun bbox => kind bbox.name :=
      List.mem_filter.mpr ⟨hkor, hname⟩
    obtain ⟨best, hbest⟩ := Option.isSome_iff_exists.mp
      (mostConfident_isSome.mpr (List.ne_nil_of_mem hmem))
    rw [hbest]
    exact (hkind _ (List.mem_filter.mp (mostConfident_mem hbest)).2).2

/-- A hangul is found exactly when one of the boxes is named after one. -/
theorem hangul_ne_nil_iff {bboxes : List BBox} {digit_string : List Char} {h : Hanguls}
    (hkor : parse_hanguls (hangulBoxes bboxes) digit_string = some h) :
    h.hangul ≠ [] ↔ ∃ b ∈ bboxes, is_plate_mid_hangul b.name = true := by
  obtain ⟨young, -, rfl⟩ := Option.map_eq_some_iff.mp hkor
  exact nameOf_chosen_ne_nil_iff fun name => mid_hangul_name

/-- The text holds every digit of the digit string, in its order, around what `parse_hanguls`
finds. -/
def TextComplete (rBboxes : List BBox) (rIos rIou : ℚ) (text : List Char) : Prop :=
  ∃ bboxes h, FilterBBox.filter_bbox rBboxes rIos rIou = some bboxes ∧
    parse_hanguls (hangulBoxes bboxes) (parse_digits (digitBoxes bboxes)).digit_string = some h ∧
    Holds h (parse_digits (digitBoxes bboxes)).digit_string text

/-- Among the boxes that are kept one is named after a hangul and at least six are digits, and the
six of them that are chosen look like an old plate. -/
def SixOldDigits (rBboxes : List BBox) (rIos rIou : ℚ) : Prop :=
  ∃ bboxes, FilterBBox.filter_bbox rBboxes rIos rIou = some bboxes ∧
    (∃ b ∈ bboxes, is_plate_mid_hangul b.name = true) ∧
    6 ≤ (digitBoxes bboxes).length ∧ OldPlate (chosenDigits (digitBoxes bboxes))

theorem plateString_holds_iff {bboxes : List BBox} {h : Hanguls} {plateType : String}
    {res : PlateString} (hnames : ∀ b ∈ digitBoxes bboxes, b.name.length = 1)
    (hres : plateString bboxes (parse_digits (digitBoxes bboxes)) h plateType = some res) :
    Holds h (parse_digits (digitBoxes bboxes)).digit_string res.text ↔
      ¬ (h.hangul ≠ [] ∧ 6 ≤ (digitBoxes bboxes).length ∧
        OldPlate (chosenDigits (digitBoxes bboxes))) := by
  have hlen := length_digit_string hnames
  unfold plateString at hres
  split_ifs at hres with hnone hfew hkor
  · obtain rfl := Option.some.inj hres
    exact iff_of_true (holds_take _ _ 2) fun hsix => hsix.1 hnone.2.1
  · obtain rfl := Option.some.inj hres
    have hdigits : (digitBoxes bboxes).length ≤ bboxes.length := List.length_filter_le _ _
    exact iff_of_true (holds_take _ _ 2) fun hsix => by omega
  · obtain rfl := Option.some.inj hres
    exact iff_of_true (holds_take _ _ 2) fun hsix => hsix.1 hkor
  · obtain ⟨text, htext, rfl⟩ := Option.map_eq_some_iff.mp hres
    rw [lastText_holds_iff _ (by omega) htext, parse_digits_old, and_iff_right hkor, and_comm]
    · have hsix : (parse_digits (digitBoxes bboxes)).digit_string.length = 6 ↔
          6 ≤ (digitBoxes bboxes).length := by omega
      rw [hsix]
    · intro hold
      have hfive := (parse_digits_old.mp hold).1
      rw [length_chosenDigits] at hfive
      omega

/-- When digit names have one character, the text holds the digit string exactly when it is not
one of six digits taken for an old plate. -/
theorem get_plate_string_complete_iff {rBboxes : List BBox} {rIos rIou : ℚ} {plateType : String}
    {res : PlateString}
    (hnames : ∀ b ∈ rBboxes, is_plate_digits b.name = true → b.name.length = 1)
    (hres : get_plate_string rBboxes rIos rIou plateType = some res) :
    TextComplete rBboxes rIos rIou res.text ↔ ¬ SixOldDigits rBboxes rIos rIou := by
  obtain ⟨bboxes, hfilter, hres⟩ := Option.bind_eq_some_iff.mp hres
  obtain ⟨h, hkor, hres⟩ := Option.bind_eq_some_iff.mp hres
  have hdigits : ∀ b ∈ digitBoxes bboxes, b.name.length = 1 := by
    intro b hb
    obtain ⟨hmem, hdigit⟩ := List.mem_filter.mp hb
    exact hnames b (FilterBBox.filter_bbox_subset hfilter hmem) hdigit
  have hholds := plateString_holds_iff hdigits hres
  rw [hangul_ne_nil_iff hkor] at hholds
  constructor
  · rintro ⟨bboxes', h', hfilter', hkor', htext⟩ ⟨bboxes'', hfilter'', hsix⟩
    obtain rfl := Option.some.inj (hfilter.symm.trans hfilter')
    obtain rfl := Option.some.inj (hfilter.symm.trans hfilter'')
    obtain rfl := Option.some.inj (hkor.symm.trans hkor')
    exact hholds.mp htext hsix
  · intro hsix
    exact ⟨bboxes, h, hfilter, hkor, hholds.mpr fun h => hsix ⟨bboxes, hfilter, h⟩⟩

/-- A box of side ten with a name. -/
def named (name : String) (x y : ℕ) : BBox := { FilterBBox.square x y 9 1 with name }

/-- Seven boxes on one line. -/
def flatPlate : List BBox :=
  [named "1" 0 0, named "2" 10 0, named "가" 20 0, named "3" 30 0, named "4" 40 0, named "5" 50 0,
    named "6" 60 0]

/-- The first digit stands above the other five and the hangul. -/
def raisedPlate : List BBox :=
  [named "1" 0 0, named "가" 10 20, named "2" 20 20, named "3" 30 20, named "4" 40 20,
    named "5" 50 20, named "6" 60 20]

theorem filter_flatPlate : FilterBBox.filter_bbox flatPlate (4 / 5) (3 / 10) = some flatPlate :=
  FilterBBox.filter_bbox_of_clear (by decide +kernel)

theorem filter_raisedPlate :
    FilterBBox.filter_bbox raisedPlate (4 / 5) (3 / 10) = some raisedPlate :=
  FilterBBox.filter_bbox_of_clear (by decide +kernel)

theorem get_plate_string_complete_flat :
    ∃ res, get_plate_string flatPlate (4 / 5) (3 / 10) "class0" = some res ∧
      TextComplete flatPlate (4 / 5) (3 / 10) res.text := by
  have htext : (get_plate_string flatPlate (4 / 5) (3 / 10) "class0").map PlateString.text =
      some "12가3456".toList := by
    rw [get_plate_string, filter_flatPlate]
    decide +kernel
  obtain ⟨res, hres, -⟩ := Option.map_eq_some_iff.mp htext
  refine ⟨res, hres, (get_plate_string_complete_iff (by decide) hres).mpr ?_⟩
  rintro ⟨bboxes, hfilter, -, -, hold⟩
  obtain rfl := Option.some.inj (filter_flatPlate.symm.trans hfilter)
  rw [← parse_digits_old] at hold
  revert hold
  decide +kernel

/-- Six digits, of which the first lies higher than the others: the second one is lost. -/
theorem raised_digit_loses_second :
    ∃ res, get_plate_string raisedPlate (4 / 5) (3 / 10) "class0" = some res ∧
      (∀ b ∈ raisedPlate, is_plate_digits b.name = true → b.name.length = 1) ∧
      res.text = "1가3456".toList ∧
      (parse_digits (digitBoxes raisedPlate)).digit_string = "123456".toList ∧
      ¬ TextComplete raisedPlate (4 / 5) (3 / 10) res.text := by
  have htext : (get_plate_string raisedPlate (4 / 5) (3 / 10) "class0").map PlateString.text =
      some "1가3456".toList := by
    rw [get_plate_string, filter_raisedPlate]
    decide +kernel
  obtain ⟨res, hres, hshort⟩ := Option.map_eq_some_iff.mp htext
  have hdigits : (parse_digits (digitBoxes raisedPlate)).digit_string = "123456".toList := by
    decide +kernel
  refine ⟨res, hres, by decide, hshort, hdigits, ?_⟩
  rintro ⟨bboxes, h, hfilter, hkor, a, b, hab, hholds⟩
  obtain rfl := Option.some.inj (filter_raisedPlate.symm.trans hfilter)
  have hhangul : 1 ≤ h.hangul.length := by
    apply List.length_pos_iff.mpr
    exact (hangul_ne_nil_iff hkor).mpr ⟨named "가" 10 20, by simp [raisedPlate], by decide⟩
  have hsum := congrArg List.length hholds
  rw [Hanguls.length_around, hab, hdigits, hshort] at hsum
  have hseven : "1가3456".toList.length = 6 := by decide
  have hsix : "123456".toList.length = 6 := by decide
  omega

end VisionSensor.Plate
