import VisionSensor.Plate.ParseDigits

/-! `is_valid_plate` of `utils`, against the grammar of its comments. `none` is an exception. The
tables of regions and hanguls are those of `tfutils`. -/
namespace VisionSensor.Validator
open Plate (PLATE_DIGITS PLATE_REGIONS PLATE_MID_HANGULS PLATE_YOUNG)

def PLATE_REGION_HANGULS : List Char := PLATE_REGIONS.flatMap String.toList

def PLATE_HANGULS : List Char := PLATE_REGION_HANGULS ++ PLATE_MID_HANGULS.flatMap String.toList

def is_plate_region (region : List Char) : Bool := (PLATE_REGIONS.map String.toList).contains region

def is_plate_digits (digits : List Char) : Bool := digits.all PLATE_DIGITS.contains

def is_plate_hangul (hangul : Char) : Bool := PLATE_HANGULS.contains hangul

/-- From the four digits on. -/
def afterHangul (plate : List Char) : Bool :=
  if !is_plate_digits (plate.take 4) then false
  else
    let plate := plate.drop 4
    if plate.length = 0 then true
    else if plate.length = 1 then plate == PLATE_YOUNG.toList
    else false

/-- From the two digits on. -/
def afterRegion (plate : List Char) : Option Bool :=
  if !is_plate_digits (plate.take 2) then some false
  else
    (plate.drop 2).head?.map fun c =>
      if !is_plate_hangul c then false else afterHangul ((plate.drop 2).drop 1)

/-- After the region the plate is set to the region itself. -/
def is_valid_plate (plate : List Char) : Option Bool :=
  plate.head?.bind fun c =>
    if !is_plate_digits [c] then
      if !is_plate_region (plate.take 2) then some false else afterRegion (plate.take 2)
    else afterRegion plate

/-- Two digits and a hangul, and then a text of some kind. -/
def Numbered (kind : List Char → Prop) (plate : List Char) : Prop :=
  ∃ two hangul tail, two.length = 2 ∧ is_plate_digits two = true ∧ is_plate_hangul hangul = true ∧
    kind tail ∧ plate = two ++ hangul :: tail

/-- Four digits and perhaps the young mark. -/
def NumberEnd (plate : List Char) : Prop :=
  ∃ four young, four.length = 4 ∧ is_plate_digits four = true ∧
    (young = [] ∨ young = PLATE_YOUNG.toList) ∧ plate = four ++ young

/-- At most three digits. -/
def FewDigits (plate : List Char) : Prop := plate.length ≤ 3 ∧ is_plate_digits plate = true

/-- The grammar of the comments: a region or none, two digits, a hangul, four digits, and perhaps
the young mark. -/
def Grammar (plate : List Char) : Prop :=
  ∃ region number, (region = [] ∨ is_plate_region region = true) ∧ Numbered NumberEnd number ∧
    plate = region ++ number

/-- The texts the validator gets wrong: at most two characters, all of them digits; a whole plate
behind a region; fewer than four digits behind the hangul. -/
def Misread (plate : List Char) : Prop :=
  plate.length ≤ 2 ∧ is_plate_digits plate = true ∨
    (∃ region number, is_plate_region region = true ∧ Numbered NumberEnd number ∧
      plate = region ++ number) ∨
    Numbered FewDigits plate

theorem digits_append {a b : List Char} :
    is_plate_digits (a ++ b) = true ↔ is_plate_digits a = true ∧ is_plate_digits b = true := by
  rw [is_plate_digits, List.all_append, Bool.and_eq_true]
  rfl

theorem digits_cons {c : Char} {cs : List Char} :
    is_plate_digits (c :: cs) = true ↔ is_plate_digits [c] = true ∧ is_plate_digits cs = true :=
  digits_append (a := [c])

/-- A region has two characters, of which the first is no digit. -/
theorem region_cases {region : List Char} (h : is_plate_region region = true) :
    ∃ c d, region = [c, d] ∧ is_plate_digits [c] = false := by
  have hall : (PLATE_REGIONS.map String.toList).all
      (fun r => r.length == 2 && !is_plate_digits (r.take 1)) = true := by decide
  have hregion := List.all_eq_true.mp hall region (List.contains_iff_mem.mp h)
  rw [Bool.and_eq_true, beq_iff_eq, Bool.not_eq_true'] at hregion
  obtain ⟨c, d, rfl⟩ := List.length_eq_two.mp hregion.1
  exact ⟨c, d, rfl, hregion.2⟩

theorem numbered_head {kind : List Char → Prop} {plate : List Char} (h : Numbered kind plate) :
    ∃ c cs, plate = c :: cs ∧ is_plate_digits [c] = true := by
  obtain ⟨two, hangul, tail, hlen, hdigits, -, -, rfl⟩ := h
  obtain ⟨c, d, rfl⟩ := List.length_eq_two.mp hlen
  exact ⟨c, _, rfl, (digits_cons.mp hdigits).1⟩

/-- The two digits and the hangul are found in one way only. -/
theorem numbered_unique {kind other : List Char → Prop} {plate : List Char}
    (h : Numbered kind plate) (h' : Numbered other plate) : ∃ tail, kind tail ∧ other tail := by
  obtain ⟨two, hangul, tail, hlen, -, -, hkind, rfl⟩ := h
  obtain ⟨two', hangul', tail', hlen', -, -, hother, heq⟩ := h'
  obtain ⟨-, heq⟩ := List.append_inj heq (hlen.trans hlen'.symm)
  obtain ⟨-, rfl⟩ := List.cons.inj heq
  exact ⟨tail, hkind, hother⟩

theorem numbered_or {kind other : List Char → Prop} {plate : List Char} :
    Numbered (fun tail => kind tail ∨ other tail) plate ↔
      Numbered kind plate ∨ Numbered other plate := by
  constructor
  · rintro ⟨two, hangul, tail, hlen, hdigits, hhangul, hkind | hother, hplate⟩
    · exact .inl ⟨two, hangul, tail, hlen, hdigits, hhangul, hkind, hplate⟩
    · exact .inr ⟨two, hangul, tail, hlen, hdigits, hhangul, hother, hplate⟩
  · rintro (⟨two, hangul, tail, hlen, hdigits, hhangul, hkind, hplate⟩ |
      ⟨two, hangul, tail, hlen, hdigits, hhangul, hother, hplate⟩)
    · exact ⟨two, hangul, tail, hlen, hdigits, hhangul, .inl hkind, hplate⟩
    · exact ⟨two, hangul, tail, hlen, hdigits, hhangul, .inr hother, hplate⟩

/-- The slice of four characters is shorter at the end of the text. -/
theorem afterHangul_iff (plate : List Char) :
    afterHangul plate = true ↔ NumberEnd plate ∨ FewDigits plate := by
  have hcut := List.take_append_drop 4 plate
  constructor
  · intro h
    unfold afterHangul at h
    dsimp only at h
    split_ifs at h with hdigits hnil hone
    all_goals rw [Bool.not_eq_true', Bool.not_eq_false] at hdigits
    · have hall : plate.take 4 = plate := by
        rw [List.length_eq_zero_iff.mp hnil, List.append_nil] at hcut
        exact hcut
      rcases Nat.lt_or_ge plate.length 4 with hlt | hge
      · exact .inr ⟨by omega, hall ▸ hdigits⟩
      · exact .inl ⟨plate.take 4, [], by rw [List.length_take]; omega, hdigits, .inl rfl,
          by rw [hall, List.append_nil]⟩
    · rw [List.length_drop] at hone
      refine .inl ⟨plate.take 4, plate.drop 4, ?_, hdigits, .inr (beq_iff_eq.mp h), hcut.symm⟩
      rw [List.length_take]
      omega
  · rintro (⟨four, young, hlen, hdigits, hyoung, rfl⟩ | ⟨hlen, hdigits⟩)
    · rw [afterHangul, List.take_left' hlen, List.drop_left' hlen, hdigits]
      rcases hyoung with rfl | rfl <;> decide
    · rw [afterHangul, List.take_of_length_le (by omega), List.drop_of_length_le (by omega),
        hdigits]
      rfl

theorem afterRegion_eq_none_iff (plate : List Char) :
    afterRegion plate = none ↔ plate.length ≤ 2 ∧ is_plate_digits plate = true := by
  unfold afterRegion
  split_ifs with hdigits
  · rw [Bool.not_eq_true'] at hdigits
    apply iff_of_false (by simp)
    intro ⟨hlen, h⟩
    rw [List.take_of_length_le hlen, h] at hdigits
    cases hdigits
  · rw [Bool.not_eq_true', Bool.not_eq_false] at hdigits
    rw [Option.map_eq_none_iff, List.head?_eq_none_iff, List.drop_eq_nil_iff]
    constructor
    · intro hlen
      rw [List.take_of_length_le hlen] at hdigits
      exact ⟨hlen, hdigits⟩
    · exact And.left

theorem afterRegion_eq_true_iff (plate : List Char) :
    afterRegion plate = some true ↔ Numbered (fun tail => afterHangul tail = true) plate := by
  constructor
  · intro h
    unfold afterRegion at h
    split_ifs at h with hdigits
    · cases h
    · rw [Bool.not_eq_true', Bool.not_eq_false] at hdigits
      obtain ⟨c, hc, h⟩ := Option.map_eq_some_iff.mp h
      obtain ⟨tail, htail⟩ := List.head?_eq_some_iff.mp hc
      split_ifs at h with hhangul
      rw [Bool.not_eq_true', Bool.not_eq_false] at hhangul
      rw [htail] at h
      have hlen := congrArg List.length htail
      rw [List.length_drop, List.length_cons] at hlen
      refine ⟨plate.take 2, c, tail, ?_, hdigits, hhangul, h, ?_⟩
      · rw [List.length_take]
        omega
      · rw [← htail, List.take_append_drop]
  · rintro ⟨two, hangul, tail, hlen, hdigits, hhangul, htail, rfl⟩
    rw [afterRegion, List.take_left' hlen, List.drop_left' hlen, hdigits]
    simp [hhangul, htail]

/-- A plate that starts with a digit is read from the two digits on. -/
theorem is_valid_plate_digit {c : Char} {cs : List Char} (h : is_plate_digits [c] = true) :
    is_valid_plate (c :: cs) = afterRegion (c :: cs) := by
  show (if !is_plate_digits [c] then _ else afterRegion (c :: cs)) = _
  rw [h]
  rfl

/-- A plate that does not start with a digit is never accepted: a region is not two digits. -/
theorem is_valid_plate_not_digit {c : Char} {cs : List Char} (h : is_plate_digits [c] = false) :
    is_valid_plate (c :: cs) = some false := by
  show (if !is_plate_digits [c] then _ else _) = _
  rw [h]
  show (if !is_plate_region ((c :: cs).take 2) then _ else _) = _
  split_ifs
  · rfl
  · have hregion : is_plate_digits (((c :: cs).take 2).take 2) = false := by
      rw [List.take_take, min_self, List.take_succ_cons, ← Bool.not_eq_true, digits_cons, h]
      simp
    rw [afterRegion, hregion]
    rfl

section FirstCharacter

variable {c : Char} {cs : List Char}

theorem not_numbered (h : is_plate_digits [c] = false) (kind : List Char → Prop) :
    ¬ Numbered kind (c :: cs) := by
  intro hnumbered
  obtain ⟨c', cs', heq, hdigit⟩ := numbered_head hnumbered
  rw [(List.cons.inj heq).1, hdigit] at h
  cases h

/-- Without a digit in front only a region can be there, and its plate is misread. -/
theorem grammar_not_digit (h : is_plate_digits [c] = false) :
    Grammar (c :: cs) ↔ Misread (c :: cs) := by
  constructor
  · rintro ⟨region, number, rfl | hregion, hnumber, hplate⟩
    · rw [List.nil_append] at hplate
      rw [← hplate] at hnumber
      exact absurd hnumber (not_numbered h _)
    · exact .inr (.inl ⟨region, number, hregion, hnumber, hplate⟩)
  · rintro (⟨-, hdigits⟩ | ⟨region, number, hregion, hnumber, hplate⟩ | hfew)
    · rw [(digits_cons.mp hdigits).1] at h
      cases h
    · exact ⟨region, number, .inr hregion, hnumber, hplate⟩
    · exact absurd hfew (not_numbered h _)

theorem no_region (h : is_plate_digits [c] = true) {region : List Char} (number : List Char)
    (hregion : is_plate_region region = true) : c :: cs ≠ region ++ number := by
  intro heq
  obtain ⟨c', d, rfl, hdigit⟩ := region_cases hregion
  rw [← (List.cons.inj heq).1, h] at hdigit
  cases hdigit

theorem grammar_digit (h : is_plate_digits [c] = true) :
    Grammar (c :: cs) ↔ Numbered NumberEnd (c :: cs) := by
  constructor
  · rintro ⟨region, number, rfl | hregion, hnumber, hplate⟩
    · rw [hplate]
      exact hnumber
    · exact absurd hplate (no_region h number hregion)
  · intro hnumber
    exact ⟨[], c :: cs, .inl rfl, hnumber, rfl⟩

theorem misread_digit (h : is_plate_digits [c] = true) :
    Misread (c :: cs) ↔ afterRegion (c :: cs) = none ∨ Numbered FewDigits (c :: cs) := by
  rw [afterRegion_eq_none_iff]
  apply or_congr_right
  apply or_iff_right
  rintro ⟨region, number, hregion, -, hplate⟩
  exact no_region h number hregion hplate

end FirstCharacter

/-- A plate that is whole behind its two digits does not have too few. -/
theorem not_fewDigits {plate : List Char} (h : Numbered NumberEnd plate) :
    ¬ Numbered FewDigits plate := by
  intro hfew
  obtain ⟨tail, ⟨four, young, hlen, -, -, rfl⟩, hshort, -⟩ := numbered_unique h hfew
  rw [List.length_append] at hshort
  omega

/-- The validator ends and accepts exactly its grammar, if and only if the text is none of the
kinds it gets wrong. -/
theorem is_valid_plate_grammar_iff (plate : List Char) :
    (∃ valid, is_valid_plate plate = some valid ∧ (valid = true ↔ Grammar plate)) ↔
      ¬ Misread plate := by
  cases plate with
  | nil =>
    apply iff_of_false
    · rintro ⟨valid, h, -⟩
      cases h
    · exact not_not.mpr (.inl ⟨by decide, by decide⟩)
  | cons c cs =>
    cases hc : is_plate_digits [c] with
    | false =>
      rw [is_valid_plate_not_digit hc, ← grammar_not_digit hc]
      simp
    | true =>
      have htrue := afterRegion_eq_true_iff (c :: cs)
      simp only [afterHangul_iff, numbered_or] at htrue
      rw [is_valid_plate_digit hc, grammar_digit hc, misread_digit hc]
      constructor
      · rintro ⟨valid, hvalid, hiff⟩ (hraise | hfew)
        · rw [hraise] at hvalid
          cases hvalid
        · -- Accepted, so it would have to have four digits behind the hangul.
          obtain rfl : valid = true := Option.some.inj (hvalid.symm.trans (htrue.mpr (.inr hfew)))
          exact not_fewDigits (hiff.mp rfl) hfew
      · intro hnot
        cases hres : afterRegion (c :: cs) with
        | none => exact absurd (.inl hres) hnot
        | some valid =>
          refine ⟨valid, rfl, ?_⟩
          rw [← Option.some_inj, ← hres, htrue]
          exact or_iff_left fun hfew => hnot (.inr hfew)

/-- A whole plate with a region is refused, a plate without its number accepted, and the empty text
raises. -/
theorem is_valid_plate_off_grammar :
    (is_valid_plate "서울12가3456".toList = some false ∧ Grammar "서울12가3456".toList) ∧
      (is_valid_plate "12가".toList = some true ∧ ¬ Grammar "12가".toList) ∧
      is_valid_plate [] = none := by
  refine ⟨⟨by decide, ?_⟩, ⟨by decide, ?_⟩, rfl⟩
  · refine ⟨"서울".toList, "12가3456".toList, .inr (by decide), ?_, by decide⟩
    exact ⟨"12".toList, '가', "3456".toList, by decide, by decide, by decide,
      ⟨"3456".toList, [], by decide, by decide, .inl rfl, by decide⟩, by decide⟩
  · rintro ⟨region, number, -, ⟨two, hangul, tail, htwo, -, -, ⟨four, young, hfour, -, -, rfl⟩, rfl⟩,
      hplate⟩
    have hlen := congrArg List.length hplate
    have hthree : "12가".toList.length = 3 := by decide
    simp only [List.length_append, List.length_cons] at hlen
    omega

end VisionSensor.Validator
