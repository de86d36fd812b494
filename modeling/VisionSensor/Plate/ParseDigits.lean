import Mathlib.Data.Rat.Floor
import VisionSensor.Detect.FilterBBox

/-! The digits of a number plate: the tables of `tfutils`, and `parse_digits`, which puts the
recognised digit boxes in reading order. Texts are lists of characters. -/
namespace VisionSensor.Plate

def PLATE_DIGITS : List Char := ['1', '2', '3', '4', '5', '6', '7', '8', '9', '0']

def PLATE_REGIONS : List String :=
  ["서울", "대구", "광주", "울산", "경기", "충북", "전북", "경북", "제주", "부산", "인천", "대전",
    "세종", "강원", "충남", "전남", "경남"]

def PLATE_MID_HANGULS : List String :=
  ["가", "나", "다", "라", "마", "바", "사", "아", "자", "차", "카", "타", "파", "하",
    "거", "너", "더", "러", "머", "버", "서", "어", "저", "처", "커", "터", "퍼", "허",
    "고", "노", "도", "로", "모", "보", "소", "오", "조", "초", "코", "토", "포", "호",
    "구", "누", "두", "루", "무", "부", "수", "우", "주", "추", "쿠", "투", "푸", "후",
    "배", "-", "크"]

def PLATE_YOUNG : String := "영"

def is_plate_region (region : String) : Bool := PLATE_REGIONS.contains region

/-- Every character is a digit; so is the empty name. -/
def is_plate_digits (digits : String) : Bool := digits.toList.all PLATE_DIGITS.contains

def is_plate_mid_hangul (hangul : String) : Bool := PLATE_MID_HANGULS.contains hangul

def is_plate_young (hangul : String) : Bool := hangul == PLATE_YOUNG

/-- `l[-n:]`; the slice `l[-0:]` is the whole list. -/
def takeLast {α : Type} (n : ℕ) (l : List α) : List α :=
  if n = 0 then l else l.drop (l.length - n)

/-- `int(round(q))`, which rounds a half to the even side. -/
def round (q : ℚ) : ℤ :=
  let n := (q + 1 / 2).floor
  if (n : ℚ) = q + 1 / 2 ∧ n % 2 = 1 then n - 1 else n

/-- `Line.center`. -/
def center (l : Geo.Line) : ℚ := (l.high + l.low) / 2

/-- The sort by `BBox.ycmp`; it is stable, as that by `BBox.xcmp`. -/
def sortByY (bboxes : List BBox) : List BBox :=
  bboxes.insertionSort fun a b => a.rect.yline.low ≤ b.rect.yline.low

/-- The sort by `BBox.confcmp`. -/
def sortByConf (bboxes : List BBox) : List BBox :=
  bboxes.insertionSort fun a b => a.conf ≤ b.conf

/-- The digits `parse_digits` goes on with, at most six. -/
def chosenDigits (digit_bboxes : List BBox) : List BBox :=
  sortByY (if digit_bboxes.length < 6 then takeLast digit_bboxes.length (sortByConf digit_bboxes)
    else if digit_bboxes.length > 6 then takeLast 6 (sortByConf digit_bboxes)
    else digit_bboxes)

def mid_Y (digit_bboxes : List BBox) (h : digit_bboxes ≠ []) : ℤ :=
  let top_Y := (digit_bboxes.head h).rect.yline.low
  let bottom_Y := (digit_bboxes.getLast h).rect.yline.high
  round ((top_Y + bottom_Y) / 2 : ℚ)

def lowerCnt (digit_bboxes : List BBox) (h : digit_bboxes ≠ []) : ℕ :=
  digit_bboxes.countP fun box => box.rect.yline.high > mid_Y digit_bboxes h

/-- How many boxes have the centre of `box` strictly inside their y range. -/
def yoverlaps (box : BBox) (digit_bboxes : List BBox) : ℕ :=
  digit_bboxes.countP fun b =>
    round (center box.rect.yline) > b.rect.yline.low ∧
      round (center box.rect.yline) < b.rect.yline.high

def yoverlapcnt (digit_bboxes : List BBox) : ℕ :=
  ((digit_bboxes.take 2).map fun box => yoverlaps box digit_bboxes).sum

def top_yoverlapcnt (digit_bboxes : List BBox) (h : digit_bboxes ≠ []) : ℕ :=
  yoverlaps (digit_bboxes.head h) digit_bboxes

theorem ne_nil_of_long {α : Type} {l : List α} (h : ¬ l.length ≤ 4) : l ≠ [] := by
  rintro rfl
  simp at h

/-- The first and the second row, and `is_old_plate`. The count of overlaps in x direction is
never used. -/
def splitRows (digit_bboxes : List BBox) : List BBox × List BBox × Bool :=
  if hlen : digit_bboxes.length ≤ 4 then (FilterBBox.sortByX digit_bboxes, [], false)
  else if lowerCnt digit_bboxes (ne_nil_of_long hlen) ≥ 5 ∧ yoverlapcnt digit_bboxes ≥ 8 then
    (digit_bboxes, [], false)
  else if top_yoverlapcnt digit_bboxes (ne_nil_of_long hlen) = 1 then
    (digit_bboxes.take 1, digit_bboxes.drop 1, true)
  else (digit_bboxes.take 2, digit_bboxes.drop 2, false)

/-- `''.join([bbox.name for bbox in bboxes])`. -/
def joinNames (bboxes : List BBox) : List Char := bboxes.flatMap fun bbox => bbox.name.toList

/-- What `parse_digits` returns. -/
structure Digits where
  digit_string : List Char
  valid_digit_boxes : List BBox
  is_old_plate : Bool

def parse_digits (digit_bboxes : List BBox) : Digits :=
  let (first_row_boxes, second_row_boxes, is_old_plate) := splitRows (chosenDigits digit_bboxes)
  let first_row_boxes := FilterBBox.sortByX first_row_boxes
  let second_row_boxes := FilterBBox.sortByX second_row_boxes
  ⟨joinNames first_row_boxes ++ joinNames second_row_boxes, first_row_boxes ++ second_row_boxes,
    is_old_plate⟩

/-- At least five digits, not on one line, and the centre of the uppermost lies in the y range of
exactly one of them, be it its own or not: what sets the flag `is_old_plate`. -/
def OldPlate (digit_bboxes : List BBox) : Prop :=
  5 ≤ digit_bboxes.length ∧ ∃ h, ¬ (lowerCnt digit_bboxes h ≥ 5 ∧ yoverlapcnt digit_bboxes ≥ 8) ∧
    top_yoverlapcnt digit_bboxes h = 1

theorem takeLast_subset {α : Type} (n : ℕ) (l : List α) : takeLast n l ⊆ l := by
  unfold takeLast
  split_ifs
  · exact List.Subset.refl l
  · exact List.drop_subset _ _

theorem length_takeLast {α : Type} {n : ℕ} {l : List α} (h : n ≤ l.length) (h0 : n = 0 → l = []) :
    (takeLast n l).length = n := by
  unfold takeLast
  split_ifs with hn
  · simp [h0 hn, hn]
  · rw [List.length_drop]
    omega

theorem mem_chosenDigits {digit_bboxes : List BBox} {b : BBox} (h : b ∈ chosenDigits digit_bboxes) :
    b ∈ digit_bboxes := by
  have hconf : ∀ n, b ∈ takeLast n (sortByConf digit_bboxes) → b ∈ digit_bboxes := by
    intro n hb
    exact (List.mem_insertionSort _).mp (takeLast_subset _ _ hb)
  unfold chosenDigits sortByY at h
  rw [List.mem_insertionSort] at h
  split_ifs at h
  · exact hconf _ h
  · exact hconf _ h
  · exact h

theorem length_chosenDigits (digit_bboxes : List BBox) :
    (chosenDigits digit_bboxes).length = min 6 digit_bboxes.length := by
  have hconf : (sortByConf digit_bboxes).length = digit_bboxes.length :=
    List.length_insertionSort _ _
  unfold chosenDigits sortByY
  rw [List.length_insertionSort]
  split_ifs with h h'
  · rw [length_takeLast hconf.ge, min_eq_right (by omega)]
    intro h0
    rw [← List.length_eq_zero_iff, hconf, h0]
  · rw [length_takeLast (by omega) (by omega)]
    omega
  · omega

/-- The rows hold the digits between them. -/
theorem splitRows_perm (digit_bboxes : List BBox) :
    ((splitRows digit_bboxes).1 ++ (splitRows digit_bboxes).2.1).Perm digit_bboxes := by
  unfold splitRows
  split_ifs
  · rw [List.append_nil]
    exact List.perm_insertionSort _ _
  · rw [List.append_nil]
  · rw [List.take_append_drop]
  · rw [List.take_append_drop]

theorem splitRows_old {digit_bboxes : List BBox} :
    (splitRows digit_bboxes).2.2 = true ↔ OldPlate digit_bboxes := by
  unfold splitRows OldPlate
  split_ifs with hlen hline htop
  · exact iff_of_false (by simp) fun h => by omega
  · exact iff_of_false (by simp) fun ⟨_, _, hnot, _⟩ => hnot hline
  · exact iff_of_true rfl ⟨by omega, _, hline, htop⟩
  · exact iff_of_false (by simp) fun ⟨_, _, _, h⟩ => htop h

theorem parse_digits_old {digit_bboxes : List BBox} :
    (parse_digits digit_bboxes).is_old_plate = true ↔ OldPlate (chosenDigits digit_bboxes) :=
  splitRows_old

theorem valid_digit_boxes_perm (digit_bboxes : List BBox) :
    (parse_digits digit_bboxes).valid_digit_boxes.Perm (chosenDigits digit_bboxes) :=
  ((List.perm_insertionSort _ _).append (List.perm_insertionSort _ _)).trans
    (splitRows_perm (chosenDigits digit_bboxes))

theorem digit_string_eq (digit_bboxes : List BBox) :
    (parse_digits digit_bboxes).digit_string =
      joinNames (parse_digits digit_bboxes).valid_digit_boxes := by
  show joinNames _ ++ joinNames _ = joinNames (_ ++ _)
  unfold joinNames
  rw [List.flatMap_append]

theorem length_joinNames {bboxes : List BBox} (h : ∀ b ∈ bboxes, b.name.length = 1) :
    (joinNames bboxes).length = bboxes.length := by
  induction bboxes with
  | nil => rfl
  | cons b bs ih =>
    have hb := h b List.mem_cons_self
    have hbs := ih fun b' hb' => h b' (List.mem_cons_of_mem b hb')
    unfold joinNames at hbs ⊢
    rw [List.flatMap_cons, List.length_append, hbs, String.length_toList, hb, List.length_cons]
    omega

/-- With names of one character, the digit string has one for each digit that is kept. -/
theorem length_digit_string {digit_bboxes : List BBox}
    (h : ∀ b ∈ digit_bboxes, b.name.length = 1) :
    (parse_digits digit_bboxes).digit_string.length = min 6 digit_bboxes.length := by
  have hperm := valid_digit_boxes_perm digit_bboxes
  rw [digit_string_eq, length_joinNames, hperm.length_eq, length_chosenDigits]
  intro b hb
  exact h b (mem_chosenDigits (hperm.mem_iff.mp hb))

end VisionSensor.Plate
