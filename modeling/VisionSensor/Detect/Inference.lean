import Mathlib.Data.Rat.Floor
import VisionSensor.Detect.OccupancyTest
import VisionSensor.Detect.Suppression

/-! From the output of the network to the vehicle boxes `updateSpots` works with: the score threshold
of `detect`, the pixel boxes of `_predict`, the suppression, and the list that goes back to C++. -/
namespace VisionSensor
namespace Inference

/-- One row of `detection_boxes`, in parts of the image. -/
structure TfBox where
  ymin : ℚ
  xmin : ℚ
  ymax : ℚ
  xmax : ℚ

/-- What `sess.run` returns for one image; the tensors have one row for each detection. -/
structure NetworkOutput where
  boxes : List TfBox
  scores : List ℚ
  classes : List ℚ
  scores_aligned : scores.length = boxes.length
  classes_aligned : classes.length = boxes.length

structure Category where
  id : ℤ
  name : String

/-- The four lists `detect` returns. -/
structure Detections where
  boxes : List TfBox
  classes : List String
  labels : List ℤ
  scores : List ℚ

def model_confidence : ℚ := 3 / 10

/-- `picked_size`. -/
def NetworkOutput.picked_size (out : NetworkOutput) : ℕ :=
  (out.scores.filter fun x => x > model_confidence).length

/-- The category of a class, which the network returns as a float. -/
def categoryOf (category_index : List (ℤ × Category)) (k : ℚ) : Option Category :=
  (category_index.find? fun entry => (entry.1 : ℚ) = k).map Prod.snd

/-- `detect`; the network has run. A class without a category has the name `0` and the label 0. -/
def detect (category_index : List (ℤ × Category)) (out : NetworkOutput) : Detections where
  boxes := out.boxes.take out.picked_size
  classes := (out.classes.take out.picked_size).map fun k =>
    ((categoryOf category_index k).map Category.name).getD "0"
  labels := (out.classes.take out.picked_size).map fun k =>
    ((categoryOf category_index k).map Category.id).getD 0
  scores := out.scores.take out.picked_size

/-- `int` of a float. -/
def toInt (x : ℚ) : ℤ := if 0 ≤ x then ⌊x⌋ else ⌈x⌉

/-- `geo.Line(int(low * n), int(high * n))`; `none` is the failed assertion. The product is the one of
the floating point unit. -/
def pixelLine (mul : ℚ → ℕ → ℚ) (low high : ℚ) (n : ℕ) : Option Geo.Line :=
  if h : toInt (mul low n) ≤ toInt (mul high n) then some ⟨_, _, h⟩ else none

def pixelRect (mul : ℚ → ℕ → ℚ) (h w : ℕ) (tfbbox : TfBox) : Option Geo.Rect :=
  (pixelLine mul tfbbox.xmin tfbbox.xmax w).bind fun xline =>
    (pixelLine mul tfbbox.ymin tfbbox.ymax h).map fun yline => ⟨xline, yline⟩

/-- The loop of `_predict` from the index `id` on; `none` when an assertion fails or a list is too
short. -/
def predictFrom (mul : ℚ → ℕ → ℚ) (h w : ℕ) (d : Detections) : ℕ → List TfBox → Option (List BBox)
  | _, [] => some []
  | id, tfbbox :: rest => do
      let rect ← pixelRect mul h w tfbbox
      let conf ← d.scores[id]?
      let name ← d.classes[id]?
      let label ← d.labels[id]?
      let bboxes ← predictFrom mul h w d (id + 1) rest
      some (⟨rect, conf, name, label⟩ :: bboxes)

/-- `_predict` for an image of `h` rows and `w` columns. -/
def predict (mul : ℚ → ℕ → ℚ) (h w : ℕ) (d : Detections) : Option (List BBox) :=
  predictFrom mul h w d 0 d.boxes

/-- `get_plates`: the names and the boxes that are left. -/
def get_plates (bboxes : List BBox) (ios_threshold iou_threshold : ℚ) :
    Option (List String × List BBox) :=
  (FilterBBox.filter_bbox bboxes ios_threshold iou_threshold).map fun bboxes =>
    (bboxes.map BBox.name, bboxes)

/-- `localization`: the names, the error text and the boxes. -/
def localization (mul : ℚ → ℕ → ℚ) (h w : ℕ) (d : Detections) (l_ios l_iou : ℚ) :
    Option (List String × String × List BBox) :=
  (predict mul h w d).bind fun bboxes =>
    (if bboxes.length > 0 then get_plates bboxes l_ios l_iou else some ([], bboxes)).map
      fun (plateTypes, lBboxes) =>
        (plateTypes, if lBboxes.isEmpty then "LOC : Cannot fine any plates in a full image" else "",
          lBboxes)

/-- `roi` of a box, as the `cv::Rect` that is parsed from it. -/
def roi (r : Geo.Rect) : Rect := ⟨r.xline.low, r.yline.low, r.xline.length, r.yline.length⟩

/-- `call_localizer_vehicle` with its default thresholds: the names and the regions. The list of the
boxes that comes first in the error case is empty. -/
def call_localizer_vehicle (mul : ℚ → ℕ → ℚ) (h w : ℕ) (category_index : List (ℤ × Category))
    (out : NetworkOutput) : Option (List String × List Rect) :=
  (localization mul h w (detect category_index out) (3 / 10) (1 / 10)).map
    fun (plateType, lError, lBbox) =>
      if lError ≠ "" then ([], []) else (plateType, lBbox.map fun b => roi b.rect)

/-- The products of the floating point unit with `n`: rounding is monotone, and 0 and 1 are exact. -/
structure Rounds (mul : ℚ → ℕ → ℚ) (n : ℕ) : Prop where
  mono : ∀ {x y}, x ≤ y → mul x n ≤ mul y n
  zero : mul 0 n = 0
  one : mul 1 n = n

theorem toInt_mono {x y : ℚ} (h : x ≤ y) : toInt x ≤ toInt y := by
  unfold toInt
  split_ifs with hx hy hy
  · exact Int.floor_le_floor h
  · exact absurd (hx.trans h) hy
  · exact (Int.ceil_le.mpr (by simpa using (not_le.mp hx).le)).trans (Int.floor_nonneg.mpr hy)
  · exact Int.ceil_le_ceil h

theorem toInt_natCast (n : ℕ) : toInt n = n := by
  rw [toInt, if_pos (Nat.cast_nonneg n), Int.floor_natCast]

/-- A part of `0..1` becomes a pixel of `0..n`. -/
theorem toInt_mul {mul : ℚ → ℕ → ℚ} {n : ℕ} (hmul : Rounds mul n) {x : ℚ} (h0 : 0 ≤ x)
    (h1 : x ≤ 1) : 0 ≤ toInt (mul x n) ∧ toInt (mul x n) ≤ n := by
  constructor
  · have h := toInt_mono (hmul.mono h0)
    rwa [hmul.zero, ← Nat.cast_zero, toInt_natCast] at h
  · have h := toInt_mono (hmul.mono h1)
    rwa [hmul.one, toInt_natCast] at h

theorem pixelLine_eq_some {mul : ℚ → ℕ → ℚ} {low high : ℚ} {n : ℕ} {l : Geo.Line}
    (h : pixelLine mul low high n = some l) :
    l.low = toInt (mul low n) ∧ l.high = toInt (mul high n) := by
  unfold pixelLine at h
  split_ifs at h
  obtain rfl := Option.some.inj h
  exact ⟨rfl, rfl⟩

/-- The box lies in the image, with its ends in order. -/
structure TfBox.Normal (t : TfBox) : Prop where
  x : 0 ≤ t.xmin ∧ t.xmin ≤ t.xmax ∧ t.xmax ≤ 1
  y : 0 ≤ t.ymin ∧ t.ymin ≤ t.ymax ∧ t.ymax ≤ 1

theorem pixelLine_isSome {mul : ℚ → ℕ → ℚ} {low high : ℚ} {n : ℕ} (hmul : Rounds mul n)
    (h : low ≤ high) : (pixelLine mul low high n).isSome := by
  unfold pixelLine
  rw [dif_pos (toInt_mono (hmul.mono h))]
  rfl

theorem pixelRect_isSome {mul : ℚ → ℕ → ℚ} {h w : ℕ} (hw : Rounds mul w) (hh : Rounds mul h)
    {t : TfBox} (ht : t.Normal) : (pixelRect mul h w t).isSome := by
  obtain ⟨xline, hx⟩ := Option.isSome_iff_exists.mp (pixelLine_isSome hw ht.x.2.1)
  obtain ⟨yline, hy⟩ := Option.isSome_iff_exists.mp (pixelLine_isSome hh ht.y.2.1)
  simp [pixelRect, hx, hy]

/-- A region in an image of `h` rows and `w` columns. The ends of the lines are included, so it may
reach one pixel past the image. -/
structure InImage (h w : ℕ) (c : Rect) : Prop where
  width : 0 < c.width
  height : 0 < c.height
  left : 0 ≤ c.x
  top : 0 ≤ c.y
  right : c.x + c.width ≤ w + 1
  bottom : c.y + c.height ≤ h + 1

theorem roi_inImage {mul : ℚ → ℕ → ℚ} {h w : ℕ} (hw : Rounds mul w) (hh : Rounds mul h)
    {t : TfBox} (ht : t.Normal) {r : Geo.Rect} (hr : pixelRect mul h w t = some r) :
    InImage h w (roi r) := by
  obtain ⟨xline, hx, hr⟩ := Option.bind_eq_some_iff.mp hr
  obtain ⟨yline, hy, rfl⟩ := Option.map_eq_some_iff.mp hr
  have hxv := xline.valid
  have hyv := yline.valid
  obtain ⟨hxl, hxh⟩ := pixelLine_eq_some hx
  obtain ⟨hyl, hyh⟩ := pixelLine_eq_some hy
  have hleft := (toInt_mul hw ht.x.1 (ht.x.2.1.trans ht.x.2.2)).1
  have htop := (toInt_mul hh ht.y.1 (ht.y.2.1.trans ht.y.2.2)).1
  have hright := (toInt_mul hw (ht.x.1.trans ht.x.2.1) ht.x.2.2).2
  have hbottom := (toInt_mul hh (ht.y.1.trans ht.y.2.1) ht.y.2.2).2
  constructor <;> simp only [roi, Geo.Line.length] <;> omega

section Rows

variable {mul : ℚ → ℕ → ℚ} {h w : ℕ} {category_index : List (ℤ × Category)} {out : NetworkOutput}

/-- The box that row `i` of the output stands for. -/
structure RowBox (mul : ℚ → ℕ → ℚ) (h w : ℕ) (category_index : List (ℤ × Category))
    (out : NetworkOutput) (i : ℕ) (b : BBox) : Prop where
  rect : (out.boxes[i]?).bind (pixelRect mul h w) = some b.rect
  conf : out.scores[i]? = some b.conf
  name : (out.classes[i]?).map (fun k =>
    ((categoryOf category_index k).map Category.name).getD "0") = some b.name
  label : (out.classes[i]?).map (fun k =>
    ((categoryOf category_index k).map Category.id).getD 0) = some b.label

theorem RowBox.unique {i : ℕ} {b b' : BBox} (hb : RowBox mul h w category_index out i b)
    (hb' : RowBox mul h w category_index out i b') : b = b' := by
  have hrect := Option.some.inj (hb.rect.symm.trans hb'.rect)
  have hconf := Option.some.inj (hb.conf.symm.trans hb'.conf)
  have hname := Option.some.inj (hb.name.symm.trans hb'.name)
  have hlabel := Option.some.inj (hb.label.symm.trans hb'.label)
  cases b
  cases b'
  simp_all

theorem picked_size_le (out : NetworkOutput) : out.picked_size ≤ out.boxes.length := by
  have hle := List.length_filter_le (fun x => decide (x > model_confidence)) out.scores
  rwa [out.scores_aligned] at hle

/-- The loop of `_predict` makes the box of every row it comes to. -/
theorem predictFrom_spec {n : ℕ} {boxes : List TfBox} (hboxes : out.boxes.take n = boxes)
    (hn : out.picked_size = n) (id : ℕ) {rest : List TfBox} (hrest : boxes.drop id = rest)
    {bboxes : List BBox}
    (hp : predictFrom mul h w (detect category_index out) id rest = some bboxes) :
    bboxes.length = rest.length ∧
      ∀ k b, bboxes[k]? = some b → RowBox mul h w category_index out (id + k) b := by
  induction rest generalizing id bboxes with
  | nil =>
    obtain rfl := Option.some.inj hp
    exact ⟨rfl, fun k b hb => by simp at hb⟩
  | cons t rest ih =>
    simp only [predictFrom, Option.bind_eq_bind, Option.bind_eq_some_iff] at hp
    obtain ⟨rect, hrect, conf, hconf, name, hname, label, hlabel, bs, hbs, hres⟩ := hp
    obtain rfl := Option.some.inj hres
    have hnext : boxes.drop (id + 1) = rest := by
      rw [← List.drop_drop, hrest]
      rfl
    obtain ⟨hlen, hall⟩ := ih (id + 1) hnext hbs
    refine ⟨by simp [hlen], fun k b hb => ?_⟩
    cases k with
    | succ k =>
      rw [Nat.add_comm k 1, ← Nat.add_assoc]
      exact hall k b hb
    | zero =>
      obtain rfl := Option.some.inj hb
      have ht : boxes[id]? = some t := by
        rw [← List.head?_drop, hrest]
        rfl
      simp only [detect, hn] at hconf hname hlabel
      rw [← hboxes, List.getElem?_take] at ht
      rw [List.getElem?_take] at hconf
      rw [List.getElem?_map, List.getElem?_take] at hname hlabel
      split_ifs at ht hconf hname hlabel
      exact ⟨by simp [ht, hrect], hconf, hname, hlabel⟩

/-- The four lists of `detect` have the same length. -/
theorem detect_aligned (category_index : List (ℤ × Category)) (out : NetworkOutput) :
    (detect category_index out).boxes.length = out.picked_size ∧
      (detect category_index out).classes.length = out.picked_size ∧
      (detect category_index out).labels.length = out.picked_size ∧
      (detect category_index out).scores.length = out.picked_size := by
  have hle := picked_size_le out
  simp only [detect, List.length_take, List.length_map, out.scores_aligned, out.classes_aligned,
    min_eq_left hle, and_self]

/-- So the only exception of `_predict` is the assertion of a line. -/
theorem predictFrom_isSome {d : Detections} (id : ℕ) (rest : List TfBox)
    (hscores : id + rest.length ≤ d.scores.length) (hclasses : id + rest.length ≤ d.classes.length)
    (hlabels : id + rest.length ≤ d.labels.length) :
    (predictFrom mul h w d id rest).isSome ↔ ∀ t ∈ rest, (pixelRect mul h w t).isSome := by
  induction rest generalizing id with
  | nil => simp [predictFrom]
  | cons t rest ih =>
    rw [List.length_cons, Nat.add_comm rest.length 1, ← Nat.add_assoc] at hscores hclasses hlabels
    have hrest := ih (id + 1) hscores hclasses hlabels
    have hid : d.scores[id]? = some d.scores[id] := List.getElem?_eq_getElem (by omega)
    have hname : d.classes[id]? = some d.classes[id] := List.getElem?_eq_getElem (by omega)
    have hlabel : d.labels[id]? = some d.labels[id] := List.getElem?_eq_getElem (by omega)
    rw [List.forall_mem_cons, ← hrest, predictFrom, hid, hname, hlabel]
    cases pixelRect mul h w t with
    | none => simp
    | some rect => cases predictFrom mul h w d (id + 1) rest <;> simp

theorem predict_isSome_iff :
    (predict mul h w (detect category_index out)).isSome ↔
      ∀ t ∈ out.boxes.take out.picked_size, (pixelRect mul h w t).isSome := by
  obtain ⟨hboxes, hclasses, hlabels, hscores⟩ := detect_aligned category_index out
  unfold predict
  rw [predictFrom_isSome 0 _ (by omega) (by omega) (by omega)]
  rfl

theorem predict_spec {bboxes : List BBox}
    (hp : predict mul h w (detect category_index out) = some bboxes) :
    bboxes.length = out.picked_size ∧
      ∀ i b, bboxes[i]? = some b ↔ i < out.picked_size ∧ RowBox mul h w category_index out i b := by
  obtain ⟨hlen, hall⟩ := predictFrom_spec rfl rfl 0 (List.drop_zero ..) hp
  rw [List.length_take, min_eq_left (picked_size_le out)] at hlen
  refine ⟨hlen, fun i b => ⟨fun hb => ?_, fun ⟨hi, hb⟩ => ?_⟩⟩
  · have hi : i < bboxes.length := (List.getElem?_eq_some_iff.mp hb).1
    rw [hlen] at hi
    have hrow := hall i b hb
    rw [Nat.zero_add] at hrow
    exact ⟨hi, hrow⟩
  · have hi' : bboxes[i]? = some bboxes[i] := List.getElem?_eq_getElem (by omega)
    have hrow := hall i _ hi'
    rw [Nat.zero_add] at hrow
    rw [hi', hrow.unique hb]

end Rows

/-- No detection at or below the threshold comes before one above it. The network sorts by score. -/
def NetworkOutput.Leading (out : NetworkOutput) : Prop :=
  out.scores.Pairwise fun a b => model_confidence < b → model_confidence < a

/-- In a list whose members with a property come first, these are the first ones. -/
theorem lt_length_filter_iff {α : Type*} {p : α → Bool} {l : List α}
    (hl : l.Pairwise fun a b => p b → p a) {i : ℕ} {x : α} (hx : l[i]? = some x) :
    i < (l.filter p).length ↔ p x := by
  induction l generalizing i with
  | nil => simp at hx
  | cons a l ih =>
    obtain ⟨ha, hl⟩ := List.pairwise_cons.mp hl
    cases hp : p a with
    | true =>
      rw [List.filter_cons_of_pos hp, List.length_cons]
      cases i with
      | zero =>
        obtain rfl := Option.some.inj hx
        simp [hp]
      | succ i =>
        rw [Nat.add_lt_add_iff_right]
        exact ih hl hx
    | false =>
      have hnone : ∀ y ∈ a :: l, p y = false := by
        intro y hy
        rcases List.mem_cons.mp hy with rfl | hy
        · exact hp
        · by_contra hpy
          rw [ha y hy (by simpa using hpy)] at hp
          cases hp
      have hfilter : (a :: l).filter p = [] := by
        rw [List.filter_eq_nil_iff]
        intro y hy
        simp [hnone y hy]
      rw [hfilter, hnone x (List.mem_of_getElem? hx)]
      simp

/-- Of an output that is sorted, `detect` picks the detections above the threshold. -/
theorem lt_picked_size_iff {out : NetworkOutput} (hout : out.Leading) {i : ℕ} {x : ℚ}
    (hx : out.scores[i]? = some x) : i < out.picked_size ↔ model_confidence < x := by
  have hl : out.scores.Pairwise fun a b =>
      decide (b > model_confidence) = true → decide (a > model_confidence) = true := by
    simpa [NetworkOutput.Leading] using hout
  unfold NetworkOutput.picked_size
  simpa using lt_length_filter_iff hl hx

section Suppress

open FilterBBox

/-- Both filters together drop no box without another one that overlaps it too much and does not rank
below it. Boxes are told apart by their position. -/
theorem filter_bbox_cause (bboxes : List BBox) (ios_threshold iou_threshold : ℚ) :
    ∃ kept : List (Fin bboxes.length),
      filter_bbox bboxes ios_threshold iou_threshold = some (kept.map bboxes.get) ∧
        (bboxes ≠ [] → kept ≠ []) ∧
          ∀ i ∉ kept, ∃ j ≠ i, rank (bboxes.get i) ≤ rank (bboxes.get j) ∧
            (iou_threshold ≤ Geo.rect_iou (bboxes.get i).rect (bboxes.get j).rect ∨
              ios_threshold ≤ Geo.rect_ios (bboxes.get i).rect (bboxes.get j).rect) := by
  obtain ⟨left, order, first, hleft, dleft⟩ :=
    filterBy_drops_with_cause Geo.rect_iou_comm iou_threshold bboxes
  obtain ⟨res, order', second, hres, dres⟩ :=
    filterBy_drops_with_cause Geo.rect_ios_comm ios_threshold left
  have hnodup : first.Nodup :=
    (dleft.stable.perm.nodup_iff.mpr (List.nodup_finRange _)).sublist dleft.sublist
  obtain rfl := dleft.result
  have hlen : (first.map bboxes.get).length = first.length := List.length_map _
  -- a position in the list between the filters, as a position in the input
  have hget : ∀ q : Fin (first.map bboxes.get).length,
      (first.map bboxes.get).get q = bboxes.get (first.get (q.cast hlen)) := by
    intro q
    simp
  refine ⟨second.map fun q => first.get (q.cast hlen), ?_, fun hne => ?_, fun i hi => ?_⟩
  · unfold filter_bbox filter_bbox_iou filter_bbox_ios
    rw [hleft, Option.bind_some, hres, dres.result, List.map_map]
    exact congrArg some (List.map_congr_left fun q _ => hget q)
  · have hresne := dres.nonempty (dleft.nonempty hne)
    rw [dres.result] at hresne
    simpa using hresne
  · by_cases hfirst : i ∈ first
    · obtain ⟨p, rfl⟩ := List.get_of_mem hfirst
      have hp : p.cast hlen.symm ∉ second := fun hp => hi (List.mem_map.mpr ⟨_, hp, rfl⟩)
      obtain ⟨q, hne, hover, hrank⟩ := dres.cause _ hp
      rw [hget, hget] at hover hrank
      refine ⟨first.get (q.cast hlen), fun heq => hne ?_, hrank, .inr hover⟩
      have hval : q.val = p.val := congrArg Fin.val (hnodup.get_inj_iff.mp heq)
      exact Fin.ext hval
    · obtain ⟨j, hne, hover, hrank⟩ := dleft.cause i hfirst
      exact ⟨j, hne, hrank, .inl hover⟩

end Suppress

section Vehicles

variable (mul : ℚ → ℕ → ℚ) (h w : ℕ) (category_index : List (ℤ × Category)) (out : NetworkOutput)

/-- Row `i` is a detection above the threshold, and `b` its box. -/
def Scored (i : ℕ) (b : BBox) : Prop :=
  RowBox mul h w category_index out i b ∧ model_confidence < b.conf

/-- Two boxes that one of the filters does not keep side by side. -/
def Clash (b b' : BBox) : Prop :=
  1 / 10 ≤ Geo.rect_iou b.rect b'.rect ∨ 3 / 10 ≤ Geo.rect_ios b.rect b'.rect

/-- A detection that no other one takes the place of. -/
def Unrivalled (i : ℕ) (b : BBox) : Prop :=
  Scored mul h w category_index out i b ∧
    ∀ j b', j ≠ i → Scored mul h w category_index out j b' → Clash b b' →
      FilterBBox.rank b' < FilterBBox.rank b

/-- What the list of regions that goes back to C++ has to do with the output of the network. -/
structure Vehicles (types : List String) (car : List Rect) : Prop where
  paired : types.length = car.length
  inside : ∀ c ∈ car, InImage h w c
  scored : ∀ (k : ℕ) c name, car[k]? = some c → types[k]? = some name →
    ∃ i b, Scored mul h w category_index out i b ∧ roi b.rect = c ∧ b.name = name
  unrivalled : ∀ i b, Unrivalled mul h w category_index out i b → roi b.rect ∈ car
  empty : car = [] ↔ ∀ x ∈ out.scores, x ≤ model_confidence

variable {mul h w category_index out}

/-- The boxes of an output in order are those of the detections above the threshold. -/
theorem predict_scored (hout : out.Leading) {bboxes : List BBox}
    (hp : predict mul h w (detect category_index out) = some bboxes) (i : ℕ) (b : BBox) :
    bboxes[i]? = some b ↔ Scored mul h w category_index out i b := by
  rw [(predict_spec hp).2]
  constructor
  · rintro ⟨hi, hrow⟩
    exact ⟨hrow, (lt_picked_size_iff hout hrow.conf).mp hi⟩
  · rintro ⟨hrow, hconf⟩
    exact ⟨(lt_picked_size_iff hout hrow.conf).mpr hconf, hrow⟩

theorem picked_size_eq_zero_iff (out : NetworkOutput) :
    out.picked_size = 0 ↔ ∀ x ∈ out.scores, x ≤ model_confidence := by
  unfold NetworkOutput.picked_size
  rw [List.length_eq_zero_iff, List.filter_eq_nil_iff]
  simp only [gt_iff_lt, decide_eq_true_eq, not_lt]

/-- What `call_localizer_vehicle` returns once `_predict` has made the boxes. -/
theorem call_localizer_vehicle_eq {bboxes : List BBox}
    (hp : predict mul h w (detect category_index out) = some bboxes) {kept : List BBox}
    (hkept : FilterBBox.filter_bbox bboxes (3 / 10) (1 / 10) = some kept) :
    call_localizer_vehicle mul h w category_index out =
      some (kept.map BBox.name, kept.map fun b => roi b.rect) := by
  unfold call_localizer_vehicle localization get_plates
  rw [hp, Option.bind_some, hkept]
  cases bboxes with
  | nil =>
    obtain rfl : kept = [] := List.eq_nil_of_subset_nil (FilterBBox.filter_bbox_subset hkept)
    rfl
  | cons b bs => simp

/-- The images of the detections above the threshold that the filters keep. -/
theorem vehicles_of_kept (hw : Rounds mul w) (hh : Rounds mul h) (hout : out.Leading)
    (hnormal : ∀ t ∈ out.boxes, t.Normal) {bboxes : List BBox}
    (hp : predict mul h w (detect category_index out) = some bboxes)
    {kept : List (Fin bboxes.length)} (hne : bboxes ≠ [] → kept ≠ [])
    (hcause : ∀ i ∉ kept, ∃ j ≠ i,
      FilterBBox.rank (bboxes.get i) ≤ FilterBBox.rank (bboxes.get j) ∧
        Clash (bboxes.get i) (bboxes.get j)) :
    Vehicles mul h w category_index out ((kept.map bboxes.get).map BBox.name)
      ((kept.map bboxes.get).map fun b => roi b.rect) := by
  have hscored : ∀ q : Fin bboxes.length, Scored mul h w category_index out q (bboxes.get q) :=
    fun q => (predict_scored hout hp q _).mp (by simp)
  constructor
  · simp
  · intro c hc
    obtain ⟨b, hb, rfl⟩ := List.mem_map.mp hc
    obtain ⟨q, -, rfl⟩ := List.mem_map.mp hb
    obtain ⟨t, ht, hrect⟩ := Option.bind_eq_some_iff.mp (hscored q).1.rect
    exact roi_inImage hw hh (hnormal t (List.mem_of_getElem? ht)) hrect
  · intro k c name hc hname
    rw [List.getElem?_map, List.getElem?_map] at hc hname
    cases hq : kept[k]? with
    | none => simp [hq] at hc
    | some q =>
      rw [hq] at hc hname
      exact ⟨q, _, hscored q, Option.some.inj hc, Option.some.inj hname⟩
  · rintro i b ⟨hb, hbest⟩
    obtain ⟨hi, rfl⟩ := List.getElem?_eq_some_iff.mp ((predict_scored hout hp i b).mpr hb)
    have hmem : (⟨i, hi⟩ : Fin bboxes.length) ∈ kept := by
      by_contra hdropped
      obtain ⟨j, hj, hrank, hclash⟩ := hcause _ hdropped
      refine absurd hrank (not_le.mpr (hbest j _ (fun hji => hj (Fin.ext hji)) (hscored j) hclash))
    exact List.mem_map.mpr ⟨_, List.mem_map_of_mem hmem, rfl⟩
  · rw [← picked_size_eq_zero_iff, ← (predict_spec hp).1, List.length_eq_zero_iff]
    simp only [List.map_eq_nil_iff]
    constructor
    · intro hkept
      by_contra hbboxes
      exact hne hbboxes hkept
    · rintro rfl
      exact List.eq_nil_iff_forall_not_mem.mpr fun q _ => q.elim0

/-- `call_localizer_vehicle` does not fail on boxes in the image. -/
theorem call_vehicles (hw : Rounds mul w) (hh : Rounds mul h) (hout : out.Leading)
    (hnormal : ∀ t ∈ out.boxes, t.Normal) :
    ∃ types car, call_localizer_vehicle mul h w category_index out = some (types, car) ∧
      Vehicles mul h w category_index out types car := by
  have hsome : (predict mul h w (detect category_index out)).isSome := by
    rw [predict_isSome_iff]
    exact fun t ht => pixelRect_isSome hw hh (hnormal t (List.mem_of_mem_take ht))
  obtain ⟨bboxes, hp⟩ := Option.isSome_iff_exists.mp hsome
  obtain ⟨kept, hkept, hne, hcause⟩ := filter_bbox_cause bboxes (3 / 10) (1 / 10)
  have hcause' : ∀ i ∉ kept, ∃ j ≠ i,
      FilterBBox.rank (bboxes.get i) ≤ FilterBBox.rank (bboxes.get j) ∧
        Clash (bboxes.get i) (bboxes.get j) := hcause
  exact ⟨_, _, call_localizer_vehicle_eq hp hkept,
    vehicles_of_kept hw hh hout hnormal hp hne hcause'⟩

section Spot

variable {types : List String} {car : List Rect} {ROI : Rect}

/-- A spot is found occupied because of one detection. -/
theorem Vehicles.fills_scored (hv : Vehicles mul h w category_index out types car)
    (hROI : 0 < ROI.area) (hoccupied : (localizer_detect car ROI).1 = true) :
    ∃ i b, Scored mul h w category_index out i b ∧
      (localizer_detect [roi b.rect] ROI).1 = true := by
  rw [localizer_detect_any hROI, List.any_eq_true] at hoccupied
  obtain ⟨c, hc, halone⟩ := hoccupied
  obtain ⟨k, hk⟩ := List.getElem?_of_mem hc
  have hlt := (List.getElem?_eq_some_iff.mp hk).1
  rw [← hv.paired] at hlt
  obtain ⟨i, b, hb, rfl, -⟩ := hv.scored k c _ hk (List.getElem?_eq_getElem hlt)
  exact ⟨i, b, hb, halone⟩

theorem Vehicles.fills_unrivalled (hv : Vehicles mul h w category_index out types car)
    (hROI : 0 < ROI.area) {i : ℕ} {b : BBox} (hb : Unrivalled mul h w category_index out i b)
    (halone : (localizer_detect [roi b.rect] ROI).1 = true) :
    (localizer_detect car ROI).1 = true := by
  rw [localizer_detect_any hROI, List.any_eq_true]
  exact ⟨_, hv.unrivalled i b hb, halone⟩

end Spot

/-- From the network to the occupancy test: `call_localizer_vehicle` does not fail, its regions are
those of detections above the threshold, and a spot is found occupied only by one of these alone, and
always by one that no other detection takes the place of. -/
theorem occupancy_of_network (hw : Rounds mul w) (hh : Rounds mul h) (hout : out.Leading)
    (hnormal : ∀ t ∈ out.boxes, t.Normal) :
    ∃ types car, call_localizer_vehicle mul h w category_index out = some (types, car) ∧
      Vehicles mul h w category_index out types car ∧
        ∀ ROI : Rect, 0 < ROI.area →
          ((localizer_detect car ROI).1 = true → ∃ i b, Scored mul h w category_index out i b ∧
            (localizer_detect [roi b.rect] ROI).1 = true) ∧
          ∀ i b, Unrivalled mul h w category_index out i b →
            (localizer_detect [roi b.rect] ROI).1 = true → (localizer_detect car ROI).1 = true := by
  obtain ⟨types, car, hcall, hv⟩ := call_vehicles hw hh hout hnormal
  exact ⟨types, car, hcall, hv, fun ROI hROI =>
    ⟨hv.fills_scored hROI, fun i b hb => hv.fills_unrivalled hROI hb⟩⟩

/-- Exact products. -/
theorem rounds_mul (n : ℕ) : Rounds (fun x n => x * n) n where
  mono h := mul_le_mul_of_nonneg_right h (Nat.cast_nonneg n)
  zero := zero_mul _
  one := one_mul _

/-- One car above the threshold and one below it. -/
def twoCars : NetworkOutput where
  boxes := [⟨1 / 4, 1 / 4, 3 / 4, 1 / 2⟩, ⟨0, 1 / 2, 1, 1⟩]
  scores := [9 / 10, 1 / 5]
  classes := [1, 3]
  scores_aligned := rfl
  classes_aligned := rfl

/-- The car above the threshold stands on the spot. -/
theorem occupancy_of_network_twoCars :
    ∃ types car, call_localizer_vehicle (fun x n => x * n) 480 640 [(1, ⟨1, "car"⟩)] twoCars =
        some (types, car) ∧
      Vehicles (fun x n => x * n) 480 640 [(1, ⟨1, "car"⟩)] twoCars types car ∧
        (localizer_detect car ⟨150, 130, 180, 220⟩).1 = true := by
  have hnormal : ∀ t ∈ twoCars.boxes, t.Normal := by
    simp only [twoCars, List.forall_mem_cons]
    refine ⟨⟨?_, ?_⟩, ⟨?_, ?_⟩, by simp⟩ <;> norm_num
  have hleading : twoCars.Leading := by
    simp [twoCars, NetworkOutput.Leading, model_confidence]
    norm_num
  obtain ⟨types, car, hcall, hv, hspot⟩ := @occupancy_of_network _ 480 640 [(1, ⟨1, "car"⟩)] twoCars
    (rounds_mul 640) (rounds_mul 480) hleading hnormal
  have hfirst : Scored (fun x n => x * n) 480 640 [(1, ⟨1, "car"⟩)] twoCars 0
      ⟨⟨⟨160, 320, by decide⟩, ⟨120, 360, by decide⟩⟩, 9 / 10, "car", 1⟩ := by
    refine ⟨⟨?_, rfl, ?_, ?_⟩, ?_⟩
    · norm_num [twoCars, pixelRect, pixelLine, toInt]
    · simp [twoCars, categoryOf]
    · simp [twoCars, categoryOf]
    · norm_num [model_confidence]
  refine ⟨types, car, hcall, hv, (hspot _ (by decide)).2 0 _ ⟨hfirst, fun j b' hj hb' _ => ?_⟩
    (by decide +kernel)⟩
  -- the other car is below the threshold
  exfalso
  have hscores : ∀ k, twoCars.scores[k + 1]? = some b'.conf → b'.conf = 1 / 5 := by
    rintro (_ | k) hk
    · exact (Option.some.inj hk).symm
    · simp [twoCars] at hk
  obtain ⟨k, rfl⟩ := Nat.exists_eq_succ_of_ne_zero hj
  have hlow := hb'.2
  rw [hscores k hb'.1.conf, model_confidence] at hlow
  norm_num at hlow

end Vehicles

end Inference
end VisionSensor
