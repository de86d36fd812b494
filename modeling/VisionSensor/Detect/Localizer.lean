import Mathlib.Data.Rat.Defs
import Mathlib.Algebra.Order.Ring.Rat
import VisionSensor.Lib.FirstMax
import VisionSensor.Spot.Observation

/-! The occupancy test of a parking spot against the vehicle boxes of one frame, and the pass of
`updateSpots` over all spots. Arithmetic is exact. -/
namespace VisionSensor

/-- The length two lines have in common as `localizer_detect` computes it, the line of the spot
first. The branches are those of `xline`, and `yline` has the same ones. -/
def lineOverlap (start length carStart carLength : ℤ) : Option ℤ :=
  if start > carStart ∧ start < carStart + carLength then some (carStart + carLength - start)
  else if carStart > start ∧ carStart < start + length then some (start + length - carStart)
  else if start > carStart ∧ start + length < carStart + carLength then some length
  else if carStart > start ∧ carStart + carLength < start + length then some carLength
  else none

/-- `size_inter` for one vehicle box; `none` where the loop body is left by `continue`. -/
def size_inter (ROI car : Rect) : Option ℤ :=
  let size_com : ℚ := car.area / ROI.area
  if size_com < 2 / 5 ∨ size_com > 3 / 2 then none
  else (lineOverlap ROI.x ROI.width car.x car.width).bind fun xline =>
    (lineOverlap ROI.y ROI.height car.y car.height).map fun yline => xline * yline

/-- One iteration of the loop over the boxes: `idx` and `size_max`. -/
def searchStep (ROI : Rect) (best : Option ℕ × ℤ) (c : Rect × ℕ) : Option ℕ × ℤ :=
  match size_inter ROI c.1 with
  | none => best
  | some size => if best.2 < size then (some c.2, size) else best

/-- `idx` and `size_max` after the loop; `none` is the initial `idx`. -/
def searchMax (car : List Rect) (ROI : Rect) : Option ℕ × ℤ :=
  car.zipIdx.foldl (searchStep ROI) (none, 0)

/-- `localizer_detect`, with the vector it has erased the matched box from. That vector is the
function's own: the parameter is passed by value. -/
def localizer_detect (car : List Rect) (ROI : Rect) : Bool × List Rect :=
  let (idx, size_max) := searchMax car ROI
  if (size_max : ℚ) / ROI.area > 1 / 2 then
    (true, match idx with
      | some i => car.eraseIdx i
      | none => car)
  else (false, car)

/-- The pass of `updateSpots` over the spots, with the answer of `localizer_detect` for each. -/
def updateSpots (env : EntryServices) (frame : Mat) (now : Ptime) (car : List Rect) :
    List SpotState → Option (List (Bool × SpotState))
  | [] => some []
  | s :: rest =>
      let (occupied, _) := localizer_detect car s.spot.mROI
      (s.observe env occupied frame now).bind fun t =>
        (updateSpots env frame now car rest).map fun ts => (occupied, t) :: ts

/-- The answers of one pass. -/
def answers (car ROIs : List Rect) : List Bool := ROIs.map fun ROI => (localizer_detect car ROI).1

theorem updateSpots_answers {env : EntryServices} {frame : Mat} {now : Ptime} {car : List Rect}
    {spots : List SpotState} {res : List (Bool × SpotState)}
    (h : updateSpots env frame now car spots = some res) :
    res.map Prod.fst = answers car (spots.map fun s => s.spot.mROI) := by
  induction spots generalizing res with
  | nil =>
    obtain rfl := Option.some.inj h
    rfl
  | cons s rest ih =>
    obtain ⟨t, -, h⟩ := Option.bind_eq_some_iff.mp h
    obtain ⟨ts, hts, rfl⟩ := Option.map_eq_some_iff.mp h
    rw [List.map_cons, ih hts]
    rfl

/-- The box `localizer_detect` erases. -/
def matchedIdx (car : List Rect) (ROI : Rect) : Option ℕ :=
  if ((searchMax car ROI).2 : ℚ) / ROI.area > 1 / 2 then (searchMax car ROI).1 else none

/-- The box `i` lies in the size range, has the largest overlap with the spot, the first on
ties, and covers more than half of it. -/
def Fills (car : List Rect) (ROI : Rect) (i : ℕ) : Prop :=
  ∃ n, FirstMax.IsFirstMax (size_inter ROI) 0 car i n ∧ (n : ℚ) / ROI.area > 1 / 2

theorem searchMax_eq (car : List Rect) (ROI : Rect) :
    searchMax car ROI = FirstMax.scan (size_inter ROI) 0 car := by
  have hstep : searchStep ROI = FirstMax.step (size_inter ROI) := by
    funext best c
    unfold searchStep FirstMax.step
    cases size_inter ROI c.1 <;> rfl
  rw [searchMax, hstep, FirstMax.scan]

theorem matchedIdx_eq_some_iff {car : List Rect} {ROI : Rect} {i : ℕ} :
    matchedIdx car ROI = some i ↔ Fills car ROI i := by
  unfold matchedIdx Fills
  rw [searchMax_eq]
  constructor
  · intro h
    split_ifs at h with hhalf
    exact ⟨_, FirstMax.scan_eq_some_iff.mp (Prod.ext h rfl), hhalf⟩
  · rintro ⟨n, hmax, hhalf⟩
    rw [FirstMax.scan_eq_some_iff.mpr hmax, if_pos hhalf]

/-- `localizer_detect` answers true exactly when it erases a box, and then the box exists. -/
theorem localizer_detect_matched (car : List Rect) (ROI : Rect) :
    (localizer_detect car ROI).1 = (matchedIdx car ROI).isSome ∧
      ∀ i ∈ matchedIdx car ROI, i < car.length ∧
        (localizer_detect car ROI).2 = car.eraseIdx i := by
  rcases FirstMax.scan_spec (size_inter ROI) 0 car with ⟨hs, -⟩ | ⟨i, n, hs, hi⟩
  · have hnot : ¬ ((0 : ℤ) : ℚ) / ROI.area > 1 / 2 := by norm_num
    simp only [localizer_detect, matchedIdx, searchMax_eq, hs, if_neg hnot]
    simp
  · simp only [localizer_detect, matchedIdx, searchMax_eq, hs]
    split_ifs with hhalf
    · refine ⟨rfl, fun j hj => ?_⟩
      obtain rfl := Option.some.inj hj
      exact ⟨hi.lt_length, rfl⟩
    · simp

end VisionSensor
