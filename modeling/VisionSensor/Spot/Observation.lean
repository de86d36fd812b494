import VisionSensor.Spot.ParkingSpot
import VisionSensor.Lib.GuardedRun

/-! Runs of one parking spot: frame observations as `MainInterface::updateSpots` processes
them, the debug exit key of `MainInterface::run`, management updates and timer expiry. -/
namespace VisionSensor

/-- A spot, the static thresholds and the messages the spot has handed to
`MessageQueue::push`, oldest first. -/
structure SpotState where
  spot : ParkingSpot
  statics : Thresholds := {}
  pushed : List ParkingUpdateMessage := []

/-- What may happen to a spot. -/
inductive SpotOp where
  | observe (env : EntryServices) (detected : Bool) (frame : Mat) (now : Ptime)
  | debugExit (frame : Mat) (now : Ptime)
  | updateAttributes (spotName : String) (timeLimit : ℤ) (roi : Rect) (policy : ParkingSpotPolicy)
  | reset
  | setPositiveThreshold (positiveThreshold : ℤ)
  | setNegativeThreshold (negativeThreshold : ℤ)
  | notifyExpiration (readAt : Ptime → Mat)

namespace SpotState

/-- One spot's share of a frame in `updateSpots`; `none` when `enter` throws. -/
def observe (env : EntryServices) (detected : Bool) (frame : Mat) (now : Ptime)
    (s : SpotState) : Option SpotState :=
  let (spot, updated) := s.spot.update s.statics detected
  if updated then
    if spot.isOccupied then
      (spot.enter env frame spot.mROI now "null").map fun (spot, data) =>
        { s with spot := spot, pushed := s.pushed ++ [data] }
    else
      let (spot, data) := spot.exit frame now
      some { s with spot := spot, pushed := s.pushed ++ [data] }
  else some { s with spot := spot }

/-- The number key of the debug build: it lets an occupied spot go. -/
def debugExit (frame : Mat) (now : Ptime) (s : SpotState) : SpotState :=
  if s.spot.isOccupied then
    let (spot, data) := s.spot.exit frame now
    { s with spot := spot, pushed := s.pushed ++ [data] }
  else s

def notifyExpiration (readAt : Ptime → Mat) (s : SpotState) : SpotState :=
  let (spot, data) := s.spot.notifyExpiration readAt
  { s with spot := spot, pushed := s.pushed ++ data.toList }

def step (s : SpotState) : SpotOp → Option SpotState
  | .observe env detected frame now => s.observe env detected frame now
  | .debugExit frame now => some (s.debugExit frame now)
  | .updateAttributes spotName timeLimit roi policy =>
      some { s with spot := (s.spot.updateAttributes spotName timeLimit roi policy).1 }
  | .reset => some { s with spot := s.spot.reset }
  | .setPositiveThreshold n => some { s with statics := { s.statics with mPositiveThreshold := n } }
  | .setNegativeThreshold n => some { s with statics := { s.statics with mNegativeThreshold := n } }
  | .notifyExpiration readAt => some (s.notifyExpiration readAt)

/-- A spot as constructed, before its first observation. -/
def fresh (isReservation_sensor : Bool) (id : ℤ) (spotName : String) (length : ℤ) (roi : Rect)
    (policy : ParkingSpotPolicy) : SpotState :=
  { spot := ParkingSpot.new isReservation_sensor id spotName length roi policy }

/-- The request codes of the messages pushed. -/
def requests (s : SpotState) : List ℤ := s.pushed.map ParkingUpdateMessage.mRequestCode

/-- The message a change of the occupancy flag calls for. -/
def changeRequest (occupied : Bool) : HttpReqType :=
  if occupied then .HTTP_REQ_UPDATE_ENTER else .HTTP_REQ_UPDATE_EXIT

/-- An observation moves the debouncer by one step and pushes a message exactly when the
occupancy flag changes, an entry or an exit as the new flag says. -/
theorem observe_spec {env : EntryServices} {b : Bool} {frame : Mat} {now : Ptime}
    {s t : SpotState} (h : s.observe env b frame now = some t) :
    t.statics = s.statics ∧
      t.spot.debouncer = s.spot.debouncer.feed s.statics.mPositiveThreshold
        s.statics.mNegativeThreshold b ∧
      t.requests = s.requests ++
        if s.spot.mOccupied = t.spot.mOccupied then [] else [(changeRequest t.spot.mOccupied).code] := by
  obtain ⟨hd, hu⟩ := ParkingSpot.update_debouncer s.statics s.spot b
  unfold observe at h
  generalize hup : s.spot.update s.statics b = up at h hd hu
  obtain ⟨spot, updated⟩ := up
  simp only at h hd hu
  have hocc : spot.debouncer = ⟨spot.mOccupiedFrameCounter, spot.mOccupied⟩ := rfl
  cases updated with
  | false =>
    have hsame : s.spot.mOccupied = spot.mOccupied := by simpa using hu.symm
    obtain rfl := Option.some.inj h
    exact ⟨rfl, hd, by simp [requests, hsame]⟩
  | true =>
    have hdiff : s.spot.mOccupied ≠ spot.mOccupied := by simpa using hu.symm
    simp only [↓reduceIte] at h
    cases ho : spot.mOccupied with
    | true =>
      simp only [ParkingSpot.isOccupied, ho, ↓reduceIte] at h
      obtain ⟨⟨spot', data⟩, hent, rfl⟩ := Option.map_eq_some_iff.mp h
      obtain ⟨he, hc⟩ := ParkingSpot.enter_spec hent
      have hflag : spot'.mOccupied = true := congrArg Debouncer.flag he
      have hold : s.spot.mOccupied = false := by simpa [ho] using hdiff
      refine ⟨rfl, ?_, ?_⟩
      · rw [← hd, he, hocc, ho]
      · simp [requests, hflag, hold, changeRequest, hc]
    | false =>
      simp only [ParkingSpot.isOccupied, ho] at h
      obtain rfl := Option.some.inj h
      have hold : s.spot.mOccupied = true := by simpa [ho] using hdiff
      have hflag : (spot.exit frame now).1.mOccupied = false := rfl
      refine ⟨rfl, ?_, ?_⟩
      · rw [← hd, hocc, ho]
        rfl
      · simp [requests, hflag, hold, changeRequest]

/-- What an observation pushes is about its spot and carries its frame. -/
theorem observe_pushed {env : EntryServices} {b : Bool} {frame : Mat} {now : Ptime}
    {s t : SpotState} (h : s.observe env b frame now = some t) :
    t.spot.mID = s.spot.mID ∧ ∃ data, t.pushed = s.pushed ++ data ∧
      ∀ m ∈ data, m.mSpotID = s.spot.mID ∧ m.mFrame = frame := by
  have hid : (s.spot.update s.statics b).1.mID = s.spot.mID := ParkingSpot.update_mID ..
  unfold observe at h
  generalize s.spot.update s.statics b = up at h hid
  obtain ⟨spot, updated⟩ := up
  simp only at h hid
  split_ifs at h
  · obtain ⟨⟨spot', data⟩, hent, rfl⟩ := Option.map_eq_some_iff.mp h
    obtain ⟨hid', hdata⟩ := ParkingSpot.enter_identity hent
    refine ⟨hid'.trans hid, [data], rfl, fun m hm => ?_⟩
    obtain rfl := List.mem_singleton.mp hm
    exact ⟨hdata.1.trans hid, hdata.2⟩
  · obtain rfl := Option.some.inj h
    refine ⟨hid, _, rfl, fun m hm => ?_⟩
    obtain rfl := List.mem_singleton.mp hm
    exact ⟨hid, rfl⟩
  · obtain rfl := Option.some.inj h
    exact ⟨hid, [], (List.append_nil _).symm, fun _ hm => nomatch hm⟩

theorem debugExit_debouncer (frame : Mat) (now : Ptime) (s : SpotState) :
    (s.debugExit frame now).spot.debouncer = ⟨s.spot.mOccupiedFrameCounter, false⟩ := by
  unfold debugExit ParkingSpot.isOccupied
  cases ho : s.spot.mOccupied with
  | true => rfl
  | false => simp [ParkingSpot.debouncer, ho]

@[simp] theorem debugExit_statics (frame : Mat) (now : Ptime) (s : SpotState) :
    (s.debugExit frame now).statics = s.statics := by
  unfold debugExit
  split_ifs <;> rfl

/-- An expiry handler pushes at most an overstay message, and only on an occupied spot. -/
theorem notifyExpiration_requests (readAt : Ptime → Mat) (s : SpotState) :
    (s.notifyExpiration readAt).requests = s.requests ++
      if s.spot.mOccupied then [HttpReqType.HTTP_REQ_UPDATE_OVER.code] else [] := by
  unfold notifyExpiration ParkingSpot.notifyExpiration
  split_ifs <;> simp [requests, ParkingSpot.overstayed, ParkingUpdateMessage.ofFrame]

theorem notifyExpiration_debouncer (readAt : Ptime → Mat) (s : SpotState) :
    (s.notifyExpiration readAt).spot.debouncer = s.spot.debouncer :=
  ParkingSpot.notifyExpiration_debouncer readAt s.spot

theorem step_abs_counter_le {s t : SpotState} {op : SpotOp} (h : step s op = some t) :
    |t.spot.mOccupiedFrameCounter| ≤ |s.spot.mOccupiedFrameCounter| + 1 := by
  have hsame : t.spot.mOccupiedFrameCounter = s.spot.mOccupiedFrameCounter →
      |t.spot.mOccupiedFrameCounter| ≤ |s.spot.mOccupiedFrameCounter| + 1 := by
    intro hc
    rw [hc]
    exact (Int.lt_add_one_of_le le_rfl).le
  cases op with
  | observe env b frame now =>
    have hd := congrArg Debouncer.counter (observe_spec h).2.1
    rw [ParkingSpot.debouncer_counter] at hd
    rw [hd]
    exact Debouncer.abs_feed_counter_le _ _ b s.spot.debouncer
  | debugExit frame now =>
    obtain rfl := Option.some.inj h
    exact hsame (congrArg Debouncer.counter (debugExit_debouncer frame now s))
  | updateAttributes =>
    obtain rfl := Option.some.inj h
    exact hsame (congrArg Debouncer.counter (ParkingSpot.updateAttributes_debouncer ..))
  | notifyExpiration readAt =>
    obtain rfl := Option.some.inj h
    exact hsame (congrArg Debouncer.counter (notifyExpiration_debouncer readAt s))
  | reset =>
    obtain rfl := Option.some.inj h
    simp only [ParkingSpot.reset, abs_zero]
    positivity
  | setPositiveThreshold | setNegativeThreshold =>
    obtain rfl := Option.some.inj h
    exact hsame rfl

/-- The counter of a run never exceeds its length, whatever the thresholds: below `2 ^ 31`
steps the `int` of the program holds it. -/
theorem abs_counter_le {s t : SpotState} {ops : List SpotOp}
    (h : GuardedRun.exec step s ops = some t) :
    |t.spot.mOccupiedFrameCounter| ≤ |s.spot.mOccupiedFrameCounter| + ops.length := by
  induction ops generalizing s with
  | nil =>
    obtain rfl : s = t := by simpa using h
    simp
  | cons op ops ih =>
    obtain ⟨u, hu, ht⟩ := Option.bind_eq_some_iff.mp h
    have hstep := step_abs_counter_le hu
    have hrest := ih ht
    push_cast [List.length_cons]
    omega

end SpotState
end VisionSensor
