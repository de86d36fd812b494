import VisionSensor.Core.Types
import VisionSensor.Lib.Debouncer

/-! One parking spot as `ParkingSpot.cpp` has it: the occupancy debouncer, the visit
operations with the messages they hand to the upload queue, and the parking timer.
Integers are exact here. `abs_counter_le` bounds the counter by the number of observations, so
an `int` holds it in any run shorter than `2 ^ 31` of them, and with thresholds on their own sides
of zero it holds the differences `update(bool)` forms as well. -/
namespace VisionSensor

/-- The static thresholds shared by all spots. -/
structure Thresholds where
  mPositiveThreshold : ℤ := 1
  mNegativeThreshold : ℤ := -1
  deriving DecidableEq, Repr

/-- `mParkingTimer` is the number of seconds the pending wait was set for, if one is
pending. `isReservation_sensor` is never assigned by the constructor. -/
structure ParkingSpot where
  mID : ℤ
  mSpotName : String
  mTimeLimit : ℤ
  mROI : Rect
  mParkingPolicy : ParkingSpotPolicy
  isReservation_sensor : Bool
  mOccupied : Bool := false
  mOverstayed : Bool := false
  mUpdateEnabled : Bool := true
  mOccupiedFrameCounter : ℤ := 0
  mPlateNumber : String := ""
  pROI : Rect := Rect.zero
  vROI : Rect := Rect.zero
  mParkingTimer : Option ℤ := none
  mEntryTime : Ptime := none
  deriving DecidableEq, Repr

/-- What `enter` asks of the reservation database and of Boost. -/
structure EntryServices where
  check_res : String → Bool
  entVehicle : String → List Char → ℤ
  to_iso_string : Ptime → List Char

namespace ParkingSpot

/-- The constructor. -/
def new (isReservation_sensor : Bool) (id : ℤ) (spotName : String) (length : ℤ) (roi : Rect)
    (policy : ParkingSpotPolicy) : ParkingSpot :=
  { mID := id, mSpotName := spotName, mTimeLimit := length, mROI := roi,
    mParkingPolicy := policy, isReservation_sensor := isReservation_sensor }

def isOccupied (s : ParkingSpot) : Bool := s.mOccupied

def isOverstayed (s : ParkingSpot) : Bool := s.mOccupied && s.mOverstayed

def isSensor (s : ParkingSpot) : Bool := s.isReservation_sensor

/-- `startTimer()`. -/
def startTimer (s : ParkingSpot) : ParkingSpot :=
  { s with mParkingTimer := some s.mTimeLimit }

/-- `startTimer(res_timeLimit, PN)`: the wait is in minutes. -/
def startTimerFor (s : ParkingSpot) (res_timeLimit : ℤ) : ParkingSpot :=
  { s with mParkingTimer := some (60 * res_timeLimit), mTimeLimit := res_timeLimit }

def stopTimer (s : ParkingSpot) : ParkingSpot := { s with mParkingTimer := none }

/-- The image `enter` sends beside the whole frame; `none` when the crop throws. -/
def entryCrop (entryImage : Mat) (ROI : Rect) : Option Mat :=
  if ROI.width ≤ entryImage.rows ∧ ROI.height ≤ entryImage.cols then entryImage.crop ROI
  else some entryImage

/-- `enter`; `none` when the crop of the entry image throws. -/
def enter (env : EntryServices) (s : ParkingSpot) (entryImage : Mat) (ROI : Rect)
    (entryTime : Ptime) (PN : String) : Option (ParkingSpot × ParkingUpdateMessage) :=
  (entryCrop entryImage ROI).map fun cropImage =>
    let data := ParkingUpdateMessage.ofFrameCrop HttpReqType.HTTP_REQ_UPDATE_ENTER.code s.mID
      entryImage cropImage entryTime PN
    let s := { s with mOccupied := true }
    let s :=
      if !s.isSensor then s.startTimer
      else if env.check_res PN then
        s.startTimerFor (env.entVehicle PN (env.to_iso_string entryTime))
      else s.startTimer
    ({ s with mEntryTime := entryTime }, data)

def overstayed (s : ParkingSpot) (expiredImage : Mat) (exprTime : Ptime) :
    ParkingSpot × ParkingUpdateMessage :=
  ({ s with mOverstayed := true },
    ParkingUpdateMessage.ofFrame HttpReqType.HTTP_REQ_UPDATE_OVER.code s.mID expiredImage exprTime)

/-- `exit`; the plate number it is given is not used. -/
def exit (s : ParkingSpot) (exitImage : Mat) (exitTime : Ptime) :
    ParkingSpot × ParkingUpdateMessage :=
  let data := ParkingUpdateMessage.ofFrame HttpReqType.HTTP_REQ_UPDATE_EXIT.code s.mID
    exitImage exitTime
  let s := { s with
    mOccupied := false, mOverstayed := false, mPlateNumber := "", pROI := Rect.zero,
    vROI := Rect.zero }
  (s.stopTimer, data)

/-- `update(spotName, timeLimit, roi, policy)`. -/
def updateAttributes (s : ParkingSpot) (spotName : String) (timeLimit : ℤ) (roi : Rect)
    (policy : ParkingSpotPolicy) : ParkingSpot × Bool :=
  if s.mOccupied && !s.mOverstayed then (s, false)
  else
    ({ s with mSpotName := spotName, mTimeLimit := timeLimit, mROI := roi,
              mParkingPolicy := policy }, true)

/-- `update(bool)`. -/
def update (st : Thresholds) (s : ParkingSpot) (occupied : Bool) : ParkingSpot × Bool :=
  if occupied then
    if s.mOccupiedFrameCounter < st.mPositiveThreshold then
      ({ s with mOccupiedFrameCounter := s.mOccupiedFrameCounter + 1 }, false)
    else if s.mOccupiedFrameCounter - st.mPositiveThreshold < st.mPositiveThreshold then
      let (s, updated) := if !s.mOccupied then ({ s with mOccupied := true }, true) else (s, false)
      ({ s with mOccupiedFrameCounter := s.mOccupiedFrameCounter + 1 }, updated)
    else (s, false)
  else
    if s.mOccupiedFrameCounter > st.mNegativeThreshold then
      ({ s with mOccupiedFrameCounter := s.mOccupiedFrameCounter - 1 }, false)
    else if s.mOccupiedFrameCounter - st.mNegativeThreshold > st.mNegativeThreshold then
      let (s, updated) := if s.mOccupied then ({ s with mOccupied := false }, true) else (s, false)
      ({ s with mOccupiedFrameCounter := s.mOccupiedFrameCounter - 1 }, updated)
    else (s, false)

def reset (s : ParkingSpot) : ParkingSpot :=
  { s.stopTimer with
    mOccupied := false, mOverstayed := false, mUpdateEnabled := true,
    mOccupiedFrameCounter := 0 }

/-- `notifyExpiration`; `readAt` is the frame the video reader finds for a time, an empty one
when it finds none. -/
def notifyExpiration (readAt : Ptime → Mat) (s : ParkingSpot) :
    ParkingSpot × Option ParkingUpdateMessage :=
  if s.mOccupied then
    let time := s.mEntryTime.addSeconds s.mTimeLimit
    let (s, data) := s.overstayed (readAt time) time
    (s, some data)
  else (s, none)

/-- The part of a spot that decides about occupancy. -/
def debouncer (s : ParkingSpot) : Debouncer := ⟨s.mOccupiedFrameCounter, s.mOccupied⟩

@[simp] theorem debouncer_counter (s : ParkingSpot) :
    s.debouncer.counter = s.mOccupiedFrameCounter := rfl

@[simp] theorem debouncer_flag (s : ParkingSpot) : s.debouncer.flag = s.mOccupied := rfl

/-- `update(bool)` is one observation of the two-threshold debouncer, and it answers whether
the flag has changed. -/
theorem update_debouncer (st : Thresholds) (s : ParkingSpot) (b : Bool) :
    (s.update st b).1.debouncer =
        s.debouncer.feed st.mPositiveThreshold st.mNegativeThreshold b ∧
      (s.update st b).2 = (s.mOccupied != (s.update st b).1.mOccupied) := by
  cases b with
  | true =>
    by_cases h1 : s.mOccupiedFrameCounter < st.mPositiveThreshold
    · simp [update, Debouncer.feed, Debouncer.rise, debouncer, h1]
    by_cases h2 : s.mOccupiedFrameCounter - st.mPositiveThreshold < st.mPositiveThreshold <;>
      cases ho : s.mOccupied <;>
      simp only [update, Debouncer.feed, Debouncer.rise, debouncer, h1, h2, ho] <;> simp [ho]
  | false =>
    by_cases h1 : s.mOccupiedFrameCounter > st.mNegativeThreshold
    · simp [update, Debouncer.feed, Debouncer.fall, debouncer, h1]
    by_cases h2 : s.mOccupiedFrameCounter - st.mNegativeThreshold > st.mNegativeThreshold <;>
      cases ho : s.mOccupied <;>
      simp only [update, Debouncer.feed, Debouncer.fall, debouncer, h1, h2, ho] <;> simp [ho]

/-- Everything later proofs need of a successful `enter`. -/
theorem enter_spec {env : EntryServices} {s s' : ParkingSpot} {img : Mat} {roi : Rect}
    {t : Ptime} {PN : String} {msg : ParkingUpdateMessage}
    (h : s.enter env img roi t PN = some (s', msg)) :
    s'.debouncer = ⟨s.mOccupiedFrameCounter, true⟩ ∧
      msg.mRequestCode = HttpReqType.HTTP_REQ_UPDATE_ENTER.code := by
  obtain ⟨crop, _, h⟩ := Option.map_eq_some_iff.mp h
  obtain ⟨rfl, rfl⟩ := Prod.mk.inj h
  refine ⟨?_, rfl⟩
  split_ifs <;> rfl

@[simp] theorem update_mID (st : Thresholds) (s : ParkingSpot) (b : Bool) :
    (s.update st b).1.mID = s.mID := by
  unfold update
  split_ifs <;> rfl

/-- Whom and what a message of `enter` is about. -/
theorem enter_identity {env : EntryServices} {s s' : ParkingSpot} {img : Mat} {roi : Rect}
    {t : Ptime} {PN : String} {msg : ParkingUpdateMessage}
    (h : s.enter env img roi t PN = some (s', msg)) :
    s'.mID = s.mID ∧ msg.mSpotID = s.mID ∧ msg.mFrame = img := by
  obtain ⟨crop, _, h⟩ := Option.map_eq_some_iff.mp h
  obtain ⟨rfl, rfl⟩ := Prod.mk.inj h
  refine ⟨?_, rfl, rfl⟩
  split_ifs <;> rfl

@[simp] theorem exit_code (s : ParkingSpot) (img : Mat) (t : Ptime) :
    (s.exit img t).2.mRequestCode = HttpReqType.HTTP_REQ_UPDATE_EXIT.code := rfl

@[simp] theorem updateAttributes_debouncer (s : ParkingSpot) (name : String) (limit : ℤ)
    (roi : Rect) (policy : ParkingSpotPolicy) :
    (s.updateAttributes name limit roi policy).1.debouncer = s.debouncer := by
  unfold updateAttributes
  split_ifs <;> rfl

@[simp] theorem reset_debouncer (s : ParkingSpot) : s.reset.debouncer = ⟨0, false⟩ := rfl

@[simp] theorem notifyExpiration_debouncer (readAt : Ptime → Mat) (s : ParkingSpot) :
    (s.notifyExpiration readAt).1.debouncer = s.debouncer := by
  unfold notifyExpiration
  split_ifs <;> rfl

/-- An expiry keeps id and occupancy, and its message, if any, is an overstay with the frame that
was read. -/
theorem notifyExpiration_spec (readAt : Ptime → Mat) (s : ParkingSpot) :
    (s.notifyExpiration readAt).1.mID = s.mID ∧
      (s.notifyExpiration readAt).1.mOccupied = s.mOccupied ∧
      ∀ m ∈ (s.notifyExpiration readAt).2.toList,
        m.mRequestCode = HttpReqType.HTTP_REQ_UPDATE_OVER.code ∧
        m.mFrame = readAt (s.mEntryTime.addSeconds s.mTimeLimit) := by
  unfold notifyExpiration
  split_ifs with hocc
  · refine ⟨rfl, rfl, fun m hm => ?_⟩
    obtain rfl := List.mem_singleton.mp hm
    exact ⟨rfl, rfl⟩
  · exact ⟨rfl, rfl, fun m hm => nomatch hm⟩

end ParkingSpot
end VisionSensor
