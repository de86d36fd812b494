import Mathlib.Data.Int.Order.Basic

/-! The data shared by the whole sensor: rectangles, images, times, request types and
the update message a parking spot hands to the upload queue. -/
namespace VisionSensor

/-- `cv::Rect`. -/
structure Rect where
  x : ℤ
  y : ℤ
  width : ℤ
  height : ℤ
  deriving DecidableEq, Repr

def Rect.area (r : Rect) : ℤ := r.width * r.height

/-- The rectangle `exit` stores for the plate and the vehicle box. -/
def Rect.zero : Rect := ⟨0, 0, 0, 0⟩

/-- `cv::Mat`: the rows of an image, each a list of pixels. -/
structure Mat where
  rows : ℕ
  cols : ℕ
  pixels : List (List ℕ)
  deriving DecidableEq, Repr

/-- A default constructed `cv::Mat`. -/
def Mat.none : Mat := ⟨0, 0, []⟩

def Mat.empty (m : Mat) : Bool := m.rows * m.cols == 0

/-- `cv::Mat::operator()(Rect)`; `none` is the assertion failure it throws. -/
def Mat.crop (m : Mat) (r : Rect) : Option Mat :=
  if 0 ≤ r.x ∧ 0 ≤ r.width ∧ r.x + r.width ≤ m.cols ∧
      0 ≤ r.y ∧ 0 ≤ r.height ∧ r.y + r.height ≤ m.rows then
    some ⟨r.height.toNat, r.width.toNat,
      ((m.pixels.drop r.y.toNat).take r.height.toNat).map
        fun row => (row.drop r.x.toNat).take r.width.toNat⟩
  else Option.none

/-- `boost::posix_time::ptime` in whole seconds; `none` is `not_a_date_time`, the value of a
default constructed time. -/
abbrev Ptime := Option ℤ

/-- Adding `boost::posix_time::seconds(n)`. -/
def Ptime.addSeconds (t : Ptime) (n : ℤ) : Ptime := t.map (· + n)

/-- `HTTP_REQ_TYPE`. -/
inductive HttpReqType where
  | HTTP_REQ_SYNC_GENERAL
  | HTTP_REQ_UPDATE_ENTER
  | HTTP_REQ_UPDATE_EXIT
  | HTTP_REQ_UPDATE_OVER
  deriving DecidableEq, Repr

/-- The integer the enumerator stands for. -/
def HttpReqType.code : HttpReqType → ℤ
  | HTTP_REQ_SYNC_GENERAL => 0
  | HTTP_REQ_UPDATE_ENTER => 1
  | HTTP_REQ_UPDATE_EXIT => 2
  | HTTP_REQ_UPDATE_OVER => 3

/-- `PARKING_SPOT_POLICY` is an unscoped enumeration into which any `int` is cast, also ones
without an enumerator, so the model keeps the integer. -/
abbrev ParkingSpotPolicy := ℤ

/-- `ParkingUpdateMessage`, with the event time of its base class `IMessageData`. -/
structure ParkingUpdateMessage where
  mEventTime : Ptime := Option.none
  mRequestCode : ℤ := 0
  mSpotID : ℤ := 0
  mPlateNum : String := ""
  mFrame : Mat := Mat.none
  mCropFrame : Mat := Mat.none
  deriving DecidableEq, Repr

/-- The constructor without a cropped image, used on overstay and on exit. -/
def ParkingUpdateMessage.ofFrame (request spotID : ℤ) (frame : Mat) (eventTime : Ptime)
    (PN : String := "null") : ParkingUpdateMessage :=
  { mEventTime := eventTime, mRequestCode := request, mSpotID := spotID, mFrame := frame,
    mPlateNum := PN }

/-- The constructor with a cropped image, used on entry. -/
def ParkingUpdateMessage.ofFrameCrop (request spotID : ℤ) (frame cropFrame : Mat)
    (eventTime : Ptime) (PN : String := "null") : ParkingUpdateMessage :=
  { mEventTime := eventTime, mRequestCode := request, mSpotID := spotID, mFrame := frame,
    mCropFrame := cropFrame, mPlateNum := PN }

end VisionSensor
