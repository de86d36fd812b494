import VisionSensor.Lib.Unwind
import VisionSensor.Management.PropertyTree

/-! The settings a management update changes, and the INI file they are written back to. The
file is the tree it holds. -/
namespace VisionSensor
open Unwind

structure ParkingParams where
  sensitivity : ℤ
  enterCount : ℤ
  exitCount : ℤ
  deriving DecidableEq, Repr

/-- `Settings`, with the contents of the file `mSettingsFilename`. -/
structure Settings where
  mSensorID : String
  ServerDataFilename : String
  mTimeZone : String
  mParkingParams : ParkingParams
  mFrameWidth : ℤ
  mFrameHeight : ℤ
  mFourCC : String
  ParkingSpotROIJsonFilename : String
  VideoFilename : String
  settingsFile : Option PTree

namespace PTree

def setChild (key : String) (c : PTree) : List (String × PTree) → List (String × PTree)
  | [] => [(key, c)]
  | (k, d) :: rest => if k == key then (k, c) :: rest else (k, d) :: setChild key c rest

/-- `put(path, value)`: the nodes of the path that do not exist yet are appended. -/
def put : List String → String → PTree → PTree
  | [], value, t => mk value t.children
  | key :: path, value, t =>
      mk t.data (setChild key (put path value ((t.find key).getD nil)) t.children)

end PTree

namespace Settings

/-- The tree `writeSettings` writes. -/
def toIni (s : Settings) : PTree :=
  [(["Sensor", "SensorID"], s.mSensorID),
    (["Sensor", "ServerData"], s.ServerDataFilename),
    (["Sensor", "TimeZone"], s.mTimeZone),
    (["Sensor", "Sensitivity"], PTree.intData s.mParkingParams.sensitivity),
    (["Sensor", "EnterCount"], PTree.intData s.mParkingParams.enterCount),
    (["Sensor", "ExitCount"], PTree.intData s.mParkingParams.exitCount),
    (["Camera", "FrameWidth"], PTree.intData s.mFrameWidth),
    (["Camera", "FrameHeight"], PTree.intData s.mFrameHeight),
    (["Camera", "FourCC"], s.mFourCC),
    (["File", "SpotFilename"], s.ParkingSpotROIJsonFilename),
    (["File", "VideoFilename"], s.VideoFilename)].foldl (fun t kv => t.put kv.1 kv.2) PTree.nil

/-- `writeSettings`; `writable` says whether the file opens. It never throws. -/
def writeSettings (writable : Bool) : EStateM Fault Settings Bool := do
  if !writable then
    return false
  modify fun s => { s with settingsFile := some s.toIni }
  return true

def updateParkingParams (writable : Bool) (root : PTree) : EStateM Fault Settings Unit := do
  let sensitivity ← ofExcept (root.getInt "sensitivity")
  modify fun s => { s with mParkingParams := { s.mParkingParams with sensitivity } }
  let enterCount ← ofExcept (root.getInt "enterCount")
  modify fun s => { s with mParkingParams := { s.mParkingParams with enterCount } }
  let exitCount ← ofExcept (root.getInt "exitCount")
  modify fun s => { s with mParkingParams := { s.mParkingParams with exitCount } }
  let _ ← writeSettings writable

theorem returns_writeSettings (writable : Bool) (s : Settings) :
    Returns (writeSettings writable) s := by
  cases writable
  · exact ⟨_, _, rfl⟩
  · exact ⟨_, _, rfl⟩

/-- The parameters are taken over exactly when all three are integers, whether or not the file
can be written. -/
theorem returns_updateParkingParams (writable : Bool) (root : PTree) (s : Settings) :
    Returns (updateParkingParams writable root) s ↔
      root.HasInt "sensitivity" ∧ root.HasInt "enterCount" ∧ root.HasInt "exitCount" := by
  simp only [← PTree.getInt_ok_iff, updateParkingParams, returns_ofExcept_bind,
    returns_modify_bind]
  constructor
  · rintro ⟨a, ha, b, hb, c, hc, -⟩
    exact ⟨⟨a, ha⟩, ⟨b, hb⟩, ⟨c, hc⟩⟩
  · rintro ⟨⟨a, ha⟩, ⟨b, hb⟩, ⟨c, hc⟩⟩
    refine ⟨a, ha, b, hb, c, hc, ?_⟩
    obtain ⟨w, t, hw⟩ := returns_writeSettings writable _
    exact returns_bind_iff.mpr ⟨w, t, hw, returns_pure _ _⟩

end Settings
end VisionSensor
