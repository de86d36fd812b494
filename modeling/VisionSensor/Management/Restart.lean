import VisionSensor.Management.Parameters

/-! The sensor stops and starts again: the destructor of `Settings` writes the INI file, and the
next process reads it, in the constructor and once more in `MainInterface`. -/
namespace VisionSensor
open Unwind GuardedRun

namespace Settings

/-- `Settings` of a new process; the members of built-in type are whatever the memory holds. -/
def boot (junk : Settings) (file : Option PTree) : Settings :=
  { junk with
    mSensorID := "", ServerDataFilename := "", mTimeZone := "", mFourCC := ""
    ParkingSpotROIJsonFilename := "", VideoFilename := "", settingsFile := file }

/-- The constructor and `MainInterface` both call `loadSettings`; only the second answer counts. -/
def startUp : EStateM SettingsFault Settings Bool := do
  let _ ← loadSettings
  loadSettings

/-- What the destructor leaves in the file. -/
def fileAtStop (writable : Bool) (s : Settings) : Option PTree :=
  if writable then some s.toIni else s.settingsFile

/-- What happens to the settings of a sensor: an update request, which may fail half-way, and a
restart. -/
inductive Event where
  | update (writable : Bool) (root : PTree)
  | restart (writable : Bool) (junk : Settings)

/-- `none` when the sensor does not start again. -/
def step (s : Settings) : Event → Option Settings
  | .update writable root => some (after (updateParkingParams writable root) s)
  | .restart writable junk =>
      match startUp (boot junk (s.fileAtStop writable)) with
      | .ok true t => some t
      | _ => none

/-- The settings that a restart makes of settings that were saved. -/
def normalised (s : Settings) : Settings :=
  { s with
    mParkingParams := ⟨orDefault s.mParkingParams.sensitivity 3,
      orDefault s.mParkingParams.enterCount 6, orDefault s.mParkingParams.exitCount 3⟩
    settingsFile := some s.toIni }

/-- The settings can be written and read back, and the file as it is can be read. -/
structure Restorable (s : Settings) : Prop where
  server : s.ServerDataFilename ≠ ""
  zone : s.mTimeZone ≠ ""
  sensitivity : InInt s.mParkingParams.sensitivity
  enterCount : InInt s.mParkingParams.enterCount
  exitCount : InInt s.mParkingParams.exitCount
  width : InInt s.mFrameWidth
  height : InInt s.mFrameHeight
  file : ∃ ptree p, s.settingsFile = some ptree ∧ Loads ptree p

variable {s t s₀ : Settings} {ptree : PTree} {p : ParkingParams}

/-- Reading the same file again changes nothing. -/
theorem load_again (ptree : PTree) (p : ParkingParams) (s : Settings) :
    loadCameraFile ptree (withSensor ptree p (loadCameraFile ptree (withSensor ptree p s))) =
      loadCameraFile ptree (withSensor ptree p s) := by
  simp only [loadCameraFile, withSensor]
  split_ifs <;> rfl

theorem startUp_eq_ok {b : Bool} :
    startUp s = .ok b t ↔ b = true ∧ ∃ ptree p, s.settingsFile = some ptree ∧ Loads ptree p ∧
      t = loadCameraFile ptree (withSensor ptree p s) := by
  constructor
  · intro h
    obtain ⟨_, s₁, hfirst, hsecond⟩ := bind_eq_ok.mp h
    obtain ⟨-, ptree, p, hfile, hp, rfl⟩ := loadSettings_eq_ok.mp hfirst
    obtain ⟨rfl, ptree', p', hfile', hp', rfl⟩ := loadSettings_eq_ok.mp hsecond
    obtain rfl : ptree = ptree' := Option.some.inj (hfile.symm.trans hfile')
    obtain rfl := hp.unique hp'
    exact ⟨rfl, ptree, p, hfile, hp, load_again ptree p s⟩
  · rintro ⟨rfl, ptree, p, hfile, hp, rfl⟩
    have hfirst := loadSettings_eq_ok.mpr ⟨rfl, ptree, p, hfile, hp, rfl⟩
    exact bind_eq_ok.mpr ⟨true, _, hfirst,
      loadSettings_eq_ok.mpr ⟨rfl, ptree, p, hfile, hp, (load_again ptree p s).symm⟩⟩

theorem getIntD_inInt (ptree : PTree) (path : List String) {dflt : ℤ} (h : InInt dflt) :
    InInt (ptree.getIntD path dflt) := by
  unfold PTree.getIntD
  cases hint : (ptree.descend path).bind fun c => PTree.toInt c.data with
  | none => exact h
  | some n =>
    obtain ⟨c, -, hc⟩ := Option.bind_eq_some_iff.mp hint
    exact PTree.toInt_inInt hc

theorem orDefault_inInt {n dflt : ℤ} (hn : InInt n) (h : InInt dflt) : InInt (orDefault n dflt) := by
  unfold orDefault
  split_ifs
  · exact h
  · exact hn

theorem Loads.inInt (h : Loads ptree p) :
    InInt p.sensitivity ∧ InInt p.enterCount ∧ InInt p.exitCount := by
  obtain ⟨a, ha, hpa⟩ := h.sensitivity
  obtain ⟨e, he, hpe⟩ := h.enterCount
  obtain ⟨x, hx, hpx⟩ := h.exitCount
  rw [hpa, hpe, hpx]
  exact ⟨orDefault_inInt (PTree.getIntAt_inInt ha) (by decide),
    orDefault_inInt (PTree.getIntAt_inInt he) (by decide),
    orDefault_inInt (PTree.getIntAt_inInt hx) (by decide)⟩

theorem startUp_restorable {b : Bool} (h : startUp s = .ok b t) : t.Restorable := by
  obtain ⟨-, ptree, p, hfile, hp, rfl⟩ := startUp_eq_ok.mp h
  obtain ⟨ha, he, hx⟩ := hp.inInt
  refine ⟨hp.server, ?_, ha, he, hx, getIntD_inInt _ _ (by decide), getIntD_inInt _ _ (by decide),
    ptree, p, hfile, hp⟩
  show (if ptree.getStringD ["Sensor", "TimeZone"] "" = "" then "+00"
    else ptree.getStringD ["Sensor", "TimeZone"] "") ≠ ""
  split_ifs with hzone
  · decide
  · exact hzone

theorem getIntD_of_descend {path : List String} {n : ℤ}
    (h : ptree.descend path = some (PTree.leaf (PTree.intData n))) (hn : InInt n) (dflt : ℤ) :
    ptree.getIntD path dflt = n := by
  simp only [PTree.getIntD, h, Option.bind_some, PTree.leaf, PTree.data, PTree.toInt_intData hn,
    Option.getD_some]

theorem withSensor_toIni (hzone : s.mTimeZone ≠ "") (p : ParkingParams) (junk : Settings)
    (file : Option PTree) :
    withSensor s.toIni p (boot junk file) = { boot junk file with
      mSensorID := s.mSensorID
      ServerDataFilename := s.ServerDataFilename
      mTimeZone := s.mTimeZone
      mParkingParams := p } := by
  have hid : s.toIni.getStringD ["Sensor", "SensorID"] "" = s.mSensorID := by
    rw [toIni_eq]
    rfl
  have hserver : s.toIni.getStringD ["Sensor", "ServerData"] "" = s.ServerDataFilename := by
    rw [toIni_eq]
    rfl
  have htime : s.toIni.getStringD ["Sensor", "TimeZone"] "" = s.mTimeZone := by
    rw [toIni_eq]
    rfl
  have hfresh : (if s.mSensorID = "" then "" else s.mSensorID) = s.mSensorID := by
    split_ifs with h
    · exact h.symm
    · rfl
  simp only [withSensor, hid, hserver, htime, if_neg hzone, boot, hfresh]

theorem loadCameraFile_toIni (hs : s.Restorable) (u : Settings) :
    loadCameraFile s.toIni u = { u with
      mFrameWidth := s.mFrameWidth
      mFrameHeight := s.mFrameHeight
      mFourCC := s.mFourCC
      ParkingSpotROIJsonFilename := s.ParkingSpotROIJsonFilename
      VideoFilename := s.VideoFilename } := by
  have hwidth : s.toIni.getIntD ["Camera", "FrameWidth"] (-1) = s.mFrameWidth := by
    rw [toIni_eq]
    exact getIntD_of_descend rfl hs.width _
  have hheight : s.toIni.getIntD ["Camera", "FrameHeight"] (-1) = s.mFrameHeight := by
    rw [toIni_eq]
    exact getIntD_of_descend rfl hs.height _
  have hcode : s.toIni.getStringD ["Camera", "FourCC"] "" = s.mFourCC := by
    rw [toIni_eq]
    rfl
  have hspots : s.toIni.getStringD ["File", "SpotFilename"] "" = s.ParkingSpotROIJsonFilename := by
    rw [toIni_eq]
    rfl
  have hvideo : s.toIni.getStringD ["File", "VideoFilename"] "" = s.VideoFilename := by
    rw [toIni_eq]
    rfl
  simp only [loadCameraFile, hwidth, hheight, hcode, hspots, hvideo]

/-- The file that was written is read as the settings, normalised. -/
theorem startUp_toIni (hs : s.Restorable) (junk : Settings) :
    startUp (boot junk (some s.toIni)) = .ok true s.normalised := by
  refine startUp_eq_ok.mpr ⟨rfl, s.toIni, _, rfl,
    (loads_toIni hs.server hs.sensitivity hs.enterCount hs.exitCount).mpr rfl, ?_⟩
  rw [withSensor_toIni hs.zone, loadCameraFile_toIni hs]
  rfl

/-- An update keeps the settings restorable, also one that throws half-way. -/
theorem keeps_restorable_update (writable : Bool) (root : PTree) :
    Keeps Restorable (updateParkingParams writable root) := by
  have hwrite : Keeps Restorable (writeSettings writable) := by
    refine keeps_ite (keeps_pure _ _) (keeps_bind (keeps_modify fun s hs => ?_) fun _ =>
      keeps_pure _ _)
    exact ⟨hs.server, hs.zone, hs.sensitivity, hs.enterCount, hs.exitCount, hs.width, hs.height,
      s.toIni, _, rfl,
      (loads_toIni hs.server hs.sensitivity hs.enterCount hs.exitCount).mpr rfl⟩
  refine keeps_ofExcept_bind fun a ha => keeps_bind (keeps_modify fun s hs => ?_) fun _ =>
    keeps_ofExcept_bind fun e he => keeps_bind (keeps_modify fun s hs => ?_) fun _ =>
    keeps_ofExcept_bind fun x hx => keeps_bind (keeps_modify fun s hs => ?_) fun _ =>
    keeps_bind hwrite fun _ => keeps_pure _ _
  · exact { hs with sensitivity := PTree.getInt_inInt ha }
  · exact { hs with enterCount := PTree.getInt_inInt he }
  · exact { hs with exitCount := PTree.getInt_inInt hx }

theorem step_restorable (hs : s.Restorable) {e : Event} (h : step s e = some t) : t.Restorable := by
  cases e with
  | update writable root =>
    obtain rfl := Option.some.inj h
    exact keeps_restorable_update writable root s hs
  | restart writable junk =>
    cases hstart : startUp (boot junk (s.fileAtStop writable)) with
    | error e u =>
      simp only [step, hstart] at h
      cases h
    | ok b u =>
      cases b with
      | false =>
        simp only [step, hstart] at h
        cases h
      | true =>
        simp only [step, hstart, Option.some.injEq] at h
        exact h ▸ startUp_restorable hstart

/-- Nothing that happens to the sensor keeps it from starting again. -/
theorem step_isSome (hs : s.Restorable) (e : Event) : (step s e).isSome := by
  cases e with
  | update writable root => rfl
  | restart writable junk =>
    obtain ⟨ptree, p, hfile, hp⟩ := hs.file
    have hstart : ∃ t, startUp (boot junk (s.fileAtStop writable)) = .ok true t := by
      cases writable with
      | true => exact ⟨_, startUp_toIni hs junk⟩
      | false => exact ⟨_, startUp_eq_ok.mpr ⟨rfl, ptree, p, hfile, hp, rfl⟩⟩
    obtain ⟨t, ht⟩ := hstart
    simp only [step, ht, Option.isSome_some]

theorem normalised_eq_iff (s : Settings) :
    s.normalised = { s with settingsFile := some s.toIni } ↔ 0 < s.mParkingParams.sensitivity ∧
      0 < s.mParkingParams.enterCount ∧ 0 < s.mParkingParams.exitCount := by
  have hparams : s.normalised = { s with settingsFile := some s.toIni } ↔
      s.normalised.mParkingParams = s.mParkingParams := by
    constructor
    · intro h
      rw [h]
    · intro h
      show { s.normalised with mParkingParams := s.normalised.mParkingParams } = _
      rw [h]
      rfl
  rw [hparams, ParkingParams.eq_iff]
  exact and_congr (orDefault_eq_self_iff (by omega))
    (and_congr (orDefault_eq_self_iff (by omega)) (orDefault_eq_self_iff (by omega)))

/-- From any file with which the sensor once started, over any updates and restarts, it always
starts again; and what it starts with is what was in force when it stopped, unless a client had set
a count that is not positive, which alone is replaced. -/
theorem restart_keeps {file : Option PTree} {junk : Settings}
    (hstart : startUp (boot junk file) = .ok true s₀) (events : List Event) :
    (exec step s₀ events).isSome ∧ ∀ s, Visits step s₀ events s → ∀ junk,
      startUp (boot junk (s.fileAtStop true)) = .ok true s.normalised ∧
        (s.normalised = { s with settingsFile := some s.toIni } ↔
          0 < s.mParkingParams.sensitivity ∧ 0 < s.mParkingParams.enterCount ∧
            0 < s.mParkingParams.exitCount) := by
  have hrestorable : s₀.Restorable := startUp_restorable hstart
  constructor
  · refine (exec_isSome_iff (I := Restorable) (C := fun _ => True)
      (fun _ _ _ hs h => step_restorable hs h) (fun s e hs => ?_) hrestorable events).mpr
        fun _ _ => trivial
    exact iff_of_true (step_isSome hs e) trivial
  · intro s hs junk
    have hvisited : s.Restorable :=
      invariant (fun _ _ _ ht h => step_restorable ht h) hrestorable hs
    exact ⟨startUp_toIni hvisited junk, normalised_eq_iff s⟩

/-- A sensor whose client sets a count to zero and then leaves out another. -/
def twoUpdates : List Event :=
  [.update true (.mk "" [("sensitivity", .leaf "4"), ("enterCount", .leaf "0"),
    ("exitCount", .leaf "2")]), .update true (.mk "" [("sensitivity", .leaf "5")])]

theorem restart_keeps_shipped : ∃ s₀, startUp (boot Listener.shipped.mSettings
      (some Listener.shipped.mSettings.toIni)) = .ok true s₀ ∧
    (exec step s₀ twoUpdates).isSome ∧ ∀ s, Visits step s₀ twoUpdates s → ∀ junk,
      startUp (boot junk (s.fileAtStop true)) = .ok true s.normalised := by
  obtain ⟨s₀, hstart⟩ : ∃ s₀, startUp (boot Listener.shipped.mSettings
    (some Listener.shipped.mSettings.toIni)) = .ok true s₀ := ⟨_, rfl⟩
  obtain ⟨hends, hkeeps⟩ := restart_keeps hstart twoUpdates
  exact ⟨s₀, hstart, hends, fun s hs junk => (hkeeps s hs junk).1⟩

end Settings
end VisionSensor
