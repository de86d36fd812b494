import VisionSensor.Management.Settings

/-! `Settings::loadSettings`: the options of the INI file, and the values that stand in for those
that are missing or out of range. -/
namespace VisionSensor
open Unwind

/-- How `loadSettings` leaves without an answer: a fatal entry in the log ends the program, and
`get<int>` without a default throws. -/
inductive SettingsFault where
  | read_ini
  | emptyFile
  | noServerData
  | ptree_error (e : Fault)
  deriving DecidableEq, Repr

namespace PTree

/-- The node at a path. -/
def descend : List String → PTree → Option PTree
  | [], t => some t
  | key :: path, t => (t.find key).bind (descend path)

/-- `get<int>(path)`. -/
def getIntAt (t : PTree) (path : List String) : Except Fault ℤ :=
  match t.descend path with
  | none => .error (.ptree_bad_path (".".intercalate path))
  | some c =>
      match toInt c.data with
      | none => .error (.ptree_bad_data c.data)
      | some n => .ok n

/-- `get<int>(path, default)`. -/
def getIntD (t : PTree) (path : List String) (dflt : ℤ) : ℤ :=
  ((t.descend path).bind fun c => toInt c.data).getD dflt

/-- `get<std::string>(path, default)`. -/
def getStringD (t : PTree) (path : List String) (dflt : String) : String :=
  ((t.descend path).map data).getD dflt

/-- The node at the path is present with an `int` as its value. -/
def HasIntAt (t : PTree) (path : List String) : Prop :=
  ∃ c n, t.descend path = some c ∧ toInt c.data = some n

theorem getIntAt_ok_iff {t : PTree} {path : List String} :
    (∃ n, t.getIntAt path = .ok n) ↔ t.HasIntAt path := by
  unfold getIntAt HasIntAt
  cases t.descend path with
  | none => simp
  | some c =>
    cases h : toInt c.data <;> simp [h]

theorem getIntAt_of_descend {t : PTree} {path : List String} {n : ℤ}
    (h : t.descend path = some (leaf (intData n))) (hn : InInt n) : t.getIntAt path = .ok n := by
  simp only [getIntAt, h, leaf, data, toInt_intData hn]

end PTree

namespace Settings

/-- A count that is not positive is replaced. -/
def orDefault (n dflt : ℤ) : ℤ := if n ≤ 0 then dflt else n

theorem orDefault_pos {n dflt : ℤ} (h : 0 < dflt) : 0 < orDefault n dflt := by
  unfold orDefault
  split_ifs <;> omega

theorem orDefault_eq_self_iff {n dflt : ℤ} (h : 0 < dflt) : orDefault n dflt = n ↔ 0 < n := by
  unfold orDefault
  split_ifs <;> omega

/-- `get<int>(path)` in `loadSettings`, which catches nothing. -/
def getOption (ptree : PTree) (path : List String) : EStateM SettingsFault Settings ℤ :=
  ofExcept ((ptree.getIntAt path).mapError .ptree_error)

/-- The three counts. -/
def loadCounts (ptree : PTree) : EStateM SettingsFault Settings Unit := do
  let n ← getOption ptree ["Sensor", "Sensitivity"]
  modify fun s =>
    { s with mParkingParams := { s.mParkingParams with sensitivity := orDefault n 3 } }
  let n ← getOption ptree ["Sensor", "EnterCount"]
  modify fun s =>
    { s with mParkingParams := { s.mParkingParams with enterCount := orDefault n 6 } }
  let n ← getOption ptree ["Sensor", "ExitCount"]
  modify fun s =>
    { s with mParkingParams := { s.mParkingParams with exitCount := orDefault n 3 } }

/-- The options of the section `Sensor`. -/
def loadSensor (ptree : PTree) : EStateM SettingsFault Settings Unit := do
  let value := ptree.getStringD ["Sensor", "SensorID"] ""
  modify fun s => { s with mSensorID := if value = "" then s.mSensorID else value }
  let ServerDataFilename := ptree.getStringD ["Sensor", "ServerData"] ""
  modify fun s => { s with ServerDataFilename }
  if ServerDataFilename = "" then throw .noServerData
  else do
    let zone := ptree.getStringD ["Sensor", "TimeZone"] ""
    modify fun s => { s with mTimeZone := if zone = "" then "+00" else zone }
    loadCounts ptree

/-- The options of the sections `Camera` and `File`, which are taken as they are. -/
def loadCameraFile (ptree : PTree) (s : Settings) : Settings :=
  { s with
    mFrameWidth := ptree.getIntD ["Camera", "FrameWidth"] (-1)
    mFrameHeight := ptree.getIntD ["Camera", "FrameHeight"] (-1)
    mFourCC := ptree.getStringD ["Camera", "FourCC"] ""
    ParkingSpotROIJsonFilename := ptree.getStringD ["File", "SpotFilename"] ""
    VideoFilename := ptree.getStringD ["File", "VideoFilename"] "" }

/-- `loadSettings`. -/
def loadSettings : EStateM SettingsFault Settings Bool := do
  match (← get).settingsFile with
  | none => throw .read_ini
  | some ptree =>
      if ptree.empty then throw .emptyFile
      else do
        loadSensor ptree
        modify (loadCameraFile ptree)
        return true

/-- What the file says about the parameters: `loadSettings` answers true and sets them so. -/
structure Loads (ptree : PTree) (p : ParkingParams) : Prop where
  nonempty : ptree.empty = false
  server : ptree.getStringD ["Sensor", "ServerData"] "" ≠ ""
  sensitivity : ∃ n, ptree.getIntAt ["Sensor", "Sensitivity"] = .ok n ∧
    p.sensitivity = orDefault n 3
  enterCount : ∃ n, ptree.getIntAt ["Sensor", "EnterCount"] = .ok n ∧ p.enterCount = orDefault n 6
  exitCount : ∃ n, ptree.getIntAt ["Sensor", "ExitCount"] = .ok n ∧ p.exitCount = orDefault n 3

theorem Loads.pos {ptree : PTree} {p : ParkingParams} (h : Loads ptree p) :
    0 < p.sensitivity ∧ 0 < p.enterCount ∧ 0 < p.exitCount := by
  obtain ⟨s, -, hs⟩ := h.sensitivity
  obtain ⟨e, -, he⟩ := h.enterCount
  obtain ⟨x, -, hx⟩ := h.exitCount
  rw [hs, he, hx]
  exact ⟨orDefault_pos (by omega), orDefault_pos (by omega), orDefault_pos (by omega)⟩

/-- A file gives the parameters one value. -/
theorem Loads.unique {ptree : PTree} {p q : ParkingParams} (hp : Loads ptree p)
    (hq : Loads ptree q) : p = q := by
  obtain ⟨s, hs, hps⟩ := hp.sensitivity
  obtain ⟨e, he, hpe⟩ := hp.enterCount
  obtain ⟨x, hx, hpx⟩ := hp.exitCount
  obtain ⟨s', hs', hqs⟩ := hq.sensitivity
  obtain ⟨e', he', hqe⟩ := hq.enterCount
  obtain ⟨x', hx', hqx⟩ := hq.exitCount
  obtain rfl := Except.ok.inj (hs.symm.trans hs')
  obtain rfl := Except.ok.inj (he.symm.trans he')
  obtain rfl := Except.ok.inj (hx.symm.trans hx')
  cases p
  cases q
  simp only at hps hpe hpx hqs hqe hqx
  rw [hps, hpe, hpx, hqs, hqe, hqx]

theorem getOption_eq_ok {ptree : PTree} {path : List String} {n : ℤ} {s t : Settings} :
    getOption ptree path s = .ok n t ↔ ptree.getIntAt path = .ok n ∧ s = t := by
  unfold getOption
  rw [ofExcept_apply_ok]
  cases ptree.getIntAt path <;> simp [Except.mapError]

theorem loadCounts_eq_ok {ptree : PTree} {s t : Settings} :
    loadCounts ptree s = .ok () t ↔ ∃ a e x, ptree.getIntAt ["Sensor", "Sensitivity"] = .ok a ∧
      ptree.getIntAt ["Sensor", "EnterCount"] = .ok e ∧
      ptree.getIntAt ["Sensor", "ExitCount"] = .ok x ∧
      t = { s with mParkingParams := ⟨orDefault a 3, orDefault e 6, orDefault x 3⟩ } := by
  constructor
  · intro h
    obtain ⟨a, s₁, ha, h⟩ := bind_eq_ok.mp h
    obtain ⟨hsensitivity, rfl⟩ := getOption_eq_ok.mp ha
    obtain ⟨_, s₂, hset, h⟩ := bind_eq_ok.mp h
    cases hset
    obtain ⟨e, s₃, he, h⟩ := bind_eq_ok.mp h
    obtain ⟨henter, rfl⟩ := getOption_eq_ok.mp he
    obtain ⟨_, s₄, hset, h⟩ := bind_eq_ok.mp h
    cases hset
    obtain ⟨x, s₅, hx, h⟩ := bind_eq_ok.mp h
    obtain ⟨hexit, rfl⟩ := getOption_eq_ok.mp hx
    cases h
    exact ⟨a, e, x, hsensitivity, henter, hexit, rfl⟩
  · rintro ⟨a, e, x, ha, he, hx, rfl⟩
    exact bind_eq_ok.mpr ⟨a, _, getOption_eq_ok.mpr ⟨ha, rfl⟩, bind_eq_ok.mpr ⟨_, _, rfl,
      bind_eq_ok.mpr ⟨e, _, getOption_eq_ok.mpr ⟨he, rfl⟩, bind_eq_ok.mpr ⟨_, _, rfl,
      bind_eq_ok.mpr ⟨x, _, getOption_eq_ok.mpr ⟨hx, rfl⟩, rfl⟩⟩⟩⟩⟩

/-- The settings after the section `Sensor`, with the counts it gives. -/
def withSensor (ptree : PTree) (p : ParkingParams) (s : Settings) : Settings :=
  { s with
    mSensorID := if ptree.getStringD ["Sensor", "SensorID"] "" = "" then s.mSensorID
      else ptree.getStringD ["Sensor", "SensorID"] ""
    ServerDataFilename := ptree.getStringD ["Sensor", "ServerData"] ""
    mTimeZone := if ptree.getStringD ["Sensor", "TimeZone"] "" = "" then "+00"
      else ptree.getStringD ["Sensor", "TimeZone"] ""
    mParkingParams := p }

theorem loadSensor_eq_ok {ptree : PTree} (hne : ptree.empty = false) {s t : Settings} :
    loadSensor ptree s = .ok () t ↔ ∃ p, Loads ptree p ∧ t = withSensor ptree p s := by
  have hrun : loadSensor ptree s = (if ptree.getStringD ["Sensor", "ServerData"] "" = "" then
      throw .noServerData else loadCounts ptree : EStateM SettingsFault Settings Unit)
        (if ptree.getStringD ["Sensor", "ServerData"] "" = "" then
          { withSensor ptree s.mParkingParams s with mTimeZone := s.mTimeZone }
        else withSensor ptree s.mParkingParams s) := by
    by_cases hserver : ptree.getStringD ["Sensor", "ServerData"] "" = ""
    · simp only [loadSensor, if_pos hserver]
      rfl
    · simp only [loadSensor, if_neg hserver]
      rfl
  rw [hrun]
  split_ifs with hserver
  · exact iff_of_false (fun h => nomatch h) fun ⟨p, hp, _⟩ => hp.server hserver
  · rw [loadCounts_eq_ok]
    constructor
    · rintro ⟨a, e, x, ha, he, hx, rfl⟩
      exact ⟨_, ⟨hne, hserver, ⟨a, ha, rfl⟩, ⟨e, he, rfl⟩, ⟨x, hx, rfl⟩⟩, rfl⟩
    · rintro ⟨p, hp, rfl⟩
      obtain ⟨a, ha, hpa⟩ := hp.sensitivity
      obtain ⟨e, he, hpe⟩ := hp.enterCount
      obtain ⟨x, hx, hpx⟩ := hp.exitCount
      exact ⟨a, e, x, ha, he, hx, by rw [← hpa, ← hpe, ← hpx]; rfl⟩

/-- `loadSettings` answers, and then true, exactly when the file gives the parameters a value. -/
theorem loadSettings_eq_ok {s t : Settings} {b : Bool} :
    loadSettings s = .ok b t ↔ b = true ∧ ∃ ptree p, s.settingsFile = some ptree ∧ Loads ptree p ∧
      t = loadCameraFile ptree (withSensor ptree p s) := by
  change (match s.settingsFile with
    | none => throw .read_ini
    | some ptree => if ptree.empty then throw .emptyFile
      else loadSensor ptree >>= fun _ => modify (loadCameraFile ptree) >>= fun _ => pure true :
        EStateM SettingsFault Settings Bool) s = _ ↔ _
  cases hfile : s.settingsFile with
  | none => exact iff_of_false (fun h => nomatch h) (by simp)
  | some ptree =>
    simp only [Option.some.injEq, exists_and_left, exists_eq_left']
    cases hempty : ptree.empty with
    | true =>
      refine iff_of_false (fun h => nomatch h) ?_
      rintro ⟨-, p, hp, -⟩
      rw [hp.nonempty] at hempty
      cases hempty
    | false =>
      constructor
      · intro h
        obtain ⟨_, s₁, hsensor, h⟩ := bind_eq_ok.mp h
        obtain ⟨p, hp, rfl⟩ := (loadSensor_eq_ok hempty).mp hsensor
        cases h
        exact ⟨rfl, p, hp, rfl⟩
      · rintro ⟨rfl, p, hp, rfl⟩
        exact bind_ok _ ((loadSensor_eq_ok hempty).mpr ⟨p, hp, rfl⟩)

/-- A section that has an option is not the empty file. -/
theorem nonempty_of_getStringD {ptree : PTree} {key : String} {path : List String}
    (h : ptree.getStringD (key :: path) "" ≠ "") : ptree.empty = false := by
  cases ptree with
  | mk data children =>
    cases children with
    | nil => exact absurd rfl h
    | cons _ _ => rfl

/-- The file gives the parameters a value exactly when it has the three counts as integers. -/
theorem exists_loads_iff {ptree : PTree} (hserver : ptree.getStringD ["Sensor", "ServerData"] "" ≠ "") :
    (∃ p, Loads ptree p) ↔ ptree.HasIntAt ["Sensor", "Sensitivity"] ∧
      ptree.HasIntAt ["Sensor", "EnterCount"] ∧ ptree.HasIntAt ["Sensor", "ExitCount"] := by
  simp only [← PTree.getIntAt_ok_iff]
  constructor
  · rintro ⟨p, hp⟩
    obtain ⟨a, ha, -⟩ := hp.sensitivity
    obtain ⟨e, he, -⟩ := hp.enterCount
    obtain ⟨x, hx, -⟩ := hp.exitCount
    exact ⟨⟨a, ha⟩, ⟨e, he⟩, ⟨x, hx⟩⟩
  · rintro ⟨⟨a, ha⟩, ⟨e, he⟩, ⟨x, hx⟩⟩
    exact ⟨⟨orDefault a 3, orDefault e 6, orDefault x 3⟩, nonempty_of_getStringD hserver, hserver,
      ⟨a, ha, rfl⟩, ⟨e, he, rfl⟩, ⟨x, hx, rfl⟩⟩

/-- When the file names the server data, `loadSettings` answers true with positive counts exactly
when the three counts are there and are integers, of any sign. -/
theorem loadSettings_complete_iff {s : Settings} {ptree : PTree}
    (hfile : s.settingsFile = some ptree)
    (hserver : ptree.getStringD ["Sensor", "ServerData"] "" ≠ "") :
    (∃ t, loadSettings s = .ok true t ∧ 0 < t.mParkingParams.sensitivity ∧
      0 < t.mParkingParams.enterCount ∧ 0 < t.mParkingParams.exitCount) ↔
      ptree.HasIntAt ["Sensor", "Sensitivity"] ∧ ptree.HasIntAt ["Sensor", "EnterCount"] ∧
        ptree.HasIntAt ["Sensor", "ExitCount"] := by
  rw [← exists_loads_iff hserver]
  constructor
  · rintro ⟨t, ht, -⟩
    obtain ⟨-, ptree', p, hfile', hp, -⟩ := loadSettings_eq_ok.mp ht
    obtain rfl := Option.some.inj (hfile.symm.trans hfile')
    exact ⟨p, hp⟩
  · rintro ⟨p, hp⟩
    exact ⟨_, loadSettings_eq_ok.mpr ⟨rfl, ptree, p, hfile, hp, rfl⟩, hp.pos⟩

/-- An option file with nothing but the section `Sensor`. -/
def withOptions (options : List (String × String)) : Settings :=
  { mSensorID := "", ServerDataFilename := "", mTimeZone := "", mParkingParams := ⟨0, 0, 0⟩,
    mFrameWidth := 0, mFrameHeight := 0, mFourCC := "", ParkingSpotROIJsonFilename := "",
    VideoFilename := "", settingsFile := some (.mk "" [("Sensor",
      .mk "" (options.map fun option => (option.1, .leaf option.2)))]) }

theorem loadSettings_complete_negative :
    ∃ t, loadSettings (withOptions [("ServerData", "server.ini"), ("Sensitivity", "-5"),
        ("EnterCount", "0"), ("ExitCount", "4")]) = .ok true t ∧
      0 < t.mParkingParams.sensitivity ∧ 0 < t.mParkingParams.enterCount ∧
      0 < t.mParkingParams.exitCount :=
  (loadSettings_complete_iff rfl (by decide)).mpr
    ⟨⟨_, -5, rfl, by decide⟩, ⟨_, 0, rfl, by decide⟩, ⟨_, 4, rfl, by decide⟩⟩

/-- Without `EnterCount` an exception leaves `loadSettings`. -/
theorem loadSettings_throws_without_enterCount :
    ∃ t, loadSettings (withOptions [("ServerData", "server.ini"), ("Sensitivity", "5"),
        ("ExitCount", "4")]) = .error (.ptree_error (.ptree_bad_path "Sensor.EnterCount")) t :=
  ⟨_, rfl⟩

/-- The counts `loadSettings` takes from the file. -/
theorem loadSettings_params {s : Settings} {p : ParkingParams} :
    (∃ t, loadSettings s = .ok true t ∧ t.mParkingParams = p) ↔
      ∃ ptree, s.settingsFile = some ptree ∧ Loads ptree p := by
  constructor
  · rintro ⟨t, ht, rfl⟩
    obtain ⟨-, ptree, p, hfile, hp, rfl⟩ := loadSettings_eq_ok.mp ht
    exact ⟨ptree, hfile, hp⟩
  · rintro ⟨ptree, hfile, hp⟩
    exact ⟨_, loadSettings_eq_ok.mpr ⟨rfl, ptree, p, hfile, hp, rfl⟩, rfl⟩

theorem toIni_eq (s : Settings) : s.toIni = PTree.mk "" [
    ("Sensor", PTree.mk "" [("SensorID", .leaf s.mSensorID),
      ("ServerData", .leaf s.ServerDataFilename), ("TimeZone", .leaf s.mTimeZone),
      ("Sensitivity", .leaf (PTree.intData s.mParkingParams.sensitivity)),
      ("EnterCount", .leaf (PTree.intData s.mParkingParams.enterCount)),
      ("ExitCount", .leaf (PTree.intData s.mParkingParams.exitCount))]),
    ("Camera", PTree.mk "" [("FrameWidth", .leaf (PTree.intData s.mFrameWidth)),
      ("FrameHeight", .leaf (PTree.intData s.mFrameHeight)), ("FourCC", .leaf s.mFourCC)]),
    ("File", PTree.mk "" [("SpotFilename", .leaf s.ParkingSpotROIJsonFilename),
      ("VideoFilename", .leaf s.VideoFilename)])] := by
  simp [toIni, PTree.put, PTree.setChild, PTree.find, PTree.children, PTree.data, PTree.nil,
    PTree.leaf]

/-- What `writeSettings` writes is read back, with the counts that are not positive replaced. -/
theorem loads_toIni {s : Settings} (hserver : s.ServerDataFilename ≠ "")
    (hs : InInt s.mParkingParams.sensitivity) (he : InInt s.mParkingParams.enterCount)
    (hx : InInt s.mParkingParams.exitCount) {p : ParkingParams} :
    Loads s.toIni p ↔ p = ⟨orDefault s.mParkingParams.sensitivity 3,
      orDefault s.mParkingParams.enterCount 6, orDefault s.mParkingParams.exitCount 3⟩ := by
  have hloads : Loads s.toIni ⟨orDefault s.mParkingParams.sensitivity 3,
      orDefault s.mParkingParams.enterCount 6, orDefault s.mParkingParams.exitCount 3⟩ := by
    rw [toIni_eq]
    exact ⟨rfl, hserver, ⟨_, PTree.getIntAt_of_descend rfl hs, rfl⟩,
      ⟨_, PTree.getIntAt_of_descend rfl he, rfl⟩, ⟨_, PTree.getIntAt_of_descend rfl hx, rfl⟩⟩
  constructor
  · intro hp
    exact hp.unique hloads
  · rintro rfl
    exact hloads

end Settings
end VisionSensor
