import VisionSensor.Main.Reporting

/-! The keys and the mouse of the debug build: the keys of `run`, and the loop of `initParkingSpots`,
where spots are drawn. Where the region of a spot comes from. -/
namespace VisionSensor
open GuardedRun

inductive MouseEvent where
  | CV_EVENT_MOUSEMOVE
  | CV_EVENT_LBUTTONDOWN
  | CV_EVENT_LBUTTONUP
  | other
  deriving DecidableEq, Repr

/-- What the callback keeps, without the window it draws in. -/
structure ROISettingCallbackData where
  roi_x0 : ℤ := 0
  roi_y0 : ℤ := 0
  roi_x1 : ℤ := 0
  roi_y1 : ℤ := 0
  start_draw : Bool := false
  roi_set : Bool := false
  deriving DecidableEq, Repr

def ROISetting_OnMouse (event : MouseEvent) (x y : ℤ) (callbackData : ROISettingCallbackData) :
    ROISettingCallbackData :=
  let callbackData :=
    if event = .CV_EVENT_LBUTTONDOWN then
      if !callbackData.start_draw then
        { callbackData with roi_x0 := x, roi_y0 := y, start_draw := true }
      else
        { callbackData with roi_x1 := x, roi_y1 := y, start_draw := false, roi_set := true }
    else callbackData
  if event = .CV_EVENT_LBUTTONUP ∧ callbackData.start_draw then
    { callbackData with roi_x1 := x, roi_y1 := y, start_draw := false, roi_set := true }
  else callbackData

/-- The region between two points. -/
def Rect.span (p q : ℤ × ℤ) : Rect :=
  ⟨if p.1 < q.1 then p.1 else q.1, if p.2 < q.2 then p.2 else q.2, |q.1 - p.1|, |q.2 - p.2|⟩

/-- The region `initParkingSpots` gives to a new spot. -/
def ROISettingCallbackData.roi (callbackData : ROISettingCallbackData) : Rect :=
  Rect.span (callbackData.roi_x0, callbackData.roi_y0) (callbackData.roi_x1, callbackData.roi_y1)

/-- The `ESC` key. -/
def escape : Char := Char.ofNat 27

def POLICY_TIMED : ParkingSpotPolicy := 1

namespace Sensor

/-- The number key: `operator[]` files a null pointer under an index without a spot, and following
it is undefined. -/
def numberKey (io : Storage) (frame : Mat) (now : Ptime) (idx : ℤ) (s : Sensor) : Option Sensor :=
  let (m, p) := s.mParkingSpotManager.index idx
  p.map fun spot =>
    if spot.isOccupied then
      let (spot, data) := spot.exit frame now
      { s with
        mParkingSpotManager := { m with
          mParkingSpots := SpotManager.setSpot idx spot m.mParkingSpots }
        mServMsgQueue := s.mServMsgQueue.push io data }
    else { s with mParkingSpotManager := m }

end Sensor

/-- Which loop of the main thread takes the keys. `initParkingSpots` has locals of its own; `outer`
holds the frame, the time and the key of the iteration of `run` that has called it. -/
inductive Loop where
  | running
  | setting (callbackData : ROISettingCallbackData) (frame : Mat) (now : Ptime)
      (outer : Mat × Ptime × Char)
  | ended

structure Console where
  sensor : Sensor
  loop : Loop := .running

namespace Console

/-- `grabbed` is what `read` gives, `id` what is typed in. -/
inductive Action where
  | iterate (env : EntryServices) (frame : Mat) (now : Ptime) (car : List Rect) (inputKey : Char)
      (grabbed : Mat × Ptime)
  | mouse (event : MouseEvent) (x y : ℤ)
  | key (key : Char) (env : EntryServices) (car : List Rect) (id : ℤ) (junk : Bool)
      (grabbed : Mat × Ptime)
  | other (action : SensorAction)

/-- The number keys in use. -/
def isNumberKey (inputKey : Char) (m : SpotManager) : Bool :=
  '1'.toNat ≤ inputKey.toNat && inputKey.toNat ≤ m.mParkingSpots.length + '0'.toNat

/-- The index a number key stands for. -/
def indexOf (inputKey : Char) : ℤ := (inputKey.toNat : ℤ) - '1'.toNat

/-- The last lines of an iteration of `run`. They look at every key that has not ended the loop. -/
def numberKeys (io : Storage) (outer : Mat × Ptime × Char) (sensor : Sensor) : Option Console :=
  if isNumberKey outer.2.2 sensor.mParkingSpotManager then
    (sensor.numberKey io outer.1 outer.2.1 (indexOf outer.2.2)).map fun sensor =>
      ⟨sensor, .running⟩
  else some ⟨sensor, .running⟩

/-- What an iteration of `run` does on its key. The key 's' is left out: it queues a synchronisation
message and touches no spot. -/
def pressed (io : Storage) (frame : Mat) (now : Ptime) (inputKey : Char) (grabbed : Mat × Ptime)
    (sensor : Sensor) : Option Console :=
  if inputKey = escape then some ⟨sensor, .ended⟩
  else if inputKey = 'i' ∨ inputKey = 'I' then
    some ⟨sensor, .setting {} grabbed.1 grabbed.2 (frame, now, inputKey)⟩
  else numberKeys io (frame, now, inputKey) sensor

/-- What `initParkingSpots` does on a key while nothing is being drawn. -/
def settingKey (io : Storage) (callbackData : ROISettingCallbackData) (frame : Mat) (now : Ptime)
    (key : Char) (env : EntryServices) (car : List Rect) (id : ℤ) (junk : Bool)
    (grabbed : Mat × Ptime) (sensor : Sensor) : Option (Sensor × Mat × Ptime) :=
  if key = 'r' ∨ key = 'R' then
    (sensor.updateSpots io env frame now car).map fun sensor => (sensor, frame, now)
  else if key = 'f' ∨ key = 'F' then some (sensor, grabbed.1, grabbed.2)
  else if key = 'a' ∨ key = 'A' then
    if !callbackData.roi_set then some (sensor, frame, now)
    else
      let (mParkingSpotManager, _) := sensor.mParkingSpotManager.add junk id
        (String.ofList ("spot".toList ++ to_string id)) 5 callbackData.roi POLICY_TIMED
      some ({ sensor with mParkingSpotManager }, frame, now)
  else if key = 'e' ∨ key = 'E' then
    match SpotManager.clear sensor.mParkingSpotManager with
    | .ok _ mParkingSpotManager => some ({ sensor with mParkingSpotManager }, frame, now)
    | .error _ _ => none
  else some (sensor, frame, now)

/-- The end of an iteration of `initParkingSpots`, and the beginning of the next or the rest of the
iteration of `run`. -/
def afterKey (io : Storage) (callbackData : ROISettingCallbackData) (key : Char)
    (outer : Mat × Ptime × Char) (result : Sensor × Mat × Ptime) : Option Console :=
  if key = escape then numberKeys io outer result.1
  else some ⟨result.1, .setting { callbackData with roi_set := false } result.2.1 result.2.2 outer⟩

def step (io : Storage) (s : Console) : Action → Option Console
  | .iterate env frame now car inputKey grabbed =>
      match s.loop with
      | .running =>
          if frame.empty then some { s with loop := .ended }
          else (s.sensor.updateSpots io env frame now car).bind
            (pressed io frame now inputKey grabbed)
      | _ => none
  | .mouse event x y =>
      match s.loop with
      | .setting callbackData frame now outer =>
          some { s with
            loop := .setting (ROISetting_OnMouse event x y callbackData) frame now outer }
      | _ => none
  | .key key env car id junk grabbed =>
      match s.loop with
      | .setting callbackData frame now outer =>
          (if callbackData.start_draw then some (s.sensor, frame, now)
            else settingKey io callbackData frame now key env car id junk grabbed s.sensor).bind
          (afterKey io callbackData key outer)
      | _ => none
  | .other action =>
      match action with
      | .frame .. => none
      | _ => (Sensor.step io s.sensor action).map fun sensor => { s with sensor }

/-- While one draws, no button changes. -/
def Action.Draws : Action → Prop
  | .mouse event _ _ => event ≠ .CV_EVENT_LBUTTONDOWN ∧ event ≠ .CV_EVENT_LBUTTONUP
  | .iterate .. => False
  | _ => True

/-- After that no key is pressed, and nothing new begun. -/
def Action.Rests : Action → Prop
  | .mouse event _ _ => event ≠ .CV_EVENT_LBUTTONDOWN
  | .other _ => True
  | _ => False

/-- The button goes down at `p`, and the drawing has ended at `q` since the last key. -/
def Drawn (past : List Action) (p q : ℤ × ℤ) : Prop :=
  ∃ before during event since,
    past = before ++ .mouse .CV_EVENT_LBUTTONDOWN p.1 p.2 ::
      (during ++ .mouse event q.1 q.2 :: since) ∧
    (event = .CV_EVENT_LBUTTONDOWN ∨ event = .CV_EVENT_LBUTTONUP) ∧
    (∀ a ∈ during, a.Draws) ∧ ∀ a ∈ since, a.Rests

/-- An action that gives a region to the spot under an id. -/
def Gives (past : List Action) (id : ℤ) (roi : Rect) : Action → Prop
  | .key key _ _ typed _ _ =>
      (key = 'a' ∨ key = 'A') ∧ typed = id ∧ ∃ p q, Drawn past p q ∧ roi = Rect.span p q
  | .other (.update _ _ _ ROIList) => ∃ e, lastEntry ROIList id = some e ∧ e.roi = roi
  | _ => False

/-- What the callback data know of the actions so far. -/
structure Pen (past : List Action) (callbackData : ROISettingCallbackData) : Prop where
  drawing : callbackData.start_draw = true → ∃ before during,
    past = before ++ .mouse .CV_EVENT_LBUTTONDOWN callbackData.roi_x0 callbackData.roi_y0 ::
      during ∧ ∀ a ∈ during, a.Draws
  drawn : callbackData.start_draw = false → callbackData.roi_set = true →
    Drawn past (callbackData.roi_x0, callbackData.roi_y0)
      (callbackData.roi_x1, callbackData.roi_y1)

/-- The pen of the loop, if it has one. -/
def Penned (past : List Action) : Loop → Prop
  | .setting callbackData _ _ _ => Pen past callbackData
  | _ => True

variable {past : List Action} {a : Action} {callbackData : ROISettingCallbackData}

theorem Drawn.rest {p q : ℤ × ℤ} (h : Drawn past p q) (ha : a.Rests) : Drawn (past ++ [a]) p q := by
  obtain ⟨before, during, event, since, rfl, hevent, hduring, hsince⟩ := h
  refine ⟨before, during, event, since ++ [a], by simp, hevent, hduring, fun b hb => ?_⟩
  rcases List.mem_append.mp hb with hb | hb
  · exact hsince b hb
  · exact List.mem_singleton.mp hb ▸ ha

/-- The second point of a drawing. -/
theorem Pen.finish (h : Pen past callbackData) (hdraw : callbackData.start_draw = true)
    {event : MouseEvent} (hevent : event = .CV_EVENT_LBUTTONDOWN ∨ event = .CV_EVENT_LBUTTONUP)
    (x y : ℤ) : Pen (past ++ [.mouse event x y])
      { callbackData with roi_x1 := x, roi_y1 := y, start_draw := false, roi_set := true } := by
  obtain ⟨before, during, rfl, hduring⟩ := h.drawing hdraw
  refine ⟨(fun hstart => nomatch hstart), fun _ _ => ?_⟩
  exact ⟨before, during, event, [], by simp, hevent, hduring, fun _ hb => nomatch hb⟩

/-- An action that leaves the callback data alone. -/
theorem Pen.rest (h : Pen past callbackData) (hdraws : callbackData.start_draw = true → a.Draws)
    (hrests : callbackData.start_draw = false → a.Rests) : Pen (past ++ [a]) callbackData := by
  refine ⟨fun hdraw => ?_, fun hdraw hset => (h.drawn hdraw hset).rest (hrests hdraw)⟩
  obtain ⟨before, during, rfl, hduring⟩ := h.drawing hdraw
  refine ⟨before, during ++ [a], by simp, fun b hb => ?_⟩
  rcases List.mem_append.mp hb with hb | hb
  · exact hduring b hb
  · exact List.mem_singleton.mp hb ▸ hdraws hdraw

theorem Pen.mouse (h : Pen past callbackData) (event : MouseEvent) (x y : ℤ) :
    Pen (past ++ [.mouse event x y]) (ROISetting_OnMouse event x y callbackData) := by
  cases hdraw : callbackData.start_draw with
  | true =>
    cases event with
    | CV_EVENT_LBUTTONDOWN | CV_EVENT_LBUTTONUP =>
      simpa [ROISetting_OnMouse, hdraw] using h.finish hdraw (by simp) x y
    | CV_EVENT_MOUSEMOVE | other =>
      simpa [ROISetting_OnMouse] using h.rest (fun _ => by simp [Action.Draws])
        (fun _ => by simp [Action.Rests])
  | false =>
    cases event with
    | CV_EVENT_LBUTTONDOWN =>
      have hbegin : ROISetting_OnMouse .CV_EVENT_LBUTTONDOWN x y callbackData =
          { callbackData with roi_x0 := x, roi_y0 := y, start_draw := true } := by
        simp [ROISetting_OnMouse, hdraw]
      rw [hbegin]
      exact ⟨fun _ => ⟨past, [], rfl, fun _ hb => nomatch hb⟩, (fun hstart => nomatch hstart)⟩
    | CV_EVENT_LBUTTONUP | CV_EVENT_MOUSEMOVE | other =>
      have hsame : ∀ event ≠ MouseEvent.CV_EVENT_LBUTTONDOWN,
          ROISetting_OnMouse event x y callbackData = callbackData := by
        intro event hevent
        simp [ROISetting_OnMouse, hdraw, hevent]
      rw [hsame _ (by decide)]
      exact h.rest (fun hstart => absurd (hdraw.symm.trans hstart) (by decide))
        (fun _ => by simp [Action.Rests])

/-- A key sets the pen down. -/
theorem Pen.key (h : Pen past callbackData) (hdraws : a.Draws) :
    Pen (past ++ [a]) { callbackData with roi_set := false } := by
  refine ⟨fun hdraw => ?_, fun _ hset => nomatch hset⟩
  obtain ⟨before, during, rfl, hduring⟩ := h.drawing hdraw
  refine ⟨before, during ++ [a], by simp, fun b hb => ?_⟩
  rcases List.mem_append.mp hb with hb | hb
  · exact hduring b hb
  · exact List.mem_singleton.mp hb ▸ hdraws

theorem pen_start (past : List Action) : Pen past {} :=
  ⟨(fun hstart => nomatch hstart), fun _ hset => nomatch hset⟩

end Console

namespace Sensor

/-- Every spot has the region it had, or one from `new`. -/
def Regions (new : ℤ → Rect → Prop) (s u : Sensor) : Prop :=
  ∀ id spot', u.mParkingSpotManager.find id = some (some spot') →
    (∃ spot, s.mParkingSpotManager.find id = some (some spot) ∧ spot'.mROI = spot.mROI) ∨
      new id spot'.mROI

variable {io : Storage} {s u : Sensor} {new : ℤ → Rect → Prop}

theorem Regions.refl (s : Sensor) : Regions new s s :=
  fun _ spot' hspot => .inl ⟨spot', hspot, rfl⟩

theorem updateSpots_regions {env : EntryServices} {frame : Mat} {now : Ptime} {car : List Rect}
    (hk : s.mParkingSpotManager.Keyed) (h : s.updateSpots io env frame now car = some u) :
    Regions new s u := by
  intro id spot' hspot'
  cases hf : s.mParkingSpotManager.find id with
  | none =>
    rw [(updateSpots_absent hk h hf).1] at hspot'
    cases hspot'
  | some p =>
    obtain ⟨spot, rfl, -⟩ := hk.owned.find hf
    obtain ⟨t, ht, hfind, -⟩ := updateSpots_row hk h hf
    obtain rfl := Option.some.inj (Option.some.inj (hfind.symm.trans hspot'))
    exact .inl ⟨spot, rfl, observe_mROI ht⟩

/-- A spot is replaced by one with its region. -/
theorem setSpot_regions {id : ℤ} {spot : ParkingSpot} (spot₁ : ParkingSpot) {q : MessageQueue}
    (hf : s.mParkingSpotManager.find id = some (some spot)) (hroi : spot₁.mROI = spot.mROI) :
    Regions new s { s with
      mParkingSpotManager := { s.mParkingSpotManager with
        mParkingSpots := SpotManager.setSpot id spot₁ s.mParkingSpotManager.mParkingSpots }
      mServMsgQueue := q } := by
  intro k spot' hspot'
  have hfind := (SpotManager.find_setSpot s.mParkingSpotManager id spot₁ k).symm.trans hspot'
  split_ifs at hfind with hki
  · rw [hf] at hfind
    obtain rfl := Option.some.inj (Option.some.inj hfind)
    exact .inl ⟨spot, hki ▸ hf, hroi⟩
  · exact .inl ⟨spot', hfind, rfl⟩

/-- What a list of spots does to the regions. -/
theorem update_regions {writable : Bool} {tables : PolicyTables} {junk : ℕ → Junk}
    {ROIList : PTree} (hk : s.mParkingSpotManager.Keyed) (hlist : WellFormed ROIList)
    (h : step io s (.update writable tables junk ROIList) = some u) :
    Regions (fun id roi => ∃ e, lastEntry ROIList id = some e ∧ e.roi = roi) s u := by
  obtain ⟨hk', -, ht⟩ := update_step hk hlist h
  have hrealises := SpotManager.realises_of_table hk hk' ht
  intro id spot' hspot'
  by_cases hlocked : ∃ spot, s.mParkingSpotManager.find id = some (some spot) ∧
      spot.mOccupied = true ∧ spot.mOverstayed = false
  · obtain ⟨spot, hspot, hlock⟩ := hlocked
    have hkept := hrealises.kept id spot spot' hspot hspot' hlock
    exact .inl ⟨spot, hspot, congrArg (fun a => a.2.1) hkept⟩
  · obtain ⟨e, he, hgiven⟩ := hrealises.given id spot' hspot' fun spot hspot hlock =>
      hlocked ⟨spot, hspot, hlock⟩
    exact .inr ⟨e, he, (congrArg (fun a => a.2.1) hgiven).symm⟩

theorem notifyExpiration_mROI (readAt : Ptime → Mat) (spot : ParkingSpot) :
    (spot.notifyExpiration readAt).1.mROI = spot.mROI := by
  unfold ParkingSpot.notifyExpiration
  split_ifs <;> rfl

theorem notifyExpiration_regions {id : ℤ} {mFrameIndexer : FrameIndexer}
    (h : s.notifyExpiration io id mFrameIndexer = some u) : Regions new s u := by
  obtain ⟨spot, hspot, rfl⟩ := Option.map_eq_some_iff.mp h
  let readAt : Ptime → Mat := fun time => (mFrameIndexer.readAt Mat.none time).2
  exact setSpot_regions (spot.notifyExpiration readAt).1 (Option.join_eq_some_iff.mp hspot)
    (notifyExpiration_mROI readAt spot)

/-- Leaving a spot keeps its region. -/
theorem numberKey_regions {frame : Mat} {now : Ptime} {idx : ℤ}
    (h : s.numberKey io frame now idx = some u) :
    ∃ spot, s.mParkingSpotManager.find idx = some (some spot) ∧ Regions new s u ∧
      (s.mParkingSpotManager.Keyed → u.mParkingSpotManager.Keyed) := by
  unfold numberKey at h
  cases hf : s.mParkingSpotManager.find idx with
  | none =>
    simp only [SpotManager.index, hf] at h
    cases h
  | some p =>
    simp only [SpotManager.index, hf] at h
    obtain ⟨spot, rfl, rfl⟩ := Option.map_eq_some_iff.mp h
    refine ⟨spot, rfl, ?_⟩
    split_ifs
    · have hid : (spot.exit frame now).1.mID = spot.mID := rfl
      exact ⟨setSpot_regions _ hf rfl, fun hk => (hk.setSpot hf hid).1⟩
    · exact ⟨Regions.refl s, id⟩

theorem clear_regions (hk : s.mParkingSpotManager.Keyed) {m : SpotManager}
    (h : SpotManager.clear s.mParkingSpotManager = .ok () m) :
    m.Keyed ∧ Regions new s { s with mParkingSpotManager := m } := by
  rw [SpotManager.clear_spec hk] at h
  obtain ⟨-, rfl⟩ := EStateM.Result.ok.inj h
  exact ⟨⟨List.nodup_nil, by simp [SpotManager.Owned]⟩, fun _ _ hspot => nomatch hspot⟩

theorem Regions.trans {t : Sensor} (h : Regions new s t) (h' : Regions new t u) :
    Regions new s u := by
  intro id spot' hspot'
  rcases h' id spot' hspot' with ⟨spot, hspot, hroi⟩ | hnew
  · rcases h id spot hspot with ⟨spot₀, hspot₀, hroi₀⟩ | hnew
    · exact .inl ⟨spot₀, hspot₀, hroi.trans hroi₀⟩
    · exact .inr (hroi ▸ hnew)
  · exact .inr hnew

/-- A spot added under an id that is free is given its region. -/
theorem add_regions {junk : Bool} {id : ℤ} {spotName : String} {timeLimit : ℤ} {roi : Rect}
    {policy : ParkingSpotPolicy} (hk : s.mParkingSpotManager.Keyed) (hnew : new id roi) :
    (s.mParkingSpotManager.add junk id spotName timeLimit roi policy).1.Keyed ∧
      Regions new s { s with
        mParkingSpotManager :=
          (s.mParkingSpotManager.add junk id spotName timeLimit roi policy).1 } := by
  refine ⟨(hk.add junk { id, timeLimit, spotName, policy, roi }).1, fun k spot' hspot' => ?_⟩
  dsimp only at hspot'
  unfold SpotManager.add SpotManager.find at hspot'
  split_ifs at hspot'
  · exact .inl ⟨spot', hspot', rfl⟩
  · rw [List.lookup_append] at hspot'
    rcases Option.or_eq_some_iff.mp hspot' with hold | ⟨-, hadded⟩
    · exact .inl ⟨spot', hold, rfl⟩
    · by_cases hki : k = id
      · subst hki
        simp only [List.lookup_cons, beq_self_eq_true] at hadded
        obtain rfl := Option.some.inj (Option.some.inj hadded)
        exact .inr hnew
      · have hother : (k == id) = false := beq_eq_false_iff_ne.mpr hki
        simp [List.lookup_cons, hother] at hadded

theorem step_regions {a : SensorAction} (hk : s.mParkingSpotManager.Keyed) (ha : a.ListWellFormed)
    (hnew : ∀ writable tables junk ROIList, a = .update writable tables junk ROIList →
      ∀ id e, lastEntry ROIList id = some e → new id e.roi)
    (h : step io s a = some u) : Regions new s u := by
  cases a with
  | frame env frame now car =>
    simp only [step] at h
    split_ifs at h
    exact updateSpots_regions hk h
  | setThresholds statics =>
    obtain rfl := Option.some.inj h
    exact Regions.refl s
  | update writable tables junk ROIList =>
    intro id spot' hspot'
    rcases update_regions hk ha h id spot' hspot' with hold | ⟨e, he, hroi⟩
    · exact .inl hold
    · exact .inr (hroi ▸ hnew writable tables junk ROIList rfl id e he)
  | notifyExpiration id mFrameIndexer => exact notifyExpiration_regions h
  | try_pop listing | wait_and_pop listing | wake =>
    obtain ⟨q, -, rfl⟩ := Option.map_eq_some_iff.mp h
    exact Regions.refl s

end Sensor

namespace Console

variable {io : Storage} {s t u : Console} {past : List Action} {a : Action}
  {new : ℤ → Rect → Prop}

/-- A list that comes with an action is well formed. -/
def Action.ListWellFormed : Action → Prop
  | .other action => action.ListWellFormed
  | _ => True

theorem numberKeys_spec {outer : Mat × Ptime × Char} {sensor : Sensor}
    (hk : sensor.mParkingSpotManager.Keyed) (h : numberKeys io outer sensor = some t) :
    t.sensor.mParkingSpotManager.Keyed ∧ Sensor.Regions new sensor t.sensor ∧ t.loop = .running := by
  unfold numberKeys at h
  split_ifs at h
  · obtain ⟨sensor', hsensor, rfl⟩ := Option.map_eq_some_iff.mp h
    obtain ⟨spot, -, hregions, hkeyed⟩ := Sensor.numberKey_regions hsensor
    exact ⟨hkeyed hk, hregions, rfl⟩
  · obtain rfl := Option.some.inj h
    exact ⟨hk, Sensor.Regions.refl _, rfl⟩

theorem pressed_spec {frame : Mat} {now : Ptime} {inputKey : Char} {grabbed : Mat × Ptime}
    {sensor : Sensor} (hk : sensor.mParkingSpotManager.Keyed)
    (h : pressed io frame now inputKey grabbed sensor = some t) :
    t.sensor.mParkingSpotManager.Keyed ∧ Sensor.Regions new sensor t.sensor ∧
      (t.loop = .running ∨ t.loop = .ended ∨
        t.loop = .setting {} grabbed.1 grabbed.2 (frame, now, inputKey)) := by
  unfold pressed at h
  split_ifs at h
  · obtain rfl := Option.some.inj h
    exact ⟨hk, Sensor.Regions.refl _, .inr (.inl rfl)⟩
  · obtain rfl := Option.some.inj h
    exact ⟨hk, Sensor.Regions.refl _, .inr (.inr rfl)⟩
  · obtain ⟨hkeyed, hregions, hloop⟩ := numberKeys_spec hk h
    exact ⟨hkeyed, hregions, .inl hloop⟩

theorem settingKey_spec {callbackData : ROISettingCallbackData} {frame : Mat} {now : Ptime}
    {key : Char} {env : EntryServices} {car : List Rect} {id : ℤ} {junk : Bool}
    {grabbed : Mat × Ptime} {sensor : Sensor} {result : Sensor × Mat × Ptime}
    (hk : sensor.mParkingSpotManager.Keyed)
    (hnew : key = 'a' ∨ key = 'A' → callbackData.roi_set = true → new id callbackData.roi)
    (h : settingKey io callbackData frame now key env car id junk grabbed sensor = some result) :
    result.1.mParkingSpotManager.Keyed ∧ Sensor.Regions new sensor result.1 ∧
      (result.2.1 = frame ∨ result.2.1 = grabbed.1) := by
  unfold settingKey at h
  split_ifs at h with hr hf ha hset he
  · obtain ⟨sensor', hsensor, rfl⟩ := Option.map_eq_some_iff.mp h
    exact ⟨(Sensor.updateSpots_reports hk hsensor).keyed, Sensor.updateSpots_regions hk hsensor,
      .inl rfl⟩
  · obtain rfl := Option.some.inj h
    exact ⟨hk, Sensor.Regions.refl _, .inr rfl⟩
  · obtain rfl := Option.some.inj h
    exact ⟨hk, Sensor.Regions.refl _, .inl rfl⟩
  · obtain rfl := Option.some.inj h
    obtain ⟨hkeyed, hregions⟩ := Sensor.add_regions hk (hnew ha (by simpa using hset))
    exact ⟨hkeyed, hregions, .inl rfl⟩
  · split at h
    · obtain rfl := Option.some.inj h
      obtain ⟨hkeyed, hregions⟩ := Sensor.clear_regions hk ‹_›
      exact ⟨hkeyed, hregions, .inl rfl⟩
    · cases h
  · obtain rfl := Option.some.inj h
    exact ⟨hk, Sensor.Regions.refl _, .inl rfl⟩

/-- Where the callback data and the frame of `initParkingSpots` come from. -/
inductive Setting : Loop → Action → ROISettingCallbackData → Mat → Prop
  | start {env : EntryServices} {frame : Mat} {now : Ptime} {car : List Rect} {inputKey : Char}
      {grabbed : Mat × Ptime} :
      Setting .running (.iterate env frame now car inputKey grabbed) {} grabbed.1
  | mouse {callbackData : ROISettingCallbackData} {frame : Mat} {now : Ptime}
      {outer : Mat × Ptime × Char} {event : MouseEvent} {x y : ℤ} :
      Setting (.setting callbackData frame now outer) (.mouse event x y)
        (ROISetting_OnMouse event x y callbackData) frame
  | key {callbackData : ROISettingCallbackData} {frame frame' : Mat} {now : Ptime}
      {outer : Mat × Ptime × Char} {key : Char} {env : EntryServices} {car : List Rect} {id : ℤ}
      {junk : Bool} {grabbed : Mat × Ptime} (h : frame' = frame ∨ frame' = grabbed.1) :
      Setting (.setting callbackData frame now outer) (.key key env car id junk grabbed)
        { callbackData with roi_set := false } frame'
  | other {callbackData : ROISettingCallbackData} {frame : Mat} {now : Ptime}
      {outer : Mat × Ptime × Char} {action : SensorAction} :
      Setting (.setting callbackData frame now outer) (.other action) callbackData frame

/-- The regions a step may give. -/
def Adds : Loop → Action → ℤ → Rect → Prop
  | .setting callbackData _ _ _, .key key _ _ typed _ _, id, roi =>
      (key = 'a' ∨ key = 'A') ∧ typed = id ∧ callbackData.start_draw = false ∧
        callbackData.roi_set = true ∧ callbackData.roi = roi
  | _, .other (.update _ _ _ ROIList), id, roi => ∃ e, lastEntry ROIList id = some e ∧ e.roi = roi
  | _, _, _, _ => False

/-- Everything later proofs need of a step. -/
theorem step_spec (hk : s.sensor.mParkingSpotManager.Keyed) (ha : a.ListWellFormed)
    (ht : step io s a = some t) :
    t.sensor.mParkingSpotManager.Keyed ∧ Sensor.Regions (Adds s.loop a) s.sensor t.sensor ∧
      ∀ callbackData frame now outer, t.loop = .setting callbackData frame now outer →
        Setting s.loop a callbackData frame := by
  obtain ⟨sensor, loop⟩ := s
  cases a with
  | iterate env frame now car inputKey grabbed =>
    cases loop with
    | setting callbackData frame now outer => cases ht
    | ended => cases ht
    | running =>
      simp only [step] at ht
      split_ifs at ht
      · obtain rfl := Option.some.inj ht
        exact ⟨hk, Sensor.Regions.refl _, fun _ _ _ _ hloop => nomatch hloop⟩
      · obtain ⟨sensor', hsensor, hpressed⟩ := Option.bind_eq_some_iff.mp ht
        have hkeyed := (Sensor.updateSpots_reports hk hsensor).keyed
        obtain ⟨hk', hregions, hloop⟩ := pressed_spec hkeyed hpressed
        refine ⟨hk', (Sensor.updateSpots_regions hk hsensor).trans hregions, ?_⟩
        intro callbackData frame' now' outer hsetting
        rcases hloop with hloop | hloop | hloop
        · cases hsetting.symm.trans hloop
        · cases hsetting.symm.trans hloop
        · cases hsetting.symm.trans hloop
          exact .start
  | mouse event x y =>
    cases loop with
    | running => cases ht
    | ended => cases ht
    | setting callbackData frame now outer =>
      obtain rfl := Option.some.inj ht
      refine ⟨hk, Sensor.Regions.refl _, fun _ _ _ _ hloop => ?_⟩
      cases hloop
      exact .mouse
  | key key env car id junk grabbed =>
    cases loop with
    | running => cases ht
    | ended => cases ht
    | setting callbackData frame now outer =>
      obtain ⟨result, hresult, hafter⟩ := Option.bind_eq_some_iff.mp ht
      have hspec : result.1.mParkingSpotManager.Keyed ∧ Sensor.Regions
          (Adds (.setting callbackData frame now outer) (.key key env car id junk grabbed))
            sensor result.1 ∧ (result.2.1 = frame ∨ result.2.1 = grabbed.1) := by
        split_ifs at hresult with hdraw
        · obtain rfl := Option.some.inj hresult
          exact ⟨hk, Sensor.Regions.refl _, .inl rfl⟩
        · exact settingKey_spec hk (fun hkey hset => ⟨hkey, rfl, by simpa using hdraw, hset, rfl⟩)
            hresult
      obtain ⟨hkeyed, hregions, hframe⟩ := hspec
      unfold afterKey at hafter
      split_ifs at hafter
      · obtain ⟨hk', hnumber, hloop⟩ := numberKeys_spec hkeyed hafter
        exact ⟨hk', hregions.trans hnumber, fun _ _ _ _ hsetting => nomatch hsetting.symm.trans hloop⟩
      · obtain rfl := Option.some.inj hafter
        refine ⟨hkeyed, hregions, fun _ _ _ _ hloop => ?_⟩
        cases hloop
        exact .key hframe
  | other action =>
    obtain ⟨sensor', hsensor, rfl⟩ : ∃ sensor', Sensor.step io sensor action = some sensor' ∧
        (⟨sensor', loop⟩ : Console) = t := by
      cases action with
      | frame => cases ht
      | _ => exact Option.map_eq_some_iff.mp ht
    refine ⟨(Sensor.step_reflects 0 hk ha hsensor).1, ?_, fun _ _ _ _ hloop => ?_⟩
    · refine Sensor.step_regions hk ha (fun writable tables junk ROIList haction id e he => ?_) hsensor
      subst haction
      cases loop <;> exact ⟨e, he, rfl⟩
    · obtain rfl : loop = .setting _ _ _ _ := hloop
      exact .other

theorem step_penned (hk : s.sensor.mParkingSpotManager.Keyed) (hpen : Penned past s.loop)
    (ha : a.ListWellFormed) (ht : step io s a = some t) : Penned (past ++ [a]) t.loop := by
  have hsetting := (step_spec hk ha ht).2.2
  cases hloop : t.loop with
  | running => trivial
  | ended => trivial
  | setting callbackData frame now outer =>
    have hfrom := hsetting callbackData frame now outer hloop
    generalize s.loop = l at hpen hfrom
    cases hfrom with
    | start => exact pen_start _
    | mouse => exact Pen.mouse hpen _ _ _
    | key => exact Pen.key hpen trivial
    | other => exact Pen.rest hpen (fun _ => trivial) (fun _ => trivial)

/-- Where a step gives a region, it is drawn or listed. -/
theorem adds_gives {id : ℤ} {roi : Rect} (hpen : Penned past s.loop)
    (h : Adds s.loop a id roi) : Gives past id roi a := by
  generalize s.loop = l at hpen h
  cases a with
  | iterate => cases l <;> exact h.elim
  | mouse => cases l <;> exact h.elim
  | key key env car typed junk grabbed =>
    cases l with
    | running => exact h.elim
    | ended => exact h.elim
    | setting callbackData frame now outer =>
      obtain ⟨hkey, hid, hdraw, hset, rfl⟩ := h
      exact ⟨hkey, hid, _, _, Pen.drawn hpen hdraw hset, rfl⟩
  | other action =>
    cases action with
    | update => cases l <;> exact h
    | _ => cases l <;> exact h.elim

/-- The regions over a run, with what was done before it. -/
theorem run_gives {as : List Action} (hk : s.sensor.mParkingSpotManager.Keyed)
    (hpen : Penned past s.loop) (hlists : ∀ a ∈ as, a.ListWellFormed)
    (hu : exec (step io) s as = some u) :
    Sensor.Regions (fun id roi => ∃ before a after, as = before ++ a :: after ∧
      Gives (past ++ before) id roi a) s.sensor u.sensor := by
  induction as generalizing s past with
  | nil =>
    obtain rfl : s = u := by simpa using hu
    exact Sensor.Regions.refl _
  | cons a as ih =>
    obtain ⟨t, ht, hrest⟩ := Option.bind_eq_some_iff.mp hu
    obtain ⟨hk', hstep, -⟩ := step_spec hk (hlists a List.mem_cons_self) ht
    have hpen' := step_penned hk hpen (hlists a List.mem_cons_self) ht
    have hrun := ih hk' hpen' (fun b hb => hlists b (List.mem_cons_of_mem _ hb)) hrest
    intro id spot' hspot'
    rcases hrun id spot' hspot' with ⟨spot, hspot, hroi⟩ | ⟨before, b, after, rfl, hgives⟩
    · rcases hstep id spot hspot with ⟨spot₀, hspot₀, hroi₀⟩ | hadds
      · exact .inl ⟨spot₀, hspot₀, hroi.trans hroi₀⟩
      · refine .inr ⟨[], a, as, rfl, ?_⟩
        rw [List.append_nil, hroi]
        exact adds_gives hpen hadds
    · refine .inr ⟨a :: before, b, after, rfl, ?_⟩
      rwa [List.append_assoc, List.singleton_append] at hgives

/-- The region of every spot is the one it had at the start, or that of an entry of a management
update, or it has been drawn: between the point where the button went down and the one where it next
changed, with no key after that until the spot was added. -/
theorem region_given {as : List Action} (hk : s.sensor.mParkingSpotManager.Keyed)
    (hrunning : s.loop = .running) (hlists : ∀ a ∈ as, a.ListWellFormed)
    (hu : exec (step io) s as = some u) {id : ℤ} {spot : ParkingSpot}
    (hspot : u.sensor.mParkingSpotManager.find id = some (some spot)) :
    (∃ spot₀, s.sensor.mParkingSpotManager.find id = some (some spot₀) ∧
        spot.mROI = spot₀.mROI) ∨
      ∃ before a after, as = before ++ a :: after ∧ Gives before id spot.mROI a := by
  have hpen : Penned [] s.loop := by
    rw [hrunning]
    trivial
  exact run_gives hk hpen hlists hu id spot hspot

/-- A spot is drawn from the lower right to the upper left, and added as spot 3. -/
def drawSpot : List Action :=
  [.iterate ⟨fun _ => false, fun _ _ => 0, fun _ => []⟩ ⟨20, 10, []⟩ (some 7) [] 'i'
      (⟨20, 10, []⟩, some 7),
    .mouse .CV_EVENT_LBUTTONDOWN 5 4, .mouse .CV_EVENT_MOUSEMOVE 3 2, .mouse .CV_EVENT_LBUTTONUP 2 1,
    .key 'a' ⟨fun _ => false, fun _ _ => 0, fun _ => []⟩ [] 3 false (⟨20, 10, []⟩, some 7),
    .key escape ⟨fun _ => false, fun _ _ => 0, fun _ => []⟩ [] 0 false (⟨20, 10, []⟩, some 7)]

theorem region_given_drawSpot :
    ∃ u spot, exec (step MessageQueue.epochDisk) { sensor := Sensor.oneSpot } drawSpot = some u ∧
      u.sensor.mParkingSpotManager.find 3 = some (some spot) ∧ spot.mROI = ⟨2, 1, 3, 3⟩ ∧
      ∃ before a after, drawSpot = before ++ a :: after ∧ Gives before 3 ⟨2, 1, 3, 3⟩ a := by
  obtain ⟨u, hu, spot, hspot, hroi⟩ : ∃ u ∈ exec (step MessageQueue.epochDisk)
      { sensor := Sensor.oneSpot } drawSpot,
      ∃ spot ∈ (u.sensor.mParkingSpotManager.find 3).join, spot.mROI = ⟨2, 1, 3, 3⟩ := by
    decide +kernel
  have hfind := Option.join_eq_some_iff.mp hspot
  have hlists : ∀ a ∈ drawSpot, a.ListWellFormed := by
    intro a ha
    simp only [drawSpot, List.mem_cons, List.not_mem_nil, or_false] at ha
    rcases ha with rfl | rfl | rfl | rfl | rfl | rfl <;> trivial
  refine ⟨u, spot, hu, hfind, hroi, ?_⟩
  rcases region_given Sensor.oneSpot_atStart.reported.keyed rfl hlists hu hfind with
    ⟨spot₀, hspot₀, -⟩ | hgiven
  · have hnone : Sensor.oneSpot.mParkingSpotManager.find 3 = none := by decide
    cases hnone.symm.trans hspot₀
  · rwa [hroi] at hgiven

end Console
end VisionSensor
