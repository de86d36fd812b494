import VisionSensor.Main.Console
import VisionSensor.Spot.EntryCrop

/-! When the debug build goes on. With pictures of one size and regions inside them no crop throws,
and what is left is `operator[]` under a number key without a spot. -/
namespace VisionSensor
open GuardedRun

/-- The region lies in the pictures of a size. -/
def Rect.In (rows cols : ℕ) (roi : Rect) : Prop :=
  0 ≤ roi.x ∧ 0 ≤ roi.width ∧ roi.x + roi.width ≤ cols ∧
    0 ≤ roi.y ∧ 0 ≤ roi.height ∧ roi.y + roi.height ≤ rows

def Mat.Sized (rows cols : ℕ) (image : Mat) : Prop := image.rows = rows ∧ image.cols = cols

/-- The point lies in the window, or on its border. -/
def InWindow (rows cols : ℕ) (p : ℤ × ℤ) : Prop := 0 ≤ p.1 ∧ p.1 ≤ cols ∧ 0 ≤ p.2 ∧ p.2 ≤ rows

variable {rows cols : ℕ}

theorem Rect.In.inside {roi : Rect} {image : Mat} (h : roi.In rows cols)
    (himage : image.Sized rows cols) : roi.Inside image := by
  obtain ⟨rfl, rfl⟩ := himage
  exact h

/-- What is drawn in the window lies in the picture. -/
theorem Rect.span_in {p q : ℤ × ℤ} (hp : InWindow rows cols p) (hq : InWindow rows cols q) :
    (Rect.span p q).In rows cols := by
  obtain ⟨hp₁, hp₂, hp₃, hp₄⟩ := hp
  obtain ⟨hq₁, hq₂, hq₃, hq₄⟩ := hq
  have hwidth := abs_eq_max_neg (a := q.1 - p.1)
  have hheight := abs_eq_max_neg (a := q.2 - p.2)
  unfold Rect.In Rect.span
  dsimp only
  rw [hwidth, hheight]
  have hx : 0 ≤ max (q.1 - p.1) (-(q.1 - p.1)) := by omega
  have hy : 0 ≤ max (q.2 - p.2) (-(q.2 - p.2)) := by omega
  refine ⟨?_, hx, ?_, ?_, hy, ?_⟩ <;> split_ifs <;> omega

namespace Sensor

variable {io : Storage} {s u : Sensor} {env : EntryServices} {frame : Mat} {now : Ptime}
  {car : List Rect}

/-- A spot whose region lies in the picture can be observed. -/
theorem observe_isSome {statics : Thresholds} {spot : ParkingSpot} (h : spot.mROI.Inside frame)
    (b : Bool) : ((spotState statics spot).observe env b frame now).isSome := by
  have hupdate := update_mROI statics spot b
  unfold SpotState.observe spotState
  generalize spot.update statics b = up at hupdate
  obtain ⟨spot₁, updated⟩ := up
  have hinside : spot₁.mROI.Inside frame := hupdate ▸ h
  have henter : (spot₁.enter env frame spot₁.mROI now "null").isSome := by
    rw [← Option.ne_none_iff_isSome, Ne, ParkingSpot.enter_eq_none_iff]
    exact fun houtside => houtside.2 hinside
  dsimp only
  split_ifs
  · rw [Option.isSome_map]
    exact henter
  · rfl
  · rfl

theorem pass_isSome {statics : Thresholds} {list : List ParkingSpot}
    (h : ∀ spot ∈ list, spot.mROI.Inside frame) :
    (VisionSensor.updateSpots env frame now car (list.map (spotState statics))).isSome := by
  induction list with
  | nil => rfl
  | cons spot list ih =>
    have hobserve : ((spotState statics spot).observe env (localizer_detect car spot.mROI).1 frame
        now).isSome := observe_isSome (h spot List.mem_cons_self) _
    obtain ⟨t, ht⟩ := Option.isSome_iff_exists.mp hobserve
    obtain ⟨ts, hts⟩ := Option.isSome_iff_exists.mp
      (ih fun spot' hspot' => h spot' (List.mem_cons_of_mem _ hspot'))
    have hpass : VisionSensor.updateSpots env frame now car
        ((spot :: list).map (spotState statics)) =
          ((spotState statics spot).observe env (localizer_detect car spot.mROI).1 frame now).bind
            fun t => (VisionSensor.updateSpots env frame now car (list.map (spotState statics))).map
              fun ts => ((localizer_detect car spot.mROI).1, t) :: ts := rfl
    rw [hpass, ht, Option.bind_some, hts]
    rfl

/-- Every spot of the map has its region in pictures of the size. -/
def RegionsIn (rows cols : ℕ) (s : Sensor) : Prop :=
  ∀ id spot, s.mParkingSpotManager.find id = some (some spot) → spot.mROI.In rows cols

theorem mapM_snd_isSome {spots : SpotMap}
    (hown : ∀ e ∈ spots, ∃ s, e.2 = some s ∧ s.mID = e.1) : (spots.mapM Prod.snd).isSome := by
  induction spots with
  | nil => rfl
  | cons e spots ih =>
    obtain ⟨spot, hspot, -⟩ := hown e List.mem_cons_self
    obtain ⟨list, hlist⟩ := Option.isSome_iff_exists.mp
      (ih fun e' he' => hown e' (List.mem_cons_of_mem _ he'))
    rw [List.mapM_cons, hspot, hlist]
    rfl

theorem updateSpots_isSome (hk : s.mParkingSpotManager.Keyed) (hs : s.RegionsIn rows cols)
    (hframe : frame.Sized rows cols) : (s.updateSpots io env frame now car).isSome := by
  obtain ⟨list, hlist⟩ := Option.isSome_iff_exists.mp (mapM_snd_isSome hk.owned)
  have hinside : ∀ spot ∈ list, spot.mROI.Inside frame := by
    intro spot hspot
    have hmem : (spot.mID, some spot) ∈ s.mParkingSpotManager.mParkingSpots := by
      rw [eq_map_filed hk.owned hlist]
      exact List.mem_map_of_mem hspot
    exact (hs spot.mID spot (KeyedTable.lookup_of_mem hk.distinct hmem)).inside hframe
  have hpass : (VisionSensor.updateSpots env frame now car
      (list.map (spotState s.statics))).isSome := pass_isSome hinside
  obtain ⟨states, hstates⟩ := Option.isSome_iff_exists.mp hpass
  unfold updateSpots
  rw [hlist, Option.bind_some, hstates]
  rfl

/-- A pass keeps the ids. -/
theorem updateSpots_ids (hk : s.mParkingSpotManager.Keyed)
    (h : s.updateSpots io env frame now car = some u) :
    u.mParkingSpotManager.mParkingSpots.map Prod.fst =
      s.mParkingSpotManager.mParkingSpots.map Prod.fst := by
  obtain ⟨list, hlist, h⟩ := Option.bind_eq_some_iff.mp h
  obtain ⟨states, hstates, rfl⟩ := Option.map_eq_some_iff.mp h
  obtain ⟨hmap, hids⟩ := passMap_filed hstates
  have hfiled := eq_map_filed hk.owned hlist
  rw [← hfiled] at hmap
  rw [hmap, hfiled, List.map_map, List.map_map]
  exact hids

theorem Regions.regionsIn {new : ℤ → Rect → Prop} (h : Regions new s u)
    (hs : s.RegionsIn rows cols) (hnew : ∀ id roi, new id roi → roi.In rows cols) :
    u.RegionsIn rows cols := by
  intro id spot' hspot'
  rcases h id spot' hspot' with ⟨spot, hspot, hroi⟩ | hgiven
  · exact hroi ▸ hs id spot hspot
  · exact hnew id _ hgiven

theorem numberKey_isSome_iff {idx : ℤ} (hk : s.mParkingSpotManager.Keyed) :
    (s.numberKey io frame now idx).isSome ↔ (s.mParkingSpotManager.find idx).isSome := by
  unfold numberKey SpotManager.index
  cases hf : s.mParkingSpotManager.find idx with
  | none => simp
  | some p =>
    obtain ⟨spot, rfl, -⟩ := hk.owned.find hf
    simp

/-- A pass keeps the number keys and what they find. -/
theorem updateSpots_find_isSome (hk : s.mParkingSpotManager.Keyed)
    (h : s.updateSpots io env frame now car = some u) (id : ℤ) :
    (u.mParkingSpotManager.find id).isSome ↔ (s.mParkingSpotManager.find id).isSome := by
  unfold SpotManager.find
  rw [KeyedTable.lookup_isSome_iff, KeyedTable.lookup_isSome_iff, updateSpots_ids hk h]

end Sensor

namespace Console

variable {io : Storage} {s t u : Console} {a : Action}

/-- A list lies in the pictures. -/
def ListIn (rows cols : ℕ) : SensorAction → Prop
  | .update _ _ _ ROIList => WellFormed ROIList ∧ ∀ e ∈ entries ROIList, e.roi.In rows cols
  | _ => True

/-- The pictures have one size, the mouse stays in the window, and lists lie in the pictures. -/
def Action.Proper (rows cols : ℕ) : Action → Prop
  | .iterate _ frame _ _ _ grabbed => frame.Sized rows cols ∧ grabbed.1.Sized rows cols
  | .mouse _ x y => InWindow rows cols (x, y)
  | .key _ _ _ _ _ grabbed => grabbed.1.Sized rows cols
  | .other action => ListIn rows cols action

/-- Everything that is or can become a region lies in the pictures. -/
structure Safe (rows cols : ℕ) (s : Console) : Prop where
  keyed : s.sensor.mParkingSpotManager.Keyed
  regions : s.sensor.RegionsIn rows cols
  setting : ∀ callbackData frame now outer, s.loop = .setting callbackData frame now outer →
    frame.Sized rows cols ∧ InWindow rows cols (callbackData.roi_x0, callbackData.roi_y0) ∧
      InWindow rows cols (callbackData.roi_x1, callbackData.roi_y1)

/-- The loop takes the action. -/
def Accepts : Loop → Action → Prop
  | .running, .iterate .. => True
  | .setting .., .mouse .. => True
  | .setting .., .key .. => True
  | _, _ => False

/-- The index `operator[]` is called with, if it is. -/
def indexed (s : Console) : Action → Option ℤ
  | .iterate _ frame _ _ inputKey _ =>
      if frame.empty ∨ inputKey = escape ∨ inputKey = 'i' ∨ inputKey = 'I' then none
      else if isNumberKey inputKey s.sensor.mParkingSpotManager then some (indexOf inputKey)
      else none
  | .key key _ _ _ _ _ =>
      match s.loop with
      | .setting _ _ _ outer =>
          if key = escape ∧ isNumberKey outer.2.2 s.sensor.mParkingSpotManager then
            some (indexOf outer.2.2)
          else none
      | _ => none
  | _ => none

theorem Action.Proper.listWellFormed (h : a.Proper rows cols) : a.ListWellFormed := by
  cases a with
  | iterate | mouse | key => trivial
  | other action =>
    cases action with
    | update => exact h.1
    | _ => trivial

theorem inWindow_start : InWindow rows cols (0, 0) := by
  refine ⟨?_, ?_, ?_, ?_⟩ <;> simp

theorem adds_in {id : ℤ} {roi : Rect} (hs : s.Safe rows cols) (ha : a.Proper rows cols)
    (h : Adds s.loop a id roi) : roi.In rows cols := by
  have hsetting := hs.setting
  generalize s.loop = l at h hsetting
  cases a with
  | iterate => cases l <;> exact h.elim
  | mouse => cases l <;> exact h.elim
  | key key env car typed junk grabbed =>
    cases l with
    | running => exact h.elim
    | ended => exact h.elim
    | setting callbackData frame now outer =>
      obtain ⟨-, -, -, -, rfl⟩ := h
      obtain ⟨-, hfirst, hsecond⟩ := hsetting callbackData frame now outer rfl
      exact Rect.span_in hfirst hsecond
  | other action =>
    cases action with
    | update writable tables junk ROIList =>
      have hlisted : ∃ e, lastEntry ROIList id = some e ∧ e.roi = roi := by
        cases l <;> exact h
      obtain ⟨e, he, rfl⟩ := hlisted
      exact ha.2 e (KeyedTable.mem_under.mp (List.mem_of_getLast? he)).1
    | _ => cases l <;> exact h.elim

theorem mouse_inWindow {callbackData : ROISettingCallbackData} {x y : ℤ} (event : MouseEvent)
    (hfirst : InWindow rows cols (callbackData.roi_x0, callbackData.roi_y0))
    (hsecond : InWindow rows cols (callbackData.roi_x1, callbackData.roi_y1))
    (hmouse : InWindow rows cols (x, y)) :
    let moved := ROISetting_OnMouse event x y callbackData
    InWindow rows cols (moved.roi_x0, moved.roi_y0) ∧
      InWindow rows cols (moved.roi_x1, moved.roi_y1) := by
  simp only [ROISetting_OnMouse]
  split_ifs <;> first | exact ⟨hfirst, hsecond⟩ | exact ⟨hmouse, hsecond⟩ |
    exact ⟨hfirst, hmouse⟩ | exact ⟨hmouse, hmouse⟩

theorem Safe.step (hs : s.Safe rows cols) (ha : a.Proper rows cols)
    (ht : Console.step io s a = some t) : t.Safe rows cols := by
  obtain ⟨hkeyed, hregions, hsetting⟩ := step_spec hs.keyed ha.listWellFormed ht
  refine ⟨hkeyed, hregions.regionsIn hs.regions fun _ _ => adds_in hs ha, ?_⟩
  intro callbackData frame now outer hloop
  have hfrom := hsetting callbackData frame now outer hloop
  have hold := hs.setting
  generalize s.loop = l at hfrom hold
  cases hfrom with
  | start => exact ⟨ha.2, inWindow_start, inWindow_start⟩
  | mouse =>
    obtain ⟨hframe, hfirst, hsecond⟩ := hold _ _ _ _ rfl
    exact ⟨hframe, mouse_inWindow _ hfirst hsecond ha⟩
  | key hgrabbed =>
    obtain ⟨hframe, hfirst, hsecond⟩ := hold _ _ _ _ rfl
    rcases hgrabbed with rfl | rfl
    · exact ⟨hframe, hfirst, hsecond⟩
    · exact ⟨ha, hfirst, hsecond⟩
  | other => exact hold _ _ _ _ rfl

theorem numberKeys_isSome_iff {outer : Mat × Ptime × Char} {sensor : Sensor}
    (hk : sensor.mParkingSpotManager.Keyed) : (numberKeys io outer sensor).isSome ↔
      (isNumberKey outer.2.2 sensor.mParkingSpotManager = true →
        (sensor.mParkingSpotManager.find (indexOf outer.2.2)).isSome) := by
  unfold numberKeys
  split_ifs with hnumber
  · rw [Option.isSome_map, Sensor.numberKey_isSome_iff hk]
    exact ⟨fun hfind _ => hfind, fun hfind => hfind hnumber⟩
  · exact iff_of_true rfl fun h => absurd h hnumber

theorem isNumberKey_congr {m m' : SpotManager}
    (h : m'.mParkingSpots.map Prod.fst = m.mParkingSpots.map Prod.fst) (inputKey : Char) :
    isNumberKey inputKey m' = isNumberKey inputKey m := by
  have hlength := congrArg List.length h
  rw [List.length_map, List.length_map] at hlength
  unfold isNumberKey
  rw [hlength]

theorem iterate_isSome_iff {env : EntryServices} {frame : Mat} {now : Ptime} {car : List Rect}
    {inputKey : Char} {grabbed : Mat × Ptime} (hs : s.Safe rows cols)
    (hframe : frame.Sized rows cols) (hloop : s.loop = .running) :
    (step io s (.iterate env frame now car inputKey grabbed)).isSome ↔
      ∀ idx, indexed s (.iterate env frame now car inputKey grabbed) = some idx →
        (s.sensor.mParkingSpotManager.find idx).isSome := by
  have hpass : (s.sensor.updateSpots io env frame now car).isSome :=
    Sensor.updateSpots_isSome hs.keyed hs.regions hframe
  obtain ⟨sensor, hsensor⟩ := Option.isSome_iff_exists.mp hpass
  have hkeyed := (Sensor.updateSpots_reports hs.keyed hsensor).keyed
  have hnumber := isNumberKey_congr (Sensor.updateSpots_ids hs.keyed hsensor) inputKey
  have hfind := Sensor.updateSpots_find_isSome hs.keyed hsensor (indexOf inputKey)
  simp only [step, hloop, indexed, hsensor, Option.bind_some]
  by_cases hempty : frame.empty = true
  · simp [hempty]
  by_cases hescape : inputKey = escape
  · simp [pressed, hempty, hescape]
  by_cases hinit : inputKey = 'i' ∨ inputKey = 'I'
  · simp [pressed, hempty, hescape, hinit]
  rw [if_neg hempty, if_neg (by simp [hempty, hescape, hinit])]
  simp only [pressed, if_neg hescape, if_neg hinit, numberKeys_isSome_iff hkeyed, hnumber, hfind]
  cases isNumberKey inputKey s.sensor.mParkingSpotManager <;> simp

/-- Keys of `initParkingSpots` throw nothing. -/
theorem settingKey_isSome {callbackData : ROISettingCallbackData} {frame : Mat} {now : Ptime}
    {key : Char} {env : EntryServices} {car : List Rect} {id : ℤ} {junk : Bool}
    {grabbed : Mat × Ptime} {sensor : Sensor} (hk : sensor.mParkingSpotManager.Keyed)
    (hregions : sensor.RegionsIn rows cols) (hframe : frame.Sized rows cols) :
    (settingKey io callbackData frame now key env car id junk grabbed sensor).isSome := by
  unfold settingKey
  split_ifs
  · rw [Option.isSome_map]
    exact Sensor.updateSpots_isSome hk hregions hframe
  · rfl
  · rfl
  · rfl
  · rw [SpotManager.clear_spec hk]
    rfl
  · rfl

theorem settingKey_escape (callbackData : ROISettingCallbackData) (frame : Mat) (now : Ptime)
    (env : EntryServices) (car : List Rect) (id : ℤ) (junk : Bool) (grabbed : Mat × Ptime)
    (sensor : Sensor) :
    settingKey io callbackData frame now escape env car id junk grabbed sensor =
      some (sensor, frame, now) := by
  unfold settingKey
  rw [if_neg (by decide), if_neg (by decide), if_neg (by decide), if_neg (by decide)]

theorem key_isSome_iff {callbackData : ROISettingCallbackData} {frame : Mat} {now : Ptime}
    {outer : Mat × Ptime × Char} {key : Char} {env : EntryServices} {car : List Rect} {id : ℤ}
    {junk : Bool} {grabbed : Mat × Ptime} (hs : s.Safe rows cols)
    (hloop : s.loop = .setting callbackData frame now outer) :
    (step io s (.key key env car id junk grabbed)).isSome ↔
      ∀ idx, indexed s (.key key env car id junk grabbed) = some idx →
        (s.sensor.mParkingSpotManager.find idx).isSome := by
  obtain ⟨hframe, -⟩ := hs.setting callbackData frame now outer hloop
  simp only [step, hloop, indexed]
  by_cases hescape : key = escape
  · subst hescape
    have hsame : (if callbackData.start_draw then some (s.sensor, frame, now)
        else settingKey io callbackData frame now escape env car id junk grabbed s.sensor) =
          some (s.sensor, frame, now) := by
      rw [settingKey_escape, ite_self]
    rw [hsame, Option.bind_some, afterKey, if_pos rfl, numberKeys_isSome_iff hs.keyed]
    cases isNumberKey outer.2.2 s.sensor.mParkingSpotManager <;> simp
  · have hsome : (if callbackData.start_draw then some (s.sensor, frame, now)
        else settingKey io callbackData frame now key env car id junk grabbed s.sensor).isSome := by
      split_ifs
      · rfl
      · exact settingKey_isSome hs.keyed hs.regions hframe
    obtain ⟨result, hresult⟩ := Option.isSome_iff_exists.mp hsome
    rw [hresult, Option.bind_some, afterKey, if_neg hescape, if_neg (fun h => hescape h.1)]
    simp

/-- With pictures of one size, the mouse in the window and every listed region in the pictures, the
debug build takes the next frame, mouse event or key of the loop it is in, after any run, unless the
iteration of `run` ends with `operator[]` under an index without a spot. -/
theorem goes_on_iff {as : List Action} (hk : s.sensor.mParkingSpotManager.Keyed)
    (hregions : s.sensor.RegionsIn rows cols) (hrunning : s.loop = .running)
    (has : ∀ a ∈ as, a.Proper rows cols) (hu : exec (step io) s as = some u)
    (ha : a.Proper rows cols) (hconsole : ∀ action, a ≠ .other action) :
    (step io u a).isSome ↔ Accepts u.loop a ∧
      ∀ idx, indexed u a = some idx → (u.sensor.mParkingSpotManager.find idx).isSome := by
  have hstart : s.Safe rows cols :=
    ⟨hk, hregions, fun _ _ _ _ hloop => nomatch hrunning.symm.trans hloop⟩
  have hsafe : u.Safe rows cols := invariant_of_actions (fun _ _ _ ht ha hstep => ht.step ha hstep)
    hstart has (visits_of_exec hu)
  cases a with
  | iterate env frame now car inputKey grabbed =>
    cases hloop : u.loop with
    | running =>
      rw [iterate_isSome_iff hsafe ha.1 hloop]
      exact ⟨fun h => ⟨trivial, h⟩, fun h => h.2⟩
    | setting callbackData frame' now' outer => simp [step, hloop, Accepts]
    | ended => simp [step, hloop, Accepts]
  | mouse event x y =>
    cases hloop : u.loop with
    | running => simp [step, hloop, Accepts]
    | setting callbackData frame now outer => simp [step, hloop, Accepts, indexed]
    | ended => simp [step, hloop, Accepts]
  | key key env car id junk grabbed =>
    cases hloop : u.loop with
    | running => simp [step, hloop, Accepts]
    | setting callbackData frame now outer =>
      rw [key_isSome_iff hsafe hloop]
      exact ⟨fun h => ⟨trivial, h⟩, fun h => h.2⟩
    | ended => simp [step, hloop, Accepts]
  | other action => exact absurd rfl (hconsole action)

/-- After spot 3 has been drawn beside spot 1, key `2` finds spot 1, and key `1` finds no spot 0. -/
theorem goes_on_iff_drawSpot : ∃ u,
    exec (step MessageQueue.epochDisk) { sensor := Sensor.oneSpot } drawSpot = some u ∧
      ∀ env now car, (step MessageQueue.epochDisk u
          (.iterate env ⟨20, 10, []⟩ now car '2' (⟨20, 10, []⟩, now))).isSome ∧
        ¬ (step MessageQueue.epochDisk u
          (.iterate env ⟨20, 10, []⟩ now car '1' (⟨20, 10, []⟩, now))).isSome := by
  obtain ⟨u, hu, hloop, hsize, hone, hzero⟩ : ∃ u ∈ exec (step MessageQueue.epochDisk)
      { sensor := Sensor.oneSpot } drawSpot, u.loop.ctorIdx = 0 ∧
        u.sensor.mParkingSpotManager.mParkingSpots.length = 2 ∧
        (u.sensor.mParkingSpotManager.find 1).isSome ∧
        u.sensor.mParkingSpotManager.find 0 = none := by decide +kernel
  have hregions : Sensor.oneSpot.RegionsIn 20 10 := by
    intro id spot hspot
    obtain rfl : spot = ParkingSpot.new false 1 "A1" 600 ⟨0, 0, 10, 20⟩ 1 := by
      obtain ⟨-, hsome⟩ := Prod.mk.inj (List.mem_singleton.mp (KeyedTable.mem_of_lookup hspot))
      exact Option.some.inj hsome
    unfold Rect.In
    decide
  have hproper : ∀ a ∈ drawSpot, a.Proper 20 10 := by
    intro a ha
    simp only [drawSpot, List.mem_cons, List.not_mem_nil, or_false] at ha
    rcases ha with rfl | rfl | rfl | rfl | rfl | rfl <;>
      simp [Action.Proper, Mat.Sized, InWindow]
  have hrun : u.loop = .running := by
    cases hl : u.loop with
    | running => rfl
    | setting | ended =>
      rw [hl] at hloop
      cases hloop
  have hkey : ∀ env now car inputKey, (step MessageQueue.epochDisk u
      (.iterate env ⟨20, 10, []⟩ now car inputKey (⟨20, 10, []⟩, now))).isSome ↔ _ ∧ _ :=
    fun env now car inputKey => goes_on_iff Sensor.oneSpot_atStart.reported.keyed hregions rfl
      hproper hu (by simp [Action.Proper, Mat.Sized]) (by simp)
  refine ⟨u, hu, fun env now car => ?_⟩
  rw [hkey, hkey, hrun]
  have htwo : isNumberKey '2' u.sensor.mParkingSpotManager = true := by
    unfold isNumberKey
    rw [hsize]
    decide
  have hone' : isNumberKey '1' u.sensor.mParkingSpotManager = true := by
    unfold isNumberKey
    rw [hsize]
    decide
  refine ⟨⟨trivial, fun idx hidx => ?_⟩, fun h => ?_⟩
  · have hsome : some (indexOf '2') = some idx := by
      rw [← hidx]
      simp only [indexed, htwo]
      rfl
    obtain rfl := Option.some.inj hsome
    exact hone
  · have hidx := h.2 0 (by simp only [indexed, hone']; decide)
    rw [hzero] at hidx
    cases hidx

end Console
end VisionSensor
