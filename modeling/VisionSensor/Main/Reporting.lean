import VisionSensor.Lib.Reporter
import VisionSensor.Main.FrameLoop
import VisionSensor.Main.ServerView

/-! What the sensor reports about one spot is what a two-threshold debouncer reports that is fed with
the answers of the occupancy test, whatever else the sensor does. -/
namespace VisionSensor
open GuardedRun Reporter

namespace Sensor

/-- The frame and its time. -/
abbrev Sighting := Mat × Ptime

/-- The debouncer of the spot under an id, if there is one. -/
def watched (id : ℤ) (s : Sensor) : Option Debouncer :=
  (s.mParkingSpotManager.find id).join.map ParkingSpot.debouncer

/-- The entries and exits reported for an id, with their pictures and times. -/
def changes (pushed : List ParkingUpdateMessage) (id : ℤ) : List (Bool × Sighting) :=
  (pushed.filter fun m =>
    m.mSpotID = id ∧ m.mRequestCode ≠ HttpReqType.HTTP_REQ_UPDATE_OVER.code).map fun m =>
      (decide (m.mRequestCode = HttpReqType.HTTP_REQ_UPDATE_ENTER.code), m.mFrame, m.mEventTime)

/-- What a step is to the spot under an id. -/
def eventOf (id : ℤ) (s : Sensor) : SensorAction → List (Event Sighting)
  | .frame _ frame now car =>
      (s.mParkingSpotManager.find id).join.toList.map fun spot =>
        .seen s.statics.mPositiveThreshold s.statics.mNegativeThreshold
          (localizer_detect car spot.mROI).1 (frame, now)
  | .update _ _ _ ROIList => [.listed (lastEntry ROIList id).isSome]
  | _ => []

/-- The events of a run. -/
def eventsOf (io : Storage) (id : ℤ) : Sensor → List SensorAction → List (Event Sighting)
  | _, [] => []
  | s, a :: as => eventOf id s a ++ (step io s a).elim [] fun t => eventsOf io id t as

variable {io : Storage} {s t u : Sensor} {id : ℤ}

theorem changes_append (pushed data : List ParkingUpdateMessage) (id : ℤ) :
    changes (pushed ++ data) id = changes pushed id ++ changes data id := by
  unfold changes
  rw [List.filter_append, List.map_append]

theorem changes_over {data : List ParkingUpdateMessage}
    (h : ∀ m ∈ data, m.mRequestCode = HttpReqType.HTTP_REQ_UPDATE_OVER.code) (id : ℤ) :
    changes data id = [] := by
  unfold changes
  rw [List.map_eq_nil_iff, List.filter_eq_nil_iff]
  intro m hm
  simp [h m hm]

/-- A step that does to the spot what its events say. -/
def Reflects (id : ℤ) (s : Sensor) (es : List (Event Sighting)) (u : Sensor) : Prop :=
  watched id u = after (watched id s) es ∧
    changes u.mServMsgQueue.pushed id =
      changes s.mServMsgQueue.pushed id ++ report (watched id s) es

theorem Reflects.trans {es fs : List (Event Sighting)} (h : Reflects id s es t)
    (h' : Reflects id t fs u) : Reflects id s (es ++ fs) u := by
  refine ⟨?_, ?_⟩
  · rw [after_append, ← h.1, h'.1]
  · rw [report_append, ← h.1, h'.2, h.2, List.append_assoc]

theorem Reflects.quiet (hwatched : watched id u = watched id s)
    (hchanges : changes u.mServMsgQueue.pushed id = changes s.mServMsgQueue.pushed id) :
    Reflects id s [] u := by
  refine ⟨hwatched, ?_⟩
  rw [hchanges]
  exact (List.append_nil _).symm

section Pass

variable {env : EntryServices} {frame : Mat} {now : Ptime} {car : List Rect} {statics : Thresholds}

/-- What one observation reports. -/
theorem observe_report {spot : ParkingSpot} {b : Bool} {t : SpotState}
    (h : (spotState statics spot).observe env b frame now = some t) :
    t.spot.debouncer = spot.debouncer.feed statics.mPositiveThreshold statics.mNegativeThreshold b ∧
      changes t.pushed spot.mID =
        output (some spot.debouncer)
          (.seen statics.mPositiveThreshold statics.mNegativeThreshold b (frame, now)) := by
  obtain ⟨-, hd, hrequests⟩ := SpotState.observe_spec h
  obtain ⟨data, hpushed, hdata⟩ := FrameLoop.observe_change h
  have hpushed : t.pushed = data := hpushed
  have hid := (spotState_observe h).2
  have hd : t.spot.debouncer =
      spot.debouncer.feed statics.mPositiveThreshold statics.mNegativeThreshold b := hd
  have hflag : t.spot.mOccupied =
      (spot.debouncer.feed statics.mPositiveThreshold statics.mNegativeThreshold b).flag :=
    congrArg Debouncer.flag hd
  have hrequests : t.pushed.map ParkingUpdateMessage.mRequestCode =
      if spot.mOccupied = t.spot.mOccupied then []
      else [(SpotState.changeRequest t.spot.mOccupied).code] := hrequests
  refine ⟨hd, ?_⟩
  simp only [output, ← hflag, ParkingSpot.debouncer_flag]
  by_cases hsame : t.spot.mOccupied = spot.mOccupied
  · rw [if_pos hsame.symm, List.map_eq_nil_iff] at hrequests
    rw [if_pos hsame, hrequests]
    rfl
  · rw [if_neg (fun heq => hsame heq.symm)] at hrequests
    rw [if_neg hsame]
    obtain ⟨m, rest, hm, hcode, hrest⟩ := List.map_eq_cons_iff.mp hrequests
    obtain rfl := List.map_eq_nil_iff.mp hrest
    obtain ⟨-, htime, himage⟩ := hdata m (hpushed ▸ hm ▸ List.mem_singleton_self m)
    have hspot := (hid m (hm ▸ List.mem_singleton_self m)).1
    rw [hm]
    cases hocc : t.spot.mOccupied <;>
      simp [changes, hspot, hcode, hocc, htime, himage, SpotState.changeRequest, HttpReqType.code]

theorem update_mROI (statics : Thresholds) (spot : ParkingSpot) (b : Bool) :
    (spot.update statics b).1.mROI = spot.mROI := by
  unfold ParkingSpot.update
  split_ifs <;> rfl

theorem enter_mROI {spot entered : ParkingSpot} {entryImage : Mat} {ROI : Rect}
    {entryTime : Ptime} {PN : String} {data : ParkingUpdateMessage}
    (h : spot.enter env entryImage ROI entryTime PN = some (entered, data)) :
    entered.mROI = spot.mROI := by
  obtain ⟨crop, -, h⟩ := Option.map_eq_some_iff.mp h
  obtain ⟨rfl, -⟩ := Prod.mk.inj h
  dsimp only
  split_ifs <;> rfl

/-- An observation keeps the region. -/
theorem observe_mROI {b : Bool} {r t : SpotState} (h : r.observe env b frame now = some t) :
    t.spot.mROI = r.spot.mROI := by
  have hupdate := update_mROI r.statics r.spot b
  unfold SpotState.observe at h
  generalize r.spot.update r.statics b = up at h hupdate
  obtain ⟨spot, updated⟩ := up
  simp only at h hupdate
  split_ifs at h
  · obtain ⟨⟨entered, data⟩, henter, rfl⟩ := Option.map_eq_some_iff.mp h
    exact (enter_mROI henter).trans hupdate
  · obtain rfl := Option.some.inj h
    exact hupdate
  · obtain rfl := Option.some.inj h
    exact hupdate

/-- The states of a pass are the observations of the spots with the answers of the test. -/
theorem pass_answers {list : List ParkingSpot} {states : List (Bool × SpotState)}
    (h : VisionSensor.updateSpots env frame now car (list.map (spotState statics)) = some states) :
    ∀ r ∈ states, ∃ spot ∈ list, r.1 = (localizer_detect car spot.mROI).1 ∧
      (spotState statics spot).observe env r.1 frame now = some r.2 := by
  induction list generalizing states with
  | nil =>
    obtain rfl : [] = states := Option.some.inj h
    exact fun _ hr => nomatch hr
  | cons spot list ih =>
    obtain ⟨t, ht, h⟩ := Option.bind_eq_some_iff.mp h
    obtain ⟨states', hstates', rfl⟩ := Option.map_eq_some_iff.mp h
    intro r hr
    rcases List.mem_cons.mp hr with rfl | hr
    · exact ⟨spot, List.mem_cons_self, rfl, ht⟩
    · obtain ⟨spot', hspot', hanswer⟩ := ih hstates' r hr
      exact ⟨spot', List.mem_cons_of_mem _ hspot', hanswer⟩

end Pass

theorem changes_filter (pushed : List ParkingUpdateMessage) (id : ℤ) :
    changes (pushed.filter fun m => m.mSpotID = id) id = changes pushed id := by
  unfold changes
  rw [List.filter_filter]
  congr 2
  funext m
  by_cases hm : m.mSpotID = id <;> simp [hm]

/-- What a pass does to the spot under an id, and what it reports for it. -/
theorem updateSpots_row {env : EntryServices} {frame : Mat} {now : Ptime} {car : List Rect}
    (hk : s.mParkingSpotManager.Keyed) (h : s.updateSpots io env frame now car = some u)
    {spot : ParkingSpot} (hf : s.mParkingSpotManager.find id = some (some spot)) :
    ∃ t, (spotState s.statics spot).observe env (localizer_detect car spot.mROI).1 frame now =
        some t ∧ u.mParkingSpotManager.find id = some (some t.spot) ∧
      changes u.mServMsgQueue.pushed id =
        changes s.mServMsgQueue.pushed id ++ changes t.pushed id := by
  obtain ⟨list, hlist, h⟩ := Option.bind_eq_some_iff.mp h
  obtain ⟨states, hstates, rfl⟩ := Option.map_eq_some_iff.mp h
  obtain ⟨hmap, hids⟩ := passMap_filed hstates
  have hfiled := eq_map_filed hk.owned hlist
  have hdistinct : (list.map ParkingSpot.mID).Nodup := by
    have hkeys := hk.distinct
    rw [hfiled, List.map_map] at hkeys
    exact hkeys
  rw [← hfiled] at hmap
  have hmem := KeyedTable.mem_of_lookup hf
  rw [hfiled] at hmem
  obtain ⟨spot₀, hspot, heq⟩ := List.mem_map.mp hmem
  obtain ⟨rfl, hsome⟩ := Prod.mk.inj heq
  obtain rfl := Option.some.inj hsome
  obtain ⟨b, t, ht, hstate, hfilter⟩ := pass_row hstates hdistinct hspot
  have hid := (spotState_observe ht).1
  -- the answer of this row is the one for the spot with this id
  obtain ⟨spot', hspot', hanswer, ht'⟩ := pass_answers hstates (b, t) hstate
  obtain rfl : spot' = spot₀ := List.inj_on_of_nodup_map hdistinct hspot' hspot
    ((spotState_observe ht').1.symm.trans hid)
  refine ⟨t, hanswer ▸ ht, ?_, ?_⟩
  · have hkeys : (passMap s.mParkingSpotManager.mParkingSpots states).map Prod.fst =
        list.map ParkingSpot.mID := by
      rw [hmap, List.map_map]
      exact hids
    apply KeyedTable.lookup_of_mem (hkeys ▸ hdistinct)
    rw [hmap, ← hid]
    exact List.mem_map_of_mem (f := fun r : Bool × SpotState => filed r.2.spot) hstate
  · rw [pushAll_pushed, changes_append, ← changes_filter (states.flatMap _)]
    exact congrArg _ (congrArg (changes · spot'.mID) hfilter)

/-- A pass adds no spot, and reports nothing for an id without one. -/
theorem updateSpots_absent {env : EntryServices} {frame : Mat} {now : Ptime} {car : List Rect}
    (hk : s.mParkingSpotManager.Keyed) (h : s.updateSpots io env frame now car = some u)
    (hf : s.mParkingSpotManager.find id = none) :
    u.mParkingSpotManager.find id = none ∧
      changes u.mServMsgQueue.pushed id = changes s.mServMsgQueue.pushed id := by
  refine ⟨((updateSpots_reports hk h).absent id hf).1, ?_⟩
  obtain ⟨list, hlist, h⟩ := Option.bind_eq_some_iff.mp h
  obtain ⟨states, hstates, rfl⟩ := Option.map_eq_some_iff.mp h
  have hkeys : s.mParkingSpotManager.mParkingSpots.map Prod.fst = list.map ParkingSpot.mID := by
    rw [eq_map_filed hk.owned hlist, List.map_map]
    rfl
  have hid : id ∉ list.map ParkingSpot.mID := by
    rw [← hkeys, ← KeyedTable.lookup_isSome_iff]
    exact Option.not_isSome_iff_eq_none.mpr hf
  have hnone : changes (states.flatMap fun r => r.2.pushed) id = [] := by
    rw [← changes_filter]
    exact congrArg (changes · id) (passData_other hstates hid)
  rw [pushAll_pushed, changes_append, hnone, List.append_nil]

/-- A pass shows every spot of the map its frame, with the answer of the occupancy test. -/
theorem updateSpots_reflects {env : EntryServices} {frame : Mat} {now : Ptime} {car : List Rect}
    (hk : s.mParkingSpotManager.Keyed) (h : s.updateSpots io env frame now car = some u) :
    Reflects id s (eventOf id s (.frame env frame now car)) u := by
  cases hf : s.mParkingSpotManager.find id with
  | none =>
    obtain ⟨hfind, hchanges⟩ := updateSpots_absent hk h hf
    simp only [eventOf, hf, Option.join_none, Option.toList_none, List.map_nil]
    exact Reflects.quiet (by rw [watched, watched, hfind, hf]) hchanges
  | some p =>
    obtain ⟨spot, rfl, rfl⟩ := hk.owned.find hf
    obtain ⟨t, ht, hfind, hchanges⟩ := updateSpots_row hk h hf
    obtain ⟨hd, hreport⟩ := observe_report ht
    have hwatched : watched spot.mID s = some spot.debouncer := by
      rw [watched, hf]
      rfl
    simp only [eventOf, hf, Option.join_some, Option.toList_some, List.map_cons, List.map_nil]
    refine ⟨?_, ?_⟩
    · rw [hwatched, watched, hfind]
      exact congrArg some hd
    · rw [hwatched, hchanges, hreport]
      exact congrArg _ (List.append_nil _).symm

/-- A management update keeps the debouncers of the spots it lists, and reports nothing. -/
theorem update_reflects {writable : Bool} {tables : PolicyTables} {junk : ℕ → Junk}
    {ROIList : PTree} (hk : s.mParkingSpotManager.Keyed) (hlist : WellFormed ROIList)
    (h : step io s (.update writable tables junk ROIList) = some u) :
    Reflects id s (eventOf id s (.update writable tables junk ROIList)) u := by
  obtain ⟨hk', hqueue, ht⟩ := update_step hk hlist h
  refine ⟨?_, ?_⟩
  · cases hrow : u.mParkingSpotManager.find id with
    | none =>
      have hunlisted : (lastEntry ROIList id).isSome = false := by
        rw [Bool.eq_false_iff]
        intro hlisted
        rw [← ht.isSome, SpotManager.table_of_find_none hrow] at hlisted
        cases hlisted
      simp only [eventOf, hunlisted]
      rw [watched, hrow]
      rfl
    | some p =>
      obtain ⟨spot', rfl, -⟩ := hk'.owned.find hrow
      have hrow' := SpotManager.table_of_find hrow
      have hlisted : (lastEntry ROIList id).isSome = true := by
        rw [← ht.isSome, hrow']
        rfl
      simp only [eventOf, hlisted]
      have hwatched : watched id u = some spot'.debouncer := by
        rw [watched, hrow]
        rfl
      rw [hwatched]
      cases hf : s.mParkingSpotManager.find id with
      | none =>
        rw [ht id, SpotManager.table_of_find_none hf] at hrow'
        obtain ⟨e, -, hnew⟩ := Option.bind_eq_some_iff.mp hrow'
        have hstate := (ParkingSpot.of_known_eq (Option.some.inj hnew).symm).2
        rw [watched, hf]
        exact congrArg some (Debouncer.ext (congrArg (fun r => r.2.2) hstate)
          (congrArg Prod.fst hstate))
      | some p =>
        obtain ⟨spot, rfl, -⟩ := hk.owned.find hf
        obtain ⟨e, -, he⟩ := SpotManager.retained_row ht (SpotManager.table_of_find hf) hrow'
        have hstate := (ParkingSpot.of_known_eq he).2.trans (EntryLocals.overwrite_parkingState _ _)
        rw [watched, hf]
        exact congrArg some (Debouncer.ext (congrArg (fun r => r.2.2) hstate)
          (congrArg Prod.fst hstate))
  · rw [hqueue]
    have hsilent : report (watched id s)
        (eventOf id s (.update writable tables junk ROIList)) = [] := by
      cases watched id s <;> rfl
    rw [hsilent, List.append_nil]

theorem notifyExpiration_reflects {k : ℤ} {mFrameIndexer : FrameIndexer}
    (h : s.notifyExpiration io k mFrameIndexer = some u) : Reflects id s [] u := by
  obtain ⟨spot, hspot, rfl⟩ := Option.map_eq_some_iff.mp h
  have hfind : s.mParkingSpotManager.find k = some (some spot) := Option.join_eq_some_iff.mp hspot
  obtain ⟨-, -, hdata⟩ :=
    ParkingSpot.notifyExpiration_spec (fun time => (mFrameIndexer.readAt Mat.none time).2) spot
  have hset := SpotManager.find_setSpot s.mParkingSpotManager k
    (spot.notifyExpiration fun time => (mFrameIndexer.readAt Mat.none time).2).1
  refine Reflects.quiet ?_ ?_
  · unfold watched
    rw [hset]
    by_cases hki : id = k
    · rw [if_pos hki, hki, hfind]
      exact congrArg some (ParkingSpot.notifyExpiration_debouncer _ spot)
    · rw [if_neg hki]
  · rw [pushAll_pushed, changes_append, changes_over (fun m hm => (hdata m hm).1), List.append_nil]

theorem onQueue_reflects {call : MessageQueue.Action} (hcall : ∀ data, call ≠ .push data)
    (h : s.onQueue io call = some u) : Reflects id s [] u := by
  obtain ⟨q, hq, rfl⟩ := Option.map_eq_some_iff.mp h
  refine Reflects.quiet rfl ?_
  rw [(MessageQueue.serves_step hcall hq).pushed]

theorem step_reflects (id : ℤ) {a : SensorAction} (hk : s.mParkingSpotManager.Keyed) (ha : a.ListWellFormed)
    (h : step io s a = some u) :
    u.mParkingSpotManager.Keyed ∧ Reflects id s (eventOf id s a) u := by
  cases a with
  | update writable tables junk ROIList =>
    exact ⟨(update_step hk ha h).1, update_reflects hk ha h⟩
  | frame env frame now car =>
    refine ⟨(step_reports hk (by simp) h).keyed, ?_⟩
    simp only [step] at h
    split_ifs at h
    exact updateSpots_reflects hk h
  | setThresholds statics =>
    refine ⟨(step_reports hk (by simp) h).keyed, ?_⟩
    obtain rfl := Option.some.inj h
    exact Reflects.quiet rfl rfl
  | notifyExpiration k mFrameIndexer =>
    exact ⟨(step_reports hk (by simp) h).keyed, notifyExpiration_reflects h⟩
  | try_pop listing | wait_and_pop listing | wake =>
    exact ⟨(step_reports hk (by simp) h).keyed, onQueue_reflects (by simp) h⟩

theorem run_reflects {as : List SensorAction} (hk : s.mParkingSpotManager.Keyed)
    (has : ∀ a ∈ as, a.ListWellFormed) (h : exec (step io) s as = some u) (id : ℤ) :
    Reflects id s (eventsOf io id s as) u := by
  induction as generalizing s with
  | nil =>
    obtain rfl : s = u := by simpa using h
    exact ⟨rfl, (List.append_nil _).symm⟩
  | cons a as ih =>
    obtain ⟨t, ht, hrest⟩ := Option.bind_eq_some_iff.mp h
    obtain ⟨hk', hstep⟩ := step_reflects id hk (has a List.mem_cons_self) ht
    have hrun := hstep.trans (ih hk' (fun b hb => has b (List.mem_cons_of_mem _ hb)) hrest)
    have hevents : eventsOf io id s (a :: as) = eventOf id s a ++ eventsOf io id t as := by
      rw [eventsOf, ht]
      rfl
    rw [hevents]
    exact hrun

end Sensor
end VisionSensor
