import VisionSensor.Detect.Localizer
import VisionSensor.Management.Listener
import VisionSensor.Management.SpotOperations
import VisionSensor.Queue.MessageQueue
import VisionSensor.Video.FrameIndexer

/-! The sensor as the threads of `MainInterface` drive it: frames and management updates act on the
spot map, timer expiries on one spot of it, and all of them push into the message queue the
uploader pops from. -/
namespace VisionSensor
open Unwind

structure Sensor where
  mParkingSpotManager : SpotManager := {}
  statics : Thresholds := {}
  mServMsgQueue : MessageQueue := {}

/-- One step of a thread. `readAt` of an expiry finds the frames in `mFrameIndexer`. -/
inductive SensorAction where
  | frame (env : EntryServices) (frame : Mat) (now : Ptime) (car : List Rect)
  | setThresholds (statics : Thresholds)
  | update (writable : Bool) (tables : PolicyTables) (junk : ℕ → Junk) (ROIList : PTree)
  | notifyExpiration (id : ℤ) (mFrameIndexer : FrameIndexer)
  | try_pop (listing : List File)
  | wait_and_pop (listing : List File)
  | wake

namespace Sensor

def pushAll (io : Storage) (data : List ParkingUpdateMessage) (q : MessageQueue) : MessageQueue :=
  data.foldl (fun q data => q.push io data) q

/-- What one spot hands to a pass of `updateSpots`. -/
def spotState (statics : Thresholds) (spot : ParkingSpot) : SpotState := { spot, statics }

/-- The map after a pass that has left each spot in the given state. -/
def passMap (spots : SpotMap) (states : List (Bool × SpotState)) : SpotMap :=
  List.zipWith (fun e r => (e.1, some r.2.spot)) spots states

/-- `updateSpots`; `none` when a pointer is null or `enter` throws. -/
def updateSpots (io : Storage) (env : EntryServices) (frame : Mat) (now : Ptime) (car : List Rect)
    (s : Sensor) : Option Sensor :=
  (s.mParkingSpotManager.mParkingSpots.mapM Prod.snd).bind fun spots =>
    (VisionSensor.updateSpots env frame now car (spots.map (spotState s.statics))).map fun states =>
      { s with
        mParkingSpotManager := { s.mParkingSpotManager with
          mParkingSpots := passMap s.mParkingSpotManager.mParkingSpots states }
        mServMsgQueue := pushAll io (states.flatMap fun r => r.2.pushed) s.mServMsgQueue }

/-- The end of `TCPSocketListener::update`: the spot list is put into force. -/
def applyList (writable : Bool) (tables : PolicyTables) (junk : ℕ → Junk) (ROIList : PTree) :
    EStateM Fault SpotManager Unit :=
  if ROIList.empty then SpotManager.clear
  else do
    let _ ← SpotManager.updateParkingSpots writable tables junk ROIList

/-- The expiry handler of the spot under an id. -/
def notifyExpiration (io : Storage) (id : ℤ) (mFrameIndexer : FrameIndexer) (s : Sensor) :
    Option Sensor :=
  (s.mParkingSpotManager.find id).join.map fun spot =>
    let (spot, data) := spot.notifyExpiration fun time => (mFrameIndexer.readAt Mat.none time).2
    { s with
      mParkingSpotManager := { s.mParkingSpotManager with
        mParkingSpots := SpotManager.setSpot id spot s.mParkingSpotManager.mParkingSpots }
      mServMsgQueue := pushAll io data.toList s.mServMsgQueue }

def onQueue (io : Storage) (call : MessageQueue.Action) (s : Sensor) : Option Sensor :=
  (MessageQueue.step io s.mServMsgQueue call).map fun q => { s with mServMsgQueue := q }

/-- `run` ends on an empty frame. An update that throws has changed the map and goes on on a new
connection; undefined behaviour has no step. A pass and an expiry handler are whole steps: a handler
writes nothing that a pass reads, so where in a pass it runs shows only in its own message and in
`mOverstayed`. Where these matter, `SensorThreads.step` has the statements of both. -/
def step (io : Storage) (s : Sensor) : SensorAction → Option Sensor
  | .frame env frame now car =>
      if frame.empty then none else s.updateSpots io env frame now car
  | .setThresholds statics => some { s with statics }
  | .update writable tables junk ROIList =>
      match applyList writable tables junk ROIList s.mParkingSpotManager with
      | .error .undefined _ => none
      | .ok _ m => some { s with mParkingSpotManager := m }
      | .error _ m => some { s with mParkingSpotManager := m }
  | .notifyExpiration id mFrameIndexer => s.notifyExpiration io id mFrameIndexer
  | .try_pop listing => s.onQueue io (.try_pop listing)
  | .wait_and_pop listing => s.onQueue io (.wait_and_pop listing)
  | .wake => s.onQueue io .wake

/-- The listener runs `applyList` on the manager it shares. -/
theorem listener_updateSpots (io : UpdateIO) (ROIList : PTree) :
    Listener.updateSpots io ROIList =
      Listener.onSpots (applyList io.spotsWritable io.tables io.junk ROIList) := by
  unfold Listener.updateSpots applyList
  split_ifs
  · rfl
  · funext l
    simp only [Listener.onSpots, zoom, bind, EStateM.bind]
    cases SpotManager.updateParkingSpots io.spotsWritable io.tables io.junk ROIList
      l.mParkingSpotManager <;> rfl

theorem push_pushed (io : Storage) (data : ParkingUpdateMessage) (q : MessageQueue) :
    (q.push io data).pushed = q.pushed ++ [data] := by
  unfold MessageQueue.push
  split_ifs <;> rfl

theorem pushAll_pushed (io : Storage) (data : List ParkingUpdateMessage) (q : MessageQueue) :
    (pushAll io data q).pushed = q.pushed ++ data := by
  unfold pushAll
  induction data generalizing q with
  | nil => simp
  | cons m ms ih => rw [List.foldl_cons, ih, push_pushed, List.append_assoc, List.singleton_append]

/-- What a pass hands to the queue. -/
def passData (states : List (Bool × SpotState)) : List ParkingUpdateMessage :=
  states.flatMap fun r => r.2.pushed

section Pass

variable {env : EntryServices} {frame : Mat} {now : Ptime} {car : List Rect}
  {statics : Thresholds}

/-- A pass observes the first spot and passes over the others. -/
theorem pass_cons {spot : ParkingSpot} {list : List ParkingSpot} {states : List (Bool × SpotState)}
    (h : VisionSensor.updateSpots env frame now car ((spot :: list).map (spotState statics)) =
      some states) :
    ∃ b t states', (spotState statics spot).observe env b frame now = some t ∧
      VisionSensor.updateSpots env frame now car (list.map (spotState statics)) = some states' ∧
      states = (b, t) :: states' := by
  obtain ⟨t, ht, h⟩ := Option.bind_eq_some_iff.mp h
  obtain ⟨states', hstates', rfl⟩ := Option.map_eq_some_iff.mp h
  exact ⟨_, t, states', ht, hstates', rfl⟩

theorem passData_cons (b : Bool) (t : SpotState) (states : List (Bool × SpotState)) :
    passData ((b, t) :: states) = t.pushed ++ passData states := by
  simp [passData]

/-- What a pass pushes for a spot is about it and carries the frame. -/
theorem spotState_observe {spot : ParkingSpot} {b : Bool} {t : SpotState}
    (h : (spotState statics spot).observe env b frame now = some t) :
    t.spot.mID = spot.mID ∧ ∀ m ∈ t.pushed, m.mSpotID = spot.mID ∧ m.mFrame = frame := by
  obtain ⟨hid, data, hpushed, hdata⟩ := SpotState.observe_pushed h
  have hpushed : t.pushed = data := hpushed
  rw [hpushed]
  exact ⟨hid, hdata⟩

/-- A spot as the map files it. -/
def filed (s : ParkingSpot) : ℤ × Option ParkingSpot := (s.mID, some s)

theorem eq_map_filed {spots : SpotMap} (hown : ∀ e ∈ spots, ∃ s, e.2 = some s ∧ s.mID = e.1)
    {list : List ParkingSpot} (hlist : spots.mapM Prod.snd = some list) :
    spots = list.map filed := by
  induction spots generalizing list with
  | nil =>
    obtain rfl : [] = list := Option.some.inj hlist
    rfl
  | cons e spots ih =>
    obtain ⟨k, p⟩ := e
    obtain ⟨spot, rfl, rfl⟩ : ∃ s, p = some s ∧ s.mID = k := hown _ List.mem_cons_self
    rw [List.mapM_cons] at hlist
    obtain ⟨spot', hspot, hlist⟩ := Option.bind_eq_some_iff.mp hlist
    obtain rfl := Option.some.inj hspot
    obtain ⟨list', hlist', hcons⟩ := Option.bind_eq_some_iff.mp hlist
    obtain rfl : spot :: list' = list := Option.some.inj hcons
    rw [ih (fun e he => hown e (List.mem_cons_of_mem _ he)) hlist']
    rfl

section States

variable {list : List ParkingSpot} {states : List (Bool × SpotState)}
  (h : VisionSensor.updateSpots env frame now car (list.map (spotState statics)) = some states)

include h

/-- A pass leaves every spot filed under its id. -/
theorem passMap_filed :
    passMap (list.map filed) states = states.map (fun r => filed r.2.spot) ∧
      states.map (fun r => r.2.spot.mID) = list.map ParkingSpot.mID := by
  induction list generalizing states with
  | nil =>
    obtain rfl : [] = states := Option.some.inj h
    exact ⟨rfl, rfl⟩
  | cons spot list ih =>
    obtain ⟨b, t, states', ht, hstates', rfl⟩ := pass_cons h
    obtain ⟨hmap, hids⟩ := ih hstates'
    have hid := (spotState_observe ht).1
    have hhead : passMap ((spot :: list).map filed) ((b, t) :: states') =
        (spot.mID, some t.spot) :: passMap (list.map filed) states' := rfl
    rw [hhead, hmap, ← hid]
    exact ⟨rfl, by rw [List.map_cons, List.map_cons, hids, hid]⟩

/-- A pass reports about the spots of the map, with the frame it has looked at. -/
theorem passData_mem {m : ParkingUpdateMessage} (hm : m ∈ passData states) :
    m.mFrame = frame ∧ m.mSpotID ∈ list.map ParkingSpot.mID := by
  induction list generalizing states with
  | nil =>
    obtain rfl : [] = states := Option.some.inj h
    cases hm
  | cons spot list ih =>
    obtain ⟨b, t, states', ht, hstates', rfl⟩ := pass_cons h
    rw [passData_cons] at hm
    rcases List.mem_append.mp hm with hm | hm
    · obtain ⟨hid, hframe⟩ := (spotState_observe ht).2 m hm
      exact ⟨hframe, hid ▸ List.mem_cons_self⟩
    · obtain ⟨hframe, hid⟩ := ih hstates' hm
      exact ⟨hframe, List.mem_cons_of_mem _ hid⟩

theorem passData_other {id : ℤ} (hid : id ∉ list.map ParkingSpot.mID) :
    (passData states).filter (fun m => m.mSpotID = id) = [] := by
  rw [List.filter_eq_nil_iff]
  intro m hm hmid
  exact hid (of_decide_eq_true hmid ▸ (passData_mem h hm).2)

/-- Every spot is observed, and what a pass hands over under its id is what it pushed then. -/
theorem pass_row (hnodup : (list.map ParkingSpot.mID).Nodup) {spot : ParkingSpot}
    (hspot : spot ∈ list) :
    ∃ b t, (spotState statics spot).observe env b frame now = some t ∧ (b, t) ∈ states ∧
      (passData states).filter (fun m => m.mSpotID = spot.mID) = t.pushed := by
  induction list generalizing states with
  | nil => cases hspot
  | cons spot₀ list ih =>
    obtain ⟨b, t, states', ht, hstates', rfl⟩ := pass_cons h
    obtain ⟨hnew, hnodup⟩ := List.nodup_cons.mp hnodup
    rw [passData_cons]
    simp only [List.filter_append]
    rcases List.mem_cons.mp hspot with rfl | hspot
    · have hself : t.pushed.filter (fun m => decide (m.mSpotID = spot.mID)) = t.pushed :=
        List.filter_eq_self.mpr fun m hm => decide_eq_true ((spotState_observe ht).2 m hm).1
      refine ⟨b, t, ht, List.mem_cons_self, ?_⟩
      rw [hself, passData_other hstates' hnew, List.append_nil]
    · obtain ⟨b', t', ht', hmem, hfilter⟩ := ih hstates' hnodup hspot
      have hnone : t.pushed.filter (fun m => decide (m.mSpotID = spot.mID)) = [] := by
        rw [List.filter_eq_nil_iff]
        intro m hm hmid
        have hid : spot.mID = spot₀.mID :=
          (of_decide_eq_true hmid).symm.trans ((spotState_observe ht).2 m hm).1
        exact hnew (hid ▸ List.mem_map_of_mem hspot)
      refine ⟨b', t', ht', List.mem_cons_of_mem _ hmem, ?_⟩
      rw [hnone, hfilter, List.nil_append]

end States

end Pass

/-- A sensor that has just started, with one spot. -/
def oneSpot : Sensor :=
  { mParkingSpotManager :=
      { mParkingSpots := [(1, some (ParkingSpot.new false 1 "A1" 600 ⟨0, 0, 10, 20⟩ 1))] } }

/-- A frame with a vehicle on that spot. -/
def parkedFrame : SensorAction :=
  .frame ⟨fun _ => false, fun _ _ => 0, fun _ => []⟩ ⟨1, 1, [[0]]⟩ (some 7) [⟨1, 1, 9, 18⟩]

end Sensor
end VisionSensor
