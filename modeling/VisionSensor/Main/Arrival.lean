import VisionSensor.Detect.Inference
import VisionSensor.Main.Reporting

/-! From the detections of the network to the message of an entry or an exit: when a spot that is seen
the same way frame after frame is reported. -/
namespace VisionSensor
open GuardedRun Reporter

namespace Sensor

variable {io : Storage} {s t u : Sensor} {id : ℤ}

/-- The frames of a run. -/
def sightings (as : List SensorAction) : List Sighting :=
  as.filterMap fun
    | .frame _ frame now _ => some (frame, now)
    | _ => none

/-- The step leaves the spots and the thresholds as they are configured, and if it is a frame, `P`
holds of its vehicle boxes. -/
def Watching (P : List Rect → Prop) : SensorAction → Prop
  | .frame _ _ _ car => P car
  | .setThresholds _ | .update .. => False
  | _ => True

theorem Watching.imp {P Q : List Rect → Prop} (h : ∀ car, P car → Q car) {a : SensorAction}
    (ha : Watching P a) : Watching Q a := by
  cases a with
  | frame env frame now car => exact h car ha
  | setThresholds | update => exact ha.elim
  | notifyExpiration | try_pop | wait_and_pop | wake => trivial

/-- The region of the spot under an id. -/
def regionOf (id : ℤ) (s : Sensor) : Option Rect :=
  (s.mParkingSpotManager.find id).join.map ParkingSpot.mROI

/-- Nothing but an update moves a spot, and nothing but a change of the thresholds changes them. -/
theorem step_watching (id : ℤ) {P : List Rect → Prop} {a : SensorAction} (hk : s.mParkingSpotManager.Keyed)
    (ha : Watching P a) (h : step io s a = some u) :
    regionOf id u = regionOf id s ∧ u.statics = s.statics := by
  cases a with
  | setThresholds | update => exact ha.elim
  | frame env frame now car =>
    simp only [step] at h
    split_ifs at h
    refine ⟨?_, ?_⟩
    · unfold regionOf
      cases hf : s.mParkingSpotManager.find id with
      | none => rw [(updateSpots_absent hk h hf).1]
      | some p =>
        obtain ⟨spot, rfl, rfl⟩ := hk.owned.find hf
        obtain ⟨t, ht, hfind, -⟩ := updateSpots_row hk h hf
        rw [hfind]
        exact congrArg some (observe_mROI ht)
    · obtain ⟨list, -, h⟩ := Option.bind_eq_some_iff.mp h
      obtain ⟨states, -, rfl⟩ := Option.map_eq_some_iff.mp h
      rfl
  | notifyExpiration k mFrameIndexer =>
    obtain ⟨spot, hspot, rfl⟩ := Option.map_eq_some_iff.mp h
    have hfind : s.mParkingSpotManager.find k = some (some spot) :=
      Option.join_eq_some_iff.mp hspot
    refine ⟨?_, rfl⟩
    unfold regionOf
    rw [SpotManager.find_setSpot]
    by_cases hki : id = k
    · rw [if_pos hki, hki, hfind]
      refine congrArg some ?_
      unfold ParkingSpot.notifyExpiration
      split_ifs <;> rfl
    · rw [if_neg hki]
  | try_pop listing | wait_and_pop listing | wake =>
    obtain ⟨q, -, rfl⟩ := Option.map_eq_some_iff.mp h
    exact ⟨rfl, rfl⟩

/-- The events of a spot that is seen the same way in every frame. -/
theorem eventsOf_steady {b : Bool} {ROI : Rect} {as : List SensorAction}
    (hk : s.mParkingSpotManager.Keyed) (hregion : regionOf id s = some ROI)
    (has : ∀ a ∈ as, Watching (fun car => (localizer_detect car ROI).1 = b) a)
    (h : exec (step io) s as = some u) :
    eventsOf io id s as =
      steady s.statics.mPositiveThreshold s.statics.mNegativeThreshold b (sightings as) := by
  induction as generalizing s with
  | nil => rfl
  | cons a as ih =>
    obtain ⟨t, ht, hrest⟩ := Option.bind_eq_some_iff.mp h
    have ha := has a List.mem_cons_self
    have hlist : a.ListWellFormed := by
      cases a with
      | update => exact ha.elim
      | _ => trivial
    obtain ⟨hregion', hstatics⟩ := step_watching id hk ha ht
    have hnext := ih (step_reflects id hk hlist ht).1 (hregion'.trans hregion)
      (fun c hc => has c (List.mem_cons_of_mem _ hc)) hrest
    rw [hstatics] at hnext
    rw [eventsOf, ht, Option.elim_some, hnext]
    cases a with
    | setThresholds | update => exact ha.elim
    | frame env frame now car =>
      obtain ⟨spot, hspot, rfl⟩ := Option.map_eq_some_iff.mp hregion
      have ha : (localizer_detect car spot.mROI).1 = b := ha
      simp only [eventOf, hspot, Option.toList_some, List.map_cons, List.map_nil, ha]
      rfl
    | notifyExpiration | try_pop | wait_and_pop | wake => rfl

/-- A spot that is seen the same way in every frame is reported at most once, with the frame in which
its counter passes the threshold. -/
theorem steady_changes {b : Bool} {spot : ParkingSpot} {as : List SensorAction}
    (hk : s.mParkingSpotManager.Keyed) (hspot : s.mParkingSpotManager.find id = some (some spot))
    (hp : 0 < s.statics.mPositiveThreshold) (hn : s.statics.mNegativeThreshold < 0)
    (hfree : ¬ spot.debouncer.StuckLow s.statics.mPositiveThreshold ∧
      ¬ spot.debouncer.StuckHigh s.statics.mNegativeThreshold)
    (has : ∀ a ∈ as, Watching (fun car => (localizer_detect car spot.mROI).1 = b) a)
    (h : exec (step io) s as = some u) :
    changes u.mServMsgQueue.pushed id = changes s.mServMsgQueue.pushed id ++
      if spot.mOccupied = b then []
      else ((sightings as)[delay s.statics.mPositiveThreshold s.statics.mNegativeThreshold b
        spot.debouncer]?).toList.map fun x => (b, x) := by
  have hlists : ∀ a ∈ as, a.ListWellFormed := by
    intro a ha
    have hwatch := has a ha
    cases a with
    | update => exact hwatch.elim
    | _ => trivial
  have hregion : regionOf id s = some spot.mROI := by
    rw [regionOf, hspot]
    rfl
  have hwatched : watched id s = some spot.debouncer := by
    rw [watched, hspot]
    rfl
  rw [(run_reflects hk hlists h id).2, eventsOf_steady hk hregion has h, hwatched,
    report_steady hp hn hfree]
  rfl

open Inference

/-- The vehicle boxes come from an output of the network in which the spot is seen as `b`: filled by a
detection without a rival, or by no detection above the threshold. -/
def FromNetwork (b : Bool) (ROI : Rect) (car : List Rect) : Prop :=
  ∃ mul h w category_index out types, Rounds mul w ∧ Rounds mul h ∧ out.Leading ∧
    (∀ t ∈ out.boxes, t.Normal) ∧
    call_localizer_vehicle mul h w category_index out = some (types, car) ∧
    if b then ∃ i box, Unrivalled mul h w category_index out i box ∧
      (localizer_detect [roi box.rect] ROI).1 = true
    else ∀ i box, Scored mul h w category_index out i box →
      (localizer_detect [roi box.rect] ROI).1 = false

theorem FromNetwork.answer {b : Bool} {ROI : Rect} {car : List Rect} (hROI : 0 < ROI.area)
    (h : FromNetwork b ROI car) : (localizer_detect car ROI).1 = b := by
  obtain ⟨mul, h, w, category_index, out, types, hw, hh, hout, hnormal, hcall, hseen⟩ := h
  obtain ⟨types', car', hcall', hv⟩ := call_vehicles hw hh hout hnormal
  obtain ⟨rfl, rfl⟩ := Prod.mk.inj (Option.some.inj (hcall.symm.trans hcall'))
  cases b with
  | true =>
    obtain ⟨i, box, hbox, halone⟩ := hseen
    exact hv.fills_unrivalled hROI hbox halone
  | false =>
    rw [Bool.eq_false_iff]
    intro hoccupied
    obtain ⟨i, box, hbox, halone⟩ := hv.fills_scored hROI hoccupied
    rw [hseen i box hbox] at halone
    cases halone

/-- From the network to the message. While the spots and thresholds stay as they are and the network
sees the spot the same way in every frame, one change is reported if the spot was not in that state,
and none if it was: the one of the frame in which the counter passes the threshold, with this
frame and its time. -/
theorem detection_reported {b : Bool} {spot : ParkingSpot} {as : List SensorAction}
    (hk : s.mParkingSpotManager.Keyed) (hspot : s.mParkingSpotManager.find id = some (some spot))
    (hROI : 0 < spot.mROI.area) (hp : 0 < s.statics.mPositiveThreshold)
    (hn : s.statics.mNegativeThreshold < 0)
    (hfree : ¬ spot.debouncer.StuckLow s.statics.mPositiveThreshold ∧
      ¬ spot.debouncer.StuckHigh s.statics.mNegativeThreshold)
    (has : ∀ a ∈ as, Watching (FromNetwork b spot.mROI) a)
    (h : exec (step io) s as = some u) :
    changes u.mServMsgQueue.pushed id = changes s.mServMsgQueue.pushed id ++
      if spot.mOccupied = b then []
      else ((sightings as)[delay s.statics.mPositiveThreshold s.statics.mNegativeThreshold b
        spot.debouncer]?).toList.map fun x => (b, x) :=
  steady_changes hk hspot hp hn hfree
    (fun a ha => (has a ha).imp fun _ hcar => hcar.answer hROI) h

/-- The network sees one car. -/
def oneCar : NetworkOutput where
  boxes := [⟨1 / 100, 1 / 100, 18 / 100, 9 / 100⟩]
  scores := [9 / 10]
  classes := [1]
  scores_aligned := rfl
  classes_aligned := rfl

theorem oneCar_fromNetwork : FromNetwork true ⟨0, 0, 10, 20⟩ [⟨1, 1, 9, 18⟩] := by
  let box : BBox := ⟨⟨⟨1, 9, by decide⟩, ⟨1, 18, by decide⟩⟩, 9 / 10, "car", 1⟩
  have hrow : RowBox (fun x n => x * n) 100 100 [(1, ⟨1, "car"⟩)] oneCar 0 box := by
    refine ⟨?_, rfl, ?_, ?_⟩
    · norm_num [oneCar, pixelRect, pixelLine, toInt, box]
    · simp [oneCar, categoryOf, box]
    · simp [oneCar, categoryOf, box]
  have hpicked : oneCar.picked_size = 1 := by
    norm_num [NetworkOutput.picked_size, oneCar, model_confidence]
  have hnormal : ∀ t ∈ oneCar.boxes, t.Normal := by
    simp only [oneCar, List.forall_mem_cons]
    refine ⟨⟨?_, ?_⟩, by simp⟩ <;> norm_num
  have hp : predict (fun x n => x * n) 100 100 (detect [(1, ⟨1, "car"⟩)] oneCar) = some [box] := by
    have hsome := (@predict_isSome_iff _ 100 100 [(1, ⟨1, "car"⟩)] oneCar).mpr
      fun t ht => pixelRect_isSome (rounds_mul 100) (rounds_mul 100)
        (hnormal t (List.mem_of_mem_take ht))
    obtain ⟨bboxes, hbboxes⟩ := Option.isSome_iff_exists.mp hsome
    obtain ⟨hlen, hrows⟩ := predict_spec hbboxes
    rw [hpicked] at hlen hrows
    obtain ⟨b, rfl⟩ := List.length_eq_one_iff.mp hlen
    have hb := (hrows 0 box).mpr ⟨Nat.zero_lt_one, hrow⟩
    obtain rfl : b = box := Option.some.inj hb
    exact hbboxes
  refine ⟨fun x n => x * n, 100, 100, [(1, ⟨1, "car"⟩)], oneCar, ["car"], rounds_mul 100,
    rounds_mul 100, List.pairwise_singleton _ _, hnormal, ?_, 0, box, ⟨⟨hrow, ?_⟩, ?_⟩, ?_⟩
  · exact call_localizer_vehicle_eq hp
      (FilterBBox.filter_bbox_of_clear (List.pairwise_singleton _ _))
  · norm_num [model_confidence, box]
  · intro j b' hj hb'
    obtain ⟨k, rfl⟩ := Nat.exists_eq_succ_of_ne_zero hj
    have hconf := hb'.1.conf
    simp [oneCar] at hconf
  · decide +kernel

/-- Three frames of that car: the second one is reported. -/
theorem detection_reported_parked :
    ∃ u, exec (step MessageQueue.epochDisk) oneSpot (List.replicate 3 parkedFrame) = some u ∧
      changes u.mServMsgQueue.pushed 1 = [(true, ⟨1, 1, [[0]]⟩, some 7)] := by
  obtain ⟨u, hu⟩ : ∃ u, exec (step MessageQueue.epochDisk) oneSpot
      (List.replicate 3 parkedFrame) = some u :=
    Option.isSome_iff_exists.mp (by decide +kernel)
  have has : ∀ a ∈ List.replicate 3 parkedFrame, Watching (FromNetwork true ⟨0, 0, 10, 20⟩) a := by
    intro a ha
    obtain rfl := (List.mem_replicate.mp ha).2
    exact oneCar_fromNetwork
  refine ⟨u, hu, ?_⟩
  rw [@detection_reported _ _ _ 1 _ _ _ oneSpot_atStart.reported.keyed rfl (by decide) (by decide)
    (by decide) ⟨by decide, by decide⟩ has hu]
  rfl

end Sensor
end VisionSensor
