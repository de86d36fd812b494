import VisionSensor.Main.Reporting
import VisionSensor.Main.Uplink

/-! The whole sensor: the threads that act on the spots, and the uploader thread behind the message
queue they share. What the server gets to know of a spot is what the spot's debouncer reports. -/
namespace VisionSensor
open GuardedRun FuelLoop ServerNetworkHandler Reporter

structure System where
  sensor : Sensor := {}
  uploader : Uploader := ⟨[], []⟩

/-- A step of one of the threads that act on the spots. -/
def SensorAction.OnSpots : SensorAction → Prop
  | .try_pop _ | .wait_and_pop _ | .wake => False
  | _ => True

instance : DecidablePred SensorAction.OnSpots
  | .try_pop _ | .wait_and_pop _ | .wake => isFalse id
  | .frame .. | .setThresholds _ | .update .. | .notifyExpiration .. => isTrue trivial

instance : DecidablePred Uplink.Action.OfUploader
  | .push _ => isFalse id
  | .pop _ | .wake | .upload => isTrue trivial

namespace System

inductive Action where
  | spots (a : SensorAction)
  | uploader (a : Uplink.Action)

/-- The queue and the uploader. -/
def uplink (s : System) : Uplink := ⟨s.sensor.mServMsgQueue, s.uploader⟩

def withUplink (s : System) (u : Uplink) : System where
  sensor := { s.sensor with mServMsgQueue := u.queue }
  uploader := u.uploader

def step (io : Storage) (imencode : Mat → Option (List UInt8)) (sendHTTP : SendHTTP)
    (h : ServerNetworkHandler) (s : System) : Action → Option System
  | .spots a =>
      if a.OnSpots then (Sensor.step io s.sensor a).map fun sensor => { s with sensor } else none
  | .uploader a =>
      if a.OfUploader then (Uplink.step io imencode sendHTTP h s.uplink a).map s.withUplink
      else none

/-- What a step is to the spot under an id. -/
def eventOf (id : ℤ) (s : System) : Action → List (Event Sensor.Sighting)
  | .spots a => Sensor.eventOf id s.sensor a
  | .uploader _ => []

def eventsOf (io : Storage) (imencode : Mat → Option (List UInt8)) (sendHTTP : SendHTTP)
    (h : ServerNetworkHandler) (id : ℤ) : System → List Action → List (Event Sensor.Sighting)
  | _, [] => []
  | s, a :: as => eventOf id s a ++ (step io imencode sendHTTP h s a).elim [] fun t =>
      eventsOf io imencode sendHTTP h id t as

/-- The flags and times of what is reported. -/
def stamped (l : List (Bool × Sensor.Sighting)) : List (Bool × Ptime) := l.map fun c => (c.1, c.2.2)

instance (io : Storage) (m : ParkingUpdateMessage) : Decidable (m.Valid io) :=
  have (cs : List Char) : Decidable (∀ c ∈ cs, c ≠ '_' ∧ c ≠ '/') := List.decidableBAll _ cs
  decidable_of_iff
    (io.from_iso_string (io.to_iso_string m.mEventTime) = some m.mEventTime ∧
      (∀ c ∈ io.to_iso_string m.mEventTime, c ≠ '_' ∧ c ≠ '/') ∧ InInt m.mRequestCode ∧
      InInt m.mSpotID ∧ (∀ c ∈ m.mPlateNum.toList, c ≠ '_' ∧ c ≠ '/') ∧ m.mFrame.empty = false)
    ⟨fun ⟨time, chars, code, spot, plate, image⟩ => ⟨time, chars, code, spot, plate, image⟩,
      fun hm => ⟨hm.time, hm.timeChars, hm.code, hm.spot, hm.plate, hm.image⟩⟩

/-- The messages can be pushed one after the other: each is valid, and one that is saved shares its
key with no message on disk. -/
def Storable (io : Storage) : MessageQueue → List ParkingUpdateMessage → Prop
  | _, [] => True
  | q, m :: ms => MessageQueue.Distinct io q (.push m) ∧ Storable io (q.push io m) ms

instance (io : Storage) (q : MessageQueue) (m : ParkingUpdateMessage) :
    Decidable (MessageQueue.Distinct io q (.push m)) :=
  inferInstanceAs (Decidable (m.Valid io ∧ (_ → _)))

instance decidableStorable (io : Storage) :
    ∀ (q : MessageQueue) (data : List ParkingUpdateMessage), Decidable (Storable io q data)
  | _, [] => isTrue trivial
  | q, m :: ms =>
    have := decidableStorable io (q.push io m) ms
    inferInstanceAs (Decidable (MessageQueue.Distinct io q (.push m) ∧ _))

/-- What a step of the spots reports can be stored. -/
def Stores (io : Storage) (s : System) : Action → Prop
  | .spots a => ∀ t ∈ Sensor.step io s.sensor a, Storable io s.sensor.mServMsgQueue
      (t.mServMsgQueue.pushed.drop s.sensor.mServMsgQueue.pushed.length)
  | .uploader _ => True

instance (io : Storage) (s : System) (a : Action) : Decidable (Stores io s a) :=
  match a with
  | .spots a => inferInstanceAs (Decidable (∀ t ∈ Sensor.step io s.sensor a, _))
  | .uploader _ => isTrue trivial

/-- A step of the spots brings a well formed list, if any. -/
def Action.ListWellFormed : Action → Prop
  | .spots a => a.ListWellFormed
  | .uploader _ => True

/-- The server has a destination for each kind of report. -/
def Addresses (h : ServerNetworkHandler) : Prop :=
  ∀ request ∈ [HttpReqType.HTTP_REQ_UPDATE_ENTER, .HTTP_REQ_UPDATE_EXIT, .HTTP_REQ_UPDATE_OVER],
    Uplink.Addressed h request.code

variable {io : Storage} {imencode : Mat → Option (List UInt8)} {sendHTTP : SendHTTP}
  {h : ServerNetworkHandler} {s t u : System} {id : ℤ}

/-- A report of one of the three kinds. -/
def OfSpot (m : ParkingUpdateMessage) : Prop :=
  ∃ request ∈ [HttpReqType.HTTP_REQ_UPDATE_ENTER, .HTTP_REQ_UPDATE_EXIT, .HTTP_REQ_UPDATE_OVER],
    m.mRequestCode = request.code

theorem observe_ofSpot {env : EntryServices} {b : Bool} {frame : Mat} {now : Ptime}
    {statics : Thresholds} {spot : ParkingSpot} {t : SpotState}
    (h : (Sensor.spotState statics spot).observe env b frame now = some t) :
    ∀ m ∈ t.pushed, OfSpot m := by
  obtain ⟨-, -, hrequests⟩ := SpotState.observe_spec h
  have hrequests : t.pushed.map ParkingUpdateMessage.mRequestCode =
      if spot.mOccupied = t.spot.mOccupied then []
      else [(SpotState.changeRequest t.spot.mOccupied).code] := hrequests
  intro m hm
  have hcode := List.mem_map_of_mem (f := ParkingUpdateMessage.mRequestCode) hm
  rw [hrequests] at hcode
  split_ifs at hcode
  · cases hcode
  · refine ⟨SpotState.changeRequest t.spot.mOccupied, ?_, List.mem_singleton.mp hcode⟩
    cases t.spot.mOccupied <;> decide

/-- The spots reach the queue only by pushes. -/
theorem sensor_pushes {s t : Sensor} {a : SensorAction} (ha : a.OnSpots)
    (h : Sensor.step io s a = some t) : ∃ data,
      t.mServMsgQueue = Sensor.pushAll io data s.mServMsgQueue ∧ ∀ m ∈ data, OfSpot m := by
  cases a with
  | try_pop | wait_and_pop | wake => exact ha.elim
  | setThresholds statics =>
    obtain rfl := Option.some.inj h
    exact ⟨[], rfl, fun _ hm => nomatch hm⟩
  | update writable tables junk ROIList =>
    refine ⟨[], ?_, fun _ hm => nomatch hm⟩
    simp only [Sensor.step] at h
    split at h
    · cases h
    · rw [← Option.some.inj h]
      rfl
    · rw [← Option.some.inj h]
      rfl
  | notifyExpiration id mFrameIndexer =>
    obtain ⟨spot, -, rfl⟩ := Option.map_eq_some_iff.mp h
    obtain ⟨-, -, hdata⟩ :=
      ParkingSpot.notifyExpiration_spec (fun time => (mFrameIndexer.readAt Mat.none time).2) spot
    exact ⟨_, rfl, fun m hm => ⟨.HTTP_REQ_UPDATE_OVER, by decide, (hdata m hm).1⟩⟩
  | frame env frame now car =>
    simp only [Sensor.step] at h
    split_ifs at h
    obtain ⟨list, -, h⟩ := Option.bind_eq_some_iff.mp h
    obtain ⟨states, hstates, rfl⟩ := Option.map_eq_some_iff.mp h
    refine ⟨_, rfl, fun m hm => ?_⟩
    obtain ⟨r, hr, hm⟩ := List.mem_flatMap.mp hm
    obtain ⟨spot, -, -, hobserve⟩ := Sensor.pass_answers hstates r hr
    exact observe_ofSpot hobserve m hm

theorem OfSpot.addressed (haddresses : Addresses h) {m : ParkingUpdateMessage} (hm : OfSpot m) :
    Uplink.Addressed h m.mRequestCode := by
  obtain ⟨request, hrequest, hcode⟩ := hm
  exact hcode ▸ haddresses request hrequest

theorem ready_pushAll (hio : io.Works) {data : List ParkingUpdateMessage} {u : Uplink}
    (hu : u.Ready io imencode sendHTTP h) (hdata : Storable io u.queue data)
    (haddressed : ∀ m ∈ data, Uplink.Addressed h m.mRequestCode) :
    Uplink.Ready io imencode sendHTTP h { u with queue := Sensor.pushAll io data u.queue } := by
  induction data generalizing u with
  | nil => exact hu
  | cons m ms ih =>
    have hpush : Uplink.Ready io imencode sendHTTP h { u with queue := u.queue.push io m } := by
      refine hu.step hio (a := .push m) (fun m' hm' => ?_) rfl
      obtain rfl := Uplink.Action.push.inj hm'
      exact ⟨hdata.1, haddressed m List.mem_cons_self⟩
    exact ih hpush hdata.2 fun m' hm' => haddressed m' (List.mem_cons_of_mem _ hm')

theorem uploader_pushed {u v : Uplink} {a : Uplink.Action} (ha : a.OfUploader)
    (hv : Uplink.step io imencode sendHTTP h u a = some v) : v.queue.pushed = u.queue.pushed := by
  cases a with
  | push data => exact ha.elim
  | pop listing =>
    simp only [Uplink.step] at hv
    split_ifs at hv
    obtain ⟨q, hq, rfl⟩ := Option.map_eq_some_iff.mp hv
    have hcall : ∀ data, MessageQueue.Action.wait_and_pop listing ≠ .push data := by simp
    exact (MessageQueue.serves_step hcall hq).pushed
  | wake =>
    simp only [Uplink.step] at hv
    split_ifs at hv
    obtain ⟨q, hq, rfl⟩ := Option.map_eq_some_iff.mp hv
    have hcall : ∀ data, MessageQueue.Action.wake ≠ .push data := by simp
    exact (MessageQueue.serves_step hcall hq).pushed
  | upload =>
    obtain ⟨up, -, rfl⟩ := Option.map_eq_some_iff.mp hv
    rfl

theorem uploader_step {a : Uplink.Action}
    (ht : step io imencode sendHTTP h s (.uploader a) = some t) : a.OfUploader ∧
      Uplink.step io imencode sendHTTP h s.uplink a = some t.uplink ∧
      t.sensor = { s.sensor with mServMsgQueue := t.uplink.queue } := by
  simp only [step] at ht
  split_ifs at ht with ha
  obtain ⟨u, hu, rfl⟩ := Option.map_eq_some_iff.mp ht
  exact ⟨ha, hu, rfl⟩

theorem spots_step {a : SensorAction} (ht : step io imencode sendHTTP h s (.spots a) = some t) :
    a.OnSpots ∧ Sensor.step io s.sensor a = some t.sensor ∧ t.uploader = s.uploader := by
  simp only [step] at ht
  split_ifs at ht with ha
  obtain ⟨sensor, hsensor, rfl⟩ := Option.map_eq_some_iff.mp ht
  exact ⟨ha, hsensor, rfl⟩

/-- The spots keep what the uploader needs, and the uploader leaves the spots alone. -/
theorem step_reports (hio : io.Works) (haddresses : Addresses h) {a : Action}
    (hk : s.sensor.mParkingSpotManager.Keyed) (hs : s.uplink.Ready io imencode sendHTTP h)
    (hlist : a.ListWellFormed) (ha : Stores io s a)
    (ht : step io imencode sendHTTP h s a = some t) :
    t.sensor.mParkingSpotManager.Keyed ∧ t.uplink.Ready io imencode sendHTTP h ∧
      ∀ id, Sensor.Reflects id s.sensor (eventOf id s a) t.sensor := by
  cases a with
  | spots a =>
    obtain ⟨hon, hstep, huploader⟩ := spots_step ht
    refine ⟨(Sensor.step_reflects 0 hk hlist hstep).1, ?_,
      fun id => (Sensor.step_reflects id hk hlist hstep).2⟩
    obtain ⟨data, hqueue, hdata⟩ := sensor_pushes hon hstep
    have hstorable : Storable io s.sensor.mServMsgQueue data := by
      have hdrop := ha t.sensor hstep
      rw [hqueue, Sensor.pushAll_pushed, List.drop_left] at hdrop
      exact hdrop
    have hready := ready_pushAll hio hs hstorable fun m hm => (hdata m hm).addressed haddresses
    have huplink : t.uplink = { s.uplink with
        queue := Sensor.pushAll io data s.sensor.mServMsgQueue } := by
      unfold uplink
      rw [hqueue, huploader]
    rw [huplink]
    exact hready
  | uploader a =>
    obtain ⟨hof, hstep, hsensor⟩ := uploader_step ht
    have hpush : ∀ data, a = .push data →
        MessageQueue.Distinct io s.uplink.queue (.push data) ∧
          Uplink.Addressed h data.mRequestCode :=
      fun data hdata => (hdata ▸ hof : Uplink.Action.OfUploader (.push data)).elim
    have hpushed : t.sensor.mServMsgQueue.pushed = s.sensor.mServMsgQueue.pushed :=
      uploader_pushed hof hstep
    refine ⟨hsensor ▸ hk, hs.step hio hpush hstep, fun id => Sensor.Reflects.quiet ?_ ?_⟩
    · rw [hsensor]
      rfl
    · rw [hpushed]

end System
end VisionSensor
