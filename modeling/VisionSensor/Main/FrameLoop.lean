import VisionSensor.Main.Sensor
import VisionSensor.Video.MonotoneClock

/-! The frames on their way from the camera to the messages: the thread of `SerialVideoReader` with
its two critical sections, the loop of `MainInterface::run`, and whatever else acts on the sensor, in
any interleaving. -/
namespace VisionSensor
open GuardedRun

/-- Where the thread of `SerialVideoReader` stands, with its locals. -/
inductive CameraPhase where
  | reading
  | pushed (now : ℤ) (frame : Mat)
  | indexed (now : ℤ)
  deriving DecidableEq, Repr

/-- Where the main thread stands. A frame it has read comes with its position among the frames
captured. -/
inductive MainPhase where
  | waiting
  | looping
  | holding (position : ℕ) (now : Ptime) (frame : Mat)
  | noFrame
  | emptyFrame
  deriving DecidableEq, Repr

/-- `captured` records the frames that have been queued, `processed` the positions of those that
`updateSpots` has seen. -/
structure FrameLoop where
  mVideoReader : SerialVideoReader
  camera : CameraPhase := .reading
  main : MainPhase := .waiting
  sensor : Sensor
  captured : List (ℤ × Mat) := []
  processed : List ℕ := []

namespace FrameLoop

inductive Action where
  | capture (now : ℤ) (frame : Mat)
  | index (fuel : ℕ)
  | ready
  | isReady
  | read
  | manage
  | update (env : EntryServices) (car : List Rect)
  | expire (id : ℤ)
  | other (action : SensorAction)

/-- The steps of a sensor that take no frame. -/
def TakesNoFrame : SensorAction → Bool
  | .frame .. | .notifyExpiration .. => false
  | _ => true

/-- `SerialVideoReader::isReady`. -/
def isReady (r : SerialVideoReader) : Bool :=
  !(r.mFrameQueue.isEmpty || r.mFrameIndexer.isEmpty) &&
    r.mFrameQueue.getLast?.any (fun e => !e.2.empty) && r.mReady

/-- `run` of the camera thread goes from `reading` over `pushed` and `indexed` back to `reading`;
`run` of the main thread polls `isReady`, then reads in its loop. -/
def step (io : Storage) (s : FrameLoop) : Action → Option FrameLoop
  | .capture now frame =>
      if s.camera = .reading then
        some { s with
          mVideoReader := { s.mVideoReader with
            mFrameQueue :=
              SerialVideoReader.pushFrame s.mVideoReader.mFrameQueue (some now) frame }
          camera := .pushed now frame
          captured := s.captured ++ [(now, frame)] }
      else none
  | .index fuel =>
      match s.camera with
      | .pushed now frame =>
          (SerialVideoReader.indexFrame fuel s.mVideoReader now frame).map fun r =>
            { s with mVideoReader := r, camera := .indexed now }
      | _ => none
  | .ready =>
      match s.camera with
      | .indexed now =>
          some { s with
            mVideoReader := { s.mVideoReader with prev := now, mReady := true }
            camera := .reading }
      | _ => none
  | .isReady =>
      if s.main = .waiting then
        some { s with main := if isReady s.mVideoReader then .looping else .waiting }
      else none
  | .read =>
      if s.main = .looping then
        some { s with
          main := match s.mVideoReader.mFrameQueue.getLast? with
            | some (now, frame) => .holding (s.captured.length - 1) now frame
            | none => .noFrame }
      else none
  | .manage =>
      match s.main with
      | .holding .. => some { s with main := .looping }
      | _ => none
  | .update env car =>
      match s.main with
      | .holding position now frame =>
          if frame.empty then some { s with main := .emptyFrame }
          else
            (s.sensor.updateSpots io env frame now car).map fun sensor =>
              { s with sensor, main := .looping, processed := s.processed ++ [position] }
      | _ => none
  | .expire id =>
      (s.sensor.notifyExpiration io id s.mVideoReader.mFrameIndexer).map fun sensor =>
        { s with sensor }
  | .other action =>
      if TakesNoFrame action then (Sensor.step io s.sensor action).map fun sensor => { s with sensor }
      else none

/-- Both threads before their first frame. -/
def start (prev : ℤ) (sensor : Sensor) : FrameLoop :=
  { mVideoReader := SerialVideoReader.start prev, sensor }

/-- A message about a change: the frame and the time of a frame that was processed. -/
def OfChange (s : FrameLoop) (m : ParkingUpdateMessage) : Prop :=
  (m.mRequestCode = HttpReqType.HTTP_REQ_UPDATE_ENTER.code ∨
      m.mRequestCode = HttpReqType.HTTP_REQ_UPDATE_EXIT.code) ∧
    ∃ k ∈ s.processed, s.captured[k]?.map SerialVideoReader.stamped = some (m.mEventTime, m.mFrame)

/-- A message about an overstay: no picture, or a frame captured within ten seconds of its time. -/
def OfExpiry (s : FrameLoop) (m : ParkingUpdateMessage) : Prop :=
  m.mRequestCode = HttpReqType.HTTP_REQ_UPDATE_OVER.code ∧
    (m.mFrame = Mat.none ∨ ∃ c ∈ s.captured, c.2 = m.mFrame ∧
      ∃ t, m.mEventTime = some t ∧ t ≤ c.1 ∧ c.1 ≤ t + 10)

/-- What holds between any two steps. -/
structure Sound (s : FrameLoop) : Prop where
  queue : s.mVideoReader.mFrameQueue =
    (s.captured.map SerialVideoReader.stamped).drop (s.captured.length - SerialVideoReader.mMaxFrames)
  indexed : ∀ e ∈ s.mVideoReader.mFrameIndexer, e ∈ s.captured.map SerialVideoReader.stamped
  pushed : ∀ now frame, s.camera = .pushed now frame → (now, frame) ∈ s.captured
  ready : s.main ≠ .waiting → s.captured ≠ []
  running : s.main ≠ .noFrame
  holding : ∀ k now frame, s.main = .holding k now frame →
    s.captured[k]?.map SerialVideoReader.stamped = some (now, frame) ∧ ∀ j ∈ s.processed, j ≤ k
  processed : s.processed.Pairwise (· ≤ ·)
  pictures : ∀ k ∈ s.processed, ∃ c, s.captured[k]? = some c ∧ c.2.empty = false
  messages : ∀ m ∈ s.sensor.mServMsgQueue.pushed, s.OfChange m ∨ s.OfExpiry m

section Messages

variable {io : Storage} {env : EntryServices} {frame : Mat} {now : Ptime} {car : List Rect}

/-- What an observation pushes is a change at the time of its frame. -/
theorem observe_change {b : Bool} {s t : SpotState} (h : s.observe env b frame now = some t) :
    ∃ data, t.pushed = s.pushed ++ data ∧ ∀ m ∈ data,
      (m.mRequestCode = HttpReqType.HTTP_REQ_UPDATE_ENTER.code ∨
        m.mRequestCode = HttpReqType.HTTP_REQ_UPDATE_EXIT.code) ∧
      m.mEventTime = now ∧ m.mFrame = frame := by
  unfold SpotState.observe at h
  generalize s.spot.update s.statics b = up at h
  obtain ⟨spot, updated⟩ := up
  simp only at h
  split_ifs at h
  · obtain ⟨⟨spot', data⟩, hent, rfl⟩ := Option.map_eq_some_iff.mp h
    obtain ⟨crop, -, hent⟩ := Option.map_eq_some_iff.mp hent
    obtain ⟨-, rfl⟩ := Prod.mk.inj hent
    refine ⟨_, rfl, fun m hm => ?_⟩
    obtain rfl := List.mem_singleton.mp hm
    exact ⟨.inl rfl, rfl, rfl⟩
  · obtain rfl := Option.some.inj h
    refine ⟨_, rfl, fun m hm => ?_⟩
    obtain rfl := List.mem_singleton.mp hm
    exact ⟨.inr rfl, rfl, rfl⟩
  · obtain rfl := Option.some.inj h
    exact ⟨[], (List.append_nil _).symm, fun _ hm => nomatch hm⟩

theorem passData_change {statics : Thresholds} {list : List ParkingSpot}
    {states : List (Bool × SpotState)}
    (h : VisionSensor.updateSpots env frame now car (list.map (Sensor.spotState statics)) =
      some states) :
    ∀ m ∈ Sensor.passData states,
      (m.mRequestCode = HttpReqType.HTTP_REQ_UPDATE_ENTER.code ∨
        m.mRequestCode = HttpReqType.HTTP_REQ_UPDATE_EXIT.code) ∧
      m.mEventTime = now ∧ m.mFrame = frame := by
  induction list generalizing states with
  | nil =>
    obtain rfl : [] = states := Option.some.inj h
    exact fun _ hm => nomatch hm
  | cons spot list ih =>
    obtain ⟨b, t, states', ht, hstates', rfl⟩ := Sensor.pass_cons h
    obtain ⟨data, hpushed, hdata⟩ := observe_change ht
    have hpushed : t.pushed = data := hpushed
    intro m hm
    rw [Sensor.passData_cons, hpushed] at hm
    rcases List.mem_append.mp hm with hm | hm
    · exact hdata m hm
    · exact ih hstates' m hm

/-- A pass over the spots pushes changes at the time of its frame. -/
theorem updateSpots_change {s u : Sensor} (h : s.updateSpots io env frame now car = some u) :
    ∃ data, u.mServMsgQueue.pushed = s.mServMsgQueue.pushed ++ data ∧ ∀ m ∈ data,
      (m.mRequestCode = HttpReqType.HTTP_REQ_UPDATE_ENTER.code ∨
        m.mRequestCode = HttpReqType.HTTP_REQ_UPDATE_EXIT.code) ∧
      m.mEventTime = now ∧ m.mFrame = frame := by
  obtain ⟨list, -, h⟩ := Option.bind_eq_some_iff.mp h
  obtain ⟨states, hstates, rfl⟩ := Option.map_eq_some_iff.mp h
  exact ⟨_, Sensor.pushAll_pushed .., passData_change hstates⟩

/-- What `readAt` finds is a frame of one of the eleven seconds. -/
theorem readAt_found (mFrameIndexer : FrameIndexer) (time : Ptime) :
    (mFrameIndexer.readAt Mat.none time).2 = Mat.none ∨
      ∃ i : ℕ, i ≤ 10 ∧
        (time.addSeconds i, (mFrameIndexer.readAt Mat.none time).2) ∈ mFrameIndexer := by
  unfold FrameIndexer.readAt
  split_ifs
  · exact .inl rfl
  · cases hs : mFrameIndexer.search time with
    | none => exact .inl rfl
    | some i =>
      obtain ⟨hi, hsome, -⟩ := FrameIndexer.search_eq_some.mp hs
      obtain ⟨image, himage⟩ := Option.isSome_iff_exists.mp hsome
      refine .inr ⟨i, hi, ?_⟩
      obtain ⟨before, after, hsplit, -⟩ := List.lookup_eq_some_iff.mp himage
      simp only [himage, Option.getD_some]
      rw [hsplit]
      exact List.mem_append_right _ List.mem_cons_self

/-- An expiry pushes at most an overstay, with what `readAt` finds at its time. -/
theorem notifyExpiration_expiry {id : ℤ} {mFrameIndexer : FrameIndexer} {s u : Sensor}
    (h : s.notifyExpiration io id mFrameIndexer = some u) :
    ∃ data, u.mServMsgQueue.pushed = s.mServMsgQueue.pushed ++ data ∧ ∀ m ∈ data,
      m.mRequestCode = HttpReqType.HTTP_REQ_UPDATE_OVER.code ∧
      m.mFrame = (mFrameIndexer.readAt Mat.none m.mEventTime).2 := by
  obtain ⟨spot, -, rfl⟩ := Option.map_eq_some_iff.mp h
  refine ⟨_, Sensor.pushAll_pushed .., fun m hm => ?_⟩
  unfold ParkingSpot.notifyExpiration at hm
  split_ifs at hm
  · obtain rfl := List.mem_singleton.mp hm
    exact ⟨rfl, rfl⟩
  · cases hm

/-- Nothing else pushes. -/
theorem other_pushed {action : SensorAction} (ha : TakesNoFrame action = true) {s u : Sensor}
    (h : Sensor.step io s action = some u) :
    u.mServMsgQueue.pushed = s.mServMsgQueue.pushed := by
  have hcall : ∀ call : MessageQueue.Action, (∀ data, call ≠ .push data) →
      s.onQueue io call = some u → u.mServMsgQueue.pushed = s.mServMsgQueue.pushed := by
    intro call hcall hu
    obtain ⟨q, hq, rfl⟩ := Option.map_eq_some_iff.mp hu
    exact (MessageQueue.serves_step hcall hq).pushed
  cases action with
  | frame => cases ha
  | notifyExpiration => cases ha
  | setThresholds statics =>
    obtain rfl := Option.some.inj h
    rfl
  | update writable tables junk ROIList =>
    simp only [Sensor.step] at h
    split at h
    · cases h
    · obtain rfl := Option.some.inj h
      rfl
    · obtain rfl := Option.some.inj h
      rfl
  | try_pop listing | wait_and_pop listing | wake =>
    exact hcall _ (fun _ hdata => by cases hdata) h

end Messages

section Steps

open SerialVideoReader

variable {io : Storage} {s t : FrameLoop}

theorem start_sound (prev : ℤ) {sensor : Sensor} (hsensor : sensor.mServMsgQueue.pushed = []) :
    (start prev sensor).Sound where
  queue := rfl
  indexed _ he := nomatch he
  pushed _ _ h := nomatch h
  ready h := absurd rfl h
  running h := nomatch h
  holding _ _ _ h := nomatch h
  processed := List.Pairwise.nil
  pictures _ hk := nomatch hk
  messages m hm := by
    have hm : m ∈ sensor.mServMsgQueue.pushed := hm
    rw [hsensor] at hm
    cases hm

/-- The frames that have been captured keep their positions. -/
theorem captured_append {frames more : List (ℤ × Mat)} {k : ℕ} {c : ℤ × Mat}
    (h : frames[k]? = some c) : (frames ++ more)[k]? = some c := by
  rw [List.getElem?_append_left (List.getElem?_eq_some_iff.mp h).1]
  exact h

theorem stamped_append {frames more : List (ℤ × Mat)} {k : ℕ} {e : Ptime × Mat}
    (h : frames[k]?.map stamped = some e) : (frames ++ more)[k]?.map stamped = some e := by
  obtain ⟨c, hc, rfl⟩ := Option.map_eq_some_iff.mp h
  rw [captured_append hc]
  rfl

/-- What has been said of a message stays true. -/
theorem messages_mono {more : List (ℤ × Mat)} {later : List ℕ}
    (hcaptured : t.captured = s.captured ++ more) (hprocessed : t.processed = s.processed ++ later)
    {m : ParkingUpdateMessage} (hm : s.OfChange m ∨ s.OfExpiry m) : t.OfChange m ∨ t.OfExpiry m := by
  rcases hm with ⟨hcode, k, hk, hframe⟩ | ⟨hcode, hframe⟩
  · refine .inl ⟨hcode, k, hprocessed ▸ List.mem_append_left _ hk, ?_⟩
    rw [hcaptured]
    exact stamped_append hframe
  · refine .inr ⟨hcode, hframe.imp_right ?_⟩
    rintro ⟨c, hc, htime⟩
    exact ⟨c, hcaptured ▸ List.mem_append_left _ hc, htime⟩

/-- The newest frame of the queue is the newest one captured. -/
theorem Sound.newest (hs : s.Sound) :
    s.mVideoReader.mFrameQueue.getLast? = s.captured[s.captured.length - 1]?.map stamped := by
  rw [hs.queue, List.getLast?_drop, List.length_map, ← List.getLast?_eq_getElem?, List.getLast?_map]
  have hroom : 0 < mMaxFrames := by decide
  split_ifs with h
  · have hnil : s.captured = [] := List.eq_nil_of_length_eq_zero (by omega)
    rw [hnil]
    rfl
  · rfl

theorem Sound.capture (hs : s.Sound) {now : ℤ} {frame : Mat}
    (ht : step io s (.capture now frame) = some t) : t.Sound := by
  simp only [step] at ht
  split_ifs at ht
  obtain rfl := Option.some.inj ht
  refine ⟨?_, fun e he => ?_, ?_, fun _ => by simp, hs.running, ?_, hs.processed, ?_, ?_⟩
  · have hdrop := pushFrame_drop (s.captured.map stamped) (some now) frame
    rw [List.length_map] at hdrop
    simp only [hs.queue, hdrop, List.map_append, List.length_append]
    rfl
  · rw [List.map_append]
    exact List.mem_append_left _ (hs.indexed e he)
  · intro now' frame' h
    obtain ⟨rfl, rfl⟩ := CameraPhase.pushed.inj h
    exact List.mem_append_right _ (List.mem_singleton_self _)
  · intro k now' frame' h
    obtain ⟨hk, hle⟩ := hs.holding k now' frame' h
    exact ⟨stamped_append hk, hle⟩
  · intro k hk
    obtain ⟨c, hc, hpicture⟩ := hs.pictures k hk
    exact ⟨c, captured_append hc, hpicture⟩
  · intro m hm
    refine @messages_mono s _ [(now, frame)] [] ?_ ?_ m (hs.messages m hm)
    · rfl
    · exact (List.append_nil _).symm

/-- The index takes only the frame that has just been pushed. -/
theorem indexFrame_spec {fuel : ℕ} {r u : SerialVideoReader} {now : ℤ} {frame : Mat}
    (h : indexFrame fuel r now frame = some u) :
    u.mFrameQueue = r.mFrameQueue ∧
      ∀ e ∈ u.mFrameIndexer, e ∈ r.mFrameIndexer ∨ e = (some now, frame) := by
  unfold indexFrame at h
  split_ifs at h
  · obtain rfl := Option.some.inj h
    exact ⟨rfl, fun e he => FrameIndexer.mem_insert he⟩
  · obtain ⟨w, hw, rfl⟩ := Option.map_eq_some_iff.mp h
    have hevict : w.mFrameQueue = r.mFrameQueue ∧ ∀ e ∈ w.mFrameIndexer, e ∈ r.mFrameIndexer := by
      unfold evict at hw
      split_ifs at hw
      · obtain ⟨front, -, rfl⟩ := Option.map_eq_some_iff.mp hw
        exact ⟨rfl, fun e he => List.mem_of_mem_eraseP he⟩
      · obtain rfl := Option.some.inj hw
        exact ⟨rfl, fun e he => he⟩
    split_ifs
    · exact ⟨hevict.1, fun e he => (FrameIndexer.mem_insert he).imp_left (hevict.2 e)⟩
    · exact ⟨hevict.1, fun e he => .inl (hevict.2 e he)⟩

theorem Sound.index (hs : s.Sound) {fuel : ℕ} (ht : step io s (.index fuel) = some t) :
    t.Sound := by
  simp only [step] at ht
  split at ht
  · rename_i now frame hcamera
    obtain ⟨r, hr, rfl⟩ := Option.map_eq_some_iff.mp ht
    obtain ⟨hqueue, hindex⟩ := indexFrame_spec hr
    refine ⟨hqueue.trans hs.queue, fun e he => ?_, fun _ _ h => (nomatch h), hs.ready, hs.running,
      hs.holding, hs.processed, hs.pictures, hs.messages⟩
    rcases hindex e he with he | rfl
    · exact hs.indexed e he
    · exact List.mem_map_of_mem (hs.pushed now frame hcamera)
  · cases ht

theorem Sound.markReady (hs : s.Sound) (ht : step io s .ready = some t) : t.Sound := by
  simp only [step] at ht
  split at ht
  · obtain rfl := Option.some.inj ht
    exact ⟨hs.queue, hs.indexed, fun _ _ h => (nomatch h), hs.ready, hs.running, hs.holding,
      hs.processed, hs.pictures, hs.messages⟩
  · cases ht

theorem Sound.poll (hs : s.Sound) (ht : step io s .isReady = some t) : t.Sound := by
  simp only [step] at ht
  split_ifs at ht with hwaiting hready
  · obtain rfl := Option.some.inj ht
    refine ⟨hs.queue, hs.indexed, hs.pushed, fun _ hnil => ?_, fun h => (nomatch h),
      fun _ _ _ h => (nomatch h), hs.processed, hs.pictures, hs.messages⟩
    -- the queue is not empty, so a frame has been captured
    have hqueue := hs.queue
    rw [show s.captured = [] from hnil] at hqueue
    rw [FrameLoop.isReady, hqueue] at hready
    cases hready
  · obtain rfl := Option.some.inj ht
    exact ⟨hs.queue, hs.indexed, hs.pushed, fun h => absurd rfl h, fun h => (nomatch h),
      fun _ _ _ h => (nomatch h), hs.processed, hs.pictures, hs.messages⟩

/-- The loop reads the newest frame, and there is one. -/
theorem Sound.read (hs : s.Sound) (ht : step io s .read = some t) : t.Sound := by
  simp only [step] at ht
  split_ifs at ht with hlooping
  obtain rfl := Option.some.inj ht
  have hne : s.captured ≠ [] := hs.ready (by rw [hlooping]; exact (nomatch ·))
  have hlast : s.captured.length - 1 < s.captured.length := by
    have := List.length_pos_of_ne_nil hne
    omega
  have hnewest := hs.newest
  rw [List.getElem?_eq_getElem hlast, Option.map_some] at hnewest
  refine ⟨hs.queue, hs.indexed, hs.pushed, fun _ => hne, ?_, ?_, hs.processed, hs.pictures,
    hs.messages⟩
  · rw [hnewest]
    exact (nomatch ·)
  · intro k now frame h
    rw [hnewest] at h
    obtain ⟨rfl, rfl, rfl⟩ := MainPhase.holding.inj h
    refine ⟨by simp [List.getElem?_eq_getElem hlast, stamped], fun j hj => ?_⟩
    obtain ⟨c, hc, -⟩ := hs.pictures j hj
    have hj' := (List.getElem?_eq_some_iff.mp hc).1
    omega

theorem Sound.manage (hs : s.Sound) (ht : step io s .manage = some t) : t.Sound := by
  simp only [step] at ht
  split at ht
  · rename_i k now frame hholding
    obtain rfl := Option.some.inj ht
    have hne : s.captured ≠ [] := hs.ready (by rw [hholding]; exact (nomatch ·))
    exact ⟨hs.queue, hs.indexed, hs.pushed, fun _ => hne, fun h => (nomatch h),
      fun _ _ _ h => (nomatch h), hs.processed, hs.pictures, hs.messages⟩
  · cases ht

theorem Sound.update (hs : s.Sound) {env : EntryServices} {car : List Rect}
    (ht : step io s (.update env car) = some t) : t.Sound := by
  simp only [step] at ht
  split at ht
  · rename_i k now frame hholding
    obtain ⟨hframe, hle⟩ := hs.holding k now frame hholding
    have hne : s.captured ≠ [] := hs.ready (by rw [hholding]; exact (nomatch ·))
    split_ifs at ht with hempty
    · obtain rfl := Option.some.inj ht
      exact ⟨hs.queue, hs.indexed, hs.pushed, fun _ => hne, fun h => (nomatch h),
        fun _ _ _ h => (nomatch h), hs.processed, hs.pictures, hs.messages⟩
    · obtain ⟨u, hu, rfl⟩ := Option.map_eq_some_iff.mp ht
      obtain ⟨data, hpushed, hdata⟩ := updateSpots_change hu
      refine ⟨hs.queue, hs.indexed, hs.pushed, fun _ => hne, fun h => (nomatch h),
        fun _ _ _ h => (nomatch h), ?_, ?_, ?_⟩
      · refine List.pairwise_append.mpr ⟨hs.processed, List.pairwise_singleton _ _, ?_⟩
        intro j hj k' hk'
        obtain rfl := List.mem_singleton.mp hk'
        exact hle j hj
      · intro j hj
        rcases List.mem_append.mp hj with hj | hj
        · exact hs.pictures j hj
        · obtain rfl := List.mem_singleton.mp hj
          obtain ⟨c, hc, hstamped⟩ := Option.map_eq_some_iff.mp hframe
          obtain ⟨-, rfl⟩ := Prod.mk.inj hstamped
          exact ⟨c, hc, Bool.eq_false_iff.mpr hempty⟩
      · intro m hm
        have hm : m ∈ u.mServMsgQueue.pushed := hm
        rw [hpushed] at hm
        rcases List.mem_append.mp hm with hm | hm
        · refine @messages_mono s _ [] [k] ?_ ?_ m (hs.messages m hm)
          · exact (List.append_nil _).symm
          · rfl
        · obtain ⟨hcode, htime, himage⟩ := hdata m hm
          refine .inl ⟨hcode, k, List.mem_append_right _ (List.mem_singleton_self k), ?_⟩
          rw [htime, himage]
          exact hframe
  · cases ht

/-- A step of the sensor that leaves both threads where they are, and pushes only overstays. -/
theorem Sound.beside (hs : s.Sound) {u : Sensor}
    (hu : ∃ data, u.mServMsgQueue.pushed = s.sensor.mServMsgQueue.pushed ++ data ∧
      ∀ m ∈ data, s.OfExpiry m) : Sound { s with sensor := u } := by
  refine ⟨hs.queue, hs.indexed, hs.pushed, hs.ready, hs.running, hs.holding, hs.processed,
    hs.pictures, fun m hm => ?_⟩
  obtain ⟨data, hpushed, hdata⟩ := hu
  have hm : m ∈ u.mServMsgQueue.pushed := hm
  rw [hpushed] at hm
  rcases List.mem_append.mp hm with hm | hm
  · exact hs.messages m hm
  · exact .inr (hdata m hm)

/-- What the index holds for an expiry was captured within ten seconds of it. -/
theorem Sound.expiry (hs : s.Sound) {m : ParkingUpdateMessage}
    (hcode : m.mRequestCode = HttpReqType.HTTP_REQ_UPDATE_OVER.code)
    (hframe : m.mFrame = (s.mVideoReader.mFrameIndexer.readAt Mat.none m.mEventTime).2) :
    s.OfExpiry m := by
  refine ⟨hcode, ?_⟩
  rw [hframe]
  refine (readAt_found _ _).imp_right ?_
  rintro ⟨i, hi, hmem⟩
  obtain ⟨c, hc, hstamped⟩ := List.mem_map.mp (hs.indexed _ hmem)
  obtain ⟨htime, himage⟩ := Prod.mk.inj hstamped
  refine ⟨c, hc, himage, ?_⟩
  obtain ⟨t, ht, hadd⟩ := Option.map_eq_some_iff.mp htime.symm
  exact ⟨t, ht, by omega, by omega⟩

theorem Sound.step (hs : s.Sound) {a : Action} (ht : FrameLoop.step io s a = some t) :
    t.Sound := by
  cases a with
  | capture now frame => exact hs.capture ht
  | index fuel => exact hs.index ht
  | ready => exact hs.markReady ht
  | isReady => exact hs.poll ht
  | read => exact hs.read ht
  | manage => exact hs.manage ht
  | update env car => exact hs.update ht
  | expire id =>
    obtain ⟨u, hu, rfl⟩ := Option.map_eq_some_iff.mp ht
    obtain ⟨data, hpushed, hdata⟩ := notifyExpiration_expiry hu
    exact hs.beside ⟨data, hpushed, fun m hm => hs.expiry (hdata m hm).1 (hdata m hm).2⟩
  | other action =>
    simp only [FrameLoop.step] at ht
    split_ifs at ht with hnone
    obtain ⟨u, hu, rfl⟩ := Option.map_eq_some_iff.mp ht
    refine hs.beside ⟨[], ?_, fun _ hm => nomatch hm⟩
    rw [other_pushed hnone hu, List.append_nil]

/-- Once a frame has been captured, the loop reads the newest one. -/
theorem Sound.reads_newest (hs : s.Sound) (hlooping : s.main = .looping) :
    ∃ c, s.captured.getLast? = some c ∧
      FrameLoop.step io s .read =
        some { s with main := .holding (s.captured.length - 1) (some c.1) c.2 } := by
  have hne : s.captured ≠ [] := hs.ready (by rw [hlooping]; exact (nomatch ·))
  have hlast := List.getLast?_eq_some_getLast hne
  refine ⟨_, hlast, ?_⟩
  have hnewest := hs.newest
  rw [← List.getLast?_eq_getElem?, hlast] at hnewest
  simp only [FrameLoop.step, if_pos hlooping, hnewest]
  rfl

/-- In every interleaving of the camera thread, the main loop and the other threads: whenever the
loop reads it gets the newest frame captured, and it never ends for lack of one; the frames it
processes are frames captured, in their order, none of them empty; and every message pushed is a
change at the time of a processed frame, with that frame, or an overstay with no picture or a frame
captured within ten seconds of its time. -/
theorem messages_from_camera {prev : ℤ} {sensor : Sensor}
    (hsensor : sensor.mServMsgQueue.pushed = []) {as : List Action}
    (hs : Visits (FrameLoop.step io) (start prev sensor) as s) :
    (∀ u, Takes (FrameLoop.step io) (start prev sensor) as u .read →
        ∃ c, u.captured.getLast? = some c ∧
          FrameLoop.step io u .read =
            some { u with main := .holding (u.captured.length - 1) (some c.1) c.2 }) ∧
      s.main ≠ .noFrame ∧
        s.processed.Pairwise (· ≤ ·) ∧
          (∀ k ∈ s.processed, ∃ c, s.captured[k]? = some c ∧ c.2.empty = false) ∧
            ∀ m ∈ s.sensor.mServMsgQueue.pushed, s.OfChange m ∨ s.OfExpiry m := by
  have hsound : ∀ u, Visits (FrameLoop.step io) (start prev sensor) as u → u.Sound := fun u hu =>
    invariant (fun _ _ _ ht h => ht.step h) (start_sound prev hsensor) hu
  refine ⟨fun u hu => ?_, (hsound s hs).running, (hsound s hs).processed, (hsound s hs).pictures,
    (hsound s hs).messages⟩
  obtain ⟨v, hv, -⟩ := visits_of_takes hu
  refine (hsound u (visits_before hu)).reads_newest ?_
  simp only [FrameLoop.step] at hv
  split_ifs at hv with hlooping
  exact hlooping

end Steps

/-- A car drives onto the spot, is seen twice, and overstays. -/
def parkedVisit : List Action :=
  let read := [Action.read, .update ⟨fun _ => false, fun _ _ => 0, fun _ => []⟩ [⟨1, 1, 9, 18⟩]]
  [.capture 7 ⟨1, 1, [[0]]⟩, .index 0, .ready, .isReady] ++ read ++
    [.capture 8 ⟨1, 1, [[1]]⟩] ++ read ++ [.index 0, .expire 1]

theorem messages_from_camera_parkedVisit :
    ∃ s, exec (step MessageQueue.epochDisk) (start 6 Sensor.oneSpot) parkedVisit = some s ∧
      s.sensor.mServMsgQueue.pushed.length = 2 ∧ s.processed = [0, 1] ∧
        ∀ m ∈ s.sensor.mServMsgQueue.pushed, s.OfChange m ∨ s.OfExpiry m := by
  obtain ⟨s, hs, hpushed, hprocessed⟩ : ∃ s ∈ exec (step MessageQueue.epochDisk)
      (start 6 Sensor.oneSpot) parkedVisit,
        s.sensor.mServMsgQueue.pushed.length = 2 ∧ s.processed = [0, 1] := by decide +kernel
  exact ⟨s, hs, hpushed, hprocessed, (messages_from_camera rfl (visits_of_exec hs)).2.2.2.2⟩

end FrameLoop
end VisionSensor
