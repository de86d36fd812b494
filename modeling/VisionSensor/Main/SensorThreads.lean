import VisionSensor.Main.Sensor
import VisionSensor.Spot.Overstay

/-! The sensor with the statements of its threads: the main thread goes through `updateSpots`, every
spot has a timer thread of its own, and the uploader pops. A handler finds the members of its spot
as the main thread has left them, in the middle of `enter` or `exit` too. -/
namespace VisionSensor
open GuardedRun TimerThread

/-- A spot with its timer thread. `readAtCall` is the time the last handler has given to `readAt`,
and what `mFrameIndexer` held then. -/
structure SpotThread where
  machine : Machine
  readAtCall : Option (Ptime × FrameIndexer) := none

/-- A pass of `updateSpots` with the spots left. `run` has found that the frame is not empty. -/
structure Pass where
  env : EntryServices
  frame : Mat
  picture : frame.empty = false
  now : Ptime
  car : List Rect
  left : List ℤ

structure SensorThreads where
  mParkingSpots : List (ℤ × SpotThread)
  pass : Option Pass := none
  mServMsgQueue : MessageQueue := {}

/-- One step of a thread. `readAt` of a handler finds the frames in `mFrameIndexer`. -/
inductive ThreadAction where
  | frame (env : EntryServices) (frame : Mat) (now : Ptime) (car : List Rect)
  | main
  | setThresholds (statics : Thresholds)
  | updateAttributes (id : ℤ) (spotName : String) (timeLimit : ℤ) (roi : Rect)
      (policy : ParkingSpotPolicy)
  | expire (id : ℤ)
  | startHandler (id : ℤ) (i : ℕ)
  | handler (id : ℤ) (mFrameIndexer : FrameIndexer)
  | try_pop (listing : List File)
  | wait_and_pop (listing : List File)
  | wake

/-- `update(bool)` with what `localizer_detect` finds, and the call its answer asks for, up to the
first statement of that call. -/
def Pass.look (p : Pass) (m : Machine) : Option Machine :=
  let (occupied, _) := localizer_detect p.car m.spot.mROI
  ((m.stepCall (.update occupied)).bind Machine.stepMain).bind fun m' =>
    if (m.spot.update m.statics occupied).2 then
      if m'.spot.isOccupied then m'.stepCall (.enter p.env p.frame m'.spot.mROI p.now "null")
      else m'.stepCall (.exit p.frame p.now)
    else some m'

/-- The next statement of the main thread on a spot. -/
def Pass.next (p : Pass) (m : Machine) : Option Machine :=
  if m.main = [] then p.look m else m.stepMain

/-- The next statement of `notifyExpiration`. -/
def SpotThread.stepHandler (mFrameIndexer : FrameIndexer) (w : SpotThread) : Option SpotThread :=
  (w.machine.stepHandler fun time => (mFrameIndexer.readAt Mat.none time).2).map fun machine =>
    match w.machine.running with
    | some (_, .tested) =>
        let time := w.machine.spot.mEntryTime.addSeconds w.machine.spot.mTimeLimit
        { machine, readAtCall := some (time, mFrameIndexer) }
    | _ => { w with machine }

/-- The timer thread takes a queued handler. -/
def SpotThread.startHandler (i : ℕ) (w : SpotThread) : Option SpotThread :=
  (w.machine.stepStart i).map fun machine => { w with machine }

/-- What the threads of a spot have pushed on the way from `m` to `m'`. -/
def pushedSince (m m' : Machine) : List ParkingUpdateMessage :=
  (m'.log.drop m.log.length).map Pushed.data

namespace SensorThreads

def setSpot (id : ℤ) (w : SpotThread) (spots : List (ℤ × SpotThread)) : List (ℤ × SpotThread) :=
  spots.map fun e => if e.1 = id then (e.1, w) else e

/-- The spot under an id goes from `w` to `w'`; what it pushes enters the queue. -/
def moveSpot (io : Storage) (id : ℤ) (w w' : SpotThread) (s : SensorThreads) : SensorThreads :=
  { s with
    mParkingSpots := setSpot id w' s.mParkingSpots
    mServMsgQueue := Sensor.pushAll io (pushedSince w.machine w'.machine) s.mServMsgQueue }

def onSpot (io : Storage) (id : ℤ) (step : SpotThread → Option SpotThread) (s : SensorThreads) :
    Option SensorThreads :=
  (s.mParkingSpots.lookup id).bind fun w => (step w).map fun w' => s.moveSpot io id w w'

/-- The next statement of the pass. With the last one on a spot the pass goes on to the next. -/
def stepMain (io : Storage) (s : SensorThreads) : Option SensorThreads :=
  s.pass.bind fun p =>
    match p.left with
    | [] => some { s with pass := none }
    | id :: rest =>
        (s.mParkingSpots.lookup id).bind fun w => (p.next w.machine).map fun machine =>
          { s.moveSpot io id w { w with machine } with
            pass := some { p with left := if machine.main = [] then rest else id :: rest } }

def onQueue (io : Storage) (call : MessageQueue.Action) (s : SensorThreads) :
    Option SensorThreads :=
  (MessageQueue.step io s.mServMsgQueue call).map fun q => { s with mServMsgQueue := q }

/-- `run` ends on an empty frame, and settings change only between two passes. -/
def step (io : Storage) (s : SensorThreads) : ThreadAction → Option SensorThreads
  | .frame env frame now car =>
      if s.pass.isSome then none
      else if h : frame.empty = false then
        some { s with
          pass := some ⟨env, frame, h, now, car, s.mParkingSpots.map Prod.fst⟩ }
      else none
  | .main => s.stepMain io
  | .setThresholds statics =>
      if s.pass.isSome then none
      else some { s with
        mParkingSpots := s.mParkingSpots.map fun e =>
          (e.1, { e.2 with machine := { e.2.machine with statics } }) }
  | .updateAttributes id spotName timeLimit roi policy =>
      if s.pass.isSome then none
      else s.onSpot io id fun w =>
        let spot := (w.machine.spot.updateAttributes spotName timeLimit roi policy).1
        some { w with machine := { w.machine with spot } }
  | .expire id => s.onSpot io id fun w => w.machine.stepExpire.map fun machine => { w with machine }
  | .startHandler id i => s.onSpot io id (SpotThread.startHandler i)
  | .handler id mFrameIndexer => s.onSpot io id (SpotThread.stepHandler mFrameIndexer)
  | .try_pop listing => s.onQueue io (.try_pop listing)
  | .wait_and_pop listing => s.onQueue io (.wait_and_pop listing)
  | .wake => s.onQueue io .wake

/-- The spots as constructed, and no message. -/
def init (spots : List (ℤ × ParkingSpot)) (statics : Thresholds) : SensorThreads :=
  { mParkingSpots := spots.map fun e => (e.1, { machine := Machine.init e.2 statics }) }

/-- What the steps of a machine leave alone while it runs the statements of a call. -/
structure Follows (m m' : Machine) (data : List ParkingUpdateMessage) : Prop where
  statics : m'.statics = m.statics
  running : m'.running = m.running
  log : m'.log = m.log ++ data.map fun d => { data := d }

theorem Follows.pushedSince {m m' : Machine} {data : List ParkingUpdateMessage}
    (h : Follows m m' data) : pushedSince m m' = data := by
  simp [VisionSensor.pushedSince, h.log, Function.comp_def]

/-- Between two passes, with no handler under way, the threads are a sensor. -/
structure Rests (s : Sensor) (t : SensorThreads) : Prop where
  spots : t.mParkingSpots.map (fun e => (e.1, some e.2.machine.spot)) =
    s.mParkingSpotManager.mParkingSpots
  keys : (t.mParkingSpots.map Prod.fst).Nodup
  idle : ∀ e ∈ t.mParkingSpots, e.2.machine.main = [] ∧ e.2.machine.running = none ∧
    e.2.machine.statics = s.statics
  pass : t.pass = none
  queue : t.mServMsgQueue = s.mServMsgQueue

theorem stepMain_follows {m : Machine} {stmt : Stmt} {rest : List Stmt}
    (hm : m.main = stmt :: rest) :
    ∃ m', m.stepMain = some m' ∧ m'.main = rest ∧ m'.spot = stmt.apply m.statics m.spot ∧
      Follows m m' stmt.pushes := by
  refine ⟨_, by rw [Machine.stepMain, hm], rfl, rfl, ?_⟩
  cases stmt with
  | update b =>
    simp only [Machine.effect, Stmt.pushes]
    split_ifs <;> exact ⟨rfl, rfl, (List.append_nil _).symm⟩
  | push data => exact ⟨rfl, rfl, rfl⟩
  | _ => exact ⟨rfl, rfl, (List.append_nil _).symm⟩

theorem Follows.trans {m m' m'' : Machine} {data data' : List ParkingUpdateMessage}
    (h : Follows m m' data) (h' : Follows m' m'' data') : Follows m m'' (data ++ data') where
  statics := h'.statics.trans h.statics
  running := h'.running.trans h.running
  log := by rw [h'.log, h.log, List.append_assoc, List.map_append]

theorem stepCall_follows {m : Machine} {c : Call} {body : List Stmt} (hm : m.main = [])
    (hbody : c.body m.spot = some body) :
    ∃ m', m.stepCall c = some m' ∧ m'.main = body ∧ m'.spot = m.spot ∧ Follows m m' [] := by
  refine ⟨_, by rw [Machine.stepCall, if_pos hm, hbody, Option.map_some], ?_⟩
  cases c <;> exact ⟨rfl, rfl, rfl, rfl, (List.append_nil _).symm⟩

theorem enter_pushes {env : EntryServices} {img : Mat} {roi : Rect} {time : Ptime} {PN : String}
    {s : ParkingSpot} {body : List Stmt} (h : (Call.enter env img roi time PN).body s = some body) :
    ∃ data, body.flatMap Stmt.pushes = [data] ∧ data.mFrame = img := by
  obtain ⟨crop, -, rfl⟩ := Option.map_eq_some_iff.mp h
  generalize (if s.isSensor && env.check_res PN then
    some (env.entVehicle PN (env.to_iso_string time)) else none) = limit
  cases limit <;> exact ⟨_, rfl, rfl⟩

/-- Looking at a spot leaves the statements that are to follow; run in a row, they do what a whole
observation does. -/
theorem look_spec {p : Pass} {m : Machine} {t : SpotState} (hm : m.main = [])
    (ht : (Sensor.spotState m.statics m.spot).observe p.env
      (localizer_detect p.car m.spot.mROI).1 p.frame p.now = some t) :
    ∃ m', p.look m = some m' ∧ Follows m m' [] ∧ t.spot = runBody m.statics m'.main m'.spot ∧
      t.pushed = m'.main.flatMap Stmt.pushes := by
  obtain ⟨m₁, hcall, hmain₁, hspot₁, hfollows₁⟩ :=
    stepCall_follows (c := .update (localizer_detect p.car m.spot.mROI).1) hm rfl
  obtain ⟨m₂, hstep, hmain₂, hspot₂, hfollows₂⟩ := stepMain_follows hmain₁
  rw [hspot₁, hfollows₁.statics] at hspot₂
  have hfollows : Follows m m₂ [] := hfollows₁.trans hfollows₂
  have hspot₂ : m₂.spot = (m.spot.update m.statics (localizer_detect p.car m.spot.mROI).1).1 :=
    hspot₂
  unfold SpotState.observe Sensor.spotState at ht
  simp only [Pass.look, hcall, hstep, Option.bind_some]
  simp only [← hspot₂] at ht
  split_ifs at ht ⊢ with hupdated hoccupied
  · obtain ⟨⟨spot, data⟩, hent, rfl⟩ := Option.map_eq_some_iff.mp ht
    rw [enter_body m.statics] at hent
    obtain ⟨body, hbody, hent⟩ := Option.bind_eq_some_iff.mp hent
    obtain ⟨data', hdata', -⟩ := enter_pushes hbody
    rw [hdata'] at hent
    obtain ⟨rfl, rfl⟩ := Prod.mk.inj (Option.some.inj hent)
    obtain ⟨m₃, hcall₃, rfl, hspot₃, hfollows₃⟩ := stepCall_follows hmain₂ hbody
    exact ⟨m₃, hcall₃, hfollows.trans hfollows₃, by rw [hspot₃], hdata'.symm⟩
  · obtain rfl := Option.some.inj ht
    obtain ⟨m₃, hcall₃, hmain₃, hspot₃, hfollows₃⟩ :=
      stepCall_follows (c := .exit p.frame p.now) hmain₂ rfl
    refine ⟨m₃, hcall₃, hfollows.trans hfollows₃, ?_, ?_⟩
    · rw [hmain₃, hspot₃]
      rfl
    · rw [hmain₃]
      rfl
  · obtain rfl := Option.some.inj ht
    refine ⟨m₂, rfl, hfollows, ?_, ?_⟩
    · rw [hmain₂]
      rfl
    · rw [hmain₂]
      rfl

theorem pushedSince_eq_nil {m m' : Machine} (h : m'.log = m.log) : pushedSince m m' = [] := by
  simp [pushedSince, h]

theorem pushAll_append (io : Storage) (data data' : List ParkingUpdateMessage) (q : MessageQueue) :
    Sensor.pushAll io (data ++ data') q = Sensor.pushAll io data' (Sensor.pushAll io data q) :=
  List.foldl_append ..

/-- What the map holds of the spots. -/
def filed (e : ℤ × SpotThread) : ℤ × Option ParkingSpot := (e.1, some e.2.machine.spot)

/-- A pass with the spots `left`. -/
def passing (mParkingSpots : List (ℤ × SpotThread)) (p : Pass) (left : List ℤ) (q : MessageQueue) :
    SensorThreads :=
  { mParkingSpots, pass := some { p with left }, mServMsgQueue := q }

section Middle

variable (io : Storage) {pre post : List (ℤ × SpotThread)} {id : ℤ} {p : Pass} (rest : List ℤ)
  {w : SpotThread} {q : MessageQueue}

variable (hpre : id ∉ pre.map Prod.fst) (hpost : id ∉ post.map Prod.fst)

include hpre

theorem lookup_middle : (pre ++ (id, w) :: post).lookup id = some w := by
  have hnone : pre.lookup id = none := by
    rw [← Option.not_isSome_iff_eq_none, KeyedTable.lookup_isSome_iff]
    exact hpre
  rw [List.lookup_append, hnone, Option.none_or, List.lookup_cons_self]

include hpost

theorem setSpot_middle (w' : SpotThread) :
    setSpot id w' (pre ++ (id, w) :: post) = pre ++ (id, w') :: post := by
  have hother : ∀ spots : List (ℤ × SpotThread), id ∉ spots.map Prod.fst →
      setSpot id w' spots = spots := by
    intro spots hid
    refine (List.map_congr_left fun e he => if_neg fun heq => hid ?_).trans (List.map_id _)
    exact List.mem_map.mpr ⟨e, he, heq⟩
  have hpre' := hother pre hpre
  have hpost' := hother post hpost
  unfold setSpot at hpre' hpost' ⊢
  rw [List.map_append, List.map_cons, hpre', hpost', if_pos rfl]

theorem stepMain_middle {m' : Machine} {data : List ParkingUpdateMessage}
    (hnext : p.next w.machine = some m') (hfollows : Follows w.machine m' data) :
    step io (passing (pre ++ (id, w) :: post) p (id :: rest) q) .main =
      some (passing (pre ++ (id, { w with machine := m' }) :: post) p
        (if m'.main = [] then rest else id :: rest) (Sensor.pushAll io data q)) := by
  have hnext : Pass.next { p with left := id :: rest } w.machine = some m' := hnext
  simp only [step, stepMain, passing, Option.bind_some, lookup_middle hpre, hnext, Option.map_some,
    moveSpot, setSpot_middle hpre hpost, hfollows.pushedSince]

/-- The statements left of a call, run in a row. -/
theorem exec_call {body : List Stmt} (hbody : body ≠ []) (hmain : w.machine.main = body) :
    ∃ m', exec (step io) (passing (pre ++ (id, w) :: post) p (id :: rest) q)
        (List.replicate body.length .main) =
        some (passing (pre ++ (id, { w with machine := m' }) :: post) p rest
          (Sensor.pushAll io (body.flatMap Stmt.pushes) q)) ∧
      m'.main = [] ∧ m'.spot = runBody w.machine.statics body w.machine.spot ∧
      Follows w.machine m' (body.flatMap Stmt.pushes) := by
  induction body generalizing w q with
  | nil => exact absurd rfl hbody
  | cons stmt body ih =>
    obtain ⟨m₁, hstep, hmain₁, hspot₁, hfollows₁⟩ := stepMain_follows hmain
    have hnext : p.next w.machine = some m₁ := by
      rw [Pass.next, if_neg (by simp [hmain]), hstep]
    have hfirst := stepMain_middle io rest (q := q) hpre hpost hnext hfollows₁
    rw [List.length_cons, List.replicate_succ, exec_cons, hfirst, Option.bind_some, hmain₁]
    by_cases hlast : body = []
    · subst hlast
      refine ⟨m₁, ?_, hmain₁, hspot₁, ?_⟩
      · simp
      · simpa using hfollows₁
    · obtain ⟨m', hrest, hmain', hspot', hfollows'⟩ := ih (w := { w with machine := m₁ })
        (q := Sensor.pushAll io stmt.pushes q) hlast hmain₁
      refine ⟨m', ?_, hmain', ?_, hfollows₁.trans hfollows'⟩
      · rw [if_neg hlast, hrest, List.flatMap_cons, pushAll_append]
      · rw [hspot', hspot₁, hfollows₁.statics]
        rfl

/-- The whole visit of a spot, run in a row. -/
theorem exec_look {t : SpotState} (hmain : w.machine.main = [])
    (ht : (Sensor.spotState w.machine.statics w.machine.spot).observe p.env
      (localizer_detect p.car w.machine.spot.mROI).1 p.frame p.now = some t) :
    ∃ n m', exec (step io) (passing (pre ++ (id, w) :: post) p (id :: rest) q)
        (List.replicate n .main) =
        some (passing (pre ++ (id, { w with machine := m' }) :: post) p rest
          (Sensor.pushAll io t.pushed q)) ∧
      m'.main = [] ∧ m'.spot = t.spot ∧ m'.statics = w.machine.statics ∧
      m'.running = w.machine.running := by
  obtain ⟨m₁, hlook, hfollows₁, hspot₁, hpushed₁⟩ := look_spec hmain ht
  have hnext : p.next w.machine = some m₁ := by rw [Pass.next, if_pos hmain, hlook]
  have hfirst := stepMain_middle io rest (q := q) hpre hpost hnext hfollows₁
  by_cases hlast : m₁.main = []
  · rw [hlast] at hspot₁ hpushed₁ hfirst
    refine ⟨1, m₁, ?_, hlast, hspot₁.symm, hfollows₁.statics, hfollows₁.running⟩
    rw [List.replicate_one, exec_cons, hfirst, Option.bind_some, exec_nil, hpushed₁]
    rfl
  · rw [if_neg hlast] at hfirst
    obtain ⟨m', hrest, hmain', hspot', hfollows'⟩ := exec_call io rest (p := p)
      (w := { w with machine := m₁ }) (q := q) hpre hpost hlast rfl
    refine ⟨m₁.main.length + 1, m', ?_, hmain', ?_, ?_, ?_⟩
    · rw [List.replicate_succ, exec_cons, hfirst, Option.bind_some, hpushed₁]
      exact hrest
    · rw [hspot', hspot₁, hfollows₁.statics]
    · exact hfollows'.statics.trans hfollows₁.statics
    · exact hfollows'.running.trans hfollows₁.running

end Middle

/-- A pass over the spots left, every statement of it in a row. -/
theorem exec_pass (io : Storage) {p : Pass} {statics : Thresholds}
    (pre : List (ℤ × SpotThread)) {todo : List (ℤ × SpotThread)} {q : MessageQueue}
    {states : List (Bool × SpotState)}
    (hkeys : ((pre ++ todo).map Prod.fst).Nodup)
    (hidle : ∀ e ∈ todo, e.2.machine.main = [] ∧ e.2.machine.running = none ∧
      e.2.machine.statics = statics)
    (hstates : updateSpots p.env p.frame p.now p.car
      (todo.map fun e => Sensor.spotState statics e.2.machine.spot) = some states) :
    ∃ n todo', exec (step io) (passing (pre ++ todo) p (todo.map Prod.fst) q)
        (List.replicate n .main) =
        some (passing (pre ++ todo') p [] (Sensor.pushAll io (Sensor.passData states) q)) ∧
      todo'.map filed = Sensor.passMap (todo.map filed) states ∧
      todo'.map Prod.fst = todo.map Prod.fst ∧
      ∀ e ∈ todo', e.2.machine.main = [] ∧ e.2.machine.running = none ∧
        e.2.machine.statics = statics := by
  induction todo generalizing pre q states with
  | nil =>
    obtain rfl := Option.some.inj hstates
    exact ⟨0, [], rfl, rfl, rfl, by simp⟩
  | cons e todo ih =>
    obtain ⟨id, w⟩ := e
    obtain ⟨t, ht, hstates⟩ := Option.bind_eq_some_iff.mp hstates
    obtain ⟨states, hrest, rfl⟩ := Option.map_eq_some_iff.mp hstates
    obtain ⟨hmain, hrunning, rfl⟩ := hidle _ List.mem_cons_self
    have hmid : ((pre.map Prod.fst) ++ id :: todo.map Prod.fst).Nodup := by simpa using hkeys
    obtain ⟨-, hmidnodup, hcross⟩ := List.nodup_append.mp hmid
    have hpre : id ∉ pre.map Prod.fst := fun h => hcross id h id List.mem_cons_self rfl
    have hpost : id ∉ todo.map Prod.fst := (List.nodup_cons.mp hmidnodup).1
    obtain ⟨n, m', hlook, hmain', hspot', hstatics', hrunning'⟩ :=
      exec_look io (todo.map Prod.fst) (p := p) (q := q) hpre hpost hmain ht
    obtain ⟨n', todo', hpass, hfiled, hkeys', hidle'⟩ :=
      ih (pre ++ [(id, { w with machine := m' })]) (q := Sensor.pushAll io t.pushed q)
        (by simpa using hkeys) (fun e he => hidle e (List.mem_cons_of_mem _ he)) hrest
    refine ⟨n + n', (id, { w with machine := m' }) :: todo', ?_, ?_, ?_, ?_⟩
    · rw [List.replicate_add, exec_append, List.map_cons, hlook, Option.bind_some,
        Sensor.passData_cons, pushAll_append]
      simpa using hpass
    · rw [List.map_cons, hfiled, filed, hspot']
      rfl
    · rw [List.map_cons, hkeys']
      rfl
    · intro e he
      rcases List.mem_cons.mp he with rfl | he
      · exact ⟨hmain', hrunning'.trans hrunning, hstatics'⟩
      · exact hidle' e he

theorem mapM_filed (spots : List (ℤ × SpotThread)) :
    (spots.map filed).mapM Prod.snd = some (spots.map fun e => e.2.machine.spot) := by
  induction spots with
  | nil => rfl
  | cons e spots ih =>
    rw [List.map_cons, List.mapM_cons, ih]
    rfl

/-- A pass with no handler between its statements is a frame of the sensor. -/
theorem frame_undisturbed {io : Storage} {s s' : Sensor} {t : SensorThreads} (h : Rests s t)
    {env : EntryServices} {frame : Mat} {now : Ptime} {car : List Rect}
    (hs : Sensor.step io s (.frame env frame now car) = some s') :
    ∃ n t', exec (step io) t (.frame env frame now car :: List.replicate n .main) = some t' ∧
      Rests s' t' := by
  simp only [Sensor.step] at hs
  split_ifs at hs with hframe
  obtain ⟨list, hlist, hs⟩ := Option.bind_eq_some_iff.mp hs
  obtain ⟨states, hstates, rfl⟩ := Option.map_eq_some_iff.mp hs
  have hpicture : frame.empty = false := Bool.eq_false_iff.mpr hframe
  have hspots : s.mParkingSpotManager.mParkingSpots = t.mParkingSpots.map filed := h.spots.symm
  rw [hspots, mapM_filed] at hlist
  obtain rfl := Option.some.inj hlist
  rw [List.map_map] at hstates
  obtain ⟨n, todo', hpass, hfiled, hkeys, hidle⟩ := exec_pass io []
    (p := ⟨env, frame, hpicture, now, car, []⟩) (q := t.mServMsgQueue) h.keys h.idle hstates
  rw [List.nil_append, List.nil_append] at hpass
  have hstart : step io t (.frame env frame now car) = some (passing t.mParkingSpots
      ⟨env, frame, hpicture, now, car, []⟩ (t.mParkingSpots.map Prod.fst) t.mServMsgQueue) := by
    simp only [step, h.pass, Option.isSome_none, Bool.false_eq_true, if_false, dif_pos hpicture]
    rfl
  refine ⟨n + 1, ⟨todo', none, Sensor.pushAll io (Sensor.passData states) t.mServMsgQueue⟩, ?_, ?_⟩
  · rw [exec_cons, hstart, Option.bind_some, List.replicate_succ', exec_append, hpass]
    rfl
  · exact ⟨by rw [hspots]; exact hfiled, hkeys ▸ h.keys, hidle, rfl, by rw [h.queue]; rfl⟩

section Expiry

variable {io : Storage} {id : ℤ} {w w' : SpotThread} {t : SensorThreads}

theorem setSpot_setSpot (spots : List (ℤ × SpotThread)) :
    setSpot id w' (setSpot id w spots) = setSpot id w' spots := by
  unfold setSpot
  rw [List.map_map]
  apply List.map_congr_left
  intro e _
  by_cases he : e.1 = id <;> simp [he]

theorem setSpot_keys (spots : List (ℤ × SpotThread)) :
    (setSpot id w spots).map Prod.fst = spots.map Prod.fst := by
  unfold setSpot
  rw [List.map_map]
  apply List.map_congr_left
  intro e _
  by_cases he : e.1 = id <;> simp [he]

theorem setSpot_filed (spots : List (ℤ × SpotThread)) :
    (setSpot id w spots).map filed =
      SpotManager.setSpot id w.machine.spot (spots.map filed) := by
  unfold setSpot SpotManager.setSpot
  rw [List.map_map, List.map_map]
  apply List.map_congr_left
  intro e _
  by_cases he : e.1 = id <;> simp [filed, he]

theorem lookup_filed (spots : List (ℤ × SpotThread)) (id : ℤ) :
    (spots.map filed).lookup id = (spots.lookup id).map fun w => some w.machine.spot := by
  induction spots with
  | nil => rfl
  | cons e spots ih =>
    rw [List.map_cons, filed, List.lookup_cons, List.lookup_cons, ih]
    by_cases he : id == e.1 <;> simp [he]

/-- A step of a spot that has moved to `w`. -/
theorem onSpot_moved (hlookup : (t.mParkingSpots.lookup id).isSome) (q : MessageQueue)
    (f : SpotThread → Option SpotThread) :
    onSpot io id f ⟨setSpot id w t.mParkingSpots, t.pass, q⟩ =
      (f w).map fun w' => ⟨setSpot id w' t.mParkingSpots, t.pass,
        Sensor.pushAll io (pushedSince w.machine w'.machine) q⟩ := by
  obtain ⟨w₀, hw₀⟩ := Option.isSome_iff_exists.mp hlookup
  have hnew : (setSpot id w t.mParkingSpots).lookup id = some w := by
    rw [setSpot, KeyedTable.lookup_map_key, if_pos rfl, hw₀, Option.map_some]
  simp only [onSpot, hnew, Option.bind_some, moveSpot, setSpot_setSpot]

theorem Rests.moved {s : Sensor} (h : Rests s t) (hmain : w'.machine.main = [])
    (hrunning : w'.machine.running = none) (hstatics : w'.machine.statics = s.statics)
    (data : List ParkingUpdateMessage) :
    Rests
      { s with
        mParkingSpotManager := { s.mParkingSpotManager with
          mParkingSpots :=
            SpotManager.setSpot id w'.machine.spot s.mParkingSpotManager.mParkingSpots }
        mServMsgQueue := Sensor.pushAll io data s.mServMsgQueue }
      ⟨setSpot id w' t.mParkingSpots, t.pass, Sensor.pushAll io data t.mServMsgQueue⟩ where
  spots := by
    rw [← h.spots]
    exact setSpot_filed _
  keys := by
    rw [setSpot_keys]
    exact h.keys
  idle := by
    intro e he
    obtain ⟨e₀, he₀, rfl⟩ := List.mem_map.mp he
    split_ifs
    · exact ⟨hmain, hrunning, hstatics⟩
    · exact h.idle e₀ he₀
  pass := h.pass
  queue := by rw [h.queue]

/-- The three steps of a handler that has found the spot occupied. -/
theorem handler_row (mFrameIndexer : FrameIndexer) {hd : Handler}
    (hrunning : w.machine.running = some (hd, .tested)) (hocc : w.machine.spot.mOccupied = true) :
    ∃ w₁ w₂ w₃, w.stepHandler mFrameIndexer = some w₁ ∧ w₁.stepHandler mFrameIndexer = some w₂ ∧
      w₂.stepHandler mFrameIndexer = some w₃ ∧ pushedSince w.machine w₁.machine = [] ∧
      pushedSince w₁.machine w₂.machine = [] ∧
      w.machine.spot.notifyExpiration (fun time => (mFrameIndexer.readAt Mat.none time).2) =
        (w₃.machine.spot, (pushedSince w₂.machine w₃.machine).head?) ∧
      (pushedSince w₂.machine w₃.machine).length = 1 ∧ w₃.machine.main = w.machine.main ∧
      w₃.machine.running = none ∧ w₃.machine.statics = w.machine.statics := by
  simp only [SpotThread.stepHandler, Machine.stepHandler, hrunning, Option.map_some]
  refine ⟨_, _, _, rfl, rfl, rfl, pushedSince_eq_nil rfl, pushedSince_eq_nil rfl, ?_, ?_, rfl, rfl,
    rfl⟩
  · simp [ParkingSpot.notifyExpiration, hocc, pushedSince, ParkingSpot.overstayed]
  · simp [pushedSince]

/-- A handler with no statement of the main thread between its own is an expiry of the sensor. -/
theorem expiry_undisturbed {s s' : Sensor} (h : Rests s t) {mFrameIndexer : FrameIndexer}
    (hw : t.mParkingSpots.lookup id = some w) {i : ℕ} {hd : Handler}
    (hget : w.machine.handlers[i]? = some hd)
    (hs : Sensor.step io s (.notifyExpiration id mFrameIndexer) = some s') :
    ∃ n t', exec (step io) t
        (.startHandler id i :: List.replicate n (.handler id mFrameIndexer)) = some t' ∧
      Rests s' t' := by
  obtain ⟨hmain, hrunning, hstatics⟩ : w.machine.main = [] ∧ w.machine.running = none ∧
      w.machine.statics = s.statics := h.idle _ (KeyedTable.mem_of_lookup hw)
  have hfind : s.mParkingSpotManager.find id = some (some w.machine.spot) := by
    have hspots : s.mParkingSpotManager.mParkingSpots = t.mParkingSpots.map filed := h.spots.symm
    rw [SpotManager.find, hspots, lookup_filed, hw, Option.map_some]
  have hlookup : (t.mParkingSpots.lookup id).isSome := by rw [hw]; rfl
  simp only [Sensor.step, Sensor.notifyExpiration, hfind, Option.join_some, Option.map_some,
    Option.some.injEq] at hs
  subst hs
  obtain ⟨w₀, hw₀, hspot₀, hmain₀, hstatics₀, hrunning₀, hlog₀⟩ : ∃ w₀ : SpotThread,
      w.startHandler i = some w₀ ∧ w₀.machine.spot = w.machine.spot ∧
      w₀.machine.main = w.machine.main ∧ w₀.machine.statics = w.machine.statics ∧
      (w₀.machine.running = if w.machine.spot.mOccupied then some (hd, .tested) else none) ∧
      w₀.machine.log = w.machine.log := by
    simp only [SpotThread.startHandler, Machine.stepStart, hrunning, hget, if_true, Option.map_some]
    exact ⟨_, rfl, rfl, rfl, rfl, rfl, rfl⟩
  have hstart : step io t (.startHandler id i) =
      some ⟨setSpot id w₀ t.mParkingSpots, t.pass, t.mServMsgQueue⟩ := by
    simp only [step, onSpot, hw, Option.bind_some, hw₀, Option.map_some, moveSpot,
      pushedSince_eq_nil hlog₀]
    rfl
  cases hocc : w.machine.spot.mOccupied with
  | false =>
    rw [hocc] at hrunning₀
    refine ⟨0, ⟨setSpot id w₀ t.mParkingSpots, t.pass, t.mServMsgQueue⟩, ?_, ?_⟩
    · rw [List.replicate_zero, exec_cons, hstart, Option.bind_some, exec_nil]
    · simp only [ParkingSpot.notifyExpiration, hocc]
      rw [← hspot₀]
      exact h.moved (hmain₀.trans hmain) hrunning₀ (hstatics₀.trans hstatics) []
  | true =>
    rw [hocc, if_pos rfl] at hrunning₀
    obtain ⟨w₁, w₂, w₃, hw₁, hw₂, hw₃, hnone₁, hnone₂, hexpiry, hone, hmain₃, hrunning₃,
      hstatics₃⟩ := handler_row mFrameIndexer hrunning₀ (hspot₀ ▸ hocc)
    obtain ⟨data, hdata⟩ := List.length_eq_one_iff.mp hone
    rw [hspot₀, hdata, List.head?_cons] at hexpiry
    refine ⟨3, ⟨setSpot id w₃ t.mParkingSpots, t.pass, Sensor.pushAll io [data] t.mServMsgQueue⟩,
      ?_, ?_⟩
    · rw [exec_cons, hstart, Option.bind_some]
      simp only [List.replicate, exec_cons, exec_nil, step, onSpot_moved hlookup, hw₁, hw₂, hw₃,
        Option.map_some, Option.bind_some, hnone₁, hnone₂, hdata]
      rfl
    · rw [hexpiry]
      exact h.moved (hmain₃.trans (hmain₀.trans hmain)) hrunning₃
        (hstatics₃.trans (hstatics₀.trans hstatics)) [data]

end Expiry

theorem rests_init {spots : List (ℤ × ParkingSpot)} (hkeys : (spots.map Prod.fst).Nodup)
    (statics : Thresholds) :
    Rests
      { mParkingSpotManager := { mParkingSpots := spots.map fun e => (e.1, some e.2) }, statics }
      (init spots statics) where
  spots := by simp [init, Machine.init]
  keys := by simpa [init, Function.comp_def] using hkeys
  idle := by
    intro e he
    obtain ⟨e₀, -, rfl⟩ := List.mem_map.mp he
    exact ⟨rfl, rfl, rfl⟩
  pass := rfl
  queue := rfl

end SensorThreads
end VisionSensor
