import VisionSensor.Spot.ParkingSpot
import VisionSensor.Lib.GuardedRun

/-! A parking spot with its two threads, statement by statement. The main thread runs `update`,
`enter`, `exit` and `reset`; the timer thread runs the completion handlers queued on `mService`,
each a call of `notifyExpiration`. `cancel` and `expires_from_now` complete a pending wait with
`operation_aborted` and queue its handler like an expiry does; the handler is not told which. -/
namespace VisionSensor.TimerThread

/-- The error code a wait completes with. -/
inductive WaitResult where
  | success | aborted
  deriving DecidableEq, Repr

/-- A queued completion handler, with the number of the `enter` that armed its wait. -/
structure Handler where
  ec : WaitResult
  arm : ℕ
  deriving DecidableEq, Repr

/-- The statements of the main thread. `expiresFromNow none` waits for `mTimeLimit` seconds,
`expiresFromNow (some n)` for `n` minutes. -/
inductive Stmt where
  | update (occupied : Bool)
  | setOccupied
  | expiresFromNow (res_timeLimit : Option ℤ)
  | setTimeLimit (res_timeLimit : ℤ)
  | asyncWait
  | push (data : ParkingUpdateMessage)
  | setEntryTime (entryTime : Ptime)
  | clearOccupied
  | clearOverstayed
  | clearVehicle
  | cancel
  | resetCounter
  deriving DecidableEq, Repr

/-- The effect of a statement on the fields of the spot. -/
def Stmt.apply (st : Thresholds) (s : ParkingSpot) : Stmt → ParkingSpot
  | update occupied => (s.update st occupied).1
  | setOccupied => { s with mOccupied := true }
  | expiresFromNow none => { s with mParkingTimer := some s.mTimeLimit }
  | expiresFromNow (some n) => { s with mParkingTimer := some (60 * n) }
  | setTimeLimit n => { s with mTimeLimit := n }
  | asyncWait => s
  | push _ => s
  | setEntryTime t => { s with mEntryTime := t }
  | clearOccupied => { s with mOccupied := false }
  | clearOverstayed => { s with mOverstayed := false }
  | clearVehicle => { s with mPlateNumber := "", pROI := Rect.zero, vROI := Rect.zero }
  | cancel => { s with mParkingTimer := none }
  | resetCounter => { s with mUpdateEnabled := true, mOccupiedFrameCounter := 0 }

/-- The message a statement pushes. -/
def Stmt.pushes : Stmt → List ParkingUpdateMessage
  | push data => [data]
  | _ => []

/-- The calls the main thread makes. -/
inductive Call where
  | update (occupied : Bool)
  | enter (env : EntryServices) (entryImage : Mat) (ROI : Rect) (entryTime : Ptime) (PN : String)
  | exit (exitImage : Mat) (exitTime : Ptime)
  | reset

/-- The statements of `startTimer()` and of `startTimer(res_timeLimit, PN)`. -/
def startTimerBody : Option ℤ → List Stmt
  | none => [.expiresFromNow none, .asyncWait]
  | some n => [.expiresFromNow (some n), .setTimeLimit n, .asyncWait]

/-- The statements of a call; `none` when the crop in `enter` throws. -/
def Call.body (s : ParkingSpot) : Call → Option (List Stmt)
  | update occupied => some [.update occupied]
  | enter env entryImage ROI entryTime PN =>
      (ParkingSpot.entryCrop entryImage ROI).map fun cropImage =>
        .setOccupied ::
          (startTimerBody (if s.isSensor && env.check_res PN then
            some (env.entVehicle PN (env.to_iso_string entryTime)) else none) ++
          [.push (ParkingUpdateMessage.ofFrameCrop HttpReqType.HTTP_REQ_UPDATE_ENTER.code s.mID
            entryImage cropImage entryTime PN), .setEntryTime entryTime])
  | exit exitImage exitTime =>
      some [.clearOccupied, .clearOverstayed, .clearVehicle,
        .push (ParkingUpdateMessage.ofFrame HttpReqType.HTTP_REQ_UPDATE_EXIT.code s.mID
          exitImage exitTime), .cancel]
  | reset => some [.cancel, .clearOccupied, .clearOverstayed, .resetCounter]

/-- The statements run in a row. -/
def runBody (st : Thresholds) (body : List Stmt) (s : ParkingSpot) : ParkingSpot :=
  body.foldl (Stmt.apply st) s

/-- Undisturbed, the statements of `enter` do what the whole call does. -/
theorem enter_body (st : Thresholds) (env : EntryServices) (s : ParkingSpot) (img : Mat)
    (roi : Rect) (t : Ptime) (PN : String) :
    s.enter env img roi t PN = ((Call.enter env img roi t PN).body s).bind fun body =>
      (body.flatMap Stmt.pushes).head?.map fun data => (runBody st body s, data) := by
  simp only [ParkingSpot.enter, Call.body]
  cases ParkingSpot.entryCrop img roi with
  | none => rfl
  | some crop =>
    cases hs : s.isReservation_sensor with
    | false =>
      simp [hs, ParkingSpot.isSensor, startTimerBody, runBody, Stmt.apply, Stmt.pushes,
        ParkingSpot.startTimer]
    | true =>
      cases env.check_res PN <;>
        simp [hs, ParkingSpot.isSensor, startTimerBody, runBody, Stmt.apply, Stmt.pushes,
          ParkingSpot.startTimer, ParkingSpot.startTimerFor]

theorem exit_body (st : Thresholds) (s : ParkingSpot) (img : Mat) (t : Ptime) :
    some (s.exit img t) = ((Call.exit img t).body s).bind fun body =>
      (body.flatMap Stmt.pushes).head?.map fun data => (runBody st body s, data) := rfl

theorem reset_body (st : Thresholds) (s : ParkingSpot) :
    some s.reset = (Call.reset.body s).map fun body => runBody st body s := rfl

theorem update_body (st : Thresholds) (s : ParkingSpot) (b : Bool) :
    some (s.update st b).1 = ((Call.update b).body s).map fun body => runBody st body s := rfl

/-- Where a running `notifyExpiration` is that has found the spot occupied: it has tested the
flag, it has built its message, it has set `mOverstayed`. -/
inductive HandlerAt where
  | tested
  | built (data : ParkingUpdateMessage)
  | marked (data : ParkingUpdateMessage)
  deriving DecidableEq, Repr

/-- A message pushed. For one pushed by the timer thread, `cause` is the handler and the
number of the `enter` whose occupancy was current at the push. -/
structure Pushed where
  data : ParkingUpdateMessage
  cause : Option (Handler × Option ℕ) := none
  deriving DecidableEq, Repr

/-- `main` holds the statements left of the current call, `waits` the pending waits of
`mParkingTimer` by the `enter` that armed them. `entries` counts the calls of `enter`, and
`current` is the one whose occupancy lasts. -/
structure Machine where
  spot : ParkingSpot
  statics : Thresholds := {}
  main : List Stmt := []
  waits : List ℕ := []
  handlers : List Handler := []
  running : Option (Handler × HandlerAt) := none
  entries : ℕ := 0
  current : Option ℕ := none
  log : List Pushed := []
  deriving DecidableEq, Repr

inductive Action where
  | call (c : Call)
  | main
  | expire
  | startHandler (i : ℕ)
  | handler (readAt : Ptime → Mat)

/-- Whether a statement begins or ends an occupancy. -/
def Stmt.changesOccupancy (st : Thresholds) (s : ParkingSpot) : Stmt → Bool
  | update occupied => (s.update st occupied).2
  | setOccupied => true
  | clearOccupied => true
  | _ => false

namespace Machine

/-- Complete the pending waits. -/
def complete (ec : WaitResult) (m : Machine) : Machine :=
  { m with waits := [], handlers := m.handlers ++ m.waits.map fun k => ⟨ec, k⟩ }

/-- What a statement does besides its effect on the fields of the spot. -/
def effect (m : Machine) (stmt : Stmt) : Machine :=
  match stmt with
  | .expiresFromNow _ => m.complete .aborted
  | .cancel => m.complete .aborted
  | .asyncWait => { m with waits := m.waits ++ [m.entries] }
  | .push data => { m with log := m.log ++ [{ data }] }
  | .setOccupied => { m with current := some m.entries }
  | .clearOccupied => { m with current := none }
  | .update occupied => if (m.spot.update m.statics occupied).2 then { m with current := none } else m
  | _ => m

def stepMain (m : Machine) : Option Machine :=
  match m.main with
  | [] => none
  | stmt :: rest =>
      let m' := m.effect stmt
      some { m' with main := rest, spot := stmt.apply m.statics m.spot }

def stepCall (m : Machine) (c : Call) : Option Machine :=
  if m.main = [] then
    (c.body m.spot).map fun body =>
      match c with
      | .enter .. => { m with main := body, entries := m.entries + 1 }
      | _ => { m with main := body }
  else none

/-- The deadline passes. -/
def stepExpire (m : Machine) : Option Machine :=
  if m.waits = [] then none
  else some { m.complete .success with spot := { m.spot with mParkingTimer := none } }

/-- The timer thread takes a queued handler and tests `mOccupied`. -/
def stepStart (m : Machine) (i : ℕ) : Option Machine :=
  if m.running = none then
    m.handlers[i]?.map fun h =>
      { m with handlers := m.handlers.eraseIdx i,
               running := if m.spot.mOccupied then some (h, .tested) else none }
  else none

/-- The timer thread goes on with `notifyExpiration`. -/
def stepHandler (m : Machine) (readAt : Ptime → Mat) : Option Machine :=
  m.running.map fun (h, at_) =>
    match at_ with
    | .tested =>
        let time := m.spot.mEntryTime.addSeconds m.spot.mTimeLimit
        { m with running := some (h, .built (m.spot.overstayed (readAt time) time).2) }
    | .built data =>
        { m with spot := { m.spot with mOverstayed := true }, running := some (h, .marked data) }
    | .marked data =>
        { m with running := none, log := m.log ++ [⟨data, some (h, m.current)⟩] }

def step (m : Machine) : Action → Option Machine
  | .call c => m.stepCall c
  | .main => m.stepMain
  | .expire => m.stepExpire
  | .startHandler i => m.stepStart i
  | .handler readAt => m.stepHandler readAt

/-- Undisturbed, the steps of a handler do what `notifyExpiration` does. -/
theorem handler_undisturbed (readAt : Ptime → Mat) (m : Machine) (h : Handler)
    (hocc : m.spot.mOccupied = true) :
    ∃ t, GuardedRun.exec step { m with running := some (h, .tested) }
        [.handler readAt, .handler readAt, .handler readAt] = some t ∧
      t.spot = (m.spot.notifyExpiration readAt).1 ∧
      t.log.map Pushed.data = m.log.map Pushed.data ++ (m.spot.notifyExpiration readAt).2.toList := by
  refine ⟨_, rfl, ?_, ?_⟩ <;> simp [ParkingSpot.notifyExpiration, ParkingSpot.overstayed, hocc]

end Machine
end VisionSensor.TimerThread
