import VisionSensor.Management.Settings
import VisionSensor.Management.SpotManager

/-! `TCPSocketListener::update` with every exit it has. The main thread is suspended before the
payload is read and resumed by the last statement only, so whether it is resumed is the question
whether everything in between returns. -/
namespace VisionSensor
open Unwind

/-- What the listener changes. `suspensions` counts the times `suspendMainThread` has been passed,
`notifications` the calls `ReceiverCV.notify_all()`. -/
structure Listener where
  mSettings : Settings
  mParkingSpotManager : SpotManager := {}
  statics : Thresholds := {}
  ManagementMode : Bool := false
  suspensions : ℕ := 0
  notifications : ℕ := 0

/-- One update request. `received` holds the bytes that arrive before the connection ends or
fails; the two flags say whether the settings file and the spots file open. -/
structure UpdateIO where
  received : List UInt8
  read_json : List UInt8 → Option PTree
  settingsWritable : Bool
  spotsWritable : Bool
  tables : PolicyTables
  junk : ℕ → Junk

namespace UpdateIO

/-- `boost::asio::read(sock, buffer, transfer_exactly(n))`, the `int` converted to an unsigned
64-bit number of bytes. -/
def read (io : UpdateIO) (n : ℤ) : Except Fault (List UInt8) :=
  let size := (n % 2 ^ 64).toNat
  if size ≤ io.received.length then .ok (io.received.take size) else .error .system_error

def parseJSON (io : UpdateIO) (buffer : List UInt8) : Except Fault PTree :=
  match io.read_json buffer with
  | none => .error .json_parser_error
  | some tree => .ok tree

end UpdateIO

namespace Listener

/-- `suspendMainThread`, once the main thread has answered. -/
def suspendMainThread : EStateM Fault Listener Unit :=
  modify fun l => { l with ManagementMode := true, suspensions := l.suspensions + 1 }

def resumeMainThread : EStateM Fault Listener Unit :=
  modify fun l => { l with ManagementMode := false, notifications := l.notifications + 1 }

def onSettings {α : Type} (x : EStateM Fault Settings α) : EStateM Fault Listener α :=
  zoom mSettings (fun s l => { l with mSettings := s }) x

def onSpots {α : Type} (x : EStateM Fault SpotManager α) : EStateM Fault Listener α :=
  zoom mParkingSpotManager (fun m l => { l with mParkingSpotManager := m }) x

def setPositiveThreshold (n : ℤ) : EStateM Fault Listener Unit :=
  modify fun l => { l with statics := { l.statics with mPositiveThreshold := n } }

def setNegativeThreshold (n : ℤ) : EStateM Fault Listener Unit :=
  modify fun l => { l with statics := { l.statics with mNegativeThreshold := n } }

/-- Negation of an `int`. -/
def negInt (n : ℤ) : ℤ := Int.bmod (-n) (2 ^ 32)

def setParams (io : UpdateIO) (message : PTree) : EStateM Fault Listener Unit := do
  onSettings (Settings.updateParkingParams io.settingsWritable message)
  setPositiveThreshold (← ofExcept (message.getInt "enterCount"))
  setNegativeThreshold (negInt (← ofExcept (message.getInt "exitCount")))

/-- The block of `update` for a message with children. -/
def updateParams (io : UpdateIO) (message : PTree) : EStateM Fault Listener Unit :=
  if message.empty then pure () else setParams io message

def updateSpots (io : UpdateIO) (ROIList : PTree) : EStateM Fault Listener Unit :=
  if ROIList.empty then onSpots SpotManager.clear
  else do
    let _ ← onSpots (SpotManager.updateParkingSpots io.spotsWritable io.tables io.junk ROIList)

/-- The statements of `update` between `suspendMainThread` and `resumeMainThread`. The response
is written with an error code, so that write does not throw. -/
def receiveUpdate (io : UpdateIO) (bytes_reserved : ℤ) : EStateM Fault Listener Unit := do
  let read_buffer ← ofExcept (io.read bytes_reserved)
  let message ← ofExcept (io.parseJSON read_buffer)
  updateParams io message
  updateSpots io (message.get_child "ROI" PTree.nil)

/-- `update`. -/
def update (io : UpdateIO) (message : PTree) : EStateM Fault Listener Unit := do
  let bytes_reserved ← ofExcept (message.getInt "length")
  suspendMainThread
  receiveUpdate io bytes_reserved
  resumeMainThread

/-- `update` left by returning or by an exception that `session` catches. -/
def Left (io : UpdateIO) (message : PTree) (l : Listener) : Prop :=
  ∀ t, update io message l ≠ .error .undefined t

/-- If `suspendMainThread` was passed, then `ManagementMode` is false again and `ReceiverCV` has
been notified. -/
def Releases (io : UpdateIO) (message : PTree) (l : Listener) : Prop :=
  let t := after (update io message) l
  l.suspensions < t.suspensions → t.ManagementMode = false ∧ l.notifications < t.notifications

/-- The payload arrives in full, it is JSON, a payload with children has the three parameters as
integers, and the spots file opens if a spot list is to be saved. -/
def Completes (io : UpdateIO) (bytes_reserved : ℤ) : Prop :=
  ∃ buffer, io.read bytes_reserved = .ok buffer ∧ ∃ message, io.parseJSON buffer = .ok message ∧
    (message.empty = false → message.HasInt "sensitivity" ∧ message.HasInt "enterCount" ∧
      message.HasInt "exitCount") ∧
    ((message.get_child "ROI" PTree.nil).empty = false → io.spotsWritable = true)

/-- What the main thread waits for. -/
def handshake (l : Listener) : Bool × ℕ × ℕ := (l.ManagementMode, l.suspensions, l.notifications)

theorem frames_onSettings {α : Type} (x : EStateM Fault Settings α) :
    Frames handshake (onSettings x) :=
  frames_zoom (fun _ _ => by rfl) x

theorem frames_onSpots {α : Type} (x : EStateM Fault SpotManager α) :
    Frames handshake (onSpots x) :=
  frames_zoom (fun _ _ => by rfl) x

theorem frames_updateParams (io : UpdateIO) (message : PTree) :
    Frames handshake (updateParams io message) :=
  frames_ite (frames_pure _ _) <| frames_bind (frames_onSettings _) fun _ =>
    frames_bind (frames_ofExcept _ _) fun _ => frames_bind (frames_modify fun _ => rfl) fun _ =>
    frames_bind (frames_ofExcept _ _) fun _ => frames_modify fun _ => rfl

theorem frames_updateSpots (io : UpdateIO) (ROIList : PTree) :
    Frames handshake (updateSpots io ROIList) :=
  frames_ite (frames_onSpots _) (frames_bind (frames_onSpots _) fun _ => frames_pure _ _)

/-- However it ends, reading and applying the payload leaves the handshake alone. -/
theorem frames_receiveUpdate (io : UpdateIO) (n : ℤ) : Frames handshake (receiveUpdate io n) :=
  frames_bind (frames_ofExcept _ _) fun _ => frames_bind (frames_ofExcept _ _) fun _ =>
    frames_bind (frames_updateParams io _) fun _ => frames_updateSpots io _

theorem returns_setParams (io : UpdateIO) (message : PTree) (l : Listener) :
    Returns (setParams io message) l ↔ message.HasInt "sensitivity" ∧
      message.HasInt "enterCount" ∧ message.HasInt "exitCount" := by
  rw [← Settings.returns_updateParkingParams io.settingsWritable message l.mSettings]
  constructor
  · intro h
    obtain ⟨a, t, ht, -⟩ := returns_bind_iff.mp h
    exact returns_zoom.mp ⟨a, t, ht⟩
  · intro h
    obtain ⟨-, henter, hexit⟩ := (Settings.returns_updateParkingParams _ _ _).mp h
    obtain ⟨e, he⟩ := PTree.getInt_ok_iff.mpr henter
    obtain ⟨x, hx⟩ := PTree.getInt_ok_iff.mpr hexit
    have hset : Returns (onSettings (Settings.updateParkingParams io.settingsWritable message)) l :=
      returns_zoom.mpr h
    obtain ⟨a, t, ht⟩ := hset
    refine returns_bind_iff.mpr ⟨a, t, ht, ?_⟩
    exact returns_ofExcept_bind.mpr ⟨e, he, returns_modify_bind.mpr
      (returns_ofExcept_bind.mpr ⟨x, hx, returns_modify _ _⟩)⟩

theorem returns_updateParams (io : UpdateIO) (message : PTree) (l : Listener) :
    Returns (updateParams io message) l ↔ (message.empty = false → message.HasInt "sensitivity" ∧
      message.HasInt "enterCount" ∧ message.HasInt "exitCount") := by
  rw [← returns_setParams io message l]
  unfold updateParams
  cases message.empty <;> simp

theorem onSpots_error {α : Type} {x : EStateM Fault SpotManager α} {l : Listener} {e : Fault}
    {m : SpotManager} (h : x l.mParkingSpotManager = .error e m) :
    onSpots x l = .error e { l with mParkingSpotManager := m } := zoom_error h

/-- Outside undefined behaviour, applying the spot list fails only on the spots file. -/
theorem returns_updateSpots {io : UpdateIO} {ROIList : PTree} {l : Listener}
    (h : ∀ t, updateSpots io ROIList l ≠ .error .undefined t) :
    Returns (updateSpots io ROIList) l ↔ (ROIList.empty = false → io.spotsWritable = true) := by
  unfold updateSpots at h ⊢
  split_ifs at h ⊢ with hempty
  · refine iff_of_true (returns_zoom.mpr (returns_of_throwsOnly SpotManager.clear_throws ?_))
      (by simp [hempty])
    exact fun m hm => h _ (onSpots_error hm)
  · have hspots : Returns (SpotManager.updateParkingSpots io.spotsWritable io.tables io.junk ROIList)
        l.mParkingSpotManager ↔ io.spotsWritable = true := by
      refine SpotManager.returns_updateParkingSpots fun m hm => h _ (bind_error _ (onSpots_error hm))
    rw [returns_bind_iff]
    constructor
    · rintro ⟨b, t, ht, -⟩ -
      exact hspots.mp (returns_zoom.mp ⟨b, t, ht⟩)
    · intro hw
      obtain ⟨b, t, ht⟩ := returns_zoom.mpr (hspots.mpr (hw (by simpa using hempty)))
      exact ⟨b, t, ht, returns_pure _ _⟩

theorem returns_updateBoth {io : UpdateIO} {message ROIList : PTree} {l : Listener}
    (h : ∀ t, (updateParams io message >>= fun _ => updateSpots io ROIList) l ≠
      .error .undefined t) :
    Returns (updateParams io message >>= fun _ => updateSpots io ROIList) l ↔
      (message.empty = false → message.HasInt "sensitivity" ∧ message.HasInt "enterCount" ∧
        message.HasInt "exitCount") ∧ (ROIList.empty = false → io.spotsWritable = true) := by
  rw [← returns_updateParams io message l]
  rcases ends (updateParams io message) l with ⟨a, ha⟩ | ⟨e, he⟩
  · -- the parameters are in force, and the spot list decides
    rw [← returns_updateSpots (l := after (updateParams io message) l)
      fun t ht => h t (by rw [bind_ok _ ha, ht])]
    simp only [Returns, bind_ok _ ha]
    exact ⟨fun hr => ⟨⟨a, _, ha⟩, hr⟩, fun hr => hr.2⟩
  · simp only [Returns, bind_error _ he]
    simp [he]

/-- Outside undefined behaviour, the payload is applied to its end exactly when it is complete. -/
theorem returns_receiveUpdate {io : UpdateIO} {n : ℤ} {l : Listener}
    (h : ∀ t, receiveUpdate io n l ≠ .error .undefined t) :
    Returns (receiveUpdate io n) l ↔ Completes io n := by
  unfold Completes
  unfold receiveUpdate at h ⊢
  rw [returns_ofExcept_bind]
  refine exists_congr fun buffer => and_congr_right fun hread => ?_
  rw [returns_ofExcept_bind]
  refine exists_congr fun message => and_congr_right fun hparse => returns_updateBoth ?_
  intro t ht
  exact h t (by rw [bind_ok _ (ofExcept_apply_ok.mpr ⟨hread, rfl⟩),
    bind_ok _ (ofExcept_apply_ok.mpr ⟨hparse, rfl⟩), ht])

/-- Without an integer "length", `update` throws before anything is suspended. -/
theorem update_no_length {io : UpdateIO} {message : PTree} {l : Listener} {e : Fault}
    (h : message.getInt "length" = .error e) : update io message l = .error e l := by
  unfold update
  rw [h]
  rfl

theorem update_length {io : UpdateIO} {message : PTree} {l : Listener} {n : ℤ}
    (h : message.getInt "length" = .ok n) :
    update io message l = (receiveUpdate io n >>= fun _ => resumeMainThread)
      (after suspendMainThread l) := by
  unfold update
  rw [bind_ok _ (ofExcept_apply_ok.mpr ⟨h, rfl⟩)]
  rfl

/-- An update that leaves has released the main thread exactly when it never suspended it, for
want of an integer "length", or its payload is complete. -/
theorem releases_iff {io : UpdateIO} {message : PTree} {l : Listener} (hleft : Left io message l) :
    Releases io message l ↔ ∀ n, message.getInt "length" = .ok n → Completes io n := by
  cases hlen : message.getInt "length" with
  | error e =>
    refine iff_of_true ?_ (by simp)
    simp [Releases, after, update_no_length hlen]
  | ok n =>
    have hrun : update io message l = (receiveUpdate io n >>= fun _ => resumeMainThread)
        (after suspendMainThread l) := update_length hlen
    have hdone : Returns (receiveUpdate io n) (after suspendMainThread l) ↔ Completes io n :=
      returns_receiveUpdate fun t ht => hleft t (by rw [hrun, bind_error _ ht])
    have hafter : after (update io message) l = after (receiveUpdate io n >>= fun _ =>
        resumeMainThread) (after suspendMainThread l) := by rw [after, hrun, ← after]
    have hframe := frames_receiveUpdate io n
    simp only [Except.ok.injEq, forall_eq', Releases, ← hdone, hafter]
    by_cases hret : Returns (receiveUpdate io n) (after suspendMainThread l)
    · refine iff_of_true ?_ hret
      obtain ⟨a, t, ha⟩ := hret
      have hview := hframe (after suspendMainThread l)
      rw [after, ha] at hview
      have hnotif : t.notifications = l.notifications := congrArg (fun v => v.2.2) hview
      rw [after_bind_ok _ ha]
      exact fun _ => ⟨rfl, Nat.lt_succ_of_le hnotif.ge⟩
    · -- the statement that resumes the main thread is not reached
      refine iff_of_false (fun hr => ?_) hret
      have hview := bracket_view hframe (y := fun _ => resumeMainThread) hret
      have hsusp := congrArg (fun v => v.2.1) hview
      have hmode := congrArg Prod.fst hview
      exact Bool.noConfusion (hmode.symm.trans (hr (Nat.lt_of_succ_le (Eq.ge hsusp))).1)

end Listener

/-- A request for an update, and what happens while it is handled. -/
structure UpdateRequest where
  io : UpdateIO
  message : PTree

namespace UpdateRequest

/-- The payload, once it has arrived and has been parsed. -/
def payload (r : UpdateRequest) : Except Fault PTree := do
  let bytes_reserved ← r.message.getInt "length"
  let read_buffer ← r.io.read bytes_reserved
  r.io.parseJSON read_buffer

end UpdateRequest

namespace Listener

/-- A listener with no spots. -/
def shipped : Listener :=
  { mSettings := ⟨"s1", "server.xml", "+09", ⟨3, 6, 3⟩, 1280, 720, "MJPG", "", "0", none⟩ }

def unreadable : UpdateIO where
  received := [120, 120]
  read_json := fun _ => none
  settingsWritable := true
  spotsWritable := true
  tables := ⟨fun _ => 0, fun _ => 0⟩
  junk := fun _ => ⟨0, 0, 0, false⟩

/-- The request `{"length": 2}`. -/
def request : PTree := .mk "" [("length", .leaf "2")]

theorem releases_empty_object :
    Releases { unreadable with received := [123, 125], read_json := fun _ => some PTree.nil }
      request shipped := by
  refine (releases_iff (by rintro t ⟨⟩)).mpr ?_
  intro n hn
  obtain rfl : (2 : ℤ) = n := Except.ok.inj hn
  exact ⟨_, rfl, _, rfl, fun h => absurd h (by decide), fun h => absurd h (by decide)⟩

/-- A client announces two bytes and sends `xx`, which is not JSON. `update` leaves by the
parser's exception and the main thread stays suspended. -/
theorem unreadable_payload_never_releases :
    Left unreadable request shipped ∧ ¬ Releases unreadable request shipped := by
  refine ⟨by rintro t ⟨⟩, fun h => ?_⟩
  exact Bool.noConfusion (h (Nat.zero_lt_one)).1

end Listener
end VisionSensor
