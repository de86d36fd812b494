import VisionSensor.Lib.GuardedRun
import VisionSensor.Management.Listener
import VisionSensor.Management.LoadSettings

/-! The detection parameters in force, in the settings and in the INI file, over the update requests
of a session. -/
namespace VisionSensor
open Unwind GuardedRun

namespace PTree

theorem getIntAt_inInt {t : PTree} {path : List String} {n : ℤ} (h : t.getIntAt path = .ok n) :
    InInt n := by
  unfold getIntAt at h
  split at h
  · cases h
  · split at h
    · cases h
    · rename_i hint
      obtain rfl := Except.ok.inj h
      exact toInt_inInt hint

end PTree

theorem ParkingParams.eq_iff {p q : ParkingParams} :
    p = q ↔ p.sensitivity = q.sensitivity ∧ p.enterCount = q.enterCount ∧
      p.exitCount = q.exitCount := by
  cases p
  cases q
  simp

namespace Settings

/-- The settings with the given parameters, saved if the file opens. -/
def saveParams (writable : Bool) (p : ParkingParams) (s : Settings) : Settings :=
  if writable then
    { s with mParkingParams := p, settingsFile := some (toIni { s with mParkingParams := p }) }
  else { s with mParkingParams := p }

theorem updateParkingParams_ok {root : PTree} {a e x : ℤ} (ha : root.getInt "sensitivity" = .ok a)
    (he : root.getInt "enterCount" = .ok e) (hx : root.getInt "exitCount" = .ok x)
    (writable : Bool) (s : Settings) :
    updateParkingParams writable root s = .ok () (saveParams writable ⟨a, e, x⟩ s) := by
  unfold updateParkingParams
  simp only [ha, he, hx, ofExcept_ok, pure_bind]
  cases writable <;> rfl

@[simp] theorem saveParams_params (writable : Bool) (p : ParkingParams) (s : Settings) :
    (saveParams writable p s).mParkingParams = p := by
  unfold saveParams
  split_ifs <;> rfl

theorem frames_server_updateParkingParams (writable : Bool) (root : PTree) :
    Frames ServerDataFilename (updateParkingParams writable root) := by
  have hwrite : Frames ServerDataFilename (writeSettings writable) :=
    frames_ite (frames_pure _ _) (frames_bind (frames_modify fun _ => rfl) fun _ => frames_pure _ _)
  exact frames_bind (frames_ofExcept _ _) fun _ => frames_bind (frames_modify fun _ => rfl) fun _ =>
    frames_bind (frames_ofExcept _ _) fun _ => frames_bind (frames_modify fun _ => rfl) fun _ =>
    frames_bind (frames_ofExcept _ _) fun _ => frames_bind (frames_modify fun _ => rfl) fun _ =>
    frames_bind hwrite fun _ => frames_pure _ _

/-- `loadSettings` would bring back the parameters as they are. -/
def Saved (s : Settings) : Prop :=
  ∃ t, loadSettings s = .ok true t ∧ t.mParkingParams = s.mParkingParams

theorem saved_iff {s : Settings} :
    s.Saved ↔ ∃ ptree, s.settingsFile = some ptree ∧ Loads ptree s.mParkingParams :=
  loadSettings_params

/-- With the file as it was, only the parameters it holds are saved. -/
theorem saved_withParams_iff {s : Settings} (hs : s.Saved) (p : ParkingParams) :
    Saved { s with mParkingParams := p } ↔ p = s.mParkingParams := by
  rw [saved_iff]
  obtain ⟨ptree, hfile, hloads⟩ := saved_iff.mp hs
  constructor
  · rintro ⟨ptree', hfile', hp⟩
    obtain rfl := Option.some.inj (hfile.symm.trans hfile')
    exact hp.unique hloads
  · rintro rfl
    exact ⟨ptree, hfile, hloads⟩

/-- Parameters that are written come back exactly when all of them are positive. -/
theorem saved_written_iff {s : Settings} (hserver : s.ServerDataFilename ≠ "") {a e x : ℤ}
    (ha : InInt a) (he : InInt e) (hx : InInt x) :
    (saveParams true ⟨a, e, x⟩ s).Saved ↔ 0 < a ∧ 0 < e ∧ 0 < x := by
  have hloads := loads_toIni (s := { s with mParkingParams := ⟨a, e, x⟩ }) hserver ha he hx
    (p := ⟨a, e, x⟩)
  have hsaved : (saveParams true ⟨a, e, x⟩ s).Saved ↔
      Loads (toIni { s with mParkingParams := ⟨a, e, x⟩ }) ⟨a, e, x⟩ := by
    rw [saved_iff]
    simp [saveParams]
  rw [hsaved, hloads, ParkingParams.mk.injEq, eq_comm, orDefault_eq_self_iff (by decide),
    eq_comm, orDefault_eq_self_iff (by decide), eq_comm, orDefault_eq_self_iff (by decide)]

end Settings

namespace Listener

/-- The state in which the constructor of `MainInterface` leaves parameters and thresholds. -/
def start (mSettings : Settings) (mParkingSpotManager : SpotManager) :
    Except SettingsFault Listener :=
  match Settings.loadSettings mSettings with
  | .ok _ mSettings => .ok
      { mSettings, mParkingSpotManager
        statics := ⟨mSettings.mParkingParams.enterCount,
          negInt mSettings.mParkingParams.exitCount⟩ }
  | .error e _ => .error e

/-- A request, after which `session` goes on, on a new connection if `update` throws. Undefined
behaviour has no next state. -/
def attend (l : Listener) (r : UpdateRequest) : Option Listener :=
  match update r.io r.message l with
  | .ok _ t => some t
  | .error e t => if e.isException then some t else none

/-- The settings with their file, and the thresholds. -/
def params (l : Listener) : Settings × Thresholds := (l.mSettings, l.statics)

/-- The parameters in force, those in the settings and those in the file agree. -/
def ParamsAgree (l : Listener) : Prop :=
  l.statics.mPositiveThreshold = l.mSettings.mParkingParams.enterCount ∧
    l.statics.mNegativeThreshold = -l.mSettings.mParkingParams.exitCount ∧ l.mSettings.Saved

theorem attend_eq_after {l u : Listener} {r : UpdateRequest} (h : l.attend r = some u) :
    u = after (update r.io r.message) l := by
  unfold attend at h
  unfold after
  split at h
  · rename_i hrun
    rw [hrun]
    exact (Option.some.inj h).symm
  · rename_i hrun
    split_ifs at h
    rw [hrun]
    exact (Option.some.inj h).symm

theorem frames_params_updateSpots (io : UpdateIO) (ROIList : PTree) :
    Frames params (updateSpots io ROIList) :=
  frames_ite (frames_zoom (fun _ _ => by rfl) _)
    (frames_bind (frames_zoom (fun _ _ => by rfl) _) fun _ => frames_pure _ _)

section Update

variable {r : UpdateRequest} {l : Listener}

/-- What becomes of the parameters is decided before the main thread is resumed. -/
theorem params_after_update {n : ℤ} (h : r.message.getInt "length" = .ok n) :
    (after (update r.io r.message) l).params =
      (after (receiveUpdate r.io n) (after suspendMainThread l)).params := by
  have hrun : after (update r.io r.message) l = after (receiveUpdate r.io n >>= fun _ =>
      resumeMainThread) (after suspendMainThread l) := by rw [after, update_length h, ← after]
  have hresume : ∀ _ : Unit, Frames params resumeMainThread := fun _ => frames_modify fun _ => rfl
  rw [hrun, view_after_bind hresume]

/-- Without a payload that can be parsed, nothing is taken over. -/
theorem params_no_payload {e : Fault} (h : r.payload = .error e) :
    (after (update r.io r.message) l).params = l.params := by
  unfold UpdateRequest.payload at h
  cases hlength : r.message.getInt "length" with
  | error f => rw [after, update_no_length hlength]
  | ok n =>
    rw [hlength] at h
    rw [params_after_update hlength]
    unfold receiveUpdate
    cases hread : r.io.read n with
    | error f => rfl
    | ok buffer =>
      have hparse : r.io.parseJSON buffer = .error e := by
        simpa only [bind, Except.bind, hread] using h
      rw [ofExcept_ok, pure_bind, hparse]
      rfl

/-- With one, `updateParams` decides. -/
theorem params_payload {message : PTree} (h : r.payload = .ok message) :
    (after (update r.io r.message) l).params =
      (after (updateParams r.io message) (after suspendMainThread l)).params := by
  unfold UpdateRequest.payload at h
  cases hlength : r.message.getInt "length" with
  | error f =>
    rw [hlength] at h
    cases h
  | ok n =>
    rw [hlength] at h
    rw [params_after_update hlength]
    unfold receiveUpdate
    cases hread : r.io.read n with
    | error f =>
      simp only [bind, Except.bind, hread] at h
      cases h
    | ok buffer =>
      have hparse : r.io.parseJSON buffer = .ok message := by
        simpa only [bind, Except.bind, hread] using h
      rw [ofExcept_ok, pure_bind, hparse, ofExcept_ok, pure_bind,
        view_after_bind fun _ => frames_params_updateSpots _ _]

end Update

section SetParams

variable {io : UpdateIO} {message : PTree} {l : Listener} {a e : ℤ} {f : Fault}

/-- An exception of `updateParkingParams` comes before the thresholds are set. -/
theorem setParams_error {s : Settings}
    (h : Settings.updateParkingParams io.settingsWritable message l.mSettings = .error f s) :
    (after (setParams io message) l).params = (s, l.statics) := by
  have hset : setParams io message l = .error f { l with mSettings := s } :=
    bind_error _ (zoom_error h)
  rw [after, hset]
  rfl

theorem setParams_no_sensitivity (ha : message.getInt "sensitivity" = .error f) :
    (after (setParams io message) l).params = l.params := by
  apply setParams_error (f := f)
  unfold Settings.updateParkingParams
  rw [ha]
  rfl

theorem setParams_no_enterCount (ha : message.getInt "sensitivity" = .ok a)
    (he : message.getInt "enterCount" = .error f) :
    (after (setParams io message) l).params =
      ({ l.mSettings with mParkingParams := { l.mSettings.mParkingParams with sensitivity := a } },
        l.statics) := by
  apply setParams_error (f := f)
  unfold Settings.updateParkingParams
  rw [ha, he]
  rfl

theorem setParams_no_exitCount (ha : message.getInt "sensitivity" = .ok a)
    (he : message.getInt "enterCount" = .ok e) (hx : message.getInt "exitCount" = .error f) :
    (after (setParams io message) l).params =
      ({ l.mSettings with mParkingParams :=
          { l.mSettings.mParkingParams with sensitivity := a, enterCount := e } }, l.statics) := by
  apply setParams_error (f := f)
  unfold Settings.updateParkingParams
  rw [ha, he, hx]
  rfl

theorem setParams_ok {x : ℤ} (ha : message.getInt "sensitivity" = .ok a)
    (he : message.getInt "enterCount" = .ok e) (hx : message.getInt "exitCount" = .ok x) :
    (after (setParams io message) l).params =
      (l.mSettings.saveParams io.settingsWritable ⟨a, e, x⟩, ⟨e, negInt x⟩) := by
  have hrun := Settings.updateParkingParams_ok ha he hx io.settingsWritable l.mSettings
  have honSettings : onSettings (Settings.updateParkingParams io.settingsWritable message) l =
      .ok () { l with mSettings := l.mSettings.saveParams io.settingsWritable ⟨a, e, x⟩ } := by
    simp only [onSettings, zoom, hrun]
  unfold setParams
  rw [after_bind_ok _ honSettings, he, hx]
  rfl

end SetParams

end Listener

/-- When a request leaves agreeing parameters agreeing. A payload that breaks off may only name the
values in force. A complete one may name any positive values, or, if they cannot be saved, those in
force. -/
def UpdateRequest.Settles (l : Listener) (r : UpdateRequest) : Prop :=
  ∀ message, r.payload = .ok message → message.empty = false →
    ∀ a, message.getInt "sensitivity" = .ok a →
      match message.getInt "enterCount", message.getInt "exitCount" with
      | .error _, _ => a = l.mSettings.mParkingParams.sensitivity
      | .ok e, .error _ => a = l.mSettings.mParkingParams.sensitivity ∧
          e = l.mSettings.mParkingParams.enterCount
      | .ok e, .ok x =>
          if r.io.settingsWritable then 0 < a ∧ 0 < e ∧ 0 < x
          else l.mSettings.mParkingParams = ⟨a, e, x⟩

namespace Listener

theorem paramsAgree_congr {l u : Listener} (h : u.params = l.params) :
    u.ParamsAgree ↔ l.ParamsAgree := by
  obtain ⟨hsettings, hstatics⟩ := Prod.mk.inj h
  unfold ParamsAgree
  rw [hsettings, hstatics]

theorem negInt_of_pos {x : ℤ} (hx : InInt x) (h : 0 < x) : negInt x = -x := by
  unfold InInt at hx
  unfold negInt
  rw [Int.bmod_def]
  omega

section Agree

variable {l u : Listener} {p : ParkingParams}

/-- Parameters that have changed in memory only. -/
theorem agree_unsaved_iff (hl : l.ParamsAgree)
    (hu : u.params = ({ l.mSettings with mParkingParams := p }, l.statics)) :
    u.ParamsAgree ↔ p = l.mSettings.mParkingParams := by
  obtain ⟨hsettings, hstatics⟩ := Prod.mk.inj hu
  obtain ⟨hpositive, hnegative, hsaved⟩ := hl
  unfold ParamsAgree
  rw [hsettings, hstatics, Settings.saved_withParams_iff hsaved]
  constructor
  · exact fun h => h.2.2
  · rintro rfl
    exact ⟨hpositive, hnegative, rfl⟩

/-- Parameters that have been taken over whole. -/
theorem agree_taken_iff (hl : l.ParamsAgree) (hserver : l.mSettings.ServerDataFilename ≠ "")
    {writable : Bool} {a e x : ℤ} (ha : InInt a) (he : InInt e) (hx : InInt x)
    (hu : u.params = (l.mSettings.saveParams writable ⟨a, e, x⟩, ⟨e, negInt x⟩)) :
    u.ParamsAgree ↔ if writable then 0 < a ∧ 0 < e ∧ 0 < x
      else l.mSettings.mParkingParams = ⟨a, e, x⟩ := by
  obtain ⟨hsettings, hstatics⟩ := Prod.mk.inj hu
  obtain ⟨hpositive, hnegative, hsaved⟩ := hl
  unfold ParamsAgree
  rw [hsettings, hstatics, Settings.saveParams_params]
  cases writable with
  | true =>
    rw [Settings.saved_written_iff hserver ha he hx]
    constructor
    · exact fun h => h.2.2
    · exact fun h => ⟨rfl, negInt_of_pos hx h.2.2, h⟩
  | false =>
    have hkept := Settings.saved_withParams_iff hsaved ⟨a, e, x⟩
    constructor
    · exact fun h => (hkept.mp h.2.2).symm
    · intro h
      obtain ⟨ptree, -, hloads⟩ := Settings.saved_iff.mp hsaved
      have hpos : 0 < x := by
        rw [h] at hloads
        exact hloads.pos.2.2
      exact ⟨rfl, negInt_of_pos hx hpos, hkept.mpr h.symm⟩

end Agree

/-- After any request the parameters agree exactly when it settles them. -/
theorem attend_paramsAgree_iff {l u : Listener} {r : UpdateRequest} (hl : l.ParamsAgree)
    (hserver : l.mSettings.ServerDataFilename ≠ "") (h : l.attend r = some u) :
    u.ParamsAgree ↔ r.Settles l := by
  obtain rfl := attend_eq_after h
  cases hpayload : r.payload with
  | error f =>
    rw [paramsAgree_congr (params_no_payload hpayload)]
    exact iff_of_true hl (by simp [UpdateRequest.Settles, hpayload])
  | ok message =>
    have hparams := params_payload (l := l) hpayload
    unfold updateParams at hparams
    cases hempty : message.empty with
    | true =>
      rw [hempty] at hparams
      rw [paramsAgree_congr (l := l) hparams]
      exact iff_of_true hl (by simp [UpdateRequest.Settles, hpayload, hempty])
    | false =>
      rw [hempty, if_neg Bool.false_ne_true] at hparams
      simp only [UpdateRequest.Settles, hpayload, Except.ok.injEq, forall_eq', hempty, forall_const]
      cases ha : message.getInt "sensitivity" with
      | error f =>
        rw [setParams_no_sensitivity ha] at hparams
        rw [paramsAgree_congr (l := l) hparams]
        exact iff_of_true hl (by simp)
      | ok a =>
      simp only [Except.ok.injEq, forall_eq']
      cases he : message.getInt "enterCount" with
      | error f =>
        rw [setParams_no_enterCount ha he] at hparams
        rw [agree_unsaved_iff hl hparams, ParkingParams.eq_iff]
        exact ⟨fun h => h.1, fun h => ⟨h, rfl, rfl⟩⟩
      | ok e =>
      cases hx : message.getInt "exitCount" with
      | error f =>
        rw [setParams_no_exitCount ha he hx] at hparams
        rw [agree_unsaved_iff hl hparams, ParkingParams.eq_iff]
        exact ⟨fun h => ⟨h.1, h.2.1⟩, fun h => ⟨h.1, h.2, rfl⟩⟩
      | ok x =>
        rw [setParams_ok ha he hx] at hparams
        exact agree_taken_iff hl hserver (PTree.getInt_inInt ha) (PTree.getInt_inInt he)
          (PTree.getInt_inInt hx) hparams

/-- No update changes the name of the server file. -/
theorem frames_server_update (io : UpdateIO) (message : PTree) :
    Frames (fun l => l.mSettings.ServerDataFilename) (update io message) := by
  have hset : ∀ g : Listener → Listener, (∀ l, (g l).mSettings = l.mSettings) →
      Frames (fun l => l.mSettings.ServerDataFilename) (modify g : EStateM Fault Listener PUnit) :=
    fun g hg => frames_modify fun l => by rw [hg]
  have hparams : ∀ message, Frames (fun l => l.mSettings.ServerDataFilename)
      (updateParams io message) := fun message =>
    frames_ite (frames_pure _ _) <| frames_bind (frames_zoom_component (fun _ _ => rfl)
      (Settings.frames_server_updateParkingParams _ _)) fun _ =>
      frames_bind (frames_ofExcept _ _) fun _ => frames_bind (hset _ fun _ => rfl) fun _ =>
      frames_bind (frames_ofExcept _ _) fun _ => hset _ fun _ => rfl
  have hspots : ∀ ROIList, Frames (fun l => l.mSettings.ServerDataFilename)
      (updateSpots io ROIList) := by
    intro ROIList l
    exact congrArg (fun p => p.1.ServerDataFilename) (frames_params_updateSpots io ROIList l)
  exact frames_bind (frames_ofExcept _ _) fun _ => frames_bind (hset _ fun _ => rfl) fun _ =>
    frames_bind (frames_bind (frames_ofExcept _ _) fun _ => frames_bind (frames_ofExcept _ _)
      fun _ => frames_bind (hparams _) fun _ => hspots _) fun _ => hset _ fun _ => rfl

theorem attend_server {l u : Listener} {r : UpdateRequest} (h : l.attend r = some u) :
    u.mSettings.ServerDataFilename = l.mSettings.ServerDataFilename := by
  obtain rfl := attend_eq_after h
  exact frames_server_update r.io r.message l

/-- After start-up the parameters agree. -/
theorem start_paramsAgree {s : Settings} {m : SpotManager} {l : Listener}
    (h : start s m = .ok l) : l.ParamsAgree ∧ l.mSettings.ServerDataFilename ≠ "" := by
  unfold start at h
  split at h
  · rename_i b t hload
    obtain rfl := Except.ok.inj h
    obtain ⟨-, ptree, p, hfile, hp, rfl⟩ := Settings.loadSettings_eq_ok.mp hload
    refine ⟨⟨rfl, ?_, Settings.saved_iff.mpr ⟨ptree, hfile, hp⟩⟩, hp.server⟩
    obtain ⟨x, hx, hpx⟩ := hp.exitCount
    have hrange : InInt p.exitCount := by
      have hint := PTree.getIntAt_inInt hx
      rw [hpx]
      unfold Settings.orDefault
      split_ifs
      · decide
      · exact hint
    exact negInt_of_pos hrange hp.pos.2.2
  · cases h

/-- From start-up on, over any requests, the parameters in force, reported and saved agree exactly
when every request settles them. -/
theorem paramsAgree_iff {s : Settings} {m : SpotManager} {l : Listener} (h : start s m = .ok l)
    (rs : List UpdateRequest) :
    (∀ t, Visits attend l rs t → t.ParamsAgree) ↔
      ∀ t r, Takes attend l rs t r → r.Settles t := by
  obtain ⟨hagree, hserver⟩ := start_paramsAgree h
  refine visits_iff_takes (J := fun l => l.mSettings.ServerDataFilename ≠ "")
    (G := fun _ => True) ?_ ?_ hserver hagree fun _ _ => trivial
  · intro t r u hj _ hu
    rw [attend_server hu]
    exact hj
  · exact fun t r u hj hp _ hu => attend_paramsAgree_iff hp hj hu

/-- The shipped settings with their file. -/
def shippedSettings : Settings :=
  { shipped.mSettings with settingsFile := some shipped.mSettings.toIni }

/-- A request whose payload has the three counts. -/
def countsRequest (sensitivity enterCount exitCount : ℤ) : UpdateRequest where
  message := request
  io :=
    { unreadable with
      received := [123, 125]
      read_json := fun _ => some (PTree.mk "" [
        ("sensitivity", .leaf (PTree.intData sensitivity)),
        ("enterCount", .leaf (PTree.intData enterCount)),
        ("exitCount", .leaf (PTree.intData exitCount))]) }

theorem start_shipped : start shippedSettings {} =
    .ok { mSettings := shippedSettings, statics := ⟨6, -3⟩ } := by
  have hload : Settings.loadSettings shippedSettings = .ok true shippedSettings := rfl
  unfold start
  rw [hload]
  rfl

theorem countsRequest_settles {a e x : ℤ} (ha : InInt a) (he : InInt e) (hx : InInt x)
    (hpos : 0 < a ∧ 0 < e ∧ 0 < x) (l : Listener) : (countsRequest a e x).Settles l := by
  intro message hmessage _ n hn
  obtain rfl := Except.ok.inj hmessage
  rw [PTree.getInt_of_find rfl ha] at hn
  obtain rfl := Except.ok.inj hn
  rw [PTree.getInt_of_find rfl he, PTree.getInt_of_find rfl hx]
  exact hpos

/-- Two requests with positive counts. -/
theorem paramsAgree_positive :
    ∃ l u, start shippedSettings {} = .ok l ∧
      exec attend l [countsRequest 4 5 2, countsRequest 2 9 8] = some u ∧
      u.statics = ⟨9, -8⟩ ∧ u.ParamsAgree := by
  obtain ⟨u, hu, hstatics⟩ : ∃ u ∈ exec attend { mSettings := shippedSettings, statics := ⟨6, -3⟩ }
      [countsRequest 4 5 2, countsRequest 2 9 8], u.statics = ⟨9, -8⟩ := by
    decide +kernel
  refine ⟨_, u, start_shipped, hu, hstatics,
    (paramsAgree_iff start_shipped _).mpr ?_ u (visits_of_exec hu)⟩
  intro t r ht
  have hr := takes_mem ht
  simp only [List.mem_cons, List.not_mem_nil, or_false] at hr
  rcases hr with rfl | rfl
  · exact countsRequest_settles (by decide) (by decide) (by decide) (by decide) t
  · exact countsRequest_settles (by decide) (by decide) (by decide) (by decide) t

/-- An update to an `enterCount` of zero is taken over and saved; at the next start it will be
six. -/
theorem zero_enterCount_not_reloaded :
    ∃ l u, start shippedSettings {} = .ok l ∧ Visits attend l [countsRequest 3 0 3] u ∧
      ¬ u.ParamsAgree := by
  obtain ⟨u, hu, hzero⟩ : ∃ u ∈ exec attend { mSettings := shippedSettings, statics := ⟨6, -3⟩ }
      [countsRequest 3 0 3], u.mSettings.mParkingParams.enterCount = 0 := by
    decide +kernel
  refine ⟨_, u, start_shipped, visits_of_exec hu, fun ⟨_, _, hsaved⟩ => ?_⟩
  obtain ⟨ptree, -, hloads⟩ := Settings.saved_iff.mp hsaved
  have hpos := hloads.pos.2.1
  rw [hzero] at hpos
  exact absurd hpos (by decide)

end Listener

end VisionSensor
