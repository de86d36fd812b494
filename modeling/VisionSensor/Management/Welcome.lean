import VisionSensor.Management.PolicyBounds
import VisionSensor.Management.Restart
import VisionSensor.Management.SpotFile
import VisionSensor.Upload.ServerNetworkHandler

/-! The message a connection opens with. It reports the parameters and the spots in force, and a
client that sends it back as an update leaves the names, the regions and the occupancy as they are,
while limits and policies are taken from the tables again. -/
namespace VisionSensor
open Unwind GuardedRun

namespace SpotManager

/-- The policy tables have every id. -/
def Listed (m : SpotManager) : Prop := ∀ s ∈ m.spots, 0 ≤ s.mID ∧ s.mID < 1000

end SpotManager

namespace Listener

/-- `getJSONSyncMessage`, before `write_json` makes a text of it. -/
def getJSONSyncMessage (SensorName : String) (l : Listener) : Except Fault PTree := do
  let ROI ← l.mParkingSpotManager.toPTree
  let message := [(["welcome"], "Hello message from the sensor."),
    (["category"], "sample_category"),
    (["id"], l.mSettings.mSensorID),
    (["name"], SensorName),
    (["sensitivity"], PTree.intData l.mSettings.mParkingParams.sensitivity),
    (["enterCount"], PTree.intData l.mSettings.mParkingParams.enterCount),
    (["exitCount"], PTree.intData l.mSettings.mParkingParams.exitCount)].foldl
      (fun t kv => t.put kv.1 kv.2) PTree.nil
  return message.add_child "ROI" ROI

/-- The spots and counts hold values of their types, and the policy tables have every id. -/
structure Manageable (l : Listener) : Prop where
  fits : l.mParkingSpotManager.Fits
  listed : l.mParkingSpotManager.Listed
  sensitivity : InInt l.mSettings.mParkingParams.sensitivity
  enterCount : InInt l.mSettings.mParkingParams.enterCount
  exitCount : InInt l.mSettings.mParkingParams.exitCount

/-- A message that says what is in force. -/
structure Reports (message : PTree) (l : Listener) : Prop where
  id : message.getString "id" = .ok l.mSettings.mSensorID
  sensitivity : message.getInt "sensitivity" = .ok l.mSettings.mParkingParams.sensitivity
  enterCount : message.getInt "enterCount" = .ok l.mSettings.mParkingParams.enterCount
  exitCount : message.getInt "exitCount" = .ok l.mSettings.mParkingParams.exitCount
  spots : (UpdateRequest.ROIList message).children.mapM (fun c => savedSpot c.2) =
    some (l.mParkingSpotManager.spots.map ParkingSpot.saved)

end Listener

namespace SpotManager

/-- `m'` is `m` with the limits and policies of the tables in every spot that is not occupied within
its limit. -/
structure Retabled (tables : PolicyTables) (m m' : SpotManager) : Prop where
  keyed : m'.Keyed
  ids : ∀ id, (m'.find id).isSome ↔ (m.find id).isSome
  kept : ∀ id s s', m.find id = some (some s) → m'.find id = some (some s') →
    s'.mSpotName = s.mSpotName ∧ s'.mROI = s.mROI ∧ s'.parkingState = s.parkingState
  limits : ∀ id s s', m.find id = some (some s) → m'.find id = some (some s') →
    if s.locked then s'.mTimeLimit = s.mTimeLimit ∧ s'.mParkingPolicy = s.mParkingPolicy
    else PolicyTables.at tables.tlimit id = .ok s'.mTimeLimit ∧
      PolicyTables.at tables.po_id id = .ok s'.mParkingPolicy

variable {tables : PolicyTables} {m m' : SpotManager}

theorem Fits.savedSpots (hm : m.Fits) :
    m.savedTree.children.mapM (fun c => savedSpot c.2) = some (m.spots.map ParkingSpot.saved) :=
  hm.fileFollows

theorem Fits.storable (hm : m.Fits) (hids : m.Listed) : m.Storable := by
  intro s hs
  obtain ⟨e, he, hes⟩ := List.mem_filterMap.mp hs
  exact ⟨hids s hs, (hm.inRange e he s hes).roi⟩

/-- A list of the spots as they are. -/
theorem retabled_of_table (hm : m.Keyed) (h : m.Storable) (hm' : m'.Keyed)
    (ht : UpdatedBy tables m.savedTree m m') : Retabled tables m m' where
  keyed := hm'
  ids := (sameSpots_of_table hm h hm' ht).ids
  kept id s s' hs hs' := by
    obtain ⟨e, -, hrow⟩ := retained_row ht (table_of_find hs) (table_of_find hs')
    obtain ⟨hname, hroi, -⟩ := (sameSpots_of_table hm h hm' ht).spots id s s' hs hs'
    exact ⟨hname, hroi, (ParkingSpot.of_known_eq hrow).2.trans
      (EntryLocals.overwrite_parkingState _ _)⟩
  limits id s s' hs hs' := by
    obtain ⟨e, hlast, hid, -, -⟩ := savedTree_entry hm h hs
    obtain ⟨e', he', hrow⟩ := retained_row ht (table_of_find hs) (table_of_find hs')
    obtain rfl := Option.some.inj (hlast.symm.trans he')
    split_ifs with hlocked
    · rw [EntryLocals.overwrite_locked (s := s.known) hlocked] at hrow
      have hattr := (ParkingSpot.of_known_eq hrow).1
      exact ⟨congrArg (fun a => a.2.2.1) hattr, congrArg (fun a => a.2.2.2) hattr⟩
    · rw [EntryLocals.overwrite_unlocked (s := s.known)
        (Bool.eq_false_of_not_eq_true hlocked)] at hrow
      have hattr := (ParkingSpot.of_known_eq hrow).1
      have hlimit : s'.mTimeLimit = tables.tlimit e.index := congrArg (fun a => a.2.2.1) hattr
      have hpolicy : s'.mParkingPolicy = tables.po_id e.index := congrArg (fun a => a.2.2.2) hattr
      rw [hlimit, hpolicy, ← hid]
      exact ⟨e.at_index _, e.at_index _⟩

theorem listed_iff (hm : m.Keyed) :
    m.Listed ↔ ∀ id, (m.find id).isSome → 0 ≤ id ∧ id < 1000 := by
  constructor
  · intro h id hid
    obtain ⟨p, hp⟩ := Option.isSome_iff_exists.mp hid
    obtain ⟨s, rfl, rfl⟩ := hm.owned.find hp
    exact h s (hm.mem_spots.mpr hp)
  · intro h s hs
    exact h s.mID (by rw [hm.mem_spots.mp hs]; rfl)

/-- What the `try` block makes of an entry when it gets to its end. -/
theorem parseEntry_ok {node : PTree} {start l : EntryLocals}
    (h : parseEntry tables node start = .ok () l) :
    ∃ e, spotEntry node = some e ∧ l = e.locals tables := by
  have hcomplete : ∃ id, CompleteEntry node id := by
    by_contra hno
    obtain ⟨e, l', herror, -⟩ := parseEntry_incomplete tables start (not_exists.mp hno)
    cases h.symm.trans herror
  obtain ⟨id, hid⟩ := hcomplete
  have hrange : 0 ≤ id ∧ id < 1000 := by
    by_contra hout
    obtain ⟨l', herror⟩ := parseEntry_out_of_range tables hid hout start
    cases h.symm.trans herror
  obtain ⟨e, he⟩ := Option.isSome_iff_exists.mp (hid.wellFormed hrange)
  have hlocals := parseEntry_wellFormed he tables start
  rw [h] at hlocals
  cases hlocals
  exact ⟨e, he, rfl⟩

/-- A manager whose spots fit their types and the tables. -/
def Sound (m : SpotManager) : Prop := m.Fits ∧ m.Listed

theorem sound_add (hm : m.Sound) (e : SpotEntry) (hroi : e.roi.InRange) (htables : tables.InRange)
    (junk : Bool) : Sound (m.add junk (e.locals tables).id (e.locals tables).spotName
      (e.locals tables).timeLimit (e.locals tables).roi (e.locals tables).policy).1 := by
  have hkeyed := (hm.1.keyed.add junk (e.locals tables)).1
  have hid : InInt e.id := ⟨by have := e.listed; omega, by have := e.listed; omega⟩
  have hnew : (e.locals tables).InRange := ⟨hid, hroi, (htables _).1, (htables _).2⟩
  unfold SpotManager.add at hkeyed ⊢
  split_ifs at hkeyed ⊢ with htaken
  · exact hm
  · refine ⟨⟨hkeyed, fun p hp s hs => ?_⟩, fun s hs => ?_⟩
    · rcases List.mem_append.mp hp with hp | hp
      · exact hm.1.inRange p hp s hs
      · obtain rfl := List.mem_singleton.mp hp
        obtain rfl := Option.some.inj hs
        exact hnew.newSpot _
    · obtain ⟨p, hp, hs⟩ := List.mem_filterMap.mp hs
      rcases List.mem_append.mp hp with hp | hp
      · exact hm.2 s (List.mem_filterMap.mpr ⟨p, hp, hs⟩)
      · obtain rfl := List.mem_singleton.mp hp
        obtain rfl := Option.some.inj hs
        exact e.listed

theorem keeps_sound_loadEntry (htables : tables.InRange) (junk : Junk) (node : PTree) :
    Keeps Sound (loadEntry tables junk node) := by
  unfold loadEntry
  split
  · rename_i l hparse
    obtain ⟨e, he, rfl⟩ := parseEntry_ok hparse
    obtain ⟨-, -, hx, hy, hwidth, hheight⟩ := spotEntry_eq_some.mp he
    have hroi : e.roi.InRange := ⟨PTree.getInt_inInt hx, PTree.getInt_inInt hy,
      PTree.getInt_inInt hwidth, PTree.getInt_inInt hheight⟩
    exact keeps_modify fun m hm => sound_add hm e hroi htables _
  · exact keeps_ite (keeps_pure _ _) (keeps_throw _ _)

/-- Whatever the parking spots file holds, loading it leaves a sound manager. -/
theorem keeps_sound_readFromJSONFile (htables : tables.InRange) (json : Option PTree)
    (junk : ℕ → Junk) : Keeps Sound (readFromJSONFile json tables junk) := by
  cases json with
  | none => exact keeps_pure _ _
  | some root =>
    apply keeps_bind
    · exact keeps_forM (fun c : (String × PTree) × ℕ =>
        keeps_sound_loadEntry htables (junk c.2) c.1.2) _
    · exact fun _ => keeps_pure _ _

theorem keeps_fits_updateParkingSpots (htables : tables.InRange) {junk : ℕ → Junk}
    (hjunk : ∀ i, (junk i).InRange) (writable : Bool) (root : PTree) :
    Keeps Fits (updateParkingSpots writable tables junk root) := by
  refine keeps_bind (keeps_foldlM (fun updated c => keeps_fits_updateEntry htables (hjunk _) updated
    _) _ _) fun updated => keeps_bind (keeps_modify fun m hm => ?_) fun _ => keeps_get_bind fun m =>
      keeps_bind (keeps_ofExcept _ _) fun tree => keeps_bind ?_ fun _ => keeps_pure _ _
  · exact ⟨(hm.keyed.filter fun id => updated.contains id).1,
      fun e he => hm.inRange e (List.mem_filter.mp he).1⟩
  · exact keeps_ite (keeps_modify fun m hm => ⟨⟨hm.keyed.distinct, hm.keyed.owned⟩, hm.inRange⟩)
      (keeps_throw _ _)

theorem keeps_sound_updateParkingSpots (htables : tables.InRange) {junk : ℕ → Junk}
    (hjunk : ∀ i, (junk i).InRange) (writable : Bool) {root : PTree} (hroot : WellFormed root) :
    Keeps Sound (updateParkingSpots writable tables junk root) := by
  intro m hm
  have hfits := keeps_fits_updateParkingSpots htables hjunk writable root m hm.1
  obtain ⟨m', hk, ht, hrun⟩ := updateParkingSpots_wellFormed hm.1.keyed hroot tables junk writable
  have hafter : after (updateParkingSpots writable tables junk root) m = m' := by
    unfold after
    rw [hrun]
    cases writable <;> rfl
  rw [hafter] at hfits ⊢
  refine ⟨hfits, (listed_iff hk).mpr fun id hid => ?_⟩
  rw [hk.owned.find_isSome, ht.isSome, lastEntry_isSome_iff] at hid
  obtain ⟨e, -, rfl⟩ := hid
  exact e.listed

theorem keeps_sound_clear : Keeps Sound clear := by
  intro m hm
  rw [after, clear_spec hm.1.keyed]
  exact ⟨⟨⟨List.nodup_nil, by simp [Owned]⟩, by simp⟩, by simp [Listed, spots]⟩

end SpotManager

namespace Listener

variable {l u : Listener} {message : PTree} {SensorName : String}

/-- The message as a tree. -/
theorem getJSONSyncMessage_eq (hl : l.mParkingSpotManager.Owned) :
    l.getJSONSyncMessage SensorName = .ok (PTree.mk "" [
      ("welcome", .leaf "Hello message from the sensor."), ("category", .leaf "sample_category"),
      ("id", .leaf l.mSettings.mSensorID), ("name", .leaf SensorName),
      ("sensitivity", .leaf (PTree.intData l.mSettings.mParkingParams.sensitivity)),
      ("enterCount", .leaf (PTree.intData l.mSettings.mParkingParams.enterCount)),
      ("exitCount", .leaf (PTree.intData l.mSettings.mParkingParams.exitCount)),
      ("ROI", l.mParkingSpotManager.savedTree)]) := by
  unfold getJSONSyncMessage
  rw [hl.toPTree]
  rfl

theorem Manageable.reports (hl : l.Manageable) (SensorName : String) :
    ∃ message, l.getJSONSyncMessage SensorName = .ok message ∧ Reports message l ∧
      UpdateRequest.ROIList message = l.mParkingSpotManager.savedTree := by
  refine ⟨_, getJSONSyncMessage_eq hl.fits.keyed.owned, ⟨rfl, ?_, ?_, ?_, ?_⟩, rfl⟩
  · exact PTree.getInt_of_find rfl hl.sensitivity
  · exact PTree.getInt_of_find rfl hl.enterCount
  · exact PTree.getInt_of_find rfl hl.exitCount
  · exact hl.fits.savedSpots

end Listener

namespace UpdateRequest

/-- The values a request brings are of their types, and its spot list, if it arrives, is well
formed. -/
def ListsSpots (r : UpdateRequest) : Prop :=
  r.InRange ∧ ∀ message, r.payload = .ok message → WellFormed (ROIList message)

theorem payload_eq_ok {r : UpdateRequest} {message : PTree} :
    r.payload = .ok message ↔ ∃ n buffer, r.message.getInt "length" = .ok n ∧
      r.io.read n = .ok buffer ∧ r.io.parseJSON buffer = .ok message := by
  unfold payload
  simp only [except_bind_eq_ok]
  constructor
  · rintro ⟨n, hn, buffer, hbuffer, hmessage⟩
    exact ⟨n, buffer, hn, hbuffer, hmessage⟩
  · rintro ⟨n, buffer, hn, hbuffer, hmessage⟩
    exact ⟨n, hn, buffer, hbuffer, hmessage⟩

end UpdateRequest

namespace Settings

/-- The counts hold values of their type. -/
def Counted (s : Settings) : Prop :=
  InInt s.mParkingParams.sensitivity ∧ InInt s.mParkingParams.enterCount ∧
    InInt s.mParkingParams.exitCount

theorem keeps_counted (writable : Bool) (root : PTree) :
    Keeps Counted (updateParkingParams writable root) := by
  have hwrite : Keeps Counted (writeSettings writable) := by
    apply keeps_ite
    · exact keeps_pure _ _
    · exact keeps_bind (keeps_modify fun s hs => hs) fun _ => keeps_pure _ _
  refine keeps_ofExcept_bind fun a ha => keeps_bind (keeps_modify fun s hs => ?_) fun _ =>
    keeps_ofExcept_bind fun e he => keeps_bind (keeps_modify fun s hs => ?_) fun _ =>
    keeps_ofExcept_bind fun x hx => keeps_bind (keeps_modify fun s hs => ?_) fun _ =>
    keeps_bind hwrite fun _ => keeps_pure _ _
  · exact ⟨PTree.getInt_inInt ha, hs.2⟩
  · exact ⟨hs.1, PTree.getInt_inInt he, hs.2.2⟩
  · exact ⟨hs.1, hs.2.1, PTree.getInt_inInt hx⟩

end Settings

namespace Listener

variable {l u : Listener} {r : UpdateRequest} {message : PTree} {SensorName : String}

theorem keeps_manageable_modify {g : Listener → Listener}
    (hsettings : ∀ l, (g l).mSettings = l.mSettings)
    (hspots : ∀ l, (g l).mParkingSpotManager = l.mParkingSpotManager) :
    Keeps Manageable (modify g : EStateM Fault Listener PUnit) := by
  refine keeps_modify fun l hl => ⟨?_, ?_, ?_, ?_, ?_⟩
  · exact hspots l ▸ hl.fits
  · exact hspots l ▸ hl.listed
  · exact hsettings l ▸ hl.sensitivity
  · exact hsettings l ▸ hl.enterCount
  · exact hsettings l ▸ hl.exitCount

theorem keeps_manageable_updateParams (io : UpdateIO) (message : PTree) :
    Keeps Manageable (updateParams io message) := by
  have hset : Keeps Manageable
      (onSettings (Settings.updateParkingParams io.settingsWritable message)) := by
    refine keeps_zoom (J := Settings.Counted) ?_ ?_ ?_
    · exact fun l hl => ⟨hl.sensitivity, hl.enterCount, hl.exitCount⟩
    · exact fun l s hl hs => ⟨hl.fits, hl.listed, hs.1, hs.2.1, hs.2.2⟩
    · exact Settings.keeps_counted _ _
  apply keeps_ite
  · exact keeps_pure _ _
  · exact keeps_bind hset fun _ => keeps_ofExcept_bind fun _ _ =>
      keeps_bind (keeps_manageable_modify (fun _ => rfl) fun _ => rfl) fun _ =>
      keeps_ofExcept_bind fun _ _ => keeps_manageable_modify (fun _ => rfl) fun _ => rfl

theorem keeps_manageable_updateSpots {io : UpdateIO} {ROIList : PTree}
    (hio : io.tables.InRange ∧ ∀ i, (io.junk i).InRange) (hlist : WellFormed ROIList) :
    Keeps Manageable (updateSpots io ROIList) := by
  have hzoom : ∀ {α : Type} (x : EStateM Fault SpotManager α), Keeps SpotManager.Sound x →
      Keeps Manageable (onSpots x) := by
    intro α x hx
    refine keeps_zoom (J := SpotManager.Sound) ?_ ?_ ?_
    · exact fun l hl => ⟨hl.fits, hl.listed⟩
    · exact fun l m hl hm => ⟨hm.1, hm.2, hl.sensitivity, hl.enterCount, hl.exitCount⟩
    · exact hx
  apply keeps_ite
  · exact hzoom _ SpotManager.keeps_sound_clear
  · apply keeps_bind
    · exact hzoom _ (SpotManager.keeps_sound_updateParkingSpots hio.1 hio.2 _ hlist)
    · exact fun _ => keeps_pure _ _

/-- An update request, however it ends. -/
theorem keeps_manageable_update (hr : r.ListsSpots) :
    Keeps Manageable (update r.io r.message) := by
  refine keeps_ofExcept_bind fun n hn =>
    keeps_bind (keeps_manageable_modify (fun _ => rfl) fun _ => rfl) fun _ =>
    keeps_bind ?_ fun _ => keeps_manageable_modify (fun _ => rfl) fun _ => rfl
  refine keeps_ofExcept_bind fun buffer hbuffer => keeps_ofExcept_bind fun message hmessage =>
    keeps_bind (keeps_manageable_updateParams _ _) fun _ => ?_
  have hpayload := UpdateRequest.payload_eq_ok.mpr ⟨n, buffer, hn, hbuffer, hmessage⟩
  exact keeps_manageable_updateSpots hr.1 (hr.2 message hpayload)

theorem attend_manageable (hl : l.Manageable) (hr : r.ListsSpots) (h : l.attend r = some u) :
    u.Manageable := by
  obtain rfl := attend_eq_after h
  exact keeps_manageable_update hr l hl

/-- At start-up, with whatever the settings file and the parking spots file hold. -/
theorem start_manageable {s : Settings} {m : SpotManager} (hm : m.Sound)
    (h : start s m = .ok l) : l.Manageable := by
  unfold start at h
  split at h
  · rename_i b t hload
    obtain rfl := Except.ok.inj h
    obtain ⟨-, ptree, p, hfile, hp, rfl⟩ := Settings.loadSettings_eq_ok.mp hload
    obtain ⟨ha, he, hx⟩ := hp.inInt
    exact ⟨hm.1, hm.2, ha, he, hx⟩
  · cases h

section Echo

variable {io : UpdateIO}

/-- The parameters put into force once more. -/
def again (writable : Bool) (l : Listener) : Listener :=
  { l with
    mSettings := l.mSettings.saveParams writable l.mSettings.mParkingParams
    statics := ⟨l.mSettings.mParkingParams.enterCount,
      negInt l.mSettings.mParkingParams.exitCount⟩ }

@[simp] theorem again_params (writable : Bool) (l : Listener) :
    (l.again writable).mSettings.mParkingParams = l.mSettings.mParkingParams :=
  Settings.saveParams_params _ _ _

theorem Manageable.again (hl : l.Manageable) (writable : Bool) : (l.again writable).Manageable := by
  refine ⟨hl.fits, hl.listed, ?_, ?_, ?_⟩
  · exact (again_params writable l).symm ▸ hl.sensitivity
  · exact (again_params writable l).symm ▸ hl.enterCount
  · exact (again_params writable l).symm ▸ hl.exitCount

theorem setParams_reported (h : Reports message l) :
    setParams io message l = .ok () (l.again io.settingsWritable) := by
  have hrun := Settings.updateParkingParams_ok h.sensitivity h.enterCount h.exitCount
    io.settingsWritable l.mSettings
  have honSettings : onSettings (Settings.updateParkingParams io.settingsWritable message) l =
      .ok () { l with mSettings :=
        l.mSettings.saveParams io.settingsWritable l.mSettings.mParkingParams } := by
    simp only [onSettings, zoom, hrun]
  unfold setParams
  rw [bind_ok _ honSettings, h.enterCount, h.exitCount]
  rfl

theorem updateParams_reported (h : Reports message l) :
    updateParams io message l = setParams io message l := by
  have hempty : message.empty = false := by
    cases message with
    | mk data children =>
      cases children with
      | nil => cases h.id
      | cons c children => rfl
  unfold updateParams
  rw [hempty]
  rfl

/-- The spots as they are, sent as a list. Saving them may fail. -/
theorem updateSpots_saved (io : UpdateIO) (hl : l.Manageable) :
    ∃ m', SpotManager.Retabled io.tables l.mParkingSpotManager m' ∧
      (updateSpots io l.mParkingSpotManager.savedTree l =
          .ok () { l with mParkingSpotManager := m' } ∨
        updateSpots io l.mParkingSpotManager.savedTree l =
          .error .json_parser_error { l with mParkingSpotManager := m' }) := by
  have hstorable := hl.fits.storable hl.listed
  unfold updateSpots
  split_ifs with hempty
  · -- there is no spot, and `clear` removes none
    have hnone : l.mParkingSpotManager.mParkingSpots = [] := by
      have hspots : l.mParkingSpotManager.spots = [] := by
        simpa [SpotManager.savedTree, PTree.empty, PTree.children] using hempty
      have hkeys := hl.fits.keyed.owned.map_mID
      rw [hspots] at hkeys
      exact List.map_eq_nil_iff.mp hkeys.symm
    have hfind : ∀ id, l.mParkingSpotManager.find id = none := by
      intro id
      rw [SpotManager.find, hnone]
      rfl
    refine ⟨{ l.mParkingSpotManager with mParkingSpots := [] },
      ⟨⟨List.nodup_nil, by simp [SpotManager.Owned]⟩, ?_, ?_, ?_⟩, .inl ?_⟩
    · exact fun id => by rw [hfind id]; rfl
    · exact fun id s s' hs => by rw [hfind id] at hs; cases hs
    · exact fun id s s' hs => by rw [hfind id] at hs; cases hs
    · exact zoom_ok_iff.mpr ⟨_, SpotManager.clear_spec hl.fits.keyed, rfl⟩
  · obtain ⟨m', hk, ht, hrun⟩ := SpotManager.updateParkingSpots_wellFormed hl.fits.keyed
      (SpotManager.savedTree_wellFormed hstorable) io.tables io.junk io.spotsWritable
    refine ⟨m', SpotManager.retabled_of_table hl.fits.keyed hstorable hk ht, ?_⟩
    split_ifs at hrun with hw
    · exact .inl (bind_ok _ (zoom_ok_iff.mpr ⟨m', hrun, rfl⟩))
    · exact .inr (bind_error _ (zoom_error hrun))

/-- A request that carries the message back. -/
theorem attend_reported (hl : l.Manageable) (h : Reports message l)
    (hlist : UpdateRequest.ROIList message = l.mParkingSpotManager.savedTree)
    (hr : r.payload = .ok message) : ∃ u, l.attend r = some u ∧
      u.mSettings.mParkingParams = l.mSettings.mParkingParams ∧
      u.statics = ⟨l.mSettings.mParkingParams.enterCount,
        negInt l.mSettings.mParkingParams.exitCount⟩ ∧
      SpotManager.Retabled r.io.tables l.mParkingSpotManager u.mParkingSpotManager := by
  obtain ⟨n, buffer, hn, hbuffer, hmessage⟩ := UpdateRequest.payload_eq_ok.mp hr
  have hsuspended : Reports message (after suspendMainThread l) := ⟨h.1, h.2, h.3, h.4, h.5⟩
  let l₁ := (after suspendMainThread l).again r.io.settingsWritable
  have hparams : updateParams r.io message (after suspendMainThread l) = .ok () l₁ :=
    (updateParams_reported hsuspended).trans (setParams_reported hsuspended)
  have hreceive : receiveUpdate r.io n (after suspendMainThread l) =
      updateSpots r.io l₁.mParkingSpotManager.savedTree l₁ := by
    unfold receiveUpdate
    rw [bind_ok _ (ofExcept_apply_ok.mpr ⟨hbuffer, rfl⟩),
      bind_ok _ (ofExcept_apply_ok.mpr ⟨hmessage, rfl⟩), bind_ok _ hparams]
    exact congrArg (fun list => updateSpots r.io list l₁) hlist
  have hsuspend : (after suspendMainThread l).Manageable := ⟨hl.1, hl.2, hl.3, hl.4, hl.5⟩
  obtain ⟨m', hm', hrun | hrun⟩ := updateSpots_saved r.io (hsuspend.again r.io.settingsWritable)
  · refine ⟨after resumeMainThread { l₁ with mParkingSpotManager := m' }, ?_,
      Settings.saveParams_params _ _ _, rfl, hm'⟩
    unfold attend
    rw [update_length hn, bind_ok _ (hreceive.trans hrun)]
    rfl
  · refine ⟨{ l₁ with mParkingSpotManager := m' }, ?_, Settings.saveParams_params _ _ _, rfl, hm'⟩
    unfold attend
    rw [update_length hn, bind_error _ (hreceive.trans hrun)]
    rfl

end Echo

/-- From start-up with any parking spots file, over any requests with well formed lists, also those
that fail: the message says what is in force, and sent back as an update it changes no id, name,
region, occupancy or parameter. Limits and policies become those of the tables again, except for a
spot that is occupied within its limit. -/
theorem welcome_sent_back {s : Settings} {m : SpotManager} {l₀ : Listener} {tables : PolicyTables}
    {junk : ℕ → Junk} {json : Option PTree} {b : Bool} {rs : List UpdateRequest}
    (htables : tables.InRange)
    (hload : SpotManager.readFromJSONFile json tables junk {} = .ok b m) (hstart : start s m = .ok l₀)
    (hrs : ∀ r ∈ rs, r.ListsSpots) (hl : Visits attend l₀ rs l) (SensorName : String) :
    ∃ message, l.getJSONSyncMessage SensorName = .ok message ∧ Reports message l ∧
      ∀ r : UpdateRequest, r.payload = .ok message → ∃ u, l.attend r = some u ∧
        u.mSettings.mParkingParams = l.mSettings.mParkingParams ∧
        u.statics = ⟨l.mSettings.mParkingParams.enterCount,
          negInt l.mSettings.mParkingParams.exitCount⟩ ∧
        SpotManager.Retabled r.io.tables l.mParkingSpotManager u.mParkingSpotManager := by
  have hm : m.Sound := by
    have hempty : SpotManager.Sound {} :=
      ⟨⟨SpotManager.keyed_empty none, fun _ he => nomatch he⟩, fun _ hs => nomatch hs⟩
    have hafter := SpotManager.keeps_sound_readFromJSONFile htables json junk _ hempty
    rw [after, hload] at hafter
    exact hafter
  have hmanageable : l.Manageable := invariant_of_actions
    (fun _ _ _ ht hr h => attend_manageable ht hr h) (start_manageable hm hstart) hrs hl
  obtain ⟨message, hmessage, hreports, hlist⟩ := hmanageable.reports SensorName
  exact ⟨message, hmessage, hreports, fun r hr => attend_reported hmanageable hreports hlist hr⟩

/-- A request whose payload is the given tree, with tables of its own. -/
def echoRequest (message : PTree) : UpdateRequest where
  message := request
  io :=
    { unreadable with received := [123, 125], read_json := fun _ => some message }

/-- The spots of a file with two of them, and a request that replaces the second. -/
def twoLoaded : SpotManager :=
  after (SpotManager.readFromJSONFile (some SpotManager.twoSpotList) SpotManager.flatTables
    SpotManager.flatJunk) {}

def replaceSecond : UpdateRequest :=
  listRequest [SpotManager.listNode "1" "A1", SpotManager.listNode "9" "A9"]

theorem replaceSecond_lists : replaceSecond.ListsSpots := by
  refine ⟨listRequest_inRange _, fun message hmessage => ?_⟩
  cases hmessage
  unfold WellFormed
  decide

/-- A client sends back what it reads after the replacement. -/
theorem welcome_sent_back_replaced : ∃ l message u,
    l.mParkingSpotManager.spots.map ParkingSpot.mID = [1, 9] ∧ Reports message l ∧
      l.attend (echoRequest message) = some u ∧
      SpotManager.Retabled unreadable.tables l.mParkingSpotManager u.mParkingSpotManager := by
  have htables : SpotManager.flatTables.InRange := (listRequest_inRange []).1
  have hload : SpotManager.readFromJSONFile (some SpotManager.twoSpotList) SpotManager.flatTables
    SpotManager.flatJunk {} = .ok true twoLoaded := rfl
  have hstart : start shippedSettings twoLoaded = .ok
      { mSettings := shippedSettings, mParkingSpotManager := twoLoaded, statics := ⟨6, -3⟩ } := by
    have hsettings : Settings.loadSettings shippedSettings = .ok true shippedSettings := rfl
    unfold start
    rw [hsettings]
    rfl
  obtain ⟨l, hl, hids⟩ : ∃ l ∈ exec attend
      { mSettings := shippedSettings, mParkingSpotManager := twoLoaded, statics := ⟨6, -3⟩ }
      [replaceSecond], l.mParkingSpotManager.spots.map ParkingSpot.mID = [1, 9] := by
    decide +kernel
  have hlists : ∀ r ∈ [replaceSecond], r.ListsSpots := by
    intro r hr
    obtain rfl := List.mem_singleton.mp hr
    exact replaceSecond_lists
  obtain ⟨message, -, hreports, hback⟩ := welcome_sent_back htables hload hstart hlists
    (visits_of_exec hl) ""
  obtain ⟨u, hu, -, -, hspots⟩ := hback (echoRequest message) rfl
  exact ⟨l, message, u, hids, hreports, hu, hspots⟩

end Listener
end VisionSensor
