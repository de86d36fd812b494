import VisionSensor.Management.Listener
import VisionSensor.Management.SpotOperations

/-! The parking spots file against the spots in memory, over the updates the listener handles. -/
namespace VisionSensor
open Unwind GuardedRun

/-- What the parking spots file says about a spot. -/
structure SavedSpot where
  id : ℤ
  spotName : String
  roi : Rect
  policy : ParkingSpotPolicy
  timeLimit : ℤ
  deriving DecidableEq, Repr

/-- Read a child of the file. -/
def savedSpot (node : PTree) : Option SavedSpot :=
  match node.getInt "parkingSpotId", node.getString "parkingSpotName", node.getInt "roiCoordX",
    node.getInt "roiCoordY", node.getInt "roiWidth", node.getInt "roiHeight",
    node.getInt "policyId", node.getInt "timeLimit" with
  | .ok id, .ok spotName, .ok x, .ok y, .ok width, .ok height, .ok policy, .ok timeLimit =>
      some ⟨id, spotName, ⟨x, y, width, height⟩, policy, timeLimit⟩
  | _, _, _, _, _, _, _, _ => none

namespace ParkingSpot

/-- What `toPTree` says about a spot. -/
def saved (s : ParkingSpot) : SavedSpot :=
  ⟨s.mID, s.mSpotName, s.mROI, s.mParkingPolicy, s.mTimeLimit⟩

/-- The members that are saved hold values of their type. -/
structure InRange (s : ParkingSpot) : Prop where
  id : InInt s.mID
  roi : s.mROI.InRange
  policy : InInt s.mParkingPolicy
  timeLimit : InInt s.mTimeLimit

end ParkingSpot

/-- The tables hold values of their type. -/
def PolicyTables.InRange (tables : PolicyTables) : Prop :=
  ∀ i, InInt (tables.po_id i) ∧ InInt (tables.tlimit i)

structure EntryLocals.InRange (l : EntryLocals) : Prop where
  id : InInt l.id
  roi : l.roi.InRange
  policy : InInt l.policy
  timeLimit : InInt l.timeLimit

namespace SpotManager

theorem savedSpot_spotTree {s : ParkingSpot} (h : s.InRange) :
    savedSpot (spotTree s).2 = some s.saved := by
  obtain ⟨hid, ⟨hx, hy, hwidth, hheight⟩, hpolicy, hlimit⟩ := h
  have hint : ∀ key n, (spotTree s).2.find key = some (PTree.leaf (PTree.intData n)) → InInt n →
      (spotTree s).2.getInt key = .ok n := fun _ _ hfind hn => PTree.getInt_of_find hfind hn
  have hname : (spotTree s).2.getString "parkingSpotName" = .ok s.mSpotName := rfl
  simp only [savedSpot, hint "parkingSpotId" _ rfl hid, hname, hint "roiCoordX" _ rfl hx,
    hint "roiCoordY" _ rfl hy, hint "roiWidth" _ rfl hwidth, hint "roiHeight" _ rfl hheight,
    hint "policyId" _ rfl hpolicy, hint "timeLimit" _ rfl hlimit]
  rfl

/-- The spots the file describes; without a file there are none, and `none` is a file with a
child that cannot be read. -/
def fileSpots (m : SpotManager) : Option (List SavedSpot) :=
  match m.spotsFile with
  | none => some []
  | some root => root.children.mapM fun c => savedSpot c.2

/-- The file describes exactly the spots in memory. -/
def FileFollows (m : SpotManager) : Prop := m.fileSpots = some (m.spots.map ParkingSpot.saved)

/-- A keyed map whose spots hold values of their types. -/
structure Fits (m : SpotManager) : Prop where
  keyed : m.Keyed
  inRange : ∀ e ∈ m.mParkingSpots, ∀ s ∈ e.2, s.InRange

end SpotManager

section Entry

variable {tables : PolicyTables} {junk : Junk}

theorem at_inRange {table : Fin 1000 → ℤ} (h : ∀ i, InInt (table i)) {id n : ℤ}
    (hn : PolicyTables.at table id = .ok n) : InInt n := by
  unfold PolicyTables.at at hn
  split_ifs at hn
  obtain rfl := Except.ok.inj hn
  exact h _

/-- Every assignment of the `try` block keeps the locals in range. -/
theorem keeps_parseEntry (htables : tables.InRange) (node : PTree) :
    Keeps EntryLocals.InRange (parseEntry tables node) := by
  refine keeps_ofExcept_bind fun id hid => keeps_bind (keeps_modify fun l hl => ?_) fun _ =>
    keeps_ofExcept_bind fun spotName _ => keeps_bind (keeps_modify fun l hl => ?_) fun _ =>
    keeps_ofExcept_bind fun x hx => keeps_bind (keeps_modify fun l hl => ?_) fun _ =>
    keeps_ofExcept_bind fun y hy => keeps_bind (keeps_modify fun l hl => ?_) fun _ =>
    keeps_ofExcept_bind fun width hwidth => keeps_bind (keeps_modify fun l hl => ?_) fun _ =>
    keeps_ofExcept_bind fun height hheight => keeps_bind (keeps_modify fun l hl => ?_) fun _ =>
    keeps_ofExcept_bind fun policy hpolicy => keeps_bind (keeps_modify fun l hl => ?_) fun _ =>
    keeps_ofExcept_bind fun timeLimit htimeLimit => keeps_modify fun l hl => ?_
  · exact { hl with id := PTree.getInt_inInt hid }
  · exact ⟨hl.id, hl.roi, hl.policy, hl.timeLimit⟩
  · exact { hl with roi := ⟨PTree.getInt_inInt hx, hl.roi.2⟩ }
  · exact { hl with roi := ⟨hl.roi.1, PTree.getInt_inInt hy, hl.roi.2.2⟩ }
  · exact { hl with roi := ⟨hl.roi.1, hl.roi.2.1, PTree.getInt_inInt hwidth, hl.roi.2.2.2⟩ }
  · exact { hl with roi := ⟨hl.roi.1, hl.roi.2.1, hl.roi.2.2.1, PTree.getInt_inInt hheight⟩ }
  · exact { hl with policy := at_inRange (fun i => (htables i).1) hpolicy }
  · exact { hl with timeLimit := at_inRange (fun i => (htables i).2) htimeLimit }

theorem readEntry_inRange (htables : tables.InRange) (hjunk : junk.InRange) {node : PTree}
    {l : EntryLocals} (h : readEntry tables junk node = .ok l) : l.InRange := by
  have hzero : Rect.zero.InRange := ⟨by decide, by decide, by decide, by decide⟩
  rw [← readLocals_eq h]
  exact keeps_parseEntry htables node _ ⟨hjunk.1, hzero, hjunk.2.2, hjunk.2.1⟩

end Entry

namespace EntryLocals

theorem InRange.newSpot {l : EntryLocals} (h : l.InRange) (junk : Bool) :
    (ParkingSpot.new junk l.id l.spotName l.timeLimit l.roi l.policy).InRange :=
  ⟨h.id, h.roi, h.policy, h.timeLimit⟩

theorem InRange.overwrite {l : EntryLocals} (h : l.InRange) {s : ParkingSpot} (hs : s.InRange) :
    (overwrite s l).InRange := by
  unfold EntryLocals.overwrite ParkingSpot.updateAttributes
  split_ifs
  · exact hs
  · exact ⟨hs.id, h.roi, h.policy, h.timeLimit⟩

end EntryLocals

namespace SpotManager

variable {tables : PolicyTables}

theorem keeps_fits_updateEntry (htables : tables.InRange) {junk : Junk} (hjunk : junk.InRange)
    (updated : List ℤ) (node : PTree) : Keeps Fits (updateEntry tables junk updated node) := by
  intro m hm
  refine ⟨keeps_updateEntry tables junk updated node m hm.keyed, ?_⟩
  cases hread : readEntry tables junk node with
  | error e =>
    rw [after, updateEntry_error hread]
    exact hm.inRange
  | ok l =>
    have hl := readEntry_inRange htables hjunk hread
    cases hf : m.find l.id with
    | none =>
      rw [after, updateEntry_add hread hf, SpotManager.add, hf]
      intro e he s hs
      rcases List.mem_append.mp he with he | he
      · exact hm.inRange e he s hs
      · obtain rfl := List.mem_singleton.mp he
        obtain rfl := Option.some.inj hs
        exact hl.newSpot _
    | some p =>
      obtain ⟨s₀, rfl, -⟩ := hm.keyed.owned.find hf
      rw [after, updateEntry_update hread hf]
      intro e he s hs
      obtain ⟨e₀, he₀, rfl⟩ := List.mem_map.mp he
      split_ifs at hs
      · obtain rfl := Option.some.inj hs
        exact hl.overwrite (hm.inRange _ (KeyedTable.mem_of_lookup hf) s₀ rfl)
      · exact hm.inRange e₀ he₀ s hs

/-- A manager that fits its types follows the file it has written. -/
theorem Fits.fileFollows {m : SpotManager} (hm : m.Fits) :
    FileFollows { m with spotsFile := some (PTree.mk "" (m.spots.map spotTree)) } := by
  have hread : ∀ s ∈ m.spots, savedSpot (spotTree s).2 = some s.saved := by
    intro s hs
    obtain ⟨e, he, hs⟩ := List.mem_filterMap.mp hs
    exact savedSpot_spotTree (hm.inRange e he s hs)
  change (m.spots.map spotTree).mapM (fun c => savedSpot c.2) = some (m.spots.map _)
  generalize m.spots = l at hread
  induction l with
  | nil => rfl
  | cons s l ih =>
    rw [List.map_cons, List.mapM_cons, hread s List.mem_cons_self,
      ih fun s' hs' => hread s' (List.mem_cons_of_mem _ hs')]
    rfl

/-- Whatever its list, an update of the manager that returns has written the file. -/
theorem updateParkingSpots_fileFollows {m u : SpotManager} (hm : m.Fits)
    (htables : tables.InRange) {junk : ℕ → Junk} (hjunk : ∀ i, (junk i).InRange) {writable : Bool}
    {root : PTree} {b : Bool} (h : updateParkingSpots writable tables junk root m = .ok b u) :
    u.Fits ∧ u.FileFollows := by
  obtain ⟨updated, m₁, hloop, h⟩ := bind_eq_ok.mp h
  have hkeeps : Keeps Fits (root.children.zipIdx.foldlM
      (fun updated c => updateEntry tables (junk c.2) updated c.1.2) []) :=
    keeps_foldlM (fun updated c => keeps_fits_updateEntry htables (hjunk _) updated _) _ _
  have hfits : m₁.Fits := by
    have hafter := hkeeps m hm
    rw [after, hloop] at hafter
    exact hafter
  obtain ⟨_, m₂, hfilter, h⟩ := bind_eq_ok.mp h
  cases hfilter
  have hfits₂ : Fits { m₁ with
      mParkingSpots := m₁.mParkingSpots.filter fun e => updated.contains e.1 } :=
    ⟨(hfits.keyed.filter fun id => updated.contains id).1,
      fun e he => hfits.inRange e (List.mem_filter.mp he).1⟩
  change (ofExcept (toPTree { m₁ with
    mParkingSpots := m₁.mParkingSpots.filter fun e => updated.contains e.1 }) >>= _ :
      EStateM Fault SpotManager Bool) _ = _ at h
  rw [bind_ok _ (ofExcept_apply_ok.mpr ⟨hfits₂.keyed.owned.toPTree, rfl⟩)] at h
  cases writable with
  | false => cases h
  | true =>
    cases h
    exact ⟨⟨⟨hfits₂.keyed.distinct, hfits₂.keyed.owned⟩, hfits₂.inRange⟩, hfits₂.fileFollows⟩

end SpotManager

namespace UpdateRequest

/-- The spot list of a payload. -/
def ROIList (message : PTree) : PTree := message.get_child "ROI" PTree.nil

/-- The tables and the uninitialised locals hold values of their types. -/
def InRange (r : UpdateRequest) : Prop := r.io.tables.InRange ∧ ∀ i, (r.io.junk i).InRange

/-- A request with an empty spot list finds no spots in the file. -/
def ClearsEmptyFile (l : Listener) (r : UpdateRequest) : Prop :=
  ∀ message, r.payload = .ok message → (ROIList message).empty = true →
    l.mParkingSpotManager.fileSpots = some []

end UpdateRequest

namespace Listener
open UpdateRequest

/-- A request that is handled without an exception. -/
def handle (l : Listener) (r : UpdateRequest) : Option Listener :=
  match update r.io r.message l with
  | .ok _ t => some t
  | .error _ _ => none

theorem handle_eq_some {l u : Listener} {r : UpdateRequest} :
    l.handle r = some u ↔ update r.io r.message l = .ok () u := by
  unfold handle
  cases update r.io r.message l <;> simp

theorem frames_spots_updateParams (io : UpdateIO) (message : PTree) :
    Frames mParkingSpotManager (updateParams io message) :=
  frames_ite (frames_pure _ _) <| frames_bind (frames_zoom (fun _ _ => by rfl) _) fun _ =>
    frames_bind (frames_ofExcept _ _) fun _ => frames_bind (frames_modify fun _ => rfl) fun _ =>
    frames_bind (frames_ofExcept _ _) fun _ => frames_modify fun _ => rfl

/-- A handled request has applied the spot list of its payload to the spots. -/
theorem handle_spec {l u : Listener} {r : UpdateRequest} (h : l.handle r = some u) :
    ∃ message, r.payload = .ok message ∧
      if (ROIList message).empty then
        SpotManager.clear l.mParkingSpotManager = .ok () u.mParkingSpotManager
      else ∃ b, SpotManager.updateParkingSpots r.io.spotsWritable r.io.tables r.io.junk
        (ROIList message) l.mParkingSpotManager = .ok b u.mParkingSpotManager := by
  obtain ⟨n, l₁, hn, h⟩ := bind_eq_ok.mp (handle_eq_some.mp h)
  obtain ⟨hlength, rfl⟩ := ofExcept_apply_ok.mp hn
  obtain ⟨_, l₂, hsuspend, h⟩ := bind_eq_ok.mp h
  cases hsuspend
  obtain ⟨_, l₃, hreceive, hresume⟩ := bind_eq_ok.mp h
  cases hresume
  obtain ⟨buffer, l₄, hbuffer, hreceive⟩ := bind_eq_ok.mp hreceive
  obtain ⟨hread, rfl⟩ := ofExcept_apply_ok.mp hbuffer
  obtain ⟨message, l₅, hmessage, hreceive⟩ := bind_eq_ok.mp hreceive
  obtain ⟨hparse, rfl⟩ := ofExcept_apply_ok.mp hmessage
  obtain ⟨_, l₆, hparams, hspots⟩ := bind_eq_ok.mp hreceive
  have hpayload : r.payload = .ok message := by
    simp only [payload, hlength, hread, hparse, bind, Except.bind]
  have hsame : l₆.mParkingSpotManager = l.mParkingSpotManager := by
    have hframe := frames_spots_updateParams r.io message
      { l with ManagementMode := true, suspensions := l.suspensions + 1 }
    rw [after, hparams] at hframe
    exact hframe
  refine ⟨message, hpayload, ?_⟩
  change updateSpots r.io (ROIList message) l₆ = _ at hspots
  unfold updateSpots at hspots
  rw [← hsame]
  split_ifs at hspots ⊢ with hempty
  · obtain ⟨m, hclear, rfl⟩ := zoom_ok_iff.mp hspots
    exact hclear
  · obtain ⟨b, l₇, honSpots, hpure⟩ := bind_eq_ok.mp hspots
    cases hpure
    obtain ⟨m, hupdate, rfl⟩ := zoom_ok_iff.mp honSpots
    exact ⟨b, hupdate⟩

theorem handle_fits {l u : Listener} {r : UpdateRequest} (hl : l.mParkingSpotManager.Fits)
    (hr : r.InRange) (h : l.handle r = some u) : u.mParkingSpotManager.Fits := by
  obtain ⟨message, -, hspots⟩ := handle_spec h
  split_ifs at hspots
  · rw [SpotManager.clear_spec hl.keyed] at hspots
    obtain ⟨-, hm⟩ := EStateM.Result.ok.inj hspots
    rw [← hm]
    exact ⟨⟨List.nodup_nil, by simp [SpotManager.Owned]⟩, by simp⟩
  · obtain ⟨b, hupdate⟩ := hspots
    exact (SpotManager.updateParkingSpots_fileFollows hl hr.1 hr.2 hupdate).1

/-- A list with entries is written to the file; an empty one leaves the file as it was. -/
theorem handle_fileFollows_iff {l u : Listener} {r : UpdateRequest}
    (hl : l.mParkingSpotManager.Fits) (hr : r.InRange) (h : l.handle r = some u) :
    u.mParkingSpotManager.FileFollows ↔ r.ClearsEmptyFile l := by
  obtain ⟨message, hpayload, hspots⟩ := handle_spec h
  have hcond : r.ClearsEmptyFile l ↔ ((ROIList message).empty = true →
      l.mParkingSpotManager.fileSpots = some []) := by
    simp only [ClearsEmptyFile, hpayload, Except.ok.injEq, forall_eq']
  rw [hcond]
  split_ifs at hspots with hempty
  · rw [SpotManager.clear_spec hl.keyed] at hspots
    obtain ⟨-, hm⟩ := EStateM.Result.ok.inj hspots
    rw [← hm]
    simp only [hempty, forall_const]
    exact Iff.rfl
  · obtain ⟨b, hupdate⟩ := hspots
    refine iff_of_true ?_ (fun h => absurd h hempty)
    exact (SpotManager.updateParkingSpots_fileFollows hl hr.1 hr.2 hupdate).2

/-- Over any sequence of handled requests the file follows the memory exactly when every request
with an empty spot list finds no spots in the file: `clear` writes none. -/
theorem fileFollows_iff {l : Listener} (hl : l.mParkingSpotManager.Fits)
    {rs : List UpdateRequest} (hrs : ∀ r ∈ rs, r.InRange) :
    (∀ t r u, Takes handle l rs t r → handle t r = some u → u.mParkingSpotManager.FileFollows) ↔
      ∀ t r, Takes handle l rs t r → r.ClearsEmptyFile t :=
  takes_iff (J := fun l => l.mParkingSpotManager.Fits)
    (Q := fun l => l.mParkingSpotManager.FileFollows) (G := InRange)
    (fun _ _ _ hj hr hu => handle_fits hj hr hu)
    (fun _ _ _ hj hr hu => handle_fileFollows_iff hj hr hu) hl hrs

/-- A request with the parameters of the shipped settings and a spot list. -/
def listRequest (ROIs : List (String × PTree)) : UpdateRequest where
  message := request
  io :=
    { received := [123, 125], settingsWritable := true, spotsWritable := true
      tables := SpotManager.flatTables, junk := fun _ => ⟨0, 0, 0, false⟩
      read_json := fun _ => some (PTree.mk "" [("sensitivity", .leaf "3"),
        ("enterCount", .leaf "6"), ("exitCount", .leaf "3"), ("ROI", .mk "" ROIs)]) }

theorem listRequest_inRange (ROIs : List (String × PTree)) : (listRequest ROIs).InRange :=
  have hone : InInt 1 ∧ InInt 600 := by decide
  have hzero : InInt 0 := by decide
  ⟨fun _ => hone, fun _ => ⟨hzero, hzero, hzero⟩⟩

theorem shipped_fits : shipped.mParkingSpotManager.Fits :=
  ⟨SpotManager.keyed_empty none, fun _ he => nomatch he⟩

/-- A first list with one spot, and a second with another beside it. -/
theorem fileFollows_two_lists :
    ∃ u, exec handle shipped [listRequest [SpotManager.listNode "1" "A1"],
        listRequest [SpotManager.listNode "7" "A7", SpotManager.listNode "1" "A1"]] = some u ∧
      u.mParkingSpotManager.spots.length = 2 ∧ u.mParkingSpotManager.FileFollows := by
  obtain ⟨u, hu, hlen⟩ : ∃ u ∈ exec handle shipped [listRequest [SpotManager.listNode "1" "A1"],
      listRequest [SpotManager.listNode "7" "A7", SpotManager.listNode "1" "A1"]],
      u.mParkingSpotManager.spots.length = 2 := by decide +kernel
  obtain ⟨t, ht, hlast⟩ := takes_last [listRequest [SpotManager.listNode "1" "A1"]] hu
  have hrs : ∀ r ∈ [listRequest [SpotManager.listNode "1" "A1"],
      listRequest [SpotManager.listNode "7" "A7", SpotManager.listNode "1" "A1"]],
      r.InRange ∧ ∀ v, r.ClearsEmptyFile v := by
    intro r hr
    rcases List.mem_cons.mp hr with rfl | hr
    · refine ⟨listRequest_inRange _, fun v message hp hempty => ?_⟩
      cases hp
      cases hempty
    · obtain rfl := List.mem_singleton.mp hr
      refine ⟨listRequest_inRange _, fun v message hp hempty => ?_⟩
      cases hp
      cases hempty
  refine ⟨u, hu, hlen, (fileFollows_iff shipped_fits fun r hr => (hrs r hr).1).mpr ?_ t _ u ht hlast⟩
  exact fun v r hv => (hrs r (takes_mem hv)).2 v

/-- A list with one spot, then an empty list: the memory is empty, the file keeps the spot. -/
theorem cleared_spot_stays_in_file :
    ∃ t r u, Takes handle shipped [listRequest [SpotManager.listNode "1" "A1"], listRequest []] t r ∧
      handle t r = some u ∧ u.mParkingSpotManager.spots = [] ∧
      ¬ u.mParkingSpotManager.FileFollows := by
  obtain ⟨u, hu, hspots, hfile⟩ : ∃ u ∈ exec handle shipped
      [listRequest [SpotManager.listNode "1" "A1"], listRequest []],
      u.mParkingSpotManager.spots = [] ∧
        u.mParkingSpotManager.fileSpots = some [⟨1, "A1", ⟨0, 0, 10, 20⟩, 1, 600⟩] := by
    decide +kernel
  obtain ⟨t, ht, hlast⟩ := takes_last [listRequest [SpotManager.listNode "1" "A1"]] hu
  refine ⟨t, _, u, ht, hlast, hspots, fun hfollows => ?_⟩
  rw [SpotManager.FileFollows, hspots, hfile] at hfollows
  cases hfollows

end Listener

end VisionSensor
