import VisionSensor.Main.Sensor
import VisionSensor.Spot.Alternation

/-! What the server can tell from the messages about the spots, and what management updates do to
it. -/
namespace VisionSensor
open Unwind GuardedRun

/-- The last entry or exit reported for a spot. -/
def lastReport (pushed : List ParkingUpdateMessage) (id : ℤ) : Option ℤ :=
  (SpotState.enterExit ((pushed.filter fun m => m.mSpotID = id).map
    ParkingUpdateMessage.mRequestCode)).getLast?

theorem lastReport_append (pushed data : List ParkingUpdateMessage) (id : ℤ) :
    lastReport (pushed ++ data) id = (lastReport data id).or (lastReport pushed id) := by
  unfold lastReport
  rw [List.filter_append, List.map_append, SpotState.enterExit_append, List.getLast?_append]

namespace Sensor

/-- Every spot the server takes for occupied is in the manager and is occupied. -/
def ServerViewTrue (s : Sensor) : Prop :=
  ∀ id, lastReport s.mServMsgQueue.pushed id = some HttpReqType.HTTP_REQ_UPDATE_ENTER.code →
    ∃ spot, s.mParkingSpotManager.find id = some (some spot) ∧ spot.mOccupied = true

/-- The entry of every occupied spot has been reported. -/
structure Reported (s : Sensor) : Prop where
  keyed : s.mParkingSpotManager.Keyed
  entered : ∀ id spot, s.mParkingSpotManager.find id = some (some spot) → spot.mOccupied = true →
    lastReport s.mServMsgQueue.pushed id = some HttpReqType.HTTP_REQ_UPDATE_ENTER.code

/-- A step that adds and removes no spot and reports every change of a spot. -/
structure Reports (s u : Sensor) : Prop where
  keyed : u.mParkingSpotManager.Keyed
  absent : ∀ id, s.mParkingSpotManager.find id = none → u.mParkingSpotManager.find id = none ∧
    lastReport u.mServMsgQueue.pushed id = lastReport s.mServMsgQueue.pushed id
  present : ∀ id spot, s.mParkingSpotManager.find id = some (some spot) →
    ∃ spot', u.mParkingSpotManager.find id = some (some spot') ∧
      ((spot'.mOccupied = spot.mOccupied ∧
        lastReport u.mServMsgQueue.pushed id = lastReport s.mServMsgQueue.pushed id) ∨
      lastReport u.mServMsgQueue.pushed id = some (SpotState.changeRequest spot'.mOccupied).code)

theorem Reports.reported {s u : Sensor} (h : Reports s u) (hs : s.Reported) : u.Reported where
  keyed := h.keyed
  entered id spot' hu hocc := by
    cases hf : s.mParkingSpotManager.find id with
    | none =>
      rw [(h.absent id hf).1] at hu
      cases hu
    | some p =>
      obtain ⟨spot, rfl, -⟩ := hs.keyed.owned.find hf
      obtain ⟨spot₀, hu₀, hreport⟩ := h.present id spot hf
      rw [hu] at hu₀
      obtain rfl := Option.some.inj (Option.some.inj hu₀)
      rcases hreport with ⟨hsame, hreport⟩ | hreport
      · rw [hreport]
        exact hs.entered id spot hf (hsame.symm.trans hocc)
      · rw [hreport, hocc]
        rfl

theorem Reports.serverViewTrue {s u : Sensor} (h : Reports s u) (hs : s.Reported)
    (hview : s.ServerViewTrue) : u.ServerViewTrue := by
  intro id hlast
  cases hf : s.mParkingSpotManager.find id with
  | none =>
    rw [(h.absent id hf).2] at hlast
    obtain ⟨spot, hspot, -⟩ := hview id hlast
    rw [hf] at hspot
    cases hspot
  | some p =>
    obtain ⟨spot, rfl, -⟩ := hs.keyed.owned.find hf
    obtain ⟨spot', hu, hreport⟩ := h.present id spot hf
    refine ⟨spot', hu, ?_⟩
    rcases hreport with ⟨hsame, hreport⟩ | hreport
    · rw [hreport] at hlast
      obtain ⟨spot₀, hspot₀, hocc⟩ := hview id hlast
      rw [hf] at hspot₀
      obtain rfl := Option.some.inj (Option.some.inj hspot₀)
      exact hsame.trans hocc
    · rw [hreport] at hlast
      cases hocc : spot'.mOccupied with
      | true => rfl
      | false =>
        rw [hocc] at hlast
        cases hlast

variable {io : Storage}

section Pass

variable {env : EntryServices} {frame : Mat} {now : Ptime} {car : List Rect} {statics : Thresholds}
  {list : List ParkingSpot} {states : List (Bool × SpotState)}
  (h : VisionSensor.updateSpots env frame now car (list.map (spotState statics)) = some states)

include h

theorem lastReport_absent {id : ℤ} (hid : id ∉ list.map ParkingSpot.mID) :
    lastReport (passData states) id = none := by
  unfold lastReport
  rw [passData_other h hid]
  rfl

/-- What a pass reports about a spot is the change of its occupancy. -/
theorem lastReport_present (hnodup : (list.map ParkingSpot.mID).Nodup) {spot : ParkingSpot}
    (hspot : spot ∈ list) :
    ∃ b t, (b, t) ∈ states ∧ t.spot.mID = spot.mID ∧
      lastReport (passData states) spot.mID = if spot.mOccupied = t.spot.mOccupied then none
        else some (SpotState.changeRequest t.spot.mOccupied).code := by
  obtain ⟨b, t, ht, hstate, hfilter⟩ := pass_row h hnodup hspot
  refine ⟨b, t, hstate, (spotState_observe ht).1, ?_⟩
  obtain ⟨-, -, hrequests⟩ := SpotState.observe_spec ht
  have hrequests : t.requests = if spot.mOccupied = t.spot.mOccupied then []
      else [(SpotState.changeRequest t.spot.mOccupied).code] := hrequests
  have hreport : lastReport (passData states) spot.mID =
      (SpotState.enterExit t.requests).getLast? := by
    unfold lastReport SpotState.requests
    rw [hfilter]
  rw [hreport, hrequests]
  split_ifs
  · rfl
  · rw [SpotState.enterExit_change]
    rfl

end Pass

theorem updateSpots_reports {env : EntryServices} {frame : Mat} {now : Ptime} {car : List Rect}
    {s u : Sensor} (hk : s.mParkingSpotManager.Keyed)
    (h : s.updateSpots io env frame now car = some u) : Reports s u := by
  obtain ⟨list, hlist, h⟩ := Option.bind_eq_some_iff.mp h
  obtain ⟨states, hstates, rfl⟩ := Option.map_eq_some_iff.mp h
  obtain ⟨hmap, hids⟩ := passMap_filed hstates
  have hfiled := eq_map_filed hk.owned hlist
  have hkeys : s.mParkingSpotManager.mParkingSpots.map Prod.fst = list.map ParkingSpot.mID := by
    rw [hfiled, List.map_map]
    rfl
  have hdistinct : (list.map ParkingSpot.mID).Nodup := hkeys ▸ hk.distinct
  rw [← hfiled] at hmap
  have hkeys' : (passMap s.mParkingSpotManager.mParkingSpots states).map Prod.fst =
      list.map ParkingSpot.mID := by
    rw [hmap, List.map_map]
    exact hids
  have hreport : ∀ id, lastReport (pushAll io (passData states) s.mServMsgQueue).pushed id =
      (lastReport (passData states) id).or (lastReport s.mServMsgQueue.pushed id) := by
    intro id
    rw [pushAll_pushed, lastReport_append]
  refine ⟨⟨hkeys' ▸ hdistinct, fun e he => ?_⟩, fun id hf => ?_, fun id spot hf => ?_⟩
  · change e ∈ passMap s.mParkingSpotManager.mParkingSpots states at he
    rw [hmap] at he
    obtain ⟨r, -, rfl⟩ := List.mem_map.mp he
    exact ⟨r.2.spot, rfl, rfl⟩
  · have hid : id ∉ list.map ParkingSpot.mID := by
      rw [← hkeys, ← KeyedTable.lookup_isSome_iff]
      exact Option.not_isSome_iff_eq_none.mpr hf
    have hnone := lastReport_absent hstates hid
    rw [← hkeys', ← KeyedTable.lookup_isSome_iff] at hid
    refine ⟨Option.not_isSome_iff_eq_none.mp hid, (hreport id).trans ?_⟩
    rw [hnone, Option.none_or]
  · have hmem := KeyedTable.mem_of_lookup hf
    rw [hfiled] at hmem
    obtain ⟨spot₀, hspot, heq⟩ := List.mem_map.mp hmem
    obtain ⟨rfl, hsome⟩ := Prod.mk.inj heq
    obtain rfl := Option.some.inj hsome
    obtain ⟨b, t, hstate, hid, hlast⟩ := lastReport_present hstates hdistinct hspot
    have hlookup : (passMap s.mParkingSpotManager.mParkingSpots states).lookup spot₀.mID =
        some (some t.spot) := by
      apply KeyedTable.lookup_of_mem (hkeys' ▸ hdistinct)
      rw [hmap, ← hid]
      exact List.mem_map_of_mem (f := fun r : Bool × SpotState => filed r.2.spot) hstate
    have hreport := hreport spot₀.mID
    rw [hlast] at hreport
    refine ⟨t.spot, hlookup, ?_⟩
    by_cases hsame : spot₀.mOccupied = t.spot.mOccupied
    · rw [if_pos hsame, Option.none_or] at hreport
      exact .inl ⟨hsame.symm, hreport⟩
    · rw [if_neg hsame, Option.some_or] at hreport
      exact .inr hreport

/-- Steps that change no occupancy and report nothing. -/
theorem Reports.quiet {s u : Sensor} (hk : u.mParkingSpotManager.Keyed)
    (habsent : ∀ id, s.mParkingSpotManager.find id = none → u.mParkingSpotManager.find id = none)
    (hpresent : ∀ id spot, s.mParkingSpotManager.find id = some (some spot) →
      ∃ spot', u.mParkingSpotManager.find id = some (some spot') ∧
        spot'.mOccupied = spot.mOccupied)
    (hreport : ∀ id, lastReport u.mServMsgQueue.pushed id = lastReport s.mServMsgQueue.pushed id) :
    Reports s u where
  keyed := hk
  absent id hf := ⟨habsent id hf, hreport id⟩
  present id spot hf := by
    obtain ⟨spot', hu, hocc⟩ := hpresent id spot hf
    exact ⟨spot', hu, .inl ⟨hocc, hreport id⟩⟩

theorem lastReport_over {data : List ParkingUpdateMessage}
    (h : ∀ m ∈ data, m.mRequestCode = HttpReqType.HTTP_REQ_UPDATE_OVER.code) (id : ℤ) :
    lastReport data id = none := by
  unfold lastReport
  rw [List.getLast?_eq_none_iff]
  unfold SpotState.enterExit
  rw [List.filter_eq_nil_iff]
  intro r hr
  obtain ⟨m, hm, rfl⟩ := List.mem_map.mp hr
  rw [h m (List.mem_filter.mp hm).1]
  decide

theorem notifyExpiration_reports {id : ℤ} {mFrameIndexer : FrameIndexer} {s u : Sensor}
    (hk : s.mParkingSpotManager.Keyed) (h : s.notifyExpiration io id mFrameIndexer = some u) :
    Reports s u := by
  obtain ⟨spot, hspot, rfl⟩ := Option.map_eq_some_iff.mp h
  have hfind : s.mParkingSpotManager.find id = some (some spot) := Option.join_eq_some_iff.mp hspot
  obtain ⟨hid, hocc, hdata⟩ :=
    ParkingSpot.notifyExpiration_spec (fun time => (mFrameIndexer.readAt Mat.none time).2) spot
  have hset := SpotManager.find_setSpot s.mParkingSpotManager id
    (spot.notifyExpiration fun time => (mFrameIndexer.readAt Mat.none time).2).1
  refine Reports.quiet (hk.setSpot hfind hid).1 (fun k hf => ?_) (fun k s₀ hf => ?_) fun k => ?_
  · by_cases hki : k = id
    · subst hki
      rw [hfind] at hf
      cases hf
    · exact ((hset k).trans (if_neg hki)).trans hf
  · by_cases hki : k = id
    · subst hki
      rw [hfind] at hf
      obtain rfl := Option.some.inj (Option.some.inj hf)
      exact ⟨_, by rw [hset, if_pos rfl, hfind]; rfl, hocc⟩
    · exact ⟨s₀, ((hset k).trans (if_neg hki)).trans hf, rfl⟩
  · rw [pushAll_pushed, lastReport_append]
    have hnone := lastReport_over (fun m hm => (hdata m hm).1) k
    rw [hnone, Option.none_or]

theorem onQueue_reports {call : MessageQueue.Action} {s u : Sensor}
    (hk : s.mParkingSpotManager.Keyed) (hcall : ∀ data, call ≠ .push data)
    (h : s.onQueue io call = some u) : Reports s u := by
  obtain ⟨q, hq, rfl⟩ := Option.map_eq_some_iff.mp h
  have hserves := MessageQueue.serves_step hcall hq
  refine Reports.quiet hk (fun _ hf => hf) (fun _ spot hf => ⟨spot, hf, rfl⟩) fun id => ?_
  rw [hserves.pushed]

/-- Every step but a management update only reports. -/
theorem step_reports {s u : Sensor} {a : SensorAction} (hk : s.mParkingSpotManager.Keyed)
    (ha : ∀ writable tables junk ROIList, a ≠ .update writable tables junk ROIList)
    (h : step io s a = some u) : Reports s u := by
  cases a with
  | frame env frame now car =>
    simp only [step] at h
    split_ifs at h
    exact updateSpots_reports hk h
  | setThresholds statics =>
    obtain rfl := Option.some.inj h
    exact Reports.quiet hk (fun _ hf => hf) (fun _ spot hf => ⟨spot, hf, rfl⟩) fun _ => rfl
  | update writable tables junk ROIList => exact absurd rfl (ha writable tables junk ROIList)
  | notifyExpiration id mFrameIndexer => exact notifyExpiration_reports hk h
  | try_pop listing => exact onQueue_reports hk (by simp) h
  | wait_and_pop listing => exact onQueue_reports hk (by simp) h
  | wake => exact onQueue_reports hk (by simp) h

/-- Every occupied spot has an entry in the list. -/
def KeepsOccupied (s : Sensor) (ROIList : PTree) : Prop :=
  ∀ id spot, s.mParkingSpotManager.find id = some (some spot) → spot.mOccupied = true →
    ∃ e ∈ entries ROIList, e.id = id

/-- A well formed list, also an empty one, is put into force. -/
theorem applyList_spec {m : SpotManager} (hm : m.Keyed) {ROIList : PTree}
    (hlist : WellFormed ROIList) (writable : Bool) (tables : PolicyTables) (junk : ℕ → Junk) :
    ∃ m' : SpotManager, m'.Keyed ∧ SpotManager.UpdatedBy tables ROIList m m' ∧
      (applyList writable tables junk ROIList m = .ok () m' ∨
        applyList writable tables junk ROIList m = .error .json_parser_error m') := by
  unfold applyList
  split_ifs with hempty
  · have hnil : ROIList.children = [] := List.isEmpty_iff.mp hempty
    refine ⟨{ m with mParkingSpots := [] }, ⟨List.nodup_nil, by simp [SpotManager.Owned]⟩,
      fun id => ?_, .inl (SpotManager.clear_spec hm)⟩
    have hnone : lastEntry ROIList id = none := by
      unfold lastEntry entries
      rw [hnil]
      rfl
    rw [hnone]
    rfl
  · obtain ⟨m', hk, ht, hrun⟩ :=
      SpotManager.updateParkingSpots_wellFormed hm hlist tables junk writable
    cases writable with
    | true => exact ⟨m', hk, ht, .inl (bind_ok _ hrun)⟩
    | false => exact ⟨m', hk, ht, .inr (bind_error _ hrun)⟩

/-- The state after a management update, whichever way it leaves. -/
theorem update_step {s u : Sensor} {writable : Bool} {tables : PolicyTables} {junk : ℕ → Junk}
    {ROIList : PTree} (hk : s.mParkingSpotManager.Keyed) (hlist : WellFormed ROIList)
    (h : step io s (.update writable tables junk ROIList) = some u) :
    u.mParkingSpotManager.Keyed ∧ u.mServMsgQueue = s.mServMsgQueue ∧
      SpotManager.UpdatedBy tables ROIList s.mParkingSpotManager u.mParkingSpotManager := by
  obtain ⟨m', hk', ht, hrun⟩ := applyList_spec hk hlist writable tables junk
  unfold step at h
  simp only at h
  rcases hrun with hrun | hrun
  · rw [hrun] at h
    obtain rfl := Option.some.inj h
    exact ⟨hk', rfl, ht⟩
  · rw [hrun] at h
    obtain rfl := Option.some.inj h
    exact ⟨hk', rfl, ht⟩

/-- The occupancy of a spot that a management update leaves in the map: a new spot is empty, a
retained one stays as it was. -/
theorem update_occupied {m m' : SpotManager} {tables : PolicyTables} {ROIList : PTree}
    (hm : m.Keyed) (ht : SpotManager.UpdatedBy tables ROIList m m') {id : ℤ} {spot' : ParkingSpot}
    (hu : m'.find id = some (some spot')) :
    (∃ e ∈ entries ROIList, e.id = id) ∧
      (spot'.mOccupied = true ↔
        ∃ spot, m.find id = some (some spot) ∧ spot.mOccupied = true) := by
  have hrow := SpotManager.table_of_find hu
  have hlisted : (lastEntry ROIList id).isSome := by
    rw [← ht.isSome, hrow]
    rfl
  refine ⟨SpotManager.lastEntry_isSome_iff.mp hlisted, ?_⟩
  cases hf : m.find id with
  | none =>
    rw [ht id, SpotManager.table_of_find_none hf] at hrow
    obtain ⟨e, -, hnew⟩ := Option.bind_eq_some_iff.mp hrow
    have hstate := (ParkingSpot.of_known_eq (Option.some.inj hnew).symm).2
    have hempty : spot'.mOccupied = false := congrArg Prod.fst hstate
    simp [hempty]
  | some p =>
    obtain ⟨spot, rfl, -⟩ := hm.owned.find hf
    obtain ⟨e, -, he⟩ := SpotManager.retained_row ht (SpotManager.table_of_find hf) hrow
    have hstate := (ParkingSpot.of_known_eq he).2.trans (EntryLocals.overwrite_parkingState _ _)
    have hocc : spot'.mOccupied = spot.mOccupied := congrArg Prod.fst hstate
    simp [hocc]

section Update

variable {s u : Sensor} {writable : Bool} {tables : PolicyTables} {junk : ℕ → Junk}
  {ROIList : PTree}

theorem update_reported (hs : s.Reported) (hlist : WellFormed ROIList)
    (h : step io s (.update writable tables junk ROIList) = some u) : u.Reported := by
  obtain ⟨hk, hqueue, ht⟩ := update_step hs.keyed hlist h
  refine ⟨hk, fun id spot' hu hocc => ?_⟩
  obtain ⟨spot, hspot, hocc⟩ := (update_occupied hs.keyed ht hu).2.mp hocc
  rw [hqueue]
  exact hs.entered id spot hspot hocc

/-- Whom an update drops the server goes on taking for parked. -/
theorem update_keepsOccupied (hs : s.Reported) (hlist : WellFormed ROIList)
    (h : step io s (.update writable tables junk ROIList) = some u) (hu : u.ServerViewTrue) :
    s.KeepsOccupied ROIList := by
  intro id spot hspot hocc
  obtain ⟨-, hqueue, ht⟩ := update_step hs.keyed hlist h
  have hlast := hs.entered id spot hspot hocc
  rw [← hqueue] at hlast
  obtain ⟨spot', hspot', -⟩ := hu id hlast
  exact (update_occupied hs.keyed ht hspot').1

theorem update_serverViewTrue (hs : s.Reported) (hview : s.ServerViewTrue)
    (hlist : WellFormed ROIList) (hkeeps : s.KeepsOccupied ROIList)
    (h : step io s (.update writable tables junk ROIList) = some u) : u.ServerViewTrue := by
  intro id hlast
  obtain ⟨hk, hqueue, ht⟩ := update_step hs.keyed hlist h
  rw [hqueue] at hlast
  obtain ⟨spot, hspot, hocc⟩ := hview id hlast
  have hlisted := SpotManager.lastEntry_isSome_iff.mpr (hkeeps id spot hspot hocc)
  have hrow : (u.mParkingSpotManager.find id).isSome := by
    rw [hk.owned.find_isSome, ht.isSome]
    exact hlisted
  obtain ⟨p, hp⟩ := Option.isSome_iff_exists.mp hrow
  obtain ⟨spot', rfl, -⟩ := hk.owned.find hp
  exact ⟨spot', hp, (update_occupied hs.keyed ht hp).2.mpr ⟨spot, hspot, hocc⟩⟩

end Update

/-- A sensor as it starts: no spot is occupied and nothing has been reported. -/
structure AtStart (s : Sensor) : Prop where
  keyed : s.mParkingSpotManager.Keyed
  vacant : ∀ e ∈ s.mParkingSpotManager.mParkingSpots, ∀ spot ∈ e.2, spot.mOccupied = false
  silent : s.mServMsgQueue.pushed = []

theorem AtStart.reported {s : Sensor} (hs : s.AtStart) : s.Reported where
  keyed := hs.keyed
  entered id spot hspot hocc := by
    have hvacant := hs.vacant _ (KeyedTable.mem_of_lookup hspot) spot rfl
    rw [hvacant] at hocc
    cases hocc

theorem AtStart.serverViewTrue {s : Sensor} (hs : s.AtStart) : s.ServerViewTrue := by
  intro id hlast
  rw [hs.silent] at hlast
  cases hlast

end Sensor

/-- A management update brings a well formed list, perhaps an empty one. -/
def SensorAction.ListWellFormed : SensorAction → Prop
  | .update _ _ _ ROIList => WellFormed ROIList
  | _ => True

/-- A management update lists every spot that is occupied. -/
def SensorAction.DropsVacant (s : Sensor) : SensorAction → Prop
  | .update _ _ _ ROIList => s.KeepsOccupied ROIList
  | _ => True

namespace Sensor

variable {io : Storage}

theorem step_reported {s u : Sensor} {a : SensorAction} (hs : s.Reported) (ha : a.ListWellFormed)
    (h : step io s a = some u) : u.Reported := by
  cases a with
  | update writable tables junk ROIList => exact update_reported hs ha h
  | _ => exact (step_reports hs.keyed (by simp) h).reported hs

theorem step_serverViewTrue {s u : Sensor} {a : SensorAction} (hs : s.Reported)
    (hview : s.ServerViewTrue) (ha : a.ListWellFormed) (hdrop : a.DropsVacant s)
    (h : step io s a = some u) : u.ServerViewTrue := by
  cases a with
  | update writable tables junk ROIList =>
    exact update_serverViewTrue hs hview ha hdrop h
  | _ => exact (step_reports hs.keyed (by simp) h).serverViewTrue hs hview

/-- After every management update of a run the server's view is true exactly when every update
lists the spots that are occupied at that point. An occupied spot that is not listed is dropped
without an exit. -/
theorem serverView_iff {s : Sensor} (hs : s.AtStart) {as : List SensorAction}
    (has : ∀ a ∈ as, a.ListWellFormed) :
    (∀ t u writable tables junk ROIList,
      Takes (step io) s as t (.update writable tables junk ROIList) →
      step io t (.update writable tables junk ROIList) = some u → u.ServerViewTrue) ↔
    ∀ t a, Takes (step io) s as t a → a.DropsVacant t := by
  constructor
  · intro h t a ht
    cases a with
    | update writable tables junk ROIList =>
      have hreported : t.Reported :=
        invariant_of_actions (fun _ _ _ => step_reported) hs.reported has (visits_before ht)
      obtain ⟨u, hu, -⟩ := visits_of_takes ht
      exact update_keepsOccupied hreported (has _ (takes_mem ht)) hu
        (h t u writable tables junk ROIList ht hu)
    | _ => trivial
  · intro h t u writable tables junk ROIList ht hu
    obtain ⟨u', hu', hvisit⟩ := visits_of_takes ht
    obtain rfl : u' = u := Option.some.inj (hu'.symm.trans hu)
    refine (guarded_invariant (I := fun v => v.Reported ∧ v.ServerViewTrue)
      (C := fun v a => a.ListWellFormed ∧ a.DropsVacant v) ?_
      ⟨hs.reported, hs.serverViewTrue⟩ (fun v a hv => ⟨has a (takes_mem hv), h v a hv⟩) hvisit).2
    rintro v a w ⟨hreported, hview⟩ ⟨ha, hdrop⟩ hw
    exact ⟨step_reported hreported ha hw, step_serverViewTrue hreported hview ha hdrop hw⟩

theorem oneSpot_atStart : oneSpot.AtStart := by
  refine ⟨⟨by decide, fun e he => ?_⟩, fun e he spot hspot => ?_, rfl⟩
  · obtain rfl := List.mem_singleton.mp he
    exact ⟨_, rfl, rfl⟩
  · obtain rfl := List.mem_singleton.mp he
    obtain rfl := Option.some.inj hspot
    rfl

/-- Two frames with a vehicle on the spot, then a management update. -/
def parkThenUpdate (ROIList : PTree) : List SensorAction :=
  [parkedFrame, parkedFrame, .update true SpotManager.flatTables (fun _ => ⟨0, 0, 0, false⟩) ROIList]

theorem parkThenUpdate_wellFormed {ROIList : PTree} (h : WellFormed ROIList) :
    ∀ a ∈ parkThenUpdate ROIList, a.ListWellFormed := by
  intro a ha
  simp only [parkThenUpdate, List.mem_cons, List.not_mem_nil, or_false] at ha
  rcases ha with rfl | rfl | rfl
  · trivial
  · trivial
  · exact h

/-- A list that has the occupied spot under a new name, and a new spot. -/
theorem serverView_renamed :
    ∃ u, exec (step MessageQueue.epochDisk) oneSpot (parkThenUpdate
        (PTree.mk "" [SpotManager.listNode "7" "B7", SpotManager.listNode "1" "B1"])) = some u ∧
      lastReport u.mServMsgQueue.pushed 1 = some HttpReqType.HTTP_REQ_UPDATE_ENTER.code ∧
      u.ServerViewTrue := by
  obtain ⟨u, hu, hlast⟩ : ∃ u ∈ exec (step MessageQueue.epochDisk) oneSpot (parkThenUpdate
        (PTree.mk "" [SpotManager.listNode "7" "B7", SpotManager.listNode "1" "B1"])),
      lastReport u.mServMsgQueue.pushed 1 = some HttpReqType.HTTP_REQ_UPDATE_ENTER.code := by
    decide +kernel
  obtain ⟨t, ht, hlastStep⟩ := takes_last [parkedFrame, parkedFrame] hu
  refine ⟨u, hu, hlast, (serverView_iff oneSpot_atStart
    (parkThenUpdate_wellFormed (by unfold WellFormed; decide))).mpr ?_ t u _ _ _ _ ht hlastStep⟩
  intro v a hv
  have hids : v.mParkingSpotManager.mParkingSpots.map Prod.fst = [1] :=
    takes_of_checkTakes (C := fun v _ => v.mParkingSpotManager.mParkingSpots.map Prod.fst = [1])
      (by decide +kernel) hv
  have ha := takes_mem hv
  simp only [parkThenUpdate, List.mem_cons, List.not_mem_nil, or_false] at ha
  rcases ha with rfl | rfl | rfl
  · trivial
  · trivial
  · intro id spot hspot _
    have hid := List.mem_map_of_mem (f := Prod.fst) (KeyedTable.mem_of_lookup hspot)
    rw [hids] at hid
    obtain rfl : id = 1 := List.mem_singleton.mp hid
    decide +kernel

/-- The vehicle is parked when an update with an empty list clears the map: the server has its
entry and will never have its exit. -/
theorem cleared_spot_stays_parked :
    oneSpot.AtStart ∧ (∀ a ∈ parkThenUpdate PTree.nil, a.ListWellFormed) ∧
      ∃ t u writable tables junk ROIList,
        Takes (step MessageQueue.epochDisk) oneSpot (parkThenUpdate PTree.nil) t
          (.update writable tables junk ROIList) ∧
        step MessageQueue.epochDisk t (.update writable tables junk ROIList) = some u ∧
        ¬ u.ServerViewTrue := by
  refine ⟨oneSpot_atStart, parkThenUpdate_wellFormed (fun c hc => nomatch hc), ?_⟩
  obtain ⟨u, hu, hlast, hnone⟩ : ∃ u ∈ exec (step MessageQueue.epochDisk) oneSpot
      (parkThenUpdate PTree.nil),
      lastReport u.mServMsgQueue.pushed 1 = some HttpReqType.HTTP_REQ_UPDATE_ENTER.code ∧
        u.mParkingSpotManager.find 1 = none := by
    decide +kernel
  obtain ⟨t, ht, hlastStep⟩ := takes_last [parkedFrame, parkedFrame] hu
  refine ⟨t, u, _, _, _, _, ht, hlastStep, fun hview => ?_⟩
  obtain ⟨spot, hspot, -⟩ := hview 1 hlast
  rw [hnone] at hspot
  cases hspot

end Sensor
end VisionSensor
