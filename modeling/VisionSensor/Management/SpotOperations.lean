import VisionSensor.Lib.GuardedRun
import VisionSensor.Management.SpotLoader

/-! Runs of the public operations of `ParkingSpotManager`, in any order and with any arguments, and
the representation invariant of the spot map. -/
namespace VisionSensor
open Unwind GuardedRun

namespace SpotManager

/-- `operator[]` of a manager that may be modified: `std::unordered_map::operator[]` files a null
pointer under an id it does not find. -/
def index (id : ℤ) (m : SpotManager) : SpotManager × Option ParkingSpot :=
  match m.find id with
  | some p => (m, p)
  | none => ({ m with mParkingSpots := m.mParkingSpots ++ [(id, none)] }, none)

/-- `operator[]` of a constant manager. -/
def constIndex (id : ℤ) (m : SpotManager) : Option ParkingSpot := (m.find id).join

/-- A call of a public operation. -/
inductive Call where
  | add (junk : Bool) (id : ℤ) (spotName : String) (timeLimit : ℤ) (roi : Rect)
      (policy : ParkingSpotPolicy)
  | update (id : ℤ) (spotName : String) (timeLimit : ℤ) (roi : Rect) (policy : ParkingSpotPolicy)
  | erase (id : ℤ)
  | clear
  | reset
  | readFromJSONFile (json : Option PTree) (tables : PolicyTables) (junk : ℕ → Junk)
  | updateParkingSpots (writable : Bool) (tables : PolicyTables) (junk : ℕ → Junk) (root : PTree)
  | index (id : ℤ)
  | constIndex (id : ℤ)

namespace Call

def run : Call → EStateM Fault SpotManager Unit
  | add junk id spotName timeLimit roi policy =>
      modify fun m => (m.add junk id spotName timeLimit roi policy).1
  | update id spotName timeLimit roi policy => do
      let _ ← SpotManager.update id spotName timeLimit roi policy
  | erase id => do
      let _ ← SpotManager.erase id
  | clear => SpotManager.clear
  | reset => SpotManager.reset
  | readFromJSONFile json tables junk => do
      let _ ← SpotManager.readFromJSONFile json tables junk
  | updateParkingSpots writable tables junk root => do
      let _ ← SpotManager.updateParkingSpots writable tables junk root
  | index id => modify fun m => (m.index id).1
  | constIndex _ => pure ()

/-- A call that leaves by returning or by an exception; there is no step for undefined
behaviour. -/
def step (m : SpotManager) (call : Call) : Option SpotManager :=
  match call.run m with
  | .error .undefined _ => none
  | .ok _ t => some t
  | .error _ t => some t

theorem step_eq_after {m u : SpotManager} {call : Call} (h : step m call = some u) :
    u = after call.run m := by
  unfold step at h
  unfold after
  split at h
  · cases h
  · rename_i hrun
    rw [hrun]
    exact (Option.some.inj h).symm
  · rename_i hrun
    rw [hrun]
    exact (Option.some.inj h).symm

end Call

theorem keeps_update (id : ℤ) (spotName : String) (timeLimit : ℤ) (roi : Rect)
    (policy : ParkingSpotPolicy) : Keeps Keyed (update id spotName timeLimit roi policy) := by
  intro m hm
  cases hf : m.find id with
  | none =>
    rw [after, update_of_find_none hf]
    exact hm
  | some p =>
    obtain ⟨s, rfl, -⟩ := hm.owned.find hf
    rw [after, update_of_find_some hf]
    exact (hm.setSpot hf
      (EntryLocals.overwrite_mID s { id, timeLimit, spotName, policy, roi })).1

theorem keeps_erase (id : ℤ) : Keeps Keyed (erase id) := by
  apply keeps_get_bind
  intro m
  cases m.find id with
  | none => exact keeps_pure _ _
  | some p =>
    refine keeps_bind (keeps_ofExcept _ _) fun _ => keeps_bind (keeps_modify ?_) fun _ =>
      keeps_pure _ _
    intro m hm
    simpa using (hm.filter fun k => decide (k ≠ id)).1

/-- `reset` follows every pointer of the map. -/
theorem reset_spec {m : SpotManager} (hm : m.Keyed) :
    ∃ m', reset m = .ok () m' ∧ m'.Keyed ∧ m'.spotsFile = m.spotsFile := by
  obtain ⟨spots, hspots, hmap⟩ := mapM_deref_ok hm.owned fun e s => (e.1, some s.reset)
  refine ⟨{ m with mParkingSpots := spots }, ?_, ⟨?_, ?_⟩, rfl⟩
  · change (ofExcept (m.mParkingSpots.mapM fun e =>
      (deref e.2).map fun s => (e.1, some s.reset)) >>= _ : EStateM Fault SpotManager Unit) m = _
    rw [bind_ok _ (ofExcept_apply_ok.mpr ⟨hspots, rfl⟩)]
    rfl
  · have hkeys : spots.map Prod.fst = m.mParkingSpots.map Prod.fst := by
      rw [hmap, List.map_filterMap, ← List.filterMap_eq_map]
      apply List.filterMap_congr
      intro e he
      obtain ⟨s, hs, -⟩ := hm.owned e he
      rw [hs]
      rfl
    rw [hkeys]
    exact hm.distinct
  · intro e' he'
    change e' ∈ spots at he'
    rw [hmap] at he'
    obtain ⟨e, he, hs'⟩ := List.mem_filterMap.mp he'
    obtain ⟨s, hs, hid⟩ := hm.owned e he
    rw [hs] at hs'
    obtain rfl := Option.some.inj hs'
    exact ⟨s.reset, rfl, hid⟩

theorem clear_spec {m : SpotManager} (hm : m.Keyed) :
    clear m = .ok () { m with mParkingSpots := [] } := by
  obtain ⟨m', hreset, -, hfile⟩ := reset_spec hm
  unfold clear
  rw [bind_ok _ hreset, ← hfile]
  rfl

theorem keeps_reset : Keeps Keyed reset := by
  intro m hm
  obtain ⟨m', hreset, hk, -⟩ := reset_spec hm
  rw [after, hreset]
  exact hk

theorem keeps_clear : Keeps Keyed clear := by
  intro m hm
  rw [after, clear_spec hm]
  exact ⟨List.nodup_nil, by simp [Owned]⟩

theorem keeps_loadEntry (tables : PolicyTables) (junk : Junk) (node : PTree) :
    Keeps Keyed (loadEntry tables junk node) := by
  unfold loadEntry
  split
  · rename_i l _
    exact keeps_modify fun m hm => (hm.add junk.isReservation_sensor l).1
  · exact keeps_ite (keeps_pure _ _) (keeps_throw _ _)

theorem keeps_readFromJSONFile (json : Option PTree) (tables : PolicyTables) (junk : ℕ → Junk) :
    Keeps Keyed (readFromJSONFile json tables junk) := by
  cases json with
  | none => exact keeps_pure _ _
  | some root =>
    refine keeps_bind ?_ fun _ => keeps_pure _ _
    exact keeps_forM (fun c : (String × PTree) × ℕ => keeps_loadEntry tables (junk c.2) c.1.2) _

theorem keeps_updateEntry (tables : PolicyTables) (junk : Junk) (updated : List ℤ) (node : PTree) :
    Keeps Keyed (updateEntry tables junk updated node) := by
  intro m hm
  cases hread : readEntry tables junk node with
  | error e =>
    rw [after, updateEntry_error hread]
    exact hm
  | ok l =>
    obtain ⟨m', hrun, hk, -, -⟩ := updateEntry_spec hm hread updated
    rw [after, hrun]
    exact hk

theorem keeps_updateParkingSpots (writable : Bool) (tables : PolicyTables) (junk : ℕ → Junk)
    (root : PTree) : Keeps Keyed (updateParkingSpots writable tables junk root) := by
  refine keeps_bind (keeps_foldlM (fun updated c => keeps_updateEntry _ _ updated _) _ _)
    fun updated => keeps_bind (keeps_modify fun m hm => ?_) fun _ => keeps_get_bind fun m =>
      keeps_bind (keeps_ofExcept _ _) fun tree => keeps_bind ?_ fun _ => keeps_pure _ _
  · exact (hm.filter fun id => updated.contains id).1
  · exact keeps_ite (keeps_modify fun m hm => ⟨hm.distinct, hm.owned⟩) (keeps_throw _ _)

theorem index_found {m : SpotManager} {id : ℤ} (h : (m.find id).isSome) :
    (m.index id).1 = m := by
  unfold index
  cases hf : m.find id with
  | none =>
    rw [hf] at h
    cases h
  | some p => rfl

theorem index_not_found {m : SpotManager} {id : ℤ} (h : m.find id = none) :
    ¬ (m.index id).1.Owned := by
  intro howned
  have hmem : (id, none) ∈ (m.index id).1.mParkingSpots := by
    unfold index
    rw [h]
    exact List.mem_append_right _ List.mem_cons_self
  obtain ⟨s, hs, -⟩ := howned _ hmem
  cases hs

namespace Call

/-- A call of the modifying `operator[]` is given an id of the map. -/
def FindsSpot (m : SpotManager) (call : Call) : Prop :=
  ∀ id, call = .index id → (m.find id).isSome

theorem keyed_step {m u : SpotManager} {call : Call} (hm : m.Keyed) (hc : FindsSpot m call)
    (h : step m call = some u) : u.Keyed := by
  obtain rfl := step_eq_after h
  cases call with
  | add junk id spotName timeLimit roi policy =>
    exact (hm.add junk { id, timeLimit, spotName, policy, roi }).1
  | update id spotName timeLimit roi policy =>
    exact keeps_bind (keeps_update id spotName timeLimit roi policy) (fun _ => keeps_pure _ _) m hm
  | erase id => exact keeps_bind (keeps_erase id) (fun _ => keeps_pure _ _) m hm
  | clear => exact keeps_clear m hm
  | reset => exact keeps_reset m hm
  | readFromJSONFile json tables junk =>
    exact keeps_bind (keeps_readFromJSONFile json tables junk) (fun _ => keeps_pure _ _) m hm
  | updateParkingSpots writable tables junk root =>
    exact keeps_bind (keeps_updateParkingSpots writable tables junk root)
      (fun _ => keeps_pure _ _) m hm
  | index id =>
    change (m.index id).1.Keyed
    rw [index_found (hc id rfl)]
    exact hm
  | constIndex id => exact hm

/-- From the empty map of the constructor on, no pointer is ever null and every spot is filed under
its own id, exactly when the modifying `operator[]` is only called with ids of the map. -/
theorem owned_run_iff (file : Option PTree) (calls : List Call) :
    (∀ m, Visits step { spotsFile := file } calls m → m.Owned) ↔
      ∀ m call, Takes step { spotsFile := file } calls m call → FindsSpot m call := by
  constructor
  · rintro h m _ htakes id rfl
    obtain ⟨u, hu, hvisit⟩ := visits_of_takes htakes
    rw [← Option.ne_none_iff_isSome]
    intro hnone
    have hu : u = (m.index id).1 := step_eq_after hu
    exact index_not_found hnone (hu ▸ h u hvisit)
  · intro h m hvisit
    exact (guarded_invariant (fun _ _ _ hm hc hstep => keyed_step hm hc hstep) (keyed_empty file) h
      hvisit).owned

/-- One spot, with id 1, and the debug key `1`, which stands for index 0: `operator[]` files a null
pointer under 0. -/
theorem index_files_null :
    ∃ m, Visits step {} [.add false 1 "A1" 600 ⟨0, 0, 10, 20⟩ 1, .index 0] m ∧
      (0, none) ∈ m.mParkingSpots ∧ ¬ m.Owned := by
  refine ⟨((SpotManager.add false 1 "A1" 600 ⟨0, 0, 10, 20⟩ 1 {}).1.index 0).1,
    .later rfl (.later rfl (.here _ _)), by decide, index_not_found (by decide)⟩

end Call

end SpotManager
end VisionSensor
