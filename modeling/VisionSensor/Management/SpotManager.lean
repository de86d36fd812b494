import VisionSensor.Lib.Unwind
import VisionSensor.Management.PropertyTree
import VisionSensor.Spot.ParkingSpot

/-! `ParkingSpotManager`: the map of parking spots, and the parking spots file it is written to.
The pointers of the map may be null; following one is undefined behaviour, and so is an index
outside the policy tables. -/
namespace VisionSensor
open Unwind

/-- `std::unordered_map<int, std::shared_ptr<ParkingSpot>>`, in the order the map enumerates its
entries. A key occurs once. -/
abbrev SpotMap := List (ℤ × Option ParkingSpot)

/-- The policy tables `pullDB` fills, two arrays of 1000. -/
structure PolicyTables where
  po_id : Fin 1000 → ℤ
  tlimit : Fin 1000 → ℤ

/-- Reading an array of 1000 at an index. -/
def PolicyTables.at (table : Fin 1000 → ℤ) (id : ℤ) : Except Fault ℤ :=
  if h : 0 ≤ id ∧ id < 1000 then .ok (table ⟨id.toNat, by omega⟩) else .error .undefined

/-- The manager, with the tree its file holds. -/
structure SpotManager where
  mParkingSpots : SpotMap := []
  spotsFile : Option PTree := none

/-- What an uninitialised local or member holds. -/
structure Junk where
  id : ℤ
  timeLimit : ℤ
  policy : ℤ
  isReservation_sensor : Bool

/-- The locals of one iteration of `updateParkingSpots`. -/
structure EntryLocals where
  id : ℤ
  timeLimit : ℤ
  spotName : String := ""
  policy : ParkingSpotPolicy
  roi : Rect := Rect.zero
  deriving DecidableEq, Repr

/-- The assignments of the `try` block. -/
def parseEntry (tables : PolicyTables) (node : PTree) : EStateM Fault EntryLocals Unit := do
  let id ← ofExcept (node.getInt "parkingSpotId")
  modify fun l => { l with id }
  let spotName ← ofExcept (node.getString "parkingSpotName")
  modify fun l => { l with spotName }
  let x ← ofExcept (node.getInt "roiCoordX")
  modify fun l => { l with roi := { l.roi with x } }
  let y ← ofExcept (node.getInt "roiCoordY")
  modify fun l => { l with roi := { l.roi with y } }
  let width ← ofExcept (node.getInt "roiWidth")
  modify fun l => { l with roi := { l.roi with width } }
  let height ← ofExcept (node.getInt "roiHeight")
  modify fun l => { l with roi := { l.roi with height } }
  let policy ← ofExcept (PolicyTables.at tables.po_id id)
  modify fun l => { l with policy }
  let timeLimit ← ofExcept (PolicyTables.at tables.tlimit id)
  modify fun l => { l with timeLimit }

/-- The locals after the `try` block. A `ptree_error` is caught, and the locals keep what had
been assigned. -/
def readEntry (tables : PolicyTables) (junk : Junk) (node : PTree) : Except Fault EntryLocals :=
  match parseEntry tables node { id := junk.id, timeLimit := junk.timeLimit, policy := junk.policy }
    with
  | .ok _ l => .ok l
  | .error e l => if e.isPtreeError then .ok l else .error e

theorem parseEntry_throws (tables : PolicyTables) (node : PTree) :
    ThrowsOnly (fun e => e.isPtreeError = true ∨ e = .undefined) (parseEntry tables node) := by
  have hint : ∀ key e, node.getInt key = .error e → e.isPtreeError = true ∨ e = .undefined :=
    fun key e h => .inl (PTree.getInt_error h)
  have hstr : ∀ key e, node.getString key = .error e → e.isPtreeError = true ∨ e = .undefined :=
    fun key e h => .inl (PTree.getString_error h)
  have hat : ∀ table id e, PolicyTables.at table id = .error e →
      e.isPtreeError = true ∨ e = .undefined := by
    intro table id e h
    unfold PolicyTables.at at h
    split_ifs at h
    exact .inr (Except.error.inj h).symm
  unfold parseEntry
  repeat' first
    | exact throwsOnly_modify _ _
    | exact throwsOnly_ofExcept (hint _)
    | exact throwsOnly_ofExcept (hstr _)
    | exact throwsOnly_ofExcept (hat _ _)
    | (refine throwsOnly_bind ?_ fun _ => ?_)

/-- What the `catch` lets through is undefined behaviour. -/
theorem readEntry_error {tables : PolicyTables} {junk : Junk} {node : PTree} {e : Fault}
    (h : readEntry tables junk node = .error e) : e = .undefined := by
  unfold readEntry at h
  split at h
  · cases h
  · rename_i e' l hp
    split_ifs at h with he
    obtain rfl := Except.error.inj h
    exact (parseEntry_throws tables node _ _ _ hp).resolve_left he

namespace SpotManager

def find (m : SpotManager) (id : ℤ) : Option (Option ParkingSpot) := m.mParkingSpots.lookup id

/-- `add`; an id that is taken changes nothing. -/
def add (isReservation_sensor : Bool) (id : ℤ) (spotName : String) (timeLimit : ℤ) (roi : Rect)
    (policy : ParkingSpotPolicy) (m : SpotManager) : SpotManager × Bool :=
  if (m.find id).isSome then (m, false)
  else
    ({ m with mParkingSpots := m.mParkingSpots ++
        [(id, some (ParkingSpot.new isReservation_sensor id spotName timeLimit roi policy))] },
      true)

/-- Following the pointer of a map entry. -/
def deref : Option ParkingSpot → Except Fault ParkingSpot
  | none => .error .undefined
  | some s => .ok s

def setSpot (id : ℤ) (s : ParkingSpot) (spots : SpotMap) : SpotMap :=
  spots.map fun e => if e.1 = id then (e.1, some s) else e

/-- `update`; an id that is not in the map changes nothing. -/
def update (id : ℤ) (spotName : String) (timeLimit : ℤ) (roi : Rect) (policy : ParkingSpotPolicy) :
    EStateM Fault SpotManager Bool := do
  match (← get).find id with
  | none => return false
  | some spot =>
      let s ← ofExcept (deref spot)
      let (s, updated) := s.updateAttributes spotName timeLimit roi policy
      modify fun m => { m with mParkingSpots := setSpot id s m.mParkingSpots }
      return updated

/-- `erase`; the spot is reset first. -/
def erase (id : ℤ) : EStateM Fault SpotManager Bool := do
  match (← get).find id with
  | none => return false
  | some spot =>
      let _ ← ofExcept (deref spot)
      modify fun m => { m with mParkingSpots := m.mParkingSpots.filter fun e => e.1 ≠ id }
      return true

def reset : EStateM Fault SpotManager Unit := do
  let spots ← ofExcept ((← get).mParkingSpots.mapM fun e =>
    (deref e.2).map fun s => (e.1, some s.reset))
  modify fun m => { m with mParkingSpots := spots }

def clear : EStateM Fault SpotManager Unit := do
  reset
  modify fun m => { m with mParkingSpots := [] }

/-- The child `toPTree` adds for a spot. -/
def spotTree (spot : ParkingSpot) : String × PTree :=
  ("", PTree.mk "" [("parkingSpotId", .leaf (PTree.intData spot.mID)),
    ("parkingSpotName", .leaf spot.mSpotName),
    ("roiCoordX", .leaf (PTree.intData spot.mROI.x)),
    ("roiCoordY", .leaf (PTree.intData spot.mROI.y)),
    ("roiWidth", .leaf (PTree.intData spot.mROI.width)),
    ("roiHeight", .leaf (PTree.intData spot.mROI.height)),
    ("policyId", .leaf (PTree.intData spot.mParkingPolicy)),
    ("timeLimit", .leaf (PTree.intData spot.mTimeLimit))])

def toPTree (m : SpotManager) : Except Fault PTree :=
  (m.mParkingSpots.mapM fun e => (deref e.2).map spotTree).map (PTree.mk "")

/-- `write_json(filename, tree)`; `writable` says whether the file opens. -/
def write_json (writable : Bool) (tree : PTree) : EStateM Fault SpotManager Unit :=
  if writable then modify fun m => { m with spotsFile := some tree }
  else throw .json_parser_error

/-- One iteration of the loop of `updateParkingSpots`; `updated` holds the ids of the iterations
before. -/
def updateEntry (tables : PolicyTables) (junk : Junk) (updated : List ℤ) (node : PTree) :
    EStateM Fault SpotManager (List ℤ) := do
  let l ← ofExcept (readEntry tables junk node)
  match (← get).find l.id with
  | none => modify fun m => (m.add junk.isReservation_sensor l.id l.spotName l.timeLimit l.roi l.policy).1
  | some _ =>
      let _ ← update l.id l.spotName l.timeLimit l.roi l.policy
  return l.id :: updated

/-- `updateParkingSpots`; `junk i` is what the uninitialised locals of iteration `i` hold. -/
def updateParkingSpots (writable : Bool) (tables : PolicyTables) (junk : ℕ → Junk) (root : PTree) :
    EStateM Fault SpotManager Bool := do
  let updated ← root.children.zipIdx.foldlM
    (fun updated c => updateEntry tables (junk c.2) updated c.1.2) []
  modify fun m => { m with mParkingSpots := m.mParkingSpots.filter fun e => updated.contains e.1 }
  write_json writable (← ofExcept (← get).toPTree)
  return true

section Entry

variable {m : SpotManager} {id : ℤ} {spotName : String} {timeLimit : ℤ} {roi : Rect}
  {policy : ParkingSpotPolicy} {tables : PolicyTables} {junk : Junk} {updated : List ℤ}
  {node : PTree} {l : EntryLocals} {s : ParkingSpot}

theorem update_of_find_none (h : m.find id = none) :
    update id spotName timeLimit roi policy m = .ok false m := by
  unfold update
  rw [get_bind, h]
  rfl

theorem update_of_find_some (h : m.find id = some (some s)) :
    update id spotName timeLimit roi policy m =
      .ok (s.updateAttributes spotName timeLimit roi policy).2
        { m with mParkingSpots :=
            setSpot id (s.updateAttributes spotName timeLimit roi policy).1 m.mParkingSpots } := by
  unfold update
  rw [get_bind, h]
  rfl

theorem updateEntry_error {e : Fault} (h : readEntry tables junk node = .error e) :
    updateEntry tables junk updated node m = .error e m := by
  unfold updateEntry
  rw [h]
  rfl

theorem updateEntry_add (h : readEntry tables junk node = .ok l) (hf : m.find l.id = none) :
    updateEntry tables junk updated node m = .ok (l.id :: updated)
      (m.add junk.isReservation_sensor l.id l.spotName l.timeLimit l.roi l.policy).1 := by
  unfold updateEntry
  rw [bind_ok _ (ofExcept_apply_ok.mpr ⟨h, rfl⟩), get_bind, hf]
  rfl

theorem updateEntry_update (h : readEntry tables junk node = .ok l)
    (hf : m.find l.id = some (some s)) :
    updateEntry tables junk updated node m = .ok (l.id :: updated)
      { m with
        mParkingSpots := setSpot l.id
          (s.updateAttributes l.spotName l.timeLimit l.roi l.policy).1 m.mParkingSpots } := by
  unfold updateEntry
  rw [bind_ok _ (ofExcept_apply_ok.mpr ⟨h, rfl⟩), get_bind, hf]
  exact bind_ok _ (update_of_find_some hf)

end Entry

theorem deref_error {p : Option ParkingSpot} {e : Fault} (h : deref p = .error e) :
    e = .undefined := by
  cases p with
  | none => exact (Except.error.inj h).symm
  | some s => cases h

theorem mapM_deref_error {α : Type} {f : ℤ × Option ParkingSpot → ParkingSpot → α}
    {spots : SpotMap} {e : Fault}
    (h : (spots.mapM fun p => (deref p.2).map (f p)) = .error e) : e = .undefined := by
  obtain ⟨p, -, hp⟩ := mapM_error h
  exact deref_error (map_eq_error.mp hp)

theorem toPTree_error {m : SpotManager} {e : Fault} (h : m.toPTree = .error e) :
    e = .undefined := mapM_deref_error (f := fun _ => spotTree) (map_eq_error.mp h)

theorem reset_throws : ThrowsOnly (· = .undefined) reset :=
  throwsOnly_get_bind fun _ => throwsOnly_bind
    (throwsOnly_ofExcept fun _ => mapM_deref_error) fun _ => throwsOnly_modify _ _

theorem clear_throws : ThrowsOnly (· = .undefined) clear :=
  throwsOnly_bind reset_throws fun _ => throwsOnly_modify _ _

theorem update_throws (id : ℤ) (spotName : String) (timeLimit : ℤ) (roi : Rect)
    (policy : ParkingSpotPolicy) :
    ThrowsOnly (· = .undefined) (update id spotName timeLimit roi policy) := by
  apply throwsOnly_get_bind
  intro m
  cases m.find id with
  | none => exact throwsOnly_pure _ _
  | some spot =>
    exact throwsOnly_bind (throwsOnly_ofExcept fun _ => deref_error) fun s =>
      throwsOnly_bind (throwsOnly_modify _ _) fun _ => throwsOnly_pure _ _

theorem updateEntry_throws (tables : PolicyTables) (junk : Junk) (updated : List ℤ) (node : PTree) :
    ThrowsOnly (· = .undefined) (updateEntry tables junk updated node) := by
  refine throwsOnly_bind (throwsOnly_ofExcept fun _ => readEntry_error) fun l =>
    throwsOnly_get_bind fun m => ?_
  cases m.find l.id with
  | none => exact throwsOnly_bind (throwsOnly_modify _ _) fun _ => throwsOnly_pure _ _
  | some _ => exact throwsOnly_bind (update_throws _ _ _ _ _) fun _ => throwsOnly_pure _ _

/-- Outside undefined behaviour, `updateParkingSpots` returns exactly when its file opens. -/
theorem returns_updateParkingSpots {writable : Bool} {tables : PolicyTables} {junk : ℕ → Junk}
    {root : PTree} {m : SpotManager}
    (h : ∀ t, updateParkingSpots writable tables junk root m ≠ .error .undefined t) :
    Returns (updateParkingSpots writable tables junk root) m ↔ writable = true := by
  cases writable with
  | true =>
    refine iff_of_true (returns_of_throwsOnly ?_ h) rfl
    exact throwsOnly_bind (throwsOnly_foldlM (fun _ _ => updateEntry_throws _ _ _ _) _ _) fun _ =>
      throwsOnly_bind (throwsOnly_modify _ _) fun _ => throwsOnly_get_bind fun m =>
      throwsOnly_bind (throwsOnly_ofExcept fun _ => toPTree_error) fun _ =>
      throwsOnly_bind (throwsOnly_modify _ _) fun _ => throwsOnly_pure _ _
  | false =>
    refine iff_of_false ?_ (by decide)
    intro hr
    obtain ⟨updated, t, -, hr⟩ := returns_bind_iff.mp hr
    obtain ⟨tree, -, hr⟩ := returns_ofExcept_bind.mp (returns_modify_bind.mp hr)
    exact absurd hr (by rintro ⟨b, u, hb⟩; cases hb)

end SpotManager
end VisionSensor
