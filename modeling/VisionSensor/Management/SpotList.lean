import VisionSensor.Management.SpotTable

/-! Spot lists as management requests and the parking spots file hold them, and what a well formed
list makes of the spot map. -/
namespace VisionSensor
open Unwind

/-- An entry of a spot list whose six keys can be read, with an id the policy tables have. -/
structure SpotEntry where
  id : ℤ
  spotName : String
  roi : Rect
  listed : 0 ≤ id ∧ id < 1000

/-- Read an entry; `none` for a malformed one. -/
def spotEntry (node : PTree) : Option SpotEntry :=
  match node.getInt "parkingSpotId", node.getString "parkingSpotName", node.getInt "roiCoordX",
    node.getInt "roiCoordY", node.getInt "roiWidth", node.getInt "roiHeight" with
  | .ok id, .ok spotName, .ok x, .ok y, .ok width, .ok height =>
      if h : 0 ≤ id ∧ id < 1000 then some ⟨id, spotName, ⟨x, y, width, height⟩, h⟩ else none
  | _, _, _, _, _, _ => none

namespace SpotEntry

def index (e : SpotEntry) : Fin 1000 := ⟨e.id.toNat, by have := e.listed; omega⟩

/-- The locals of an iteration that has read the entry. -/
def locals (tables : PolicyTables) (e : SpotEntry) : EntryLocals where
  id := e.id
  timeLimit := tables.tlimit e.index
  spotName := e.spotName
  policy := tables.po_id e.index
  roi := e.roi

@[simp] theorem locals_id (tables : PolicyTables) (e : SpotEntry) :
    (e.locals tables).id = e.id := rfl

theorem at_index (table : Fin 1000 → ℤ) (e : SpotEntry) :
    PolicyTables.at table e.id = .ok (table e.index) := dif_pos e.listed

end SpotEntry

/-- The entries of a list that can be read. -/
def entries (root : PTree) : List SpotEntry := root.children.filterMap fun c => spotEntry c.2

/-- The entry of a list that decides about an id. -/
def lastEntry (root : PTree) (id : ℤ) : Option SpotEntry :=
  (KeyedTable.under SpotEntry.id id (entries root)).getLast?

def WellFormed (root : PTree) : Prop := ∀ c ∈ root.children, (spotEntry c.2).isSome

theorem spotEntry_eq_some {node : PTree} {e : SpotEntry} :
    spotEntry node = some e ↔
      node.getInt "parkingSpotId" = .ok e.id ∧ node.getString "parkingSpotName" = .ok e.spotName ∧
      node.getInt "roiCoordX" = .ok e.roi.x ∧ node.getInt "roiCoordY" = .ok e.roi.y ∧
      node.getInt "roiWidth" = .ok e.roi.width ∧ node.getInt "roiHeight" = .ok e.roi.height := by
  constructor
  · intro h
    unfold spotEntry at h
    split at h
    · rename_i hid hname hx hy hwidth hheight
      split_ifs at h
      obtain rfl := Option.some.inj h
      exact ⟨hid, hname, hx, hy, hwidth, hheight⟩
    · cases h
  · rintro ⟨hid, hname, hx, hy, hwidth, hheight⟩
    simp only [spotEntry, hid, hname, hx, hy, hwidth, hheight, dif_pos e.listed]

/-- The `try` block of a well formed entry assigns all locals. -/
theorem parseEntry_wellFormed {node : PTree} {e : SpotEntry} (h : spotEntry node = some e)
    (tables : PolicyTables) (start : EntryLocals) :
    parseEntry tables node start = .ok () (e.locals tables) := by
  obtain ⟨hid, hname, hx, hy, hwidth, hheight⟩ := spotEntry_eq_some.mp h
  unfold parseEntry
  simp only [hid, hname, hx, hy, hwidth, hheight, ofExcept_ok, pure_bind,
    SpotEntry.at_index tables.po_id, SpotEntry.at_index tables.tlimit]
  rfl

theorem readEntry_wellFormed {node : PTree} {e : SpotEntry} (h : spotEntry node = some e)
    (tables : PolicyTables) (junk : Junk) :
    readEntry tables junk node = .ok (e.locals tables) := by
  unfold readEntry
  rw [parseEntry_wellFormed h]

namespace SpotManager

theorem readAll_wellFormed {cs : List ((String × PTree) × ℕ)}
    (h : ∀ c ∈ cs, (spotEntry c.1.2).isSome) (tables : PolicyTables) (junk : ℕ → Junk) :
    readAll tables junk cs =
      .ok ((cs.filterMap fun c => spotEntry c.1.2).map (SpotEntry.locals tables)) := by
  induction cs with
  | nil => rfl
  | cons c cs ih =>
    obtain ⟨e, he⟩ := Option.isSome_iff_exists.mp (h c List.mem_cons_self)
    have hread := readEntry_wellFormed he tables (junk c.2)
    have hrest := ih fun c' hc' => h c' (List.mem_cons_of_mem _ hc')
    rw [List.filterMap_cons, he]
    exact mapM_cons_ok.mpr ⟨_, _, hread, hrest, rfl⟩

theorem filterMap_zipIdx (root : PTree) :
    (root.children.zipIdx.filterMap fun c => spotEntry c.1.2) = entries root := by
  unfold entries
  conv_rhs => rw [← List.zipIdx_map_fst 0 root.children, List.filterMap_map]
  rfl

/-- Every iteration of `updateParkingSpots` over a well formed list reads its entry. -/
theorem readAll_children {root : PTree} (h : WellFormed root) (tables : PolicyTables)
    (junk : ℕ → Junk) :
    readAll tables junk root.children.zipIdx =
      .ok ((entries root).map (SpotEntry.locals tables)) := by
  have hmem : ∀ c ∈ root.children.zipIdx, (spotEntry c.1.2).isSome :=
    fun c hc => h c.1 (List.fst_mem_of_mem_zipIdx hc)
  rw [readAll_wellFormed hmem, filterMap_zipIdx]

/-- The last of the locals read for an id are those of its last entry. -/
theorem getLast?_under_locals (tables : PolicyTables) (root : PTree) (id : ℤ) :
    (KeyedTable.under EntryLocals.id id ((entries root).map (SpotEntry.locals tables))).getLast? =
      (lastEntry root id).map (SpotEntry.locals tables) := by
  rw [KeyedTable.under_map (SpotEntry.locals_id tables), List.getLast?_map]
  rfl

/-- The spot of an id is what its last entry in the list makes of the spot before; an id without
an entry has none. -/
def UpdatedBy (tables : PolicyTables) (root : PTree) (m m' : SpotManager) : Prop :=
  ∀ id, m'.table id = (lastEntry root id).bind fun e =>
    EntryLocals.setRow (m.table id) (e.locals tables)

theorem updateParkingSpots_wellFormed {m : SpotManager} (hm : m.Keyed) {root : PTree}
    (hroot : WellFormed root) (tables : PolicyTables) (junk : ℕ → Junk) (writable : Bool) :
    ∃ m' : SpotManager, m'.Keyed ∧ UpdatedBy tables root m m' ∧
      updateParkingSpots writable tables junk root m =
        if writable then .ok true m' else .error .json_parser_error m' := by
  obtain ⟨m', hk, ht, -, hrun⟩ :=
    updateParkingSpots_spec hm (readAll_children hroot tables junk) writable
  refine ⟨m', hk, fun id => ?_, hrun⟩
  rw [ht, EntryLocals.setRow_lastWins.sync, getLast?_under_locals, Option.bind_map]
  rfl

end SpotManager

/-- `m'` is `m` with exactly the given spot list put into force. -/
structure Realises (tables : PolicyTables) (root : PTree) (m m' : SpotManager) : Prop where
  keyed : m'.Keyed
  ids : ∀ id, (m'.find id).isSome ↔ ∃ e ∈ entries root, e.id = id
  kept : ∀ id s s', m.find id = some (some s) → m'.find id = some (some s') →
    s.mOccupied = true ∧ s.mOverstayed = false → s'.attributes = s.attributes
  given : ∀ id s', m'.find id = some (some s') →
    (∀ s, m.find id = some (some s) → ¬ (s.mOccupied = true ∧ s.mOverstayed = false)) →
    ∃ e, lastEntry root id = some e ∧
      s'.attributes = (e.spotName, e.roi, tables.tlimit e.index, tables.po_id e.index)
  retained : ∀ id s s', m.find id = some (some s) → m'.find id = some (some s') →
    s'.parkingState = s.parkingState

namespace SpotManager

theorem lastEntry_isSome_iff {root : PTree} {id : ℤ} :
    (lastEntry root id).isSome ↔ ∃ e ∈ entries root, e.id = id := by
  unfold lastEntry
  rw [List.getLast?_isSome, Ne, KeyedTable.under_eq_nil_iff, not_not, List.mem_map]

theorem setRow_isSome (o : Option ParkingSpot) (l : EntryLocals) :
    (EntryLocals.setRow o l).isSome := by
  cases o <;> rfl

/-- An update leaves the listed ids. -/
theorem UpdatedBy.isSome {m m' : SpotManager} {root : PTree} {tables : PolicyTables}
    (ht : UpdatedBy tables root m m') (id : ℤ) :
    (m'.table id).isSome ↔ (lastEntry root id).isSome := by
  rw [ht id]
  cases lastEntry root id with
  | none => simp
  | some e => simpa using setRow_isSome _ _

theorem locked_iff {s : ParkingSpot} :
    s.locked = true ↔ s.mOccupied = true ∧ s.mOverstayed = false := by
  unfold ParkingSpot.locked
  simp

/-- The spot of an id that a well formed list retains. -/
theorem retained_row {m m' : SpotManager} {root : PTree} {tables : PolicyTables}
    (ht : UpdatedBy tables root m m')
    {id : ℤ} {s s' : ParkingSpot} (hs : m.table id = some s) (hs' : m'.table id = some s') :
    ∃ e, lastEntry root id = some e ∧ s' = EntryLocals.overwrite s (e.locals tables) := by
  rw [ht id, hs] at hs'
  obtain ⟨e, he, hrow⟩ := Option.bind_eq_some_iff.mp hs'
  exact ⟨e, he, (Option.some.inj hrow).symm⟩

theorem realises_of_table {m m' : SpotManager} {root : PTree} {tables : PolicyTables}
    (hm : m.Keyed) (hm' : m'.Keyed)
    (ht : UpdatedBy tables root m m') : Realises tables root m m' where
  keyed := hm'
  ids id := by
    rw [hm'.owned.find_isSome, ht.isSome, lastEntry_isSome_iff]
  kept id s s' hs hs' hlocked := by
    obtain ⟨e, -, he⟩ := retained_row ht (table_of_find hs) (table_of_find hs')
    rw [EntryLocals.overwrite_locked (s := s.known) (locked_iff.mpr hlocked)] at he
    exact (ParkingSpot.of_known_eq he).1
  given id s' hs' hfree := by
    have hrow := table_of_find hs'
    cases hf : m.find id with
    | none =>
      rw [ht id, table_of_find_none hf] at hrow
      obtain ⟨e, he, hnew⟩ := Option.bind_eq_some_iff.mp hrow
      exact ⟨e, he, (congrArg ParkingSpot.attributes (Option.some.inj hnew)).symm⟩
    | some p =>
      obtain ⟨s, rfl, -⟩ := hm.owned.find hf
      have hunlocked : s.known.locked = false := by
        rw [← Bool.not_eq_true]
        exact fun h => hfree s hf (locked_iff.mp h)
      obtain ⟨e, he, hs⟩ := retained_row ht (table_of_find hf) hrow
      rw [EntryLocals.overwrite_unlocked hunlocked] at hs
      exact ⟨e, he, congrArg ParkingSpot.attributes hs⟩
  retained id s s' hs hs' := by
    obtain ⟨e, -, he⟩ := retained_row ht (table_of_find hs) (table_of_find hs')
    exact (ParkingSpot.of_known_eq he).2.trans (EntryLocals.overwrite_parkingState _ _)

/-- `updateParkingSpots` puts exactly the given list into force, also when it then fails to write
the file. -/
theorem updateParkingSpots_realises {m : SpotManager} (hm : m.Keyed) {root : PTree}
    (hroot : WellFormed root) (tables : PolicyTables) (junk : ℕ → Junk) (writable : Bool) :
    ∃ m', Realises tables root m m' ∧
      updateParkingSpots writable tables junk root m =
        if writable then .ok true m' else .error .json_parser_error m' := by
  obtain ⟨m', hk, ht, hrun⟩ := updateParkingSpots_wellFormed hm hroot tables junk writable
  exact ⟨m', realises_of_table hm hk ht, hrun⟩

/-- An entry as a client writes it. -/
def listNode (id spotName : String) : String × PTree :=
  ("", PTree.mk "" [("parkingSpotId", .leaf id), ("parkingSpotName", .leaf spotName),
    ("roiCoordX", .leaf "0"), ("roiCoordY", .leaf "0"), ("roiWidth", .leaf "10"),
    ("roiHeight", .leaf "20")])

/-- Tables with policy 1 and a limit of ten minutes for every spot. -/
def flatTables : PolicyTables := ⟨fun _ => 1, fun _ => 600⟩

def parkedSpot : ParkingSpot :=
  { ParkingSpot.new false 1 "A1" 600 ⟨0, 0, 10, 20⟩ 1 with
    mOccupied := true, mOccupiedFrameCounter := 6 }

/-- A manager whose one spot is occupied. -/
def parkedManager : SpotManager := { mParkingSpots := [(1, some parkedSpot)] }

theorem parkedManager_keyed : parkedManager.Keyed := by
  refine ⟨by decide, fun e he => ?_⟩
  obtain rfl := List.mem_singleton.mp he
  exact ⟨parkedSpot, rfl, rfl⟩

/-- A list with an id that is taken, and a new id twice. -/
theorem parked_list_realises : ∃ m', Realises flatTables
      (PTree.mk "" [listNode "1" "B1", listNode "7" "B7", listNode "7" "C7"]) parkedManager m' ∧
    updateParkingSpots true flatTables (fun _ => ⟨0, 0, 0, false⟩)
      (PTree.mk "" [listNode "1" "B1", listNode "7" "B7", listNode "7" "C7"]) parkedManager =
        .ok true m' :=
  updateParkingSpots_realises parkedManager_keyed (by unfold WellFormed; decide) flatTables _ true

end SpotManager

end VisionSensor
