import VisionSensor.Management.MalformedEntries

/-! `readFromJSONFile`, the loader of the parking spots file, against `updateParkingSpots`: what the
two make of one list, and of the list `toPTree` writes. -/
namespace VisionSensor
open Unwind

/-- The coordinates hold values of their type. -/
def Rect.InRange (r : Rect) : Prop :=
  InInt r.x ∧ InInt r.y ∧ InInt r.width ∧ InInt r.height

namespace SpotManager

/-- One iteration of the loop of `readFromJSONFile`. `add` stands in the `try` block, so an entry
that cannot be read adds nothing. `isExist`, `updateDB` and `createDB` go to the database and leave
the map alone. -/
def loadEntry (tables : PolicyTables) (junk : Junk) (node : PTree) :
    EStateM Fault SpotManager Unit :=
  match parseEntry tables node { id := junk.id, timeLimit := junk.timeLimit, policy := junk.policy }
    with
  | .ok _ l =>
      modify fun m => (m.add junk.isReservation_sensor l.id l.spotName l.timeLimit l.roi l.policy).1
  | .error e _ => if e.isPtreeError then pure () else throw e

/-- `readFromJSONFile`; `json` is what `read_json` makes of the file, and the tables are those
`pullDB` fills. -/
def readFromJSONFile (json : Option PTree) (tables : PolicyTables) (junk : ℕ → Junk) :
    EStateM Fault SpotManager Bool :=
  match json with
  | none => pure false
  | some root => do
      root.children.zipIdx.forM fun c => loadEntry tables (junk c.2) c.1.2
      return true

/-- The entry of a list that comes first with an id. -/
def firstEntry (root : PTree) (id : ℤ) : Option SpotEntry :=
  (KeyedTable.under SpotEntry.id id (entries root)).head?

section Load

variable {m : SpotManager} {tables : PolicyTables}

theorem loadEntry_wellFormed {node : PTree} {e : SpotEntry} (h : spotEntry node = some e)
    (junk : Junk) :
    loadEntry tables junk node m = .ok () (m.add junk.isReservation_sensor (e.locals tables).id
      (e.locals tables).spotName (e.locals tables).timeLimit (e.locals tables).roi
      (e.locals tables).policy).1 := by
  unfold loadEntry
  rw [parseEntry_wellFormed h]
  rfl

/-- The loop of `readFromJSONFile` inserts the well formed entries in order. -/
theorem loadLoop_spec (hm : m.Keyed) (tables : PolicyTables) (junk : ℕ → Junk)
    {cs : List ((String × PTree) × ℕ)}
    (h : ∀ c ∈ cs, (spotEntry c.1.2).isSome) :
    ∃ m', (cs.forM fun c => loadEntry tables (junk c.2) c.1.2) m = .ok () m' ∧ m'.Keyed ∧
      m'.table = ((cs.filterMap fun c => spotEntry c.1.2).map (SpotEntry.locals tables)).foldl
        (KeyedTable.put EntryLocals.id EntryLocals.insertRow) m.table := by
  induction cs generalizing m with
  | nil => exact ⟨m, rfl, hm, rfl⟩
  | cons c cs ih =>
    obtain ⟨e, he⟩ := Option.isSome_iff_exists.mp (h c List.mem_cons_self)
    obtain ⟨hk, ht⟩ := hm.add (junk c.2).isReservation_sensor (e.locals tables)
    obtain ⟨m', hloop, hk', ht'⟩ := ih hk fun c' hc' => h c' (List.mem_cons_of_mem _ hc')
    refine ⟨m', ?_, hk', ?_⟩
    · exact (bind_ok _ (loadEntry_wellFormed he _)).trans hloop
    · rw [ht', ht, List.filterMap_cons, he, List.map_cons, List.foldl_cons]

/-- A well formed file fills the empty rows from the first entry with their id. -/
theorem readFromJSONFile_wellFormed (hm : m.Keyed) {root : PTree} (h : WellFormed root)
    (tables : PolicyTables) (junk : ℕ → Junk) :
    ∃ m' : SpotManager, readFromJSONFile (some root) tables junk m = .ok true m' ∧ m'.Keyed ∧
      ∀ id, m'.table id = (firstEntry root id).elim (m.table id) fun e =>
        EntryLocals.insertRow (m.table id) (e.locals tables) := by
  have hmem : ∀ c ∈ root.children.zipIdx, (spotEntry c.1.2).isSome :=
    fun c hc => h c.1 (List.fst_mem_of_mem_zipIdx hc)
  obtain ⟨m', hloop, hk, ht⟩ := loadLoop_spec hm tables junk hmem
  refine ⟨m', bind_ok _ hloop, hk, fun id => ?_⟩
  rw [ht, filterMap_zipIdx, EntryLocals.insertRow_firstWins.foldl_put,
    KeyedTable.under_map (SpotEntry.locals_id tables), List.head?_map]
  unfold firstEntry
  cases (KeyedTable.under SpotEntry.id id (entries root)).head? <;> rfl

end Load

/-- The attributes of the spot under an id. -/
def attributesAt (m : SpotManager) (id : ℤ) : Option (String × Rect × ℤ × ParkingSpotPolicy) :=
  (m.find id).join.map ParkingSpot.attributes

theorem attributesAt_eq_table (m : SpotManager) (id : ℤ) :
    m.attributesAt id = (m.table id).map ParkingSpot.attributes := by
  unfold attributesAt table
  rw [Option.map_map]
  rfl

/-- The attributes an entry gives with the tables. -/
def entryAttributes (tables : PolicyTables) (e : SpotEntry) :
    String × Rect × ℤ × ParkingSpotPolicy :=
  (e.spotName, e.roi, tables.tlimit e.index, tables.po_id e.index)

theorem first_last (root : PTree) (id : ℤ) :
    (firstEntry root id = none ∧ lastEntry root id = none) ∨
      ∃ e e', firstEntry root id = some e ∧ lastEntry root id = some e' ∧ e.index = e'.index := by
  have hmem : ∀ e, e ∈ KeyedTable.under SpotEntry.id id (entries root) ↔
      e ∈ entries root ∧ e.id = id := fun e => KeyedTable.mem_under
  unfold firstEntry lastEntry
  cases hu : KeyedTable.under SpotEntry.id id (entries root) with
  | nil => exact .inl ⟨rfl, rfl⟩
  | cons e es =>
    rw [hu] at hmem
    obtain ⟨e', he'⟩ := Option.isSome_iff_exists.mp (List.getLast?_isSome.mpr (List.cons_ne_nil e es))
    have hid : e.id = id := ((hmem e).mp List.mem_cons_self).2
    have hid' : e'.id = id := ((hmem e').mp (List.mem_of_getLast? he')).2
    refine .inr ⟨e, e', rfl, he', ?_⟩
    unfold SpotEntry.index
    simp only [hid, hid']

section Compare

variable {root : PTree}

theorem attributesAt_loaded (h : WellFormed root) (tables : PolicyTables) (junk : ℕ → Junk)
    (file : Option PTree) (id : ℤ) :
    (after (readFromJSONFile (some root) tables junk) { spotsFile := file }).attributesAt id =
      (firstEntry root id).map (entryAttributes tables) := by
  obtain ⟨m', hload, -, ht⟩ := readFromJSONFile_wellFormed (keyed_empty file) h tables junk
  unfold after
  rw [hload, attributesAt_eq_table, ht]
  cases firstEntry root id <;> rfl

theorem attributesAt_updated (h : WellFormed root) (tables : PolicyTables) (junk : ℕ → Junk)
    (writable : Bool) (file : Option PTree) (id : ℤ) :
    (after (updateParkingSpots writable tables junk root) { spotsFile := file }).attributesAt id =
      (lastEntry root id).map (entryAttributes tables) := by
  obtain ⟨-, ht⟩ := after_updateParkingSpots (keyed_empty file)
    (readAll_children h tables junk) writable
  rw [attributesAt_eq_table, ht, getLast?_under_locals, Option.bind_map]
  cases lastEntry root id <;> rfl

/-- From an empty manager both loaders give the listed ids the limits and policies of the tables.
An id that is listed twice keeps its first name and region in `readFromJSONFile`, where `add`
leaves a taken id alone, and has its last ones after `updateParkingSpots`. -/
theorem loaders_agree_iff (h : WellFormed root) (tables : PolicyTables) (junk junk' : ℕ → Junk)
    (writable : Bool) (file : Option PTree) :
    let m := after (readFromJSONFile (some root) tables junk) { spotsFile := file }
    let m' := after (updateParkingSpots writable tables junk' root) { spotsFile := file }
    (∀ id, (m.attributesAt id).map (fun a => a.2.2) = (m'.attributesAt id).map fun a => a.2.2) ∧
      (∀ id, m.attributesAt id = (firstEntry root id).map (entryAttributes tables)) ∧
      (∀ id, m'.attributesAt id = (lastEntry root id).map (entryAttributes tables)) ∧
      ((∀ id, m.attributesAt id = m'.attributesAt id) ↔
        ∀ id e e', firstEntry root id = some e → lastEntry root id = some e' →
          e.spotName = e'.spotName ∧ e.roi = e'.roi) := by
  have hload := attributesAt_loaded h tables junk file
  have hupdate := attributesAt_updated h tables junk' writable file
  refine ⟨fun id => ?_, hload, hupdate, ?_⟩
  · rw [hload, hupdate]
    rcases first_last root id with ⟨h₁, h₂⟩ | ⟨e, e', h₁, h₂, hindex⟩
    · rw [h₁, h₂]
    · simp [h₁, h₂, entryAttributes, hindex]
  · apply forall_congr'
    intro id
    rw [hload, hupdate]
    rcases first_last root id with ⟨h₁, h₂⟩ | ⟨e, e', h₁, h₂, hindex⟩
    · simp [h₁, h₂]
    · simp [h₁, h₂, entryAttributes, hindex]

theorem first_eq_last (h : ((entries root).map SpotEntry.id).Nodup) (id : ℤ) :
    firstEntry root id = lastEntry root id := by
  unfold firstEntry lastEntry
  cases hu : KeyedTable.under SpotEntry.id id (entries root) with
  | nil => rfl
  | cons e es =>
    obtain ⟨he, rfl⟩ := KeyedTable.mem_under.mp (hu ▸ List.mem_cons_self (a := e) (l := es))
    rw [← hu, KeyedTable.under_of_nodup h he]
    rfl

/-- Two spots with different ids. -/
def twoSpotList : PTree := PTree.mk "" [listNode "1" "A1", listNode "7" "A7"]

def flatJunk : ℕ → Junk := fun _ => ⟨0, 0, 0, false⟩

theorem loaders_agree_on_two_spots :
    (after (readFromJSONFile (some twoSpotList) flatTables flatJunk) {}).attributesAt 7 =
      (after (updateParkingSpots true flatTables flatJunk twoSpotList) {}).attributesAt 7 := by
  have hwf : WellFormed twoSpotList := by
    unfold WellFormed
    decide
  have hnodup : ((entries twoSpotList).map SpotEntry.id).Nodup := by decide
  refine (loaders_agree_iff hwf flatTables flatJunk flatJunk true none).2.2.2.mpr ?_ 7
  intro id e e' he he'
  rw [first_eq_last hnodup, he'] at he
  obtain rfl := Option.some.inj he
  exact ⟨rfl, rfl⟩

def repeatedIdList : PTree := PTree.mk "" [listNode "1" "A", listNode "1" "B"]

/-- One id listed as `A` and then as `B`: the file loader keeps `A`, the update takes `B`. -/
theorem loaders_differ_on_repeated_id :
    WellFormed repeatedIdList ∧ ∀ junk junk' : ℕ → Junk,
      (after (readFromJSONFile (some repeatedIdList) flatTables junk) {}).attributesAt 1 ≠
        (after (updateParkingSpots true flatTables junk' repeatedIdList) {}).attributesAt 1 := by
  have hwf : WellFormed repeatedIdList := by
    unfold WellFormed
    decide
  refine ⟨hwf, fun junk junk' h => ?_⟩
  rw [attributesAt_loaded hwf, attributesAt_updated hwf] at h
  revert h
  decide

end Compare

section SaveReload

theorem spotEntry_spotTree {s : ParkingSpot} (hid : 0 ≤ s.mID ∧ s.mID < 1000)
    (hroi : s.mROI.InRange) :
    spotEntry (spotTree s).2 = some ⟨s.mID, s.mSpotName, s.mROI, hid⟩ := by
  obtain ⟨hx, hy, hwidth, hheight⟩ := hroi
  have hint : InInt s.mID := ⟨by omega, by omega⟩
  exact spotEntry_eq_some.mpr ⟨PTree.getInt_of_find rfl hint, rfl, PTree.getInt_of_find rfl hx,
    PTree.getInt_of_find rfl hy, PTree.getInt_of_find rfl hwidth, PTree.getInt_of_find rfl hheight⟩

/-- The ids are ones the policy tables have, and the regions hold values of their type. -/
def Storable (m : SpotManager) : Prop :=
  ∀ s ∈ m.spots, (0 ≤ s.mID ∧ s.mID < 1000) ∧ s.mROI.InRange

/-- The tree `toPTree` makes of a map without null pointers. -/
def savedTree (m : SpotManager) : PTree := PTree.mk "" (m.spots.map spotTree)

variable {m : SpotManager}

theorem savedTree_wellFormed (h : m.Storable) : WellFormed m.savedTree := by
  intro c hc
  obtain ⟨s, hs, rfl⟩ := List.mem_map.mp hc
  obtain ⟨hid, hroi⟩ := h s hs
  rw [spotEntry_spotTree hid hroi]
  rfl

theorem savedTree_ids (h : m.Storable) :
    (entries m.savedTree).map SpotEntry.id = m.spots.map ParkingSpot.mID := by
  have hentries : entries m.savedTree = m.spots.filterMap fun s => spotEntry (spotTree s).2 :=
    List.filterMap_map
  rw [hentries, List.map_filterMap, ← List.filterMap_eq_map]
  apply List.filterMap_congr
  intro s hs
  obtain ⟨hid, hroi⟩ := h s hs
  rw [spotEntry_spotTree hid hroi]
  rfl

theorem savedTree_nodup (hm : m.Keyed) (h : m.Storable) :
    ((entries m.savedTree).map SpotEntry.id).Nodup := by
  rw [savedTree_ids h, hm.owned.map_mID]
  exact hm.distinct

theorem savedTree_isSome (hm : m.Keyed) (h : m.Storable) (id : ℤ) :
    (lastEntry m.savedTree id).isSome ↔ (m.find id).isSome := by
  rw [lastEntry_isSome_iff, ← List.mem_map, savedTree_ids h, hm.owned.map_mID, hm.owned.mem_ids,
    hm.owned.find_isSome]

/-- The entry of the saved tree for a spot of the map. -/
theorem savedTree_entry (hm : m.Keyed) (h : m.Storable) {id : ℤ} {s : ParkingSpot}
    (hf : m.find id = some (some s)) :
    ∃ e, lastEntry m.savedTree id = some e ∧ e.id = id ∧ e.spotName = s.mSpotName ∧
      e.roi = s.mROI := by
  obtain ⟨s, hs, rfl⟩ := hm.owned.find hf
  obtain rfl := Option.some.inj hs
  have hs : s ∈ m.spots := hm.mem_spots.mpr hf
  obtain ⟨hid, hroi⟩ := h s hs
  have he : (⟨s.mID, s.mSpotName, s.mROI, hid⟩ : SpotEntry) ∈ entries m.savedTree :=
    mem_entries.mpr ⟨spotTree s, List.mem_map_of_mem hs, spotEntry_spotTree hid hroi⟩
  refine ⟨⟨s.mID, s.mSpotName, s.mROI, hid⟩, ?_, rfl, rfl, rfl⟩
  exact congrArg List.getLast? (KeyedTable.under_of_nodup (savedTree_nodup hm h) he)

/-- `m'` holds the spots of `m` as the tables and the parking spots file describe them, all of
them empty. -/
structure Reloaded (tables : PolicyTables) (m m' : SpotManager) : Prop where
  keyed : m'.Keyed
  ids : ∀ id, (m'.find id).isSome ↔ (m.find id).isSome
  spots : ∀ id s s', m.find id = some (some s) → m'.find id = some (some s') →
    s'.mSpotName = s.mSpotName ∧ s'.mROI = s.mROI ∧
    PolicyTables.at tables.po_id id = .ok s'.mParkingPolicy ∧
    PolicyTables.at tables.tlimit id = .ok s'.mTimeLimit ∧
    s'.mOccupied = false ∧ s'.mOverstayed = false

/-- `m'` agrees with `m` on ids, names, regions and occupancy. -/
structure SameSpots (m m' : SpotManager) : Prop where
  keyed : m'.Keyed
  ids : ∀ id, (m'.find id).isSome ↔ (m.find id).isSome
  spots : ∀ id s s', m.find id = some (some s) → m'.find id = some (some s') →
    s'.mSpotName = s.mSpotName ∧ s'.mROI = s.mROI ∧ s'.mOccupied = s.mOccupied

theorem reloaded_of_table {tables : PolicyTables} {m' : SpotManager} (hm : m.Keyed)
    (h : m.Storable) (hm' : m'.Keyed)
    (ht : ∀ id, m'.table id = (lastEntry m.savedTree id).map fun e => (e.locals tables).newSpot) :
    Reloaded tables m m' where
  keyed := hm'
  ids id := by rw [hm'.owned.find_isSome, ht, Option.isSome_map, savedTree_isSome hm h]
  spots id s s' hs hs' := by
    obtain ⟨e, hlast, rfl, hname, hroi⟩ := savedTree_entry hm h hs
    have hrow := table_of_find hs'
    rw [ht, hlast] at hrow
    have hnew : s'.known = (e.locals tables).newSpot := (Option.some.inj hrow).symm
    have hpolicy : s'.mParkingPolicy = tables.po_id e.index :=
      congrArg ParkingSpot.mParkingPolicy hnew
    have hlimit : s'.mTimeLimit = tables.tlimit e.index := congrArg ParkingSpot.mTimeLimit hnew
    refine ⟨(congrArg ParkingSpot.mSpotName hnew).trans hname,
      (congrArg ParkingSpot.mROI hnew).trans hroi, ?_, ?_,
      congrArg ParkingSpot.mOccupied hnew, congrArg ParkingSpot.mOverstayed hnew⟩
    · rw [hpolicy, SpotEntry.at_index]
    · rw [hlimit, SpotEntry.at_index]

theorem sameSpots_of_table {tables : PolicyTables} {m' : SpotManager} (hm : m.Keyed)
    (h : m.Storable) (hm' : m'.Keyed)
    (ht : UpdatedBy tables m.savedTree m m') : SameSpots m m' where
  keyed := hm'
  ids id := by rw [hm'.owned.find_isSome, ht.isSome, savedTree_isSome hm h]
  spots id s s' hs hs' := by
    obtain ⟨e, hlast, rfl, hname, hroi⟩ := savedTree_entry hm h hs
    obtain ⟨e', he', hrow⟩ := retained_row ht (table_of_find hs) (table_of_find hs')
    obtain rfl := Option.some.inj (hlast.symm.trans he')
    by_cases hlocked : s.known.locked
    · rw [EntryLocals.overwrite_locked hlocked] at hrow
      obtain ⟨hattr, hstate⟩ := ParkingSpot.of_known_eq hrow
      exact ⟨congrArg Prod.fst hattr, congrArg (fun a => a.2.1) hattr, congrArg Prod.fst hstate⟩
    · rw [EntryLocals.overwrite_unlocked (by simpa using hlocked)] at hrow
      obtain ⟨hattr, hstate⟩ := ParkingSpot.of_known_eq hrow
      exact ⟨(congrArg Prod.fst hattr).trans hname,
        (congrArg (fun a => a.2.1) hattr).trans hroi, congrArg Prod.fst hstate⟩

/-- What `toPTree` saves, in whatever order, comes back from the file, and as an update it changes
no spot. -/
theorem save_reload (hm : m.Keyed) (h : m.Storable) (tables : PolicyTables) (junk junk' : ℕ → Junk)
    (writable : Bool) (file : Option PTree) :
    ∃ tree, m.toPTree = .ok tree ∧
      (∃ m₁, readFromJSONFile (some tree) tables junk { spotsFile := file } = .ok true m₁ ∧
        Reloaded tables m m₁) ∧
      ∃ m₂, (updateParkingSpots writable tables junk' tree m =
        if writable then .ok true m₂ else .error .json_parser_error m₂) ∧ SameSpots m m₂ := by
  have hwf := savedTree_wellFormed h
  refine ⟨m.savedTree, hm.owned.toPTree, ?_, ?_⟩
  · obtain ⟨m₁, hload, hk, ht⟩ :=
      readFromJSONFile_wellFormed (keyed_empty file) hwf tables junk
    refine ⟨m₁, hload, reloaded_of_table hm h hk fun id => ?_⟩
    rw [ht, first_eq_last (savedTree_nodup hm h)]
    cases lastEntry m.savedTree id <;> rfl
  · obtain ⟨m₂, hk, ht, hrun⟩ := updateParkingSpots_wellFormed hm hwf tables junk' writable
    exact ⟨m₂, hrun, sameSpots_of_table hm h hk ht⟩

theorem parkedManager_save_reload : ∃ tree, parkedManager.toPTree = .ok tree ∧
    (∃ m₁, readFromJSONFile (some tree) flatTables (fun _ => ⟨0, 0, 0, false⟩) {} = .ok true m₁ ∧
      Reloaded flatTables parkedManager m₁) ∧
    ∃ m₂, updateParkingSpots true flatTables (fun _ => ⟨0, 0, 0, false⟩) tree parkedManager =
      .ok true m₂ ∧ SameSpots parkedManager m₂ := by
  refine save_reload parkedManager_keyed ?_ flatTables _ _ true none
  intro s hs
  obtain rfl := List.mem_singleton.mp hs
  exact ⟨by decide, by decide, by decide, by decide, by decide⟩

end SaveReload

end SpotManager

end VisionSensor
