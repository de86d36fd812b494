import VisionSensor.Lib.KeyedTable
import VisionSensor.Management.SpotManager

/-! The spot map as a table from ids to spots, and what the operations of the manager do to its
rows. -/
namespace VisionSensor
open Unwind

/-- A spot up to the member its constructor does not initialise. -/
def ParkingSpot.known (s : ParkingSpot) : ParkingSpot := { s with isReservation_sensor := false }

/-- The parking timer is running, so `update` leaves the attributes alone. -/
def ParkingSpot.locked (s : ParkingSpot) : Bool := s.mOccupied && !s.mOverstayed

namespace ParkingSpot

/-- What a management update sets. -/
def attributes (s : ParkingSpot) : String × Rect × ℤ × ParkingSpotPolicy :=
  (s.mSpotName, s.mROI, s.mTimeLimit, s.mParkingPolicy)

/-- What only observations change. -/
def parkingState (s : ParkingSpot) : Bool × Bool × ℤ :=
  (s.mOccupied, s.mOverstayed, s.mOccupiedFrameCounter)

theorem of_known_eq {s t : ParkingSpot} (h : s.known = t) :
    s.attributes = t.attributes ∧ s.parkingState = t.parkingState := by
  subst h
  exact ⟨rfl, rfl⟩

end ParkingSpot

namespace EntryLocals

/-- The spot `add` makes of the locals. -/
def newSpot (l : EntryLocals) : ParkingSpot :=
  ParkingSpot.new false l.id l.spotName l.timeLimit l.roi l.policy

def overwrite (s : ParkingSpot) (l : EntryLocals) : ParkingSpot :=
  (s.updateAttributes l.spotName l.timeLimit l.roi l.policy).1

/-- A row under `add`. -/
def insertRow : Option ParkingSpot → EntryLocals → Option ParkingSpot
  | none, l => some l.newSpot
  | some s, _ => some s

/-- A row under an entry of `updateParkingSpots`. -/
def setRow : Option ParkingSpot → EntryLocals → Option ParkingSpot
  | none, l => some l.newSpot
  | some s, l => some (overwrite s l)

@[simp] theorem setRow_some (s : ParkingSpot) (l : EntryLocals) :
    setRow (some s) l = some (overwrite s l) := rfl

theorem overwrite_locked {s : ParkingSpot} (h : s.locked = true) (l : EntryLocals) :
    overwrite s l = s := by
  unfold ParkingSpot.locked at h
  simp [overwrite, ParkingSpot.updateAttributes, h]

theorem overwrite_unlocked {s : ParkingSpot} (h : s.locked = false) (l : EntryLocals) :
    overwrite s l = { s with
      mSpotName := l.spotName, mTimeLimit := l.timeLimit, mROI := l.roi,
      mParkingPolicy := l.policy } := by
  unfold ParkingSpot.locked at h
  simp [overwrite, ParkingSpot.updateAttributes, h]

@[simp] theorem overwrite_mID (s : ParkingSpot) (l : EntryLocals) : (overwrite s l).mID = s.mID := by
  unfold overwrite ParkingSpot.updateAttributes
  split_ifs <;> rfl

@[simp] theorem overwrite_parkingState (s : ParkingSpot) (l : EntryLocals) :
    (overwrite s l).parkingState = s.parkingState := by
  unfold overwrite ParkingSpot.updateAttributes
  split_ifs <;> rfl

theorem overwrite_known (s : ParkingSpot) (l : EntryLocals) :
    (overwrite s l).known = overwrite s.known l := by
  unfold overwrite ParkingSpot.updateAttributes
  change _ = (if s.mOccupied && !s.mOverstayed then _ else _ : ParkingSpot × Bool).1
  split_ifs <;> rfl

theorem insertRow_firstWins : KeyedTable.FirstWins insertRow := by
  intro o l l'
  cases o <;> rfl

/-- The guard sees the parking state only, which an entry does not change. -/
theorem setRow_lastWins : KeyedTable.LastWins EntryLocals.id setRow := by
  intro o l l' hid
  cases o with
  | none =>
    have hnew : overwrite l.newSpot l' = l'.newSpot := by
      rw [overwrite_unlocked rfl]
      simp only [newSpot, ParkingSpot.new, hid]
    exact congrArg some hnew
  | some s =>
    by_cases h : s.locked
    · simp [overwrite_locked h]
    · rw [Bool.not_eq_true] at h
      have h' : (overwrite s l).locked = false := by
        rw [overwrite_unlocked h]
        exact h
      rw [setRow_some, setRow_some, setRow_some, overwrite_unlocked h', overwrite_unlocked h,
        overwrite_unlocked h]

end EntryLocals

namespace SpotManager

/-- No pointer of the map is null, and every spot is filed under its own id. -/
def Owned (m : SpotManager) : Prop := ∀ e ∈ m.mParkingSpots, ∃ s, e.2 = some s ∧ s.mID = e.1

/-- A map whose entries are keyed by the ids of their spots, each key once. -/
structure Keyed (m : SpotManager) : Prop where
  distinct : (m.mParkingSpots.map Prod.fst).Nodup
  owned : m.Owned

/-- The spot under an id. -/
def table (m : SpotManager) (id : ℤ) : Option ParkingSpot := (m.find id).join.map ParkingSpot.known

theorem table_of_find_none {m : SpotManager} {id : ℤ} (h : m.find id = none) :
    m.table id = none := by
  simp [table, h]

theorem table_of_find {m : SpotManager} {id : ℤ} {s : ParkingSpot}
    (h : m.find id = some (some s)) : m.table id = some s.known := by
  simp [table, h]

theorem Owned.find {m : SpotManager} (h : m.Owned) {id : ℤ} {p : Option ParkingSpot}
    (hp : m.find id = some p) : ∃ s, p = some s ∧ s.mID = id :=
  h _ (KeyedTable.mem_of_lookup hp)

theorem Owned.mem_ids {m : SpotManager} (h : m.Owned) {id : ℤ} :
    id ∈ m.mParkingSpots.map Prod.fst ↔ (m.table id).isSome := by
  rw [← KeyedTable.lookup_isSome_iff]
  change (m.find id).isSome ↔ _
  cases hf : m.find id with
  | none => simp [table_of_find_none hf]
  | some p =>
    obtain ⟨s, rfl, -⟩ := h.find hf
    simp [table_of_find hf]

theorem Owned.find_isSome {m : SpotManager} (h : m.Owned) {id : ℤ} :
    (m.find id).isSome ↔ (m.table id).isSome := KeyedTable.lookup_isSome_iff.trans h.mem_ids

theorem keyed_empty (file : Option PTree) : Keyed { spotsFile := file } :=
  ⟨List.nodup_nil, fun _ h => nomatch h⟩

/-- Filing a new spot at the end. -/
theorem Keyed.append {m : SpotManager} (h : m.Keyed) {id : ℤ} {s : ParkingSpot}
    (hnew : m.find id = none) (hs : s.mID = id) :
    Keyed { m with mParkingSpots := m.mParkingSpots ++ [(id, some s)] } ∧
      table { m with mParkingSpots := m.mParkingSpots ++ [(id, some s)] } =
        Function.update m.table id (some s.known) := by
  refine ⟨⟨?_, ?_⟩, ?_⟩
  · have hid : id ∉ m.mParkingSpots.map Prod.fst := by
      rw [h.owned.mem_ids, table_of_find_none hnew]
      simp
    rw [List.map_append, List.map_singleton, List.nodup_append]
    refine ⟨h.distinct, by simp, ?_⟩
    rintro k hk _ hk' rfl
    obtain rfl : k = id := List.mem_singleton.mp hk'
    exact hid hk
  · intro e he
    rcases List.mem_append.mp he with he | he
    · exact h.owned e he
    · obtain rfl := List.mem_singleton.mp he
      exact ⟨s, rfl, hs⟩
  · funext k
    unfold table find
    rw [List.lookup_append]
    by_cases hk : k = id
    · subst hk
      have hnone : m.mParkingSpots.lookup k = none := hnew
      simp [hnone]
    · have hk' : (k == id) = false := by simpa using hk
      simp [Function.update_of_ne hk, List.lookup_cons, hk']

theorem find_setSpot (m : SpotManager) (id : ℤ) (s : ParkingSpot) (k : ℤ) :
    find { m with mParkingSpots := setSpot id s m.mParkingSpots } k =
      if k = id then (m.find id).map fun _ => some s else m.find k :=
  KeyedTable.lookup_map_key id (some s) m.mParkingSpots k

/-- Changing the spot under an id. -/
theorem Keyed.setSpot {m : SpotManager} (h : m.Keyed) {id : ℤ} {s s' : ParkingSpot}
    (hs : m.find id = some (some s)) (hid : s'.mID = s.mID) :
    Keyed { m with mParkingSpots := setSpot id s' m.mParkingSpots } ∧
      table { m with mParkingSpots := setSpot id s' m.mParkingSpots } =
        Function.update m.table id (some s'.known) := by
  have hown : s.mID = id := by
    obtain ⟨s₀, h₀, h₁⟩ := h.owned.find hs
    obtain rfl := Option.some.inj h₀
    exact h₁
  refine ⟨⟨?_, ?_⟩, ?_⟩
  · have hkeys : (SpotManager.setSpot id s' m.mParkingSpots).map Prod.fst =
        m.mParkingSpots.map Prod.fst := by
      unfold SpotManager.setSpot
      rw [List.map_map]
      apply List.map_congr_left
      intro e _
      show (if e.1 = id then (e.1, some s') else e).1 = e.1
      split <;> rfl
    exact hkeys ▸ h.distinct
  · intro e he
    obtain ⟨e₀, he₀, rfl⟩ := List.mem_map.mp he
    split_ifs with hk
    · exact ⟨s', rfl, hid.trans (hown.trans hk.symm)⟩
    · exact h.owned e₀ he₀
  · funext k
    unfold table
    rw [find_setSpot]
    by_cases hk : k = id
    · subst hk
      simp [hs]
    · simp [hk]

/-- Keeping the spots whose ids pass a test. -/
theorem Keyed.filter {m : SpotManager} (h : m.Keyed) (p : ℤ → Bool) :
    Keyed { m with mParkingSpots := m.mParkingSpots.filter fun e => p e.1 } ∧
      ∀ id, table { m with mParkingSpots := m.mParkingSpots.filter fun e => p e.1 } id =
        if p id then m.table id else none := by
  refine ⟨⟨?_, fun e he => h.owned e (List.mem_filter.mp he).1⟩, fun id => ?_⟩
  · exact h.distinct.sublist (List.filter_sublist.map Prod.fst)
  · unfold table find
    rw [KeyedTable.lookup_filter_key]
    split_ifs <;> rfl

/-- `add` fills an empty row. -/
theorem Keyed.add {m : SpotManager} (h : m.Keyed) (junk : Bool) (l : EntryLocals) :
    Keyed (m.add junk l.id l.spotName l.timeLimit l.roi l.policy).1 ∧
      table (m.add junk l.id l.spotName l.timeLimit l.roi l.policy).1 =
        KeyedTable.put EntryLocals.id EntryLocals.insertRow m.table l := by
  unfold SpotManager.add KeyedTable.put
  cases hf : m.find l.id with
  | none =>
    rw [table_of_find_none hf]
    exact h.append hf rfl
  | some p =>
    obtain ⟨s, rfl, -⟩ := h.owned.find hf
    refine ⟨h, ?_⟩
    rw [table_of_find hf]
    exact (Function.update_eq_self_iff.mpr (table_of_find hf).symm).symm

theorem add_spotsFile (m : SpotManager) (junk : Bool) (l : EntryLocals) :
    (m.add junk l.id l.spotName l.timeLimit l.roi l.policy).1.spotsFile = m.spotsFile := by
  unfold SpotManager.add
  split_ifs <;> rfl

section Entry

variable {m : SpotManager} {tables : PolicyTables} {junk : Junk} {node : PTree} {l : EntryLocals}

/-- One iteration of `updateParkingSpots` once its entry has been read. -/
theorem updateEntry_spec (hm : m.Keyed) (h : readEntry tables junk node = .ok l)
    (updated : List ℤ) :
    ∃ m', updateEntry tables junk updated node m = .ok (l.id :: updated) m' ∧ m'.Keyed ∧
      m'.table = KeyedTable.put EntryLocals.id EntryLocals.setRow m.table l ∧
      m'.spotsFile = m.spotsFile := by
  cases hf : m.find l.id with
  | none =>
    obtain ⟨hkeyed, htable⟩ := hm.add junk.isReservation_sensor l
    refine ⟨_, updateEntry_add h hf, hkeyed, ?_, add_spotsFile m _ l⟩
    rw [htable]
    unfold KeyedTable.put
    rw [table_of_find_none hf]
    rfl
  | some p =>
    obtain ⟨s, rfl, -⟩ := hm.owned.find hf
    obtain ⟨hkeyed, htable⟩ := hm.setSpot hf (EntryLocals.overwrite_mID s l)
    refine ⟨_, updateEntry_update h hf, hkeyed, ?_, rfl⟩
    rw [EntryLocals.overwrite_known] at htable
    unfold KeyedTable.put
    rw [table_of_find hf]
    exact htable

end Entry

/-- What the iterations of `updateParkingSpots` read, each with the number it has. -/
def readAll (tables : PolicyTables) (junk : ℕ → Junk) (cs : List ((String × PTree) × ℕ)) :
    Except Fault (List EntryLocals) :=
  cs.mapM fun c => readEntry tables (junk c.2) c.1.2

/-- The loop of `updateParkingSpots`. -/
def updateLoop (tables : PolicyTables) (junk : ℕ → Junk) (updated : List ℤ)
    (cs : List ((String × PTree) × ℕ)) : EStateM Fault SpotManager (List ℤ) :=
  cs.foldlM (fun updated c => updateEntry tables (junk c.2) updated c.1.2) updated

theorem updateLoop_spec {m : SpotManager} (hm : m.Keyed) {tables : PolicyTables} {junk : ℕ → Junk}
    {cs : List ((String × PTree) × ℕ)} {es : List EntryLocals}
    (h : readAll tables junk cs = .ok es) (updated : List ℤ) :
    ∃ m', updateLoop tables junk updated cs m =
        .ok ((es.map EntryLocals.id).reverse ++ updated) m' ∧ m'.Keyed ∧
      m'.table = es.foldl (KeyedTable.put EntryLocals.id EntryLocals.setRow) m.table ∧
      m'.spotsFile = m.spotsFile := by
  induction cs generalizing m es updated with
  | nil =>
    obtain rfl : [] = es := Except.ok.inj h
    exact ⟨m, rfl, hm, rfl, rfl⟩
  | cons c cs ih =>
    obtain ⟨l, ls, hl, hls, rfl⟩ := mapM_cons_ok.mp h
    obtain ⟨m₁, hstep, hk₁, ht₁, hf₁⟩ := updateEntry_spec hm hl updated
    obtain ⟨m₂, hloop, hk₂, ht₂, hf₂⟩ := ih hk₁ hls (l.id :: updated)
    refine ⟨m₂, ?_, hk₂, ?_, hf₂.trans hf₁⟩
    · rw [updateLoop, List.foldlM_cons, bind_ok _ hstep]
      simpa [updateLoop] using hloop
    · rw [ht₂, ht₁, List.foldl_cons]

/-- The spots of the map, in its order. -/
def spots (m : SpotManager) : List ParkingSpot := m.mParkingSpots.filterMap Prod.snd

theorem Owned.map_mID {m : SpotManager} (h : m.Owned) :
    m.spots.map ParkingSpot.mID = m.mParkingSpots.map Prod.fst := by
  unfold spots
  rw [List.map_filterMap, ← List.filterMap_eq_map]
  apply List.filterMap_congr
  intro e he
  obtain ⟨s, hs, hid⟩ := h e he
  rw [hs, Option.map_some, hid]
  rfl

theorem Keyed.mem_spots {m : SpotManager} (h : m.Keyed) {s : ParkingSpot} :
    s ∈ m.spots ↔ m.find s.mID = some (some s) := by
  unfold spots
  rw [List.mem_filterMap]
  constructor
  · rintro ⟨e, he, hs⟩
    obtain ⟨s', hs', hid⟩ := h.owned e he
    rw [hs'] at hs
    obtain rfl := Option.some.inj hs
    rw [hid]
    exact KeyedTable.lookup_of_mem h.distinct (hs' ▸ he)
  · intro hs
    exact ⟨_, KeyedTable.mem_of_lookup hs, rfl⟩

theorem mapM_deref_ok {α : Type} {l : SpotMap} (h : ∀ e ∈ l, ∃ s, e.2 = some s ∧ s.mID = e.1)
    (f : ℤ × Option ParkingSpot → ParkingSpot → α) :
    ∃ as, (l.mapM fun e => (deref e.2).map (f e)) = .ok as ∧
      as = l.filterMap fun e => e.2.map (f e) := by
  induction l with
  | nil => exact ⟨_, rfl, rfl⟩
  | cons e l ih =>
    obtain ⟨s, hs, -⟩ := h e List.mem_cons_self
    obtain ⟨as, has, rfl⟩ := ih fun e' he' => h e' (List.mem_cons_of_mem _ he')
    refine ⟨_, mapM_cons_ok.mpr ⟨f e s, _, by rw [hs]; rfl, has, rfl⟩, ?_⟩
    rw [List.filterMap_cons, hs]
    rfl

theorem Owned.toPTree {m : SpotManager} (h : m.Owned) :
    m.toPTree = .ok (PTree.mk "" (m.spots.map spotTree)) := by
  obtain ⟨as, has, rfl⟩ := mapM_deref_ok h fun _ => spotTree
  unfold SpotManager.toPTree spots
  rw [has, List.map_filterMap]
  rfl

/-- `updateParkingSpots` once its entries have been read: the rows are those the last entries
make, and the file, if it opens, holds the new map. -/
theorem updateParkingSpots_spec {m : SpotManager} (hm : m.Keyed) {tables : PolicyTables}
    {junk : ℕ → Junk} {root : PTree} {es : List EntryLocals}
    (h : readAll tables junk root.children.zipIdx = .ok es) (writable : Bool) :
    ∃ m' : SpotManager, m'.Keyed ∧
      m'.table = KeyedTable.sync EntryLocals.id EntryLocals.setRow es m.table ∧
      m'.spotsFile = (if writable then some (PTree.mk "" (m'.spots.map spotTree))
        else m.spotsFile) ∧
      updateParkingSpots writable tables junk root m =
        if writable then .ok true m' else .error .json_parser_error m' := by
  obtain ⟨m₁, hloop, hk₁, ht₁, hf₁⟩ := updateLoop_spec hm h []
  obtain ⟨hk₂, ht₂⟩ := hk₁.filter fun id => ((es.map EntryLocals.id).reverse ++ []).contains id
  let m₂ : SpotManager := { m₁ with
    mParkingSpots := m₁.mParkingSpots.filter fun e =>
      ((es.map EntryLocals.id).reverse ++ []).contains e.1 }
  have htable : m₂.table = KeyedTable.sync EntryLocals.id EntryLocals.setRow es m.table := by
    funext id
    rw [ht₂, ht₁]
    unfold KeyedTable.sync
    simp
  have hrun : updateParkingSpots writable tables junk root m =
      (write_json writable (PTree.mk "" (m₂.spots.map spotTree)) >>= fun _ => pure true) m₂ := by
    unfold updateParkingSpots
    change (updateLoop tables junk [] root.children.zipIdx >>= _) m = _
    rw [bind_ok _ hloop]
    change (ofExcept m₂.toPTree >>= _ : EStateM Fault SpotManager Bool) _ = _
    rw [bind_ok _ (ofExcept_apply_ok.mpr ⟨hk₂.owned.toPTree, rfl⟩)]
  rw [hrun]
  cases writable with
  | true =>
    exact ⟨{ m₂ with spotsFile := some (PTree.mk "" (m₂.spots.map spotTree)) },
      ⟨hk₂.distinct, hk₂.owned⟩, htable, rfl, rfl⟩
  | false => exact ⟨m₂, hk₂, htable, hf₁, rfl⟩

/-- The map `updateParkingSpots` leaves, whether or not its file opens. -/
theorem after_updateParkingSpots {m : SpotManager} (hm : m.Keyed) {tables : PolicyTables}
    {junk : ℕ → Junk} {root : PTree} {es : List EntryLocals}
    (h : readAll tables junk root.children.zipIdx = .ok es) (writable : Bool) :
    (after (updateParkingSpots writable tables junk root) m).Keyed ∧
      ∀ id, (after (updateParkingSpots writable tables junk root) m).table id =
        (KeyedTable.under EntryLocals.id id es).getLast?.bind (EntryLocals.setRow (m.table id)) := by
  obtain ⟨m', hk, ht, -, hrun⟩ := updateParkingSpots_spec hm h writable
  have hafter : after (updateParkingSpots writable tables junk root) m = m' := by
    unfold after
    rw [hrun]
    cases writable <;> rfl
  rw [hafter, ht]
  exact ⟨hk, fun id => EntryLocals.setRow_lastWins.sync es m.table id⟩

end SpotManager
end VisionSensor
