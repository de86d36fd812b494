import VisionSensor.Management.SpotOperations

/-! The policy tables over the life of the manager: `pullDB` fills them from the rows of the
database, and the entries of spots files and ROI lists index them. -/
namespace VisionSensor
open Unwind GuardedRun

/-- A row of the result of `pullDB`'s query. `NULL` is `none`: a spot without a policy row has no
`time_limit`. -/
structure PolicyRow where
  parking_spot_id : Option (List Char)
  policy_id : Option (List Char)
  time_limit : Option (List Char)

/-- `atoi` of a column; it follows a null pointer. -/
def atoiColumn : Option (List Char) → Except Fault ℤ
  | none => .error .undefined
  | some text => .ok (atoi text)

namespace PolicyTables

theorem toNat_lt {id : ℤ} (h : 0 ≤ id ∧ id < 1000) : id.toNat < 1000 := by omega

/-- Writing an array of 1000 at an index. -/
def set (table : Fin 1000 → ℤ) (id value : ℤ) : Except Fault (Fin 1000 → ℤ) :=
  if h : 0 ≤ id ∧ id < 1000 then .ok (Function.update table ⟨id.toNat, toNat_lt h⟩ value)
  else .error .undefined

/-- The tables before the first query. -/
def zero : PolicyTables := ⟨fun _ => 0, fun _ => 0⟩

/-- One iteration of the loop of `pullDB`. -/
def pullRow (row : PolicyRow) : EStateM Fault PolicyTables Unit := do
  let temp ← ofExcept (atoiColumn row.parking_spot_id)
  let policy ← ofExcept (atoiColumn row.policy_id)
  let po_id ← ofExcept (set (← get).po_id temp policy)
  modify fun tables => { tables with po_id }
  let limit ← ofExcept (atoiColumn row.time_limit)
  let tlimit ← ofExcept (set (← get).tlimit temp limit)
  modify fun tables => { tables with tlimit }

/-- `pullDB`, given the rows of its query. -/
def pullDB (rows : List PolicyRow) : EStateM Fault PolicyTables Unit := rows.forM pullRow

end PolicyTables

/-- No column is null, and the id is one the tables have. -/
structure PolicyRow.InBounds (row : PolicyRow) : Prop where
  id : ∃ text, row.parking_spot_id = some text ∧ 0 ≤ atoi text ∧ atoi text < 1000
  policy : row.policy_id.isSome
  limit : row.time_limit.isSome

/-- Every entry whose six keys can be read has an id the tables have. -/
def ListInBounds (root : PTree) : Prop :=
  ∀ c ∈ root.children, ∀ id, CompleteEntry c.2 id → 0 ≤ id ∧ id < 1000

namespace PolicyTables

@[simp] theorem atoiColumn_ok {column : Option (List Char)} {n : ℤ} :
    atoiColumn column = .ok n ↔ ∃ text, column = some text ∧ atoi text = n := by
  cases column <;> simp [atoiColumn]

theorem set_ok {table : Fin 1000 → ℤ} {id value : ℤ} :
    (∃ table', set table id value = .ok table') ↔ 0 ≤ id ∧ id < 1000 := by
  unfold set
  split <;> simp_all

theorem pullRow_returns_iff (row : PolicyRow) (tables : PolicyTables) :
    Returns (pullRow row) tables ↔ row.InBounds := by
  unfold pullRow
  simp only [returns_ofExcept_bind, returns_get_bind, returns_modify_bind, returns_modify,
    atoiColumn_ok, and_true]
  constructor
  · rintro ⟨_, ⟨text, hid, rfl⟩, _, ⟨policy, hpolicy, rfl⟩, po_id, hset, _, ⟨limit, hlimit, rfl⟩, -⟩
    exact ⟨⟨text, hid, set_ok.mp ⟨po_id, hset⟩⟩, by simp [hpolicy], by simp [hlimit]⟩
  · rintro ⟨⟨text, hid, hrange⟩, hpolicy, hlimit⟩
    obtain ⟨policy, hpolicy⟩ := Option.isSome_iff_exists.mp hpolicy
    obtain ⟨limit, hlimit⟩ := Option.isSome_iff_exists.mp hlimit
    obtain ⟨po_id, hpo⟩ := set_ok.mpr hrange
    exact ⟨_, ⟨text, hid, rfl⟩, _, ⟨policy, hpolicy, rfl⟩, po_id, hpo, _, ⟨limit, hlimit, rfl⟩,
      set_ok.mpr hrange⟩

theorem pullDB_returns_iff (rows : List PolicyRow) (tables : PolicyTables) :
    Returns (pullDB rows) tables ↔ ∀ row ∈ rows, row.InBounds :=
  returns_forM_iff pullRow_returns_iff rows tables

end PolicyTables

section Entry

variable {node : PTree}

/-- A complete entry goes as far as the tables, whose index is its id. -/
theorem parseEntry_out_of_range (tables : PolicyTables) {id : ℤ} (h : CompleteEntry node id)
    (hrange : ¬ (0 ≤ id ∧ id < 1000)) (l : EntryLocals) :
    ∃ l', parseEntry tables node l = .error .undefined l' := by
  obtain ⟨hid, ⟨spotName, hname⟩, ⟨x, hx⟩, ⟨y, hy⟩, ⟨width, hwidth⟩, ⟨height, hheight⟩⟩ := h
  have hat : PolicyTables.at tables.po_id id = .error .undefined := dif_neg hrange
  unfold parseEntry
  simp only [hid, hname, hx, hy, hwidth, hheight, hat, ofExcept_ok, pure_bind]
  exact ⟨_, rfl⟩

/-- An entry is read without undefined behaviour when it never gets to the tables or its id is one
they have. -/
theorem readEntry_ok_iff (tables : PolicyTables) (junk : Junk) :
    (∃ l, readEntry tables junk node = .ok l) ↔
      ∀ id, CompleteEntry node id → 0 ≤ id ∧ id < 1000 := by
  constructor
  · rintro ⟨l, hl⟩ id hcomplete
    by_contra hrange
    obtain ⟨l', hparse⟩ := parseEntry_out_of_range tables hcomplete hrange
      { id := junk.id, timeLimit := junk.timeLimit, policy := junk.policy }
    rw [readEntry, hparse] at hl
    cases hl
  · intro h
    by_cases hcomplete : ∃ id, CompleteEntry node id
    · obtain ⟨id, hid⟩ := hcomplete
      obtain ⟨e, he⟩ := Option.isSome_iff_exists.mp (hid.wellFormed (h id hid))
      exact ⟨_, readEntry_wellFormed he tables junk⟩
    · obtain ⟨l, hl, -⟩ := readEntry_incomplete tables junk (not_exists.mp hcomplete)
      exact ⟨l, hl⟩

end Entry

namespace SpotManager

variable (tables : PolicyTables) (junk : ℕ → Junk)

theorem loadEntry_returns_iff (junk : Junk) (node : PTree)
    (m : SpotManager) :
    Returns (loadEntry tables junk node) m ↔
      ∀ id, CompleteEntry node id → 0 ≤ id ∧ id < 1000 := by
  rw [← readEntry_ok_iff tables junk]
  unfold loadEntry readEntry
  cases parseEntry tables node
    { id := junk.id, timeLimit := junk.timeLimit, policy := junk.policy } with
  | ok _ l => exact iff_of_true (returns_modify _ _) ⟨l, rfl⟩
  | error e l =>
    show Returns (if e.isPtreeError then pure () else throw e) m ↔
      ∃ l', (if e.isPtreeError then Except.ok l else .error e) = .ok l'
    split_ifs
    · exact iff_of_true (returns_pure _ _) ⟨l, rfl⟩
    · apply iff_of_false
      · rintro ⟨_, _, h⟩
        cases h
      · rintro ⟨_, h⟩
        cases h

theorem forall_zipIdx {C : PTree → Prop} (root : PTree) :
    (∀ c ∈ root.children.zipIdx, C c.1.2) ↔ ∀ c ∈ root.children, C c.2 := by
  constructor
  · intro h c hc
    rw [← List.zipIdx_map_fst 0 root.children] at hc
    obtain ⟨c', hc', rfl⟩ := List.mem_map.mp hc
    exact h c' hc'
  · intro h c hc
    exact h c.1 (List.fst_mem_of_mem_zipIdx hc)

theorem loadEntry_throws (junk : Junk) (node : PTree) :
    ThrowsOnly (· = .undefined) (loadEntry tables junk node) := by
  unfold loadEntry
  cases hparse : parseEntry tables node
    { id := junk.id, timeLimit := junk.timeLimit, policy := junk.policy } with
  | ok _ l => exact throwsOnly_modify _ _
  | error e l =>
    show ThrowsOnly _ (if e.isPtreeError then pure () else throw e)
    split_ifs with he
    · exact throwsOnly_pure _ _
    · obtain rfl := (parseEntry_throws tables node _ _ _ hparse).resolve_left he
      exact throwsOnly_throw rfl

theorem readFromJSONFile_throws (json : Option PTree) :
    ThrowsOnly (· = .undefined) (readFromJSONFile json tables junk) := by
  cases json with
  | none => exact throwsOnly_pure _ _
  | some root =>
    apply throwsOnly_bind
    · exact throwsOnly_forM (fun c : (String × PTree) × ℕ => loadEntry_throws _ _ c.1.2) _
    · intro _
      exact throwsOnly_pure _ _

theorem readFromJSONFile_returns_iff (root : PTree) (m : SpotManager) :
    Returns (readFromJSONFile (some root) tables junk) m ↔ ListInBounds root := by
  unfold ListInBounds
  rw [← forall_zipIdx (C := fun node => ∀ id, CompleteEntry node id → 0 ≤ id ∧ id < 1000),
    ← returns_forM_iff (fun c m => loadEntry_returns_iff tables (junk c.2) c.1.2 m) _ m]
  show Returns (_ >>= fun _ => pure true) m ↔ _
  rw [returns_bind_iff]
  constructor
  · rintro ⟨a, t, hloop, -⟩
    exact ⟨a, t, hloop⟩
  · rintro ⟨a, t, hloop⟩
    exact ⟨a, t, hloop, returns_pure _ _⟩

theorem readFromJSONFile_defined_iff (json : Option PTree) (m : SpotManager) :
    (∀ t, readFromJSONFile json tables junk m ≠ .error .undefined t) ↔
      ∀ root, json = some root → ListInBounds root := by
  rw [← returns_iff_of_throwsOnly (readFromJSONFile_throws tables junk json)]
  cases json with
  | none => exact iff_of_true (returns_pure _ _) (by simp)
  | some root => simpa using readFromJSONFile_returns_iff tables junk root m

theorem updateEntry_returns_iff {m : SpotManager} (hm : m.Keyed) (junk : Junk) (updated : List ℤ)
    (node : PTree) :
    Returns (updateEntry tables junk updated node) m ↔
      ∀ id, CompleteEntry node id → 0 ≤ id ∧ id < 1000 := by
  rw [← readEntry_ok_iff tables junk]
  cases hread : readEntry tables junk node with
  | ok l =>
    obtain ⟨m', hrun, -⟩ := updateEntry_spec hm hread updated
    exact iff_of_true ⟨_, m', hrun⟩ ⟨l, rfl⟩
  | error e =>
    apply iff_of_false
    · rintro ⟨_, _, h⟩
      rw [updateEntry_error hread] at h
      cases h
    · rintro ⟨_, h⟩
      cases h

/-- The loop of `updateParkingSpots` ends exactly when every complete entry has a listed id. -/
theorem updateLoop_returns_iff {m : SpotManager} (hm : m.Keyed) (root : PTree) :
    Returns (updateLoop tables junk [] root.children.zipIdx) m ↔ ListInBounds root := by
  unfold ListInBounds
  rw [← forall_zipIdx (C := fun node => ∀ id, CompleteEntry node id → 0 ≤ id ∧ id < 1000)]
  apply returns_foldlM_iff (I := Keyed)
  · intro updated c
    exact keeps_updateEntry _ _ _ _
  · intro updated c m hm
    exact updateEntry_returns_iff tables hm _ _ _
  · exact hm

/-- No entry of the list takes `updateParkingSpots` outside the tables. -/
theorem updateParkingSpots_defined_iff {m : SpotManager} (hm : m.Keyed) (writable : Bool)
    (root : PTree) :
    (∀ t, updateParkingSpots writable tables junk root m ≠ .error .undefined t) ↔
      ListInBounds root := by
  constructor
  · intro h
    rw [← updateLoop_returns_iff tables junk hm]
    apply returns_of_throwsOnly (e := .undefined)
    · exact throwsOnly_foldlM (fun _ _ => updateEntry_throws _ _ _ _) _ _
    · intro t hloop
      exact h t (bind_error _ hloop)
  · intro h t hrun
    have hread : readAll tables junk root.children.zipIdx =
        .ok (root.children.zipIdx.map fun c => readLocals tables (junk c.2) c.1.2) := by
      apply mapM_eq_ok_map
      intro c hc
      obtain ⟨l, hl⟩ := (readEntry_ok_iff _ _).mpr (h c.1 (List.fst_mem_of_mem_zipIdx hc))
      rw [hl, readLocals_eq hl]
    obtain ⟨m', -, -, -, hspec⟩ := updateParkingSpots_spec hm hread writable
    rw [hrun] at hspec
    split_ifs at hspec
    cases hspec

theorem Call.step_isSome_iff {m : SpotManager} {call : Call} :
    (step m call).isSome ↔ ∀ t, call.run m ≠ .error .undefined t := by
  unfold step
  split <;> simp_all

end SpotManager

/-- The manager with the policy tables. -/
structure PolicyStore where
  manager : SpotManager
  tables : PolicyTables

/-- A call that goes to the tables: the loader of the spots file, which pulls the database first,
or the update from a client's list. -/
inductive TableCall where
  | readFromJSONFile (rows : List PolicyRow) (json : Option PTree) (junk : ℕ → Junk)
  | updateParkingSpots (writable : Bool) (junk : ℕ → Junk) (root : PTree)

namespace PolicyStore

/-- The empty map the constructor starts from; the tables are static. -/
def start (file : Option PTree) : PolicyStore := ⟨{ spotsFile := file }, .zero⟩

/-- One call; there is no step for undefined behaviour. -/
def step (s : PolicyStore) : TableCall → Option PolicyStore
  | .readFromJSONFile rows json junk =>
      match PolicyTables.pullDB rows s.tables with
      | .error _ _ => none
      | .ok _ tables =>
          (SpotManager.Call.step s.manager (.readFromJSONFile json tables junk)).map fun manager =>
            ⟨manager, tables⟩
  | .updateParkingSpots writable junk root =>
      (SpotManager.Call.step s.manager (.updateParkingSpots writable s.tables junk root)).map
        fun manager => { s with manager }

/-- What the call is given stays within the tables. -/
def InBounds : TableCall → Prop
  | .readFromJSONFile rows json _ =>
      (∀ row ∈ rows, row.InBounds) ∧ ∀ root, json = some root → ListInBounds root
  | .updateParkingSpots _ _ root => ListInBounds root

theorem step_load_error {s : PolicyStore} {rows : List PolicyRow} {json : Option PTree}
    {junk : ℕ → Junk} {e : Fault} {t : PolicyTables}
    (h : PolicyTables.pullDB rows s.tables = .error e t) :
    step s (.readFromJSONFile rows json junk) = none := by
  simp only [step, h]

theorem step_load_ok {s : PolicyStore} {rows : List PolicyRow} {json : Option PTree}
    {junk : ℕ → Junk} {tables : PolicyTables}
    (h : PolicyTables.pullDB rows s.tables = .ok () tables) :
    step s (.readFromJSONFile rows json junk) =
      (SpotManager.Call.step s.manager (.readFromJSONFile json tables junk)).map fun manager =>
        ⟨manager, tables⟩ := by
  simp only [step, h]

theorem step_keyed {s t : PolicyStore} {call : TableCall} (hs : s.manager.Keyed)
    (h : step s call = some t) : t.manager.Keyed := by
  cases call with
  | readFromJSONFile rows json junk =>
    cases hpull : PolicyTables.pullDB rows s.tables with
    | error e tables =>
      rw [step_load_error hpull] at h
      cases h
    | ok _ tables =>
      rw [step_load_ok hpull] at h
      obtain ⟨m, hm, rfl⟩ := Option.map_eq_some_iff.mp h
      exact SpotManager.Call.keyed_step hs (by simp [SpotManager.Call.FindsSpot]) hm
  | updateParkingSpots writable junk root =>
    obtain ⟨m, hm, rfl⟩ := Option.map_eq_some_iff.mp h
    exact SpotManager.Call.keyed_step hs (by simp [SpotManager.Call.FindsSpot]) hm

/-- A call is free of undefined behaviour exactly when what it is given stays within the tables. -/
theorem step_isSome_iff {s : PolicyStore} (hs : s.manager.Keyed) (call : TableCall) :
    (step s call).isSome ↔ InBounds call := by
  cases call with
  | readFromJSONFile rows json junk =>
    show _ ↔ (∀ row ∈ rows, row.InBounds) ∧ _
    rw [← PolicyTables.pullDB_returns_iff rows s.tables]
    cases hpull : PolicyTables.pullDB rows s.tables with
    | error e t =>
      rw [step_load_error hpull]
      apply iff_of_false (by simp)
      rintro ⟨⟨a, u, hreturns⟩, -⟩
      rw [hpull] at hreturns
      cases hreturns
    | ok _ tables =>
      have hreturns : Returns (PolicyTables.pullDB rows) s.tables := ⟨_, _, hpull⟩
      rw [step_load_ok hpull, Option.isSome_map, SpotManager.Call.step_isSome_iff,
        and_iff_right hreturns,
        ← SpotManager.readFromJSONFile_defined_iff tables junk json s.manager]
      apply forall_congr'
      intro t
      exact not_congr bind_pure_eq_error
  | updateParkingSpots writable junk root =>
    show (Option.map _ _).isSome ↔ ListInBounds root
    rw [Option.isSome_map, SpotManager.Call.step_isSome_iff,
      ← SpotManager.updateParkingSpots_defined_iff s.tables junk hs writable]
    apply forall_congr'
    intro t
    exact not_congr bind_pure_eq_error

/-- A run of loads and updates indexes the tables in bounds throughout, and reads no null column,
exactly when every row, file and list it is given does. -/
theorem run_isSome_iff (file : Option PTree) (calls : List TableCall) :
    (exec step (start file) calls).isSome ↔ ∀ call ∈ calls, InBounds call := by
  apply exec_isSome_iff (I := fun s => s.manager.Keyed)
  · intro s call t
    exact step_keyed
  · intro s call hs
    exact step_isSome_iff hs call
  · exact SpotManager.keyed_empty file

/-- A spot without a policy: the outer join finds no `time_limit` for it. A client's list with
the id 1000. -/
theorem null_limit_and_id_1000_undefined :
    exec step (start none) [.readFromJSONFile [⟨some "1".toList, some "5".toList, none⟩] none
      SpotManager.flatJunk] = none ∧
    exec step (start none) [.readFromJSONFile [⟨some "1".toList, some "5".toList, some "60".toList⟩]
      none SpotManager.flatJunk, .updateParkingSpots true SpotManager.flatJunk
        (PTree.mk "" [SpotManager.listNode "1000" "A"])] = none :=
  ⟨rfl, rfl⟩

end PolicyStore
end VisionSensor
