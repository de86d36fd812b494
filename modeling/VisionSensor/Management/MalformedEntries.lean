import VisionSensor.Management.SpotList

/-! What the malformed entries of a spot list do. The `catch` of `updateParkingSpots` goes on with
the locals as they are, so such an entry still adds or updates a spot. -/
namespace VisionSensor
open Unwind

/-- Every id that can be read is one the policy tables have. -/
def IdsListed (root : PTree) : Prop :=
  ∀ c ∈ root.children, ∀ id, c.2.getInt "parkingSpotId" = .ok id → 0 ≤ id ∧ id < 1000

/-- All six keys of an entry can be read: the iteration gets as far as the policy tables. -/
structure CompleteEntry (node : PTree) (id : ℤ) : Prop where
  id : node.getInt "parkingSpotId" = .ok id
  spotName : ∃ s, node.getString "parkingSpotName" = .ok s
  x : ∃ n, node.getInt "roiCoordX" = .ok n
  y : ∃ n, node.getInt "roiCoordY" = .ok n
  width : ∃ n, node.getInt "roiWidth" = .ok n
  height : ∃ n, node.getInt "roiHeight" = .ok n

/-- The list without its malformed entries. -/
def withoutMalformed (root : PTree) : PTree :=
  PTree.mk root.data (root.children.filter fun c => (spotEntry c.2).isSome)

/-- The uninitialised locals hold values of their type. -/
def Junk.InRange (junk : Junk) : Prop := InInt junk.id ∧ InInt junk.timeLimit ∧ InInt junk.policy

/-- The locals after the `try` block when the entry is read within the tables. -/
def readLocals (tables : PolicyTables) (junk : Junk) (node : PTree) : EntryLocals :=
  after (parseEntry tables node)
    { id := junk.id, timeLimit := junk.timeLimit, policy := junk.policy }

section Entry

variable {tables : PolicyTables} {junk : Junk} {node : PTree} {e : Fault} {l : EntryLocals}

theorem readLocals_eq (h : readEntry tables junk node = .ok l) :
    readLocals tables junk node = l := by
  unfold readEntry at h
  unfold readLocals after
  split at h
  · rename_i hparse
    rw [hparse]
    exact Except.ok.inj h
  · rename_i hparse
    split_ifs at h
    rw [hparse]
    exact Except.ok.inj h

/-- An exception the `catch` takes leaves the locals as they are. -/
theorem readEntry_caught (he : e.isPtreeError = true)
    (h : parseEntry tables node
      { id := junk.id, timeLimit := junk.timeLimit, policy := junk.policy } = .error e l) :
    readEntry tables junk node = .ok l := by
  unfold readEntry
  rw [h]
  exact if_pos he

theorem readEntry_no_id (tables : PolicyTables) (junk : Junk)
    (h : node.getInt "parkingSpotId" = .error e) :
    ∃ l, readEntry tables junk node = .ok l ∧ l.id = junk.id ∧ l.policy = junk.policy := by
  refine ⟨{ id := junk.id, timeLimit := junk.timeLimit, policy := junk.policy }, ?_, rfl, rfl⟩
  apply readEntry_caught (PTree.getInt_error h)
  simp only [parseEntry, h]
  rfl

/-- A `try` block that is left at a key leaves the policy alone, which is assigned after all keys
have been read, and has assigned the id if that was read. -/
theorem parseEntry_incomplete (tables : PolicyTables) (start : EntryLocals)
    (h : ∀ id, ¬ CompleteEntry node id) :
    ∃ e l, parseEntry tables node start = .error e l ∧ e.isPtreeError = true ∧
      l.policy = start.policy ∧ ∀ id, node.getInt "parkingSpotId" = .ok id → l.id = id := by
  cases hid : node.getInt "parkingSpotId" with
  | error e =>
    refine ⟨e, start, ?_, PTree.getInt_error hid, rfl, fun _ hid' => nomatch hid'⟩
    simp only [parseEntry, hid]
    rfl
  | ok id =>
  have hleft : ∀ {e l}, parseEntry tables node start = .error e l → e.isPtreeError = true →
      l.policy = start.policy → l.id = id →
      ∃ e l, parseEntry tables node start = .error e l ∧ e.isPtreeError = true ∧
        l.policy = start.policy ∧ ∀ id', (.ok id : Except Fault ℤ) = .ok id' → l.id = id' :=
    fun hparse he hpolicy hl =>
      ⟨_, _, hparse, he, hpolicy, fun _ hid' => hl.trans (Except.ok.inj hid')⟩
  cases hname : node.getString "parkingSpotName" with
  | error e =>
    exact hleft (by simp only [parseEntry, hid, hname, ofExcept_ok, pure_bind]; rfl)
      (PTree.getString_error hname) (by rfl) (by rfl)
  | ok spotName =>
  cases hx : node.getInt "roiCoordX" with
  | error e =>
    exact hleft (by simp only [parseEntry, hid, hname, hx, ofExcept_ok, pure_bind]; rfl)
      (PTree.getInt_error hx) (by rfl) (by rfl)
  | ok x =>
  cases hy : node.getInt "roiCoordY" with
  | error e =>
    exact hleft (by simp only [parseEntry, hid, hname, hx, hy, ofExcept_ok, pure_bind]; rfl)
      (PTree.getInt_error hy) (by rfl) (by rfl)
  | ok y =>
  cases hwidth : node.getInt "roiWidth" with
  | error e =>
    exact hleft (by simp only [parseEntry, hid, hname, hx, hy, hwidth, ofExcept_ok, pure_bind]; rfl)
      (PTree.getInt_error hwidth) (by rfl) (by rfl)
  | ok width =>
  cases hheight : node.getInt "roiHeight" with
  | error e =>
    exact hleft
      (by simp only [parseEntry, hid, hname, hx, hy, hwidth, hheight, ofExcept_ok, pure_bind]; rfl)
      (PTree.getInt_error hheight) (by rfl) (by rfl)
  | ok height =>
    exact absurd ⟨hid, ⟨_, hname⟩, ⟨_, hx⟩, ⟨_, hy⟩, ⟨_, hwidth⟩, ⟨_, hheight⟩⟩ (h id)

/-- An iteration that leaves the `try` block at a key goes on with these locals. -/
theorem readEntry_incomplete (tables : PolicyTables) (junk : Junk)
    (h : ∀ id, ¬ CompleteEntry node id) :
    ∃ l, readEntry tables junk node = .ok l ∧ l.policy = junk.policy ∧
      ∀ id, node.getInt "parkingSpotId" = .ok id → l.id = id := by
  obtain ⟨e, l, hparse, he, hpolicy, hid⟩ := parseEntry_incomplete tables
    { id := junk.id, timeLimit := junk.timeLimit, policy := junk.policy } h
  exact ⟨l, readEntry_caught he hparse, hpolicy, hid⟩

/-- A complete entry whose id the policy tables have is well formed. -/
theorem CompleteEntry.wellFormed {id : ℤ} (h : CompleteEntry node id) (hrange : 0 ≤ id ∧ id < 1000) :
    (spotEntry node).isSome := by
  obtain ⟨hid, ⟨spotName, hname⟩, ⟨x, hx⟩, ⟨y, hy⟩, ⟨width, hwidth⟩, ⟨height, hheight⟩⟩ := h
  have hsome : spotEntry node = some ⟨id, spotName, ⟨x, y, width, height⟩, hrange⟩ :=
    spotEntry_eq_some.mpr ⟨hid, hname, hx, hy, hwidth, hheight⟩
  rw [hsome]
  rfl

theorem readEntry_with_id (tables : PolicyTables) (junk : Junk) {id : ℤ}
    (hid : node.getInt "parkingSpotId" = .ok id)
    (hrange : 0 ≤ id ∧ id < 1000) (h : spotEntry node = none) :
    ∃ l, readEntry tables junk node = .ok l ∧ l.id = id ∧ l.policy = junk.policy := by
  obtain ⟨l, hl, hpolicy, hlid⟩ := readEntry_incomplete tables junk fun id' hcomplete => by
    obtain rfl := Except.ok.inj (hid.symm.trans hcomplete.id)
    have hsome := hcomplete.wellFormed hrange
    rw [h] at hsome
    cases hsome
  exact ⟨l, hl, hlid id hid, hpolicy⟩

theorem readLocals_wellFormed {e : SpotEntry} (h : spotEntry node = some e) :
    readLocals tables junk node = e.locals tables :=
  readLocals_eq (readEntry_wellFormed h tables junk)

/-- Within the tables, every iteration goes on with some locals. -/
theorem readEntry_listed
    (h : ∀ id, node.getInt "parkingSpotId" = .ok id → 0 ≤ id ∧ id < 1000) :
    readEntry tables junk node = .ok (readLocals tables junk node) := by
  suffices hread : ∃ l, readEntry tables junk node = .ok l by
    obtain ⟨l, hl⟩ := hread
    rw [readLocals_eq hl, hl]
  cases hid : node.getInt "parkingSpotId" with
  | error e =>
    obtain ⟨l, hl, -⟩ := readEntry_no_id tables junk hid
    exact ⟨l, hl⟩
  | ok id =>
    cases hentry : spotEntry node with
    | some e => exact ⟨_, readEntry_wellFormed hentry tables junk⟩
    | none =>
      obtain ⟨l, hl, -⟩ := readEntry_with_id tables junk hid (h id hid) hentry
      exact ⟨l, hl⟩

end Entry

namespace SpotManager

/-- What all iterations go on with. -/
def allLocals (tables : PolicyTables) (junk : ℕ → Junk) (root : PTree) : List EntryLocals :=
  root.children.zipIdx.map fun c => readLocals tables (junk c.2) c.1.2

theorem readAll_listed {root : PTree} (h : IdsListed root) (tables : PolicyTables)
    (junk : ℕ → Junk) :
    readAll tables junk root.children.zipIdx = .ok (allLocals tables junk root) :=
  mapM_eq_ok_map fun c hc => readEntry_listed (h c.1 (List.fst_mem_of_mem_zipIdx hc))

theorem mem_allLocals (tables : PolicyTables) (junk : ℕ → Junk) {root : PTree}
    {c : String × PTree} (h : c ∈ root.children) :
    ∃ i, readLocals tables (junk i) c.2 ∈ allLocals tables junk root := by
  obtain ⟨i, hi⟩ := List.mem_iff_getElem?.mp h
  exact ⟨i, List.mem_map.mpr ⟨(c, i), List.mk_mem_zipIdx_iff_getElem?.mpr hi, rfl⟩⟩

/-- The last entry read with an id, and what comes after it in the list. -/
theorem last_read {tables : PolicyTables} {junk : ℕ → Junk} {root : PTree} {id : ℤ}
    {l : EntryLocals}
    (h : (KeyedTable.under EntryLocals.id id (allLocals tables junk root)).getLast? = some l) :
    ∃ pre c post i, root.children = pre ++ c :: post ∧ l = readLocals tables (junk i) c.2 ∧
      l.id = id ∧ ∀ c' ∈ post, ∃ j, (readLocals tables (junk j) c'.2).id ≠ id := by
  obtain ⟨ls, ls', hsplit, hid, hpost⟩ := KeyedTable.getLast?_under_eq_some.mp h
  obtain ⟨zs, zs', hzs, -, hzs'⟩ := List.map_eq_append_iff.mp hsplit
  obtain ⟨z, zs'', rfl, rfl, rfl⟩ := List.map_eq_cons_iff.mp hzs'
  refine ⟨zs.map Prod.fst, z.1, zs''.map Prod.fst, z.2, ?_, rfl, hid, ?_⟩
  · rw [← List.zipIdx_map_fst 0 root.children, hzs, List.map_append, List.map_cons]
  · intro c' hc'
    obtain ⟨z', hz', rfl⟩ := List.mem_map.mp hc'
    exact ⟨z'.2, hpost _ (List.mem_map.mpr ⟨z', hz', rfl⟩)⟩

theorem mem_entries {root : PTree} {e : SpotEntry} :
    e ∈ entries root ↔ ∃ c ∈ root.children, spotEntry c.2 = some e := List.mem_filterMap

theorem entries_withoutMalformed (root : PTree) :
    entries (withoutMalformed root) = entries root := by
  unfold entries withoutMalformed
  rw [PTree.children, List.filterMap_filter]
  apply List.filterMap_congr
  intro c _
  cases spotEntry c.2 <;> rfl

section Run

variable {m : SpotManager} {root : PTree} {writable : Bool} {tables : PolicyTables}

theorem table_after (hm : m.Keyed) (hids : IdsListed root) (junk : ℕ → Junk) (id : ℤ) :
    (after (updateParkingSpots writable tables junk root) m).table id =
      (KeyedTable.under EntryLocals.id id (allLocals tables junk root)).getLast?.bind
        (EntryLocals.setRow (m.table id)) :=
  (after_updateParkingSpots hm (readAll_listed hids tables junk) writable).2 id

theorem table_after_isSome (writable : Bool) (hm : m.Keyed) (hids : IdsListed root)
    (junk : ℕ → Junk) (id : ℤ) :
    ((after (updateParkingSpots writable tables junk root) m).table id).isSome ↔
      ∃ l ∈ allLocals tables junk root, l.id = id := by
  rw [table_after hm hids]
  cases hlast : (KeyedTable.under EntryLocals.id id (allLocals tables junk root)).getLast? with
  | none =>
    have hnone := KeyedTable.under_eq_nil_iff.mp (List.getLast?_eq_none_iff.mp hlast)
    simpa using hnone
  | some l =>
    have hl := KeyedTable.mem_under.mp (List.mem_of_getLast? hlast)
    exact iff_of_true (setRow_isSome _ _) ⟨l, hl⟩

theorem wellFormed_withoutMalformed (root : PTree) : WellFormed (withoutMalformed root) :=
  fun _ hc => (List.mem_filter.mp hc).2

theorem table_after_withoutMalformed (hm : m.Keyed) (junk : ℕ → Junk) (id : ℤ) :
    (after (updateParkingSpots writable tables junk (withoutMalformed root)) m).table id =
      (lastEntry root id).bind fun e => EntryLocals.setRow (m.table id) (e.locals tables) := by
  have hread := readAll_children (wellFormed_withoutMalformed root) tables junk
  rw [entries_withoutMalformed] at hread
  rw [(after_updateParkingSpots hm hread writable).2, getLast?_under_locals, Option.bind_map]
  rfl

/-- Whatever the uninitialised locals hold, the map is the one the list without its malformed
entries gives. -/
def IgnoresMalformed (writable : Bool) (tables : PolicyTables) (root : PTree) (m : SpotManager) :
    Prop :=
  ∀ junk junk' : ℕ → Junk, (∀ i, (junk i).InRange) → (∀ i, (junk' i).InRange) → ∀ id,
    (after (updateParkingSpots writable tables junk root) m).table id =
      (after (updateParkingSpots writable tables junk' (withoutMalformed root)) m).table id

/-- Every malformed entry has a readable id, and either a well formed entry with that id comes
after it, or the spot with that id is occupied and not overstayed and has some well formed
entry. -/
def MalformedHidden (root : PTree) (m : SpotManager) : Prop :=
  ∀ pre c post, root.children = pre ++ c :: post → spotEntry c.2 = none →
    ∃ id, c.2.getInt "parkingSpotId" = .ok id ∧
      ((∃ e ∈ entries (PTree.mk "" post), e.id = id) ∨
        (∃ e ∈ entries root, e.id = id) ∧
          ∃ s, m.find id = some (some s) ∧ s.mOccupied = true ∧ s.mOverstayed = false)

theorem lastEntry_eq_some {id : ℤ} {pre post : List (String × PTree)} {c : String × PTree}
    {e : SpotEntry} (hsplit : root.children = pre ++ c :: post) (hc : spotEntry c.2 = some e)
    (hid : e.id = id) (hpost : ∀ e' ∈ entries (PTree.mk "" post), e'.id ≠ id) :
    lastEntry root id = some e := by
  refine KeyedTable.getLast?_under_eq_some.mpr
    ⟨entries (PTree.mk "" pre), entries (PTree.mk "" post), ?_, hid, hpost⟩
  unfold entries
  rw [hsplit, List.filterMap_append, List.filterMap_cons, hc]
  rfl

/-- The entries that come after the last one read with an id have other ids. -/
theorem entries_post {junk : ℕ → Junk} {id : ℤ} {post : List (String × PTree)}
    (h : ∀ c ∈ post, ∃ j, (readLocals tables (junk j) c.2).id ≠ id) :
    ∀ e ∈ entries (PTree.mk "" post), e.id ≠ id := by
  intro e he
  obtain ⟨c, hc, hce⟩ := mem_entries.mp he
  obtain ⟨j, hj⟩ := h c hc
  rw [readLocals_wellFormed hce] at hj
  exact hj

theorem ignoresMalformed_of_hidden (hm : m.Keyed) (hids : IdsListed root)
    (h : MalformedHidden root m) : IgnoresMalformed writable tables root m := by
  intro junk junk' _ _ id
  rw [table_after hm hids, table_after_withoutMalformed hm]
  cases hlast : (KeyedTable.under EntryLocals.id id (allLocals tables junk root)).getLast? with
  | none =>
    have hnone : lastEntry root id = none := by
      rw [← Option.not_isSome_iff_eq_none, lastEntry_isSome_iff]
      rintro ⟨e, he, heid⟩
      obtain ⟨c, hc, hce⟩ := mem_entries.mp he
      obtain ⟨i, hi⟩ := mem_allLocals tables junk hc
      rw [readLocals_wellFormed hce] at hi
      have hnot := KeyedTable.under_eq_nil_iff.mp (List.getLast?_eq_none_iff.mp hlast)
      exact hnot (List.mem_map.mpr ⟨_, hi, heid⟩)
    rw [hnone]
    rfl
  | some l =>
    obtain ⟨pre, c, post, i, hsplit, rfl, hid, hafter⟩ := last_read hlast
    have hpost := entries_post hafter
    have hc : c ∈ root.children := by simp [hsplit]
    cases hce : spotEntry c.2 with
    | some e =>
      rw [readLocals_wellFormed hce] at hid ⊢
      rw [lastEntry_eq_some hsplit hce hid hpost]
      rfl
    | none =>
      obtain ⟨id', hget, hcover⟩ := h pre c post hsplit hce
      obtain ⟨l, hread, hlid, -⟩ :=
        readEntry_with_id tables (junk i) hget (hids c hc id' hget) hce
      rw [readLocals_eq hread] at hid ⊢
      obtain rfl : id' = id := hlid.symm.trans hid
      rcases hcover with ⟨e, he, heid⟩ | ⟨hex, s, hs, hlocked⟩
      · exact absurd heid (hpost e he)
      · -- the guard of `update` keeps the spot as it is in both runs
        obtain ⟨e, he⟩ := Option.isSome_iff_exists.mp (lastEntry_isSome_iff.mpr hex)
        have hkeep : ∀ l, EntryLocals.overwrite s.known l = s.known :=
          EntryLocals.overwrite_locked (s := s.known) (locked_iff.mpr hlocked)
        rw [he, table_of_find hs, Option.bind_some, Option.bind_some, EntryLocals.setRow_some,
          EntryLocals.setRow_some, hkeep, hkeep]

/-- Without a running timer, the row takes the policy of the entry. -/
theorem setRow_policy {o : Option ParkingSpot} (h : ∀ s, o = some s → s.locked = false)
    (l : EntryLocals) : (EntryLocals.setRow o l).map ParkingSpot.mParkingPolicy = some l.policy := by
  cases o with
  | none => rfl
  | some s =>
    rw [EntryLocals.setRow_some, EntryLocals.overwrite_unlocked (h s rfl)]
    rfl

/-- Values of the uninitialised locals that no list can account for. -/
def strayJunk (policy : ℤ) : Junk := ⟨1000, 0, policy, false⟩

theorem strayJunk_inRange {policy : ℤ} (h : policy = 0 ∨ policy = 1) :
    (strayJunk policy).InRange := by
  rcases h with rfl | rfl
  · exact ⟨by decide, by decide, by decide⟩
  · exact ⟨by decide, by decide, by decide⟩

/-- With no well formed entry for the id after a malformed one, the last entry read with the id is
malformed too. -/
theorem last_read_policy (hids : IdsListed root) {pre post : List (String × PTree)}
    {c : String × PTree} {id policy : ℤ} (hsplit : root.children = pre ++ c :: post)
    (hce : spotEntry c.2 = none) (hget : c.2.getInt "parkingSpotId" = .ok id)
    (hpost : ¬ ∃ e ∈ entries (PTree.mk "" post), e.id = id) {l : EntryLocals}
    (hlast : (KeyedTable.under EntryLocals.id id
      (allLocals tables (fun _ => strayJunk policy) root)).getLast? = some l) :
    l.policy = policy := by
  obtain ⟨pre', c', post', i, hsplit', rfl, hid, hafter⟩ := last_read hlast
  have hrange : 0 ≤ id ∧ id < 1000 := hids c (by simp [hsplit]) id hget
  have hc' : c' ∈ root.children := by simp [hsplit']
  have hce' : spotEntry c'.2 = none := by
    cases hsome : spotEntry c'.2 with
    | none => rfl
    | some e =>
      exfalso
      rw [readLocals_wellFormed hsome] at hid
      rcases KeyedTable.after_or_after (hsplit.symm.trans hsplit') with rfl | hmem | hmem
      · rw [hce] at hsome
        cases hsome
      · exact hpost ⟨e, mem_entries.mpr ⟨c', hmem, hsome⟩, hid⟩
      · obtain ⟨j, hj⟩ := hafter c hmem
        obtain ⟨l, hread, hlid, -⟩ := readEntry_with_id tables (strayJunk policy)
          hget hrange hce
        rw [readLocals_eq hread] at hj
        exact hj hlid
  cases hget' : c'.2.getInt "parkingSpotId" with
  | error e =>
    obtain ⟨l, hread, hl, -⟩ := readEntry_no_id tables (strayJunk policy) hget'
    rw [readLocals_eq hread] at hid
    have hstray : id = 1000 := hid.symm.trans hl
    omega
  | ok id' =>
    obtain ⟨l, hread, -, hl⟩ := readEntry_with_id tables (strayJunk policy)
      hget' (hids c' hc' id' hget') hce'
    rw [readLocals_eq hread]
    exact hl

theorem id_readable_of_ignores (hm : m.Keyed) (hids : IdsListed root)
    (h : IgnoresMalformed writable tables root m) {c : String × PTree} (hc : c ∈ root.children) :
    ∃ id, c.2.getInt "parkingSpotId" = .ok id := by
  cases hget : c.2.getInt "parkingSpotId" with
  | ok id => exact ⟨id, rfl⟩
  | error e =>
    exfalso
    let junk : ℕ → Junk := fun _ => strayJunk 0
    have hjunk : ∀ i, (junk i).InRange := fun _ => strayJunk_inRange (.inl rfl)
    have hsame := h junk junk hjunk hjunk 1000
    obtain ⟨i, hi⟩ := mem_allLocals tables junk hc
    obtain ⟨l, hread, hl, -⟩ := readEntry_no_id tables (junk i) hget
    have hid : (readLocals tables (junk i) c.2).id = 1000 := by
      rw [readLocals_eq hread, hl]
      rfl
    have hsome := (table_after_isSome writable hm hids junk 1000).mpr ⟨_, hi, hid⟩
    rw [hsame, table_after_withoutMalformed hm] at hsome
    obtain ⟨s, hs⟩ := Option.isSome_iff_exists.mp hsome
    obtain ⟨e, he, -⟩ := Option.bind_eq_some_iff.mp hs
    obtain ⟨e', -, he'⟩ := lastEntry_isSome_iff.mp (Option.isSome_iff_exists.mpr ⟨e, he⟩)
    have hlisted := e'.listed
    omega

/-- Whatever the table says of an id, one of the policies an uninitialised one may be differs. -/
theorem exists_other_policy (n : ℤ) : ∃ policy : ℤ, (policy = 0 ∨ policy = 1) ∧ policy ≠ n := by
  by_cases h0 : n = 0
  · exact ⟨1, .inr rfl, by simp [h0]⟩
  · exact ⟨0, .inl rfl, fun h => h0 h.symm⟩

theorem unlocked_of_free (hm : m.Keyed) {id : ℤ}
    (hfree : ¬ ∃ s, m.find id = some (some s) ∧ s.mOccupied = true ∧ s.mOverstayed = false) :
    ∀ s, m.table id = some s → s.locked = false := by
  intro s hs
  cases hf : m.find id with
  | none =>
    rw [table_of_find_none hf] at hs
    cases hs
  | some p =>
    obtain ⟨s₀, rfl, -⟩ := hm.owned.find hf
    rw [table_of_find hf] at hs
    obtain rfl := Option.some.inj hs
    rw [← Bool.not_eq_true]
    exact fun hlocked => hfree ⟨s₀, hf, locked_iff.mp hlocked⟩

theorem hidden_of_ignores (hm : m.Keyed) (hids : IdsListed root)
    (h : IgnoresMalformed writable tables root m) : MalformedHidden root m := by
  intro pre c post hsplit hce
  have hc : c ∈ root.children := by simp [hsplit]
  obtain ⟨id, hget⟩ := id_readable_of_ignores hm hids h hc
  refine ⟨id, hget, ?_⟩
  by_cases hpost : ∃ e ∈ entries (PTree.mk "" post), e.id = id
  · exact .inl hpost
  refine .inr ?_
  -- a policy that differs from the one in the table
  have hrange := hids c hc id hget
  obtain ⟨policy, hpolicy, hother⟩ := exists_other_policy (tables.po_id ⟨id.toNat, by omega⟩)
  let junk : ℕ → Junk := fun _ => strayJunk policy
  have hjunk : ∀ i, (junk i).InRange := fun _ => strayJunk_inRange hpolicy
  have hsame := h junk junk hjunk hjunk id
  obtain ⟨i, hi⟩ := mem_allLocals tables junk hc
  obtain ⟨l, hread, hlid, -⟩ :=
    readEntry_with_id tables (junk i) hget hrange hce
  rw [readLocals_eq hread] at hi
  obtain ⟨s', hs'⟩ := Option.isSome_iff_exists.mp
    ((table_after_isSome writable hm hids junk id).mpr ⟨l, hi, hlid⟩)
  rw [hs', table_after_withoutMalformed hm] at hsame
  obtain ⟨e, he, hrow⟩ := Option.bind_eq_some_iff.mp hsame.symm
  rw [table_after hm hids] at hs'
  obtain ⟨l', hlast, hrow'⟩ := Option.bind_eq_some_iff.mp hs'
  have heid : e.id = id := (KeyedTable.mem_under.mp (List.mem_of_getLast? he)).2
  refine ⟨lastEntry_isSome_iff.mp (Option.isSome_iff_exists.mpr ⟨e, he⟩), ?_⟩
  by_contra hfree
  have hunlocked := unlocked_of_free hm hfree
  have hp : s'.mParkingPolicy = tables.po_id e.index := by
    have := setRow_policy hunlocked (e.locals tables)
    rw [hrow] at this
    exact Option.some.inj this
  have hp' : s'.mParkingPolicy = policy := by
    have := setRow_policy hunlocked l'
    rw [hrow'] at this
    exact (Option.some.inj this).trans (last_read_policy hids hsplit hce hget hpost hlast)
  subst heid
  exact hother (hp'.symm.trans hp)

/-- Malformed entries are without effect exactly when later entries or a running timer hide
them. -/
theorem ignoresMalformed_iff (hm : m.Keyed) (hids : IdsListed root) (writable : Bool)
    (tables : PolicyTables) :
    IgnoresMalformed writable tables root m ↔ MalformedHidden root m :=
  ⟨hidden_of_ignores hm hids, ignoresMalformed_of_hidden hm hids⟩

end Run

/-- An entry that holds an id and nothing else. -/
def bareNode (id : String) : String × PTree := ("", PTree.mk "" [("parkingSpotId", .leaf id)])

theorem bareNode_id {c : String × PTree} (h : c = bareNode "5" ∨ c = listNode "5" "A5") {id : ℤ}
    (hid : c.2.getInt "parkingSpotId" = .ok id) : id = 5 := by
  rcases h with rfl | rfl
  · exact (Except.ok.inj hid).symm
  · exact (Except.ok.inj hid).symm

theorem ignoresMalformed_before_wellFormed :
    IgnoresMalformed true flatTables (PTree.mk "" [bareNode "5", listNode "5" "A5"]) {} := by
  refine (ignoresMalformed_iff (keyed_empty none) ?_ true flatTables).mpr ?_
  · intro c hc id hid
    obtain rfl := bareNode_id (by simpa [PTree.children] using hc) hid
    decide
  · intro pre c post hsplit hc
    have hsplit : [bareNode "5", listNode "5" "A5"] = pre ++ c :: post := hsplit
    rcases List.cons_eq_append_iff.mp hsplit with ⟨-, h⟩ | ⟨pre', -, h⟩
    · obtain ⟨rfl, rfl⟩ := List.cons.inj h
      exact ⟨5, rfl, .inl (lastEntry_isSome_iff.mp (by decide))⟩
    · rcases List.cons_eq_append_iff.mp h with ⟨-, h⟩ | ⟨pre'', -, h⟩
      · obtain ⟨rfl, -⟩ := List.cons.inj h
        exact absurd hc (by decide)
      · simp at h

/-- The manager is empty, and the list holds the one entry `{"parkingSpotId": 5}`. A spot with id 5
is added, with values nobody gave it. -/
theorem bare_entry_adds_spot :
    Keyed {} ∧ IdsListed (PTree.mk "" [bareNode "5"]) ∧
      ¬ IgnoresMalformed true flatTables (PTree.mk "" [bareNode "5"]) {} := by
  have hids : IdsListed (PTree.mk "" [bareNode "5"]) := by
    intro c hc id hid
    obtain rfl := bareNode_id (.inl (List.mem_singleton.mp hc)) hid
    decide
  refine ⟨keyed_empty none, hids, fun h => ?_⟩
  obtain ⟨id, -, ⟨e, he, -⟩ | ⟨⟨e, he, -⟩, -⟩⟩ :=
    hidden_of_ignores (keyed_empty none) hids h [] (bareNode "5") [] rfl (by rfl)
  · cases he
  · cases he

end SpotManager

end VisionSensor
