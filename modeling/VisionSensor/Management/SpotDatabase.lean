import VisionSensor.Management.PolicyBounds
import VisionSensor.Management.SpotStatements

/-! What `readFromJSONFile` makes of the table `parking_spot`: a new id gets the row of its entry if
the name can be sent, and the row of an id that is there stays as it is. -/
namespace VisionSensor
open Sql SpotManager

def SpotRow.roi (r : SpotRow) : Rect := ⟨r.roi_coordx, r.roi_coordy, r.roi_width, r.roi_height⟩

/-- The row holds the name and the coordinates of an entry. -/
def SpotRow.Of (r : SpotRow) (e : SpotEntry) : Prop :=
  r.parking_spot_name = e.spotName.toList ∧ r.roi = e.roi

namespace SpotRows

/-- What an iteration of the loop of `readFromJSONFile` sends to the database. -/
def storeSpot (rows : SpotRows) (l : EntryLocals) : SpotRows :=
  if isExist rows l.id then
    updateDB rows l.id l.spotName l.roi.x l.roi.y l.roi.height l.roi.width l.policy
  else createDB rows l.id l.spotName l.roi.x l.roi.y l.roi.height l.roi.width l.policy

/-- One iteration, for the table. An entry that cannot be read is not stored. -/
def storeEntry (tables : PolicyTables) (junk : Junk) (rows : SpotRows) (node : PTree) :
    Except Fault SpotRows :=
  match parseEntry tables node { id := junk.id, timeLimit := junk.timeLimit, policy := junk.policy }
    with
  | .ok _ l => .ok (storeSpot rows l)
  | .error e _ => if e.isPtreeError then .ok rows else .error e

/-- The table after `readFromJSONFile`. -/
def storeFile (json : Option PTree) (tables : PolicyTables) (junk : ℕ → Junk) (rows : SpotRows) :
    Except Fault SpotRows :=
  match json with
  | none => .ok rows
  | some root =>
      root.children.zipIdx.foldlM (fun rows c => storeEntry tables (junk c.2) rows c.1.2) rows

/-- An entry that will have its row: the id is new and the name can be sent, or the row is there
already. -/
def WillHold (rows : SpotRows) (e : SpotEntry) : Prop :=
  (rows e.id = none → Sendable e.spotName.toList) ∧ ∀ r, rows e.id = some r → r.Of e

section Statements

variable {rows : SpotRows} {id : ℤ}

theorem insertedRow_create {id' : ℤ} {d : List Char} {vs : List Value} {r : SpotRow}
    (h : insertedRow (createColumns.zip (.num id :: .str d :: vs)) = some (id', r)) :
    id' = id ∧ r.parking_spot_name = d := by
  unfold insertedRow at h
  obtain ⟨i, hi, h⟩ := Option.bind_eq_some_iff.mp h
  obtain ⟨n, hn, h⟩ := Option.bind_eq_some_iff.mp h
  obtain ⟨x, -, h⟩ := Option.bind_eq_some_iff.mp h
  obtain ⟨y, -, h⟩ := Option.bind_eq_some_iff.mp h
  obtain ⟨height, -, h⟩ := Option.bind_eq_some_iff.mp h
  obtain ⟨width, -, h⟩ := Option.bind_eq_some_iff.mp h
  obtain ⟨policy, -, h⟩ := Option.bind_eq_some_iff.mp h
  obtain rfl : id = i := Option.some.inj hi
  obtain rfl : Value.str d = n := Option.some.inj hn
  obtain ⟨rfl, rfl⟩ := Prod.mk.inj (Option.some.inj h)
  exact ⟨rfl, rfl⟩

/-- Whatever is sent for a new id, at most its own row comes into being. -/
theorem createDB_free (h : rows id = none) (spotName : String)
    (roi_x roi_y roi_h roi_w policy : ℤ) :
    ∃ o, createDB rows id spotName roi_x roi_y roi_h roi_w policy = Function.update rows id o ∧
      ∀ r, o = some r → r.parking_spot_name = spotName.toList → Sendable spotName.toList := by
  have hnone : ∃ o, rows = Function.update rows id o ∧
      ∀ r, o = some r → r.parking_spot_name = spotName.toList → Sendable spotName.toList :=
    ⟨none, by rw [← h, Function.update_eq_self], fun r hr => nomatch hr⟩
  unfold createDB mysql_query
  cases hparse : parse (c_str (createText id spotName.toList roi_x roi_y roi_h roi_w)) with
  | none => exact hnone
  | some s =>
    obtain ⟨d, vs, rfl, hd⟩ := createText_cases hparse
    rw [Option.elim_some, execute]
    split_ifs
    · cases hrow : insertedRow (createColumns.zip (.num id :: .str d :: vs)) with
      | none => exact hnone
      | some r =>
        obtain ⟨id', r⟩ := r
        obtain ⟨rfl, hname⟩ := insertedRow_create hrow
        refine ⟨some r, by simp [h], ?_⟩
        rintro r' hr' hsame
        obtain rfl := Option.some.inj hr'
        exact hd (hname.symm.trans hsame)
    · exact hnone

theorem createDB_sendable (h : rows id = none) {spotName : String}
    (hname : Sendable spotName.toList) (roi_x roi_y roi_h roi_w policy : ℤ) :
    createDB rows id spotName roi_x roi_y roi_h roi_w policy =
      Function.update rows id (some ⟨spotName.toList, roi_x, roi_y, roi_h, roi_w, 5⟩) := by
  have hrow : insertedRow (createColumns.zip [.num id, .str spotName.toList, .num roi_x,
      .num roi_y, .num roi_h, .num roi_w, .num 5]) =
      some (id, ⟨spotName.toList, roi_x, roi_y, roi_h, roi_w, 5⟩) := rfl
  rw [createDB, mysql_query, parse_createText hname, Option.elim_some, execute, if_pos ⟨rfl, rfl⟩,
    hrow]
  simp [h]

/-- Without a quote in the name, `updateDB` does nothing. -/
theorem updateDB_clear (rows : SpotRows) (id : ℤ) {spotName : String}
    (h : '\'' ∉ spotName.toList) (roi_x roi_y roi_h roi_w policy : ℤ) :
    updateDB rows id spotName roi_x roi_y roi_h roi_w policy = rows := by
  rw [updateDB, mysql_query, parse_updateText_of_clear h, Option.elim_none]

end Statements

section Run

variable {rows : SpotRows} (tables : PolicyTables)

/-- An iteration changes no row but that of its id, and stores what will hold. -/
theorem storeSpot_spec {e : SpotEntry} (h : (rows e.id).isSome → '\'' ∉ e.spotName.toList) :
    (∀ id, id ≠ e.id → storeSpot rows (e.locals tables) id = rows id) ∧
      ((∃ r, storeSpot rows (e.locals tables) e.id = some r ∧ r.Of e) ↔ WillHold rows e) := by
  cases hrow : rows e.id with
  | none =>
    have hnew : storeSpot rows (e.locals tables) = createDB rows e.id e.spotName e.roi.x e.roi.y
        e.roi.height e.roi.width (e.locals tables).policy := if_neg (by simp [isExist, hrow])
    rw [hnew]
    refine ⟨?_, ?_⟩
    · obtain ⟨o, ho, -⟩ := createDB_free hrow e.spotName e.roi.x e.roi.y e.roi.height e.roi.width
        (e.locals tables).policy
      rw [ho]
      exact fun id hid => Function.update_of_ne hid _ _
    · constructor
      · rintro ⟨r, hr, hof⟩
        obtain ⟨o, ho, hname⟩ := createDB_free hrow e.spotName e.roi.x e.roi.y e.roi.height
          e.roi.width (e.locals tables).policy
        rw [ho, Function.update_self] at hr
        refine ⟨fun _ => hname r hr hof.1, fun r' hr' => ?_⟩
        rw [hrow] at hr'
        cases hr'
      · rintro ⟨hname, -⟩
        rw [createDB_sendable hrow (hname hrow), Function.update_self]
        exact ⟨_, rfl, rfl, rfl⟩
  | some r =>
    have hkept : storeSpot rows (e.locals tables) = rows := by
      have hclear := updateDB_clear rows e.id (h (by rw [hrow]; rfl)) e.roi.x e.roi.y e.roi.height
        e.roi.width (e.locals tables).policy
      exact (if_pos (by simp [isExist, hrow])).trans hclear
    rw [hkept]
    refine ⟨fun _ _ => rfl, ?_⟩
    unfold WillHold
    rw [hrow]
    simp

/-- Entries with distinct ids are stored one by one. -/
theorem storeSpots_spec {es : List SpotEntry} (hids : (es.map SpotEntry.id).Nodup)
    (hclear : ∀ e ∈ es, (rows e.id).isSome → '\'' ∉ e.spotName.toList) :
    (∀ id ∉ es.map SpotEntry.id,
        es.foldl (fun rows e => storeSpot rows (e.locals tables)) rows id = rows id) ∧
      ∀ e ∈ es, (∃ r, es.foldl (fun rows e => storeSpot rows (e.locals tables)) rows e.id = some r ∧
        r.Of e) ↔ WillHold rows e := by
  induction es generalizing rows with
  | nil => exact ⟨fun _ _ => rfl, fun e he => nomatch he⟩
  | cons e es ih =>
    rw [List.map_cons, List.nodup_cons] at hids
    obtain ⟨hnew, hids⟩ := hids
    obtain ⟨hother, hown⟩ := storeSpot_spec tables (hclear e List.mem_cons_self)
    have hrest : ∀ e' ∈ es, storeSpot rows (e.locals tables) e'.id = rows e'.id :=
      fun e' he' => hother _ fun hsame => hnew (hsame ▸ List.mem_map_of_mem he')
    have hclear' : ∀ e' ∈ es, (storeSpot rows (e.locals tables) e'.id).isSome →
        '\'' ∉ e'.spotName.toList := by
      intro e' he'
      rw [hrest e' he']
      exact hclear e' (List.mem_cons_of_mem e he')
    obtain ⟨hframe, hhold⟩ := ih hids hclear'
    refine ⟨?_, ?_⟩
    · intro id hid
      rw [List.map_cons, List.mem_cons, not_or] at hid
      rw [List.foldl_cons, hframe id hid.2, hother id hid.1]
    · intro e' he'
      rw [List.foldl_cons]
      rcases List.mem_cons.mp he' with rfl | he'
      · rw [hframe _ hnew]
        exact hown
      · rw [hhold e' he', WillHold, WillHold, hrest e' he']

theorem storeEntry_inBounds {node : PTree}
    (h : ∀ id, CompleteEntry node id → 0 ≤ id ∧ id < 1000) (junk : Junk) (rows : SpotRows) :
    storeEntry tables junk rows node =
      .ok ((spotEntry node).elim rows fun e => storeSpot rows (e.locals tables)) := by
  unfold storeEntry
  cases hentry : spotEntry node with
  | some e =>
    rw [parseEntry_wellFormed hentry]
    rfl
  | none =>
    have hincomplete : ∀ id, ¬ CompleteEntry node id := by
      intro id hcomplete
      have hsome := hcomplete.wellFormed (h id hcomplete)
      rw [hentry] at hsome
      cases hsome
    obtain ⟨e, l, hparse, he, -⟩ := parseEntry_incomplete tables
      { id := junk.id, timeLimit := junk.timeLimit, policy := junk.policy } hincomplete
    rw [hparse]
    exact if_pos he

/-- The entries that can be read are stored in order. -/
theorem storeFile_inBounds {root : PTree} (h : ListInBounds root) (junk : ℕ → Junk)
    (rows : SpotRows) : storeFile (some root) tables junk rows =
      .ok ((entries root).foldl (fun rows e => storeSpot rows (e.locals tables)) rows) := by
  have hloop : ∀ cs : List ((String × PTree) × ℕ), (∀ c ∈ cs, c.1 ∈ root.children) →
      ∀ rows, cs.foldlM (fun rows c => storeEntry tables (junk c.2) rows c.1.2) rows =
        .ok ((cs.filterMap fun c => spotEntry c.1.2).foldl
          (fun rows e => storeSpot rows (e.locals tables)) rows) := by
    intro cs hcs
    induction cs with
    | nil => exact fun _ => rfl
    | cons c cs ih =>
      intro rows
      rw [List.foldlM_cons, storeEntry_inBounds tables (h c.1 (hcs c List.mem_cons_self)),
        List.filterMap_cons]
      show cs.foldlM _ _ = _
      rw [ih fun c' hc' => hcs c' (List.mem_cons_of_mem c hc')]
      cases spotEntry c.1.2 <;> rfl
  have hmem : ∀ c ∈ root.children.zipIdx, c.1 ∈ root.children :=
    fun c hc => List.fst_mem_of_mem_zipIdx hc
  rw [← filterMap_zipIdx]
  exact hloop _ hmem rows

theorem listInBounds_of_wellFormed {root : PTree} (h : WellFormed root) : ListInBounds root := by
  intro c hc id hcomplete
  obtain ⟨e, he⟩ := Option.isSome_iff_exists.mp (h c hc)
  have hid : Except.ok e.id = Except.ok id := (spotEntry_eq_some.mp he).1.symm.trans hcomplete.id
  obtain rfl := Except.ok.inj hid
  exact e.listed

end Run

/-- The `INSERT` says what was meant exactly for a name that can stand between its quotes, and the
`UPDATE` never does. So a file with distinct ids, where no name of a spot that is there already has
a quote, leaves its entries in the table exactly if the new ones can be sent and the others were
there before. -/
theorem statements_say_iff (id : ℤ) (name : List Char) (roi : Rect) :
    (SaysInsert (createText id name roi.x roi.y roi.height roi.width) id name roi ↔
      Sendable name) ∧
    ¬ SaysUpdate (updateText id name roi.x roi.y roi.height roi.width) id name roi ∧
    ∀ (root : PTree) (tables : PolicyTables) (junk : ℕ → Junk) (rows : SpotRows),
      ListInBounds root → ((entries root).map SpotEntry.id).Nodup →
      (∀ e ∈ entries root, (rows e.id).isSome → '\'' ∉ e.spotName.toList) →
      ∃ rows', storeFile (some root) tables junk rows = .ok rows' ∧
        ((∀ e ∈ entries root, ∃ r, rows' e.id = some r ∧ r.Of e) ↔
          ∀ e ∈ entries root, WillHold rows e) := by
  refine ⟨saysInsert_createText_iff id, not_saysUpdate_updateText id, ?_⟩
  intro root tables junk rows hbounds hids hclear
  refine ⟨_, storeFile_inBounds tables hbounds junk rows, ?_⟩
  have hhold := (storeSpots_spec tables hids hclear).2
  exact ⟨fun h e he => (hhold e he).mp (h e he), fun h e he => (hhold e he).mpr (h e he)⟩

/-- A table that has the first of the two spots. -/
def firstSpotRows : SpotRows :=
  Function.update (fun _ => none) 1 (some ⟨"A1".toList, 0, 0, 20, 10, 5⟩)

theorem two_spots_are_stored :
    ∃ rows', storeFile (some twoSpotList) flatTables flatJunk firstSpotRows = .ok rows' ∧
      ∀ e ∈ entries twoSpotList, ∃ r, rows' e.id = some r ∧ r.Of e := by
  have hwf : WellFormed twoSpotList := by
    unfold WellFormed
    decide
  have hentries : entries twoSpotList =
      [⟨1, "A1", ⟨0, 0, 10, 20⟩, by decide⟩, ⟨7, "A7", ⟨0, 0, 10, 20⟩, by decide⟩] := rfl
  have hclear : ∀ e ∈ entries twoSpotList, (firstSpotRows e.id).isSome →
      '\'' ∉ e.spotName.toList := by
    rw [hentries]
    intro e he _
    rcases List.mem_pair.mp he with rfl | rfl
    · decide
    · decide
  have hhold : ∀ e ∈ entries twoSpotList, WillHold firstSpotRows e := by
    rw [hentries]
    intro e he
    rcases List.mem_pair.mp he with rfl | rfl
    · refine ⟨fun h => (nomatch h), fun r hr => ?_⟩
      obtain rfl := Option.some.inj hr
      exact ⟨rfl, rfl⟩
    · have hall : "A7".toList.all (fun c => decide (c ≠ '\'' ∧ c ≠ '\\')) = true := by decide
      have hplain : Plain '\'' "A7".toList :=
        plain_of_clear fun c hc => of_decide_eq_true (List.all_eq_true.mp hall c hc)
      exact ⟨fun _ => ⟨by decide, hplain⟩, fun r hr => nomatch hr⟩
  obtain ⟨rows', hrun, hiff⟩ := (statements_say_iff 1 "A1".toList ⟨0, 0, 10, 20⟩).2.2 twoSpotList
    flatTables flatJunk firstSpotRows (listInBounds_of_wellFormed hwf) (by decide) hclear
  exact ⟨rows', hrun, hiff.mpr hhold⟩

/-- The name `O'Brien` ends the string of the `INSERT`, and with the comma in front of `WHERE` no
`UPDATE` parses: a spot that is renamed keeps its old row. -/
theorem quote_and_comma_spoil_statements :
    ¬ SaysInsert (createText 1 "O'Brien".toList 0 0 20 10) 1 "O'Brien".toList ⟨0, 0, 10, 20⟩ ∧
      ¬ SaysUpdate (updateText 1 "B1".toList 0 0 20 10) 1 "B1".toList ⟨0, 0, 10, 20⟩ ∧
      updateDB firstSpotRows 1 "B1" 0 0 20 10 1 = firstSpotRows := by
  refine ⟨fun h => ?_, @not_saysUpdate_updateText _ ⟨0, 0, 10, 20⟩ 1,
    updateDB_clear _ 1 (by decide) 0 0 20 10 1⟩
  have hname := (@saysInsert_createText_iff _ ⟨0, 0, 10, 20⟩ 1).mp h
  have hquote : '\'' ∈ "O'Brien".toList := by decide
  exact quote_not_mem_of_sendable hname hquote

end SpotRows
end VisionSensor
