import VisionSensor.Lib.SqlSelect
import VisionSensor.Management.SpotStatements
import VisionSensor.Reservation.Interleaving

/-! The texts `check_res` and `entVehicle` send, and a lot whose sensors send them: they do what
the queries of the reservation table do, for the plates that can stand between their quotes. -/
namespace VisionSensor
open Sql GuardedRun SpotRows

/-- The texts of the columns that were asked for. -/
abbrev MYSQL_ROW := List (List Char)

namespace Reservation

/-- The columns of `end_user_reservation`. -/
def column (name : List Char) : Option (Reservation → Value) :=
  if name = "sequence".toList then some fun r => .num r.sequence
  else if name = "start_date".toList then some fun r => .num r.start_date
  else if name = "end_date".toList then some fun r => .num r.end_date
  else if name = "start_time".toList then some fun r => .num r.start_time
  else if name = "end_time".toList then some fun r => .num r.end_time
  else if name = "plate_number".toList then some fun r => .str r.plate_number.toList
  else if name = "used_yn".toList then some fun r => .str (if r.used_yn then ['Y'] else ['N'])
  else none

/-- One assignment of an `UPDATE`. -/
def assign : List Char × Value → Option (Reservation → Reservation)
  | (name, .num n) =>
      if name = "sequence".toList then
        if h : InInt n then some fun r => { r with sequence := n, sequence_int := h } else none
      else if name = "start_date".toList then some fun r => { r with start_date := n }
      else if name = "end_date".toList then some fun r => { r with end_date := n }
      else if name = "start_time".toList then some fun r => { r with start_time := n }
      else if name = "end_time".toList then some fun r => { r with end_time := n }
      else none
  | (name, .str s) =>
      if name = "plate_number".toList then some fun r => { r with plate_number := String.ofList s }
      else if name = "used_yn".toList then
        if s = ['Y'] then some fun r => { r with used_yn := true }
        else if s = ['N'] then some fun r => { r with used_yn := false }
        else none
      else none

/-- The row as `entVehicle` gets it. -/
def row_spot (r : Reservation) : MYSQL_ROW :=
  [to_string r.sequence, to_string r.start_date, to_string r.end_date, to_string r.start_time,
    to_string r.end_time, r.plate_number.toList]

end Reservation

namespace ReservationTable

/-- The rows of a `SELECT`; `none` for a text that is no such query. -/
def mysql_store_result (table : ReservationTable) (text : List Char) : Option (List MYSQL_ROW) :=
  (query (c_str text)).bind fun q =>
    if q.table = "end_user_reservation".toList then
      (q.plan Reservation.column).map fun p =>
        (p.rows table).map fun r => p.columns.map fun c => toText (c r)
    else none

/-- The table after an `UPDATE`; `none` for a text that is none. -/
def mysql_query (table : ReservationTable) (text : List Char) : Option ReservationTable :=
  (parse (c_str text)).bind fun s =>
    match s with
    | .update name sets key_column key =>
        if name = "end_user_reservation".toList then do
          let column ← Reservation.column key_column
          let assignments ← sets.mapM Reservation.assign
          some (table.map fun r =>
            if column r = key then assignments.foldl (fun r f => f r) r else r)
        else none
    | .insert .. => none

def qqqHead : List Char :=
  "SELECT sequence FROM ".toList ++ "end_user_reservation ".toList ++
    "WHERE plate_number = '".toList

/-- The text `check_res` sends. -/
def qqq (PN : List Char) : List Char := qqqHead ++ (PN ++ ['\''])

def qyeHead : List Char :=
  "SELECT sequence, start_date, ".toList ++ "end_date, start_time, ".toList ++
    "end_time, plate_number ".toList ++ "FROM end_user_reservation ".toList ++
    "WHERE plate_number = '".toList

def qyeTail : List Char :=
  " AND used_yn = ".toList ++ "'N' ORDER BY ".toList ++ "start_date, start_time".toList

/-- The text by which `entVehicle` selects. -/
def qye (PN : List Char) : List Char := qyeHead ++ (PN ++ '\'' :: qyeTail)

def updateQyHead : List Char :=
  "UPDATE end_user_reservation ".toList ++ "SET used_yn = 'Y' ".toList ++
    "WHERE sequence = ".toList

/-- The text by which `entVehicle` updates. -/
def updateQy (tmp : ℤ) : List Char := updateQyHead ++ to_string tmp

/-- The query that is meant by `qqq`. -/
def checkQuery (PN : List Char) : Select :=
  { columns := ["sequence".toList], table := "end_user_reservation".toList,
    conditions := [("plate_number".toList, .str PN)] }

/-- The query that is meant by `qye`. -/
def openQuery (PN : List Char) : Select :=
  { columns := ["sequence".toList, "start_date".toList, "end_date".toList, "start_time".toList,
      "end_time".toList, "plate_number".toList],
    table := "end_user_reservation".toList,
    conditions := [("plate_number".toList, .str PN), ("used_yn".toList, .str ['N'])],
    order := ["start_date".toList, "start_time".toList] }

end ReservationTable

/-- Where `enter` is at a sensor, with the row it has got. -/
inductive SensorAsks where
  | idle
  | found (PN : String) (entryTime : List Char)
  | selected (PN : String) (entryTime : List Char) (row_spot : MYSQL_ROW)

/-- A call of `entVehicle` that has returned. -/
structure Answer where
  PN : String
  entryTime : List Char
  row_spot : MYSQL_ROW

def Answer.minutes (a : Answer) : ℤ :=
  ReservationTable.result_timer
    (ReservationTable.db_sum (atoi (a.row_spot.getD 2 [])) (atoi (a.row_spot.getD 4 [])))
    (ReservationTable.ent_sum a.entryTime)

/-- A lot whose sensors send texts. -/
structure ReservationServer (Sensor : Type) where
  table : ReservationTable
  place : Sensor → SensorAsks := fun _ => .idle
  handed : List Answer := []

namespace ReservationServer
open ReservationTable

variable {Sensor : Type} [DecidableEq Sensor]

/-- `none` where the sensor is at another statement, and where it follows a null pointer. -/
def step (d : ReservationServer Sensor) : Statement Sensor → Option (ReservationServer Sensor)
  | .check_res s PN entryTime =>
      match d.place s with
      | .idle => (d.table.mysql_store_result (qqq PN.toList)).map fun rows =>
          if rows.isEmpty then d
          else { d with place := Function.update d.place s (.found PN entryTime) }
      | _ => none
  | .select s =>
      match d.place s with
      | .found PN entryTime =>
          (d.table.mysql_store_result (qye PN.toList)).bind fun rows =>
            rows.head?.map fun row_spot =>
              { d with place := Function.update d.place s (.selected PN entryTime row_spot) }
      | _ => none
  | .update s =>
      match d.place s with
      | .selected PN entryTime row_spot =>
          (d.table.mysql_query (updateQy (atoi (row_spot.getD 0 [])))).map fun table =>
            { table
              place := Function.update d.place s .idle
              handed := d.handed ++ [⟨PN, entryTime, row_spot⟩] }
      | _ => none

end ReservationServer

namespace ReservationTable

section Texts

variable {PN : List Char} {table : ReservationTable}

/-- The tokens of the texts around the plate and the number. -/
theorem scan_texts :
    scan .start qqqHead = ([.word "SELECT".toList, .word "sequence".toList, .word "FROM".toList,
      .word "end_user_reservation".toList, .word "WHERE".toList, .word "plate_number".toList,
      .sym '='], .text '\'' []) ∧
    scan .start qyeHead = ([.word "SELECT".toList, .word "sequence".toList, .sym ',',
      .word "start_date".toList, .sym ',', .word "end_date".toList, .sym ',',
      .word "start_time".toList, .sym ',', .word "end_time".toList, .sym ',',
      .word "plate_number".toList, .word "FROM".toList, .word "end_user_reservation".toList,
      .word "WHERE".toList, .word "plate_number".toList, .sym '='], .text '\'' []) ∧
    scan .start qyeTail = ([.word "AND".toList, .word "used_yn".toList, .sym '=', .str ['N'],
      .word "ORDER".toList, .word "BY".toList, .word "start_date".toList, .sym ','],
      .word "start_time".toList) ∧
    scan .start updateQyHead = ([.word "UPDATE".toList, .word "end_user_reservation".toList,
      .word "SET".toList, .word "used_yn".toList, .sym '=', .str ['Y'], .word "WHERE".toList,
      .word "sequence".toList, .sym '='], .start) := by
  decide +kernel

theorem harmless_texts :
    (qqqHead ++ (qyeHead ++ (qyeTail ++ updateQyHead))).all harmless = true := by
  decide +kernel

theorem harmless_qyeTail : qyeTail.all harmless = true := by
  have hall := harmless_texts
  simp only [List.all_append, Bool.and_eq_true] at hall
  exact hall.2.2.1

theorem zero_not_mem_heads :
    Char.ofNat 0 ∉ qqqHead ∧ Char.ofNat 0 ∉ qyeHead ∧ Char.ofNat 0 ∉ updateQyHead := by
  have hall := not_mem_of_harmless harmless_texts (show harmless (Char.ofNat 0) = false by decide)
  simp only [List.mem_append, not_or] at hall
  exact ⟨hall.1, hall.2.1, hall.2.2.2⟩

theorem zero_not_mem_qyeTail : Char.ofNat 0 ∉ '\'' :: qyeTail := by
  rw [List.mem_cons, not_or]
  exact ⟨by decide, not_mem_of_harmless harmless_qyeTail (by decide)⟩

theorem query_qqqHead (body : List Char) :
    query (qqqHead ++ body) = (inText body).bind fun us =>
      selectRest ["sequence".toList] (.word "FROM".toList :: .word "end_user_reservation".toList ::
        .word "WHERE".toList :: .word "plate_number".toList :: .sym '=' :: us) := by
  rw [query_of_scan scan_texts.1]
  rfl

theorem query_qyeHead (body : List Char) :
    query (qyeHead ++ body) = (inText body).bind fun us =>
      selectRest (openQuery []).columns (.word "FROM".toList ::
        .word "end_user_reservation".toList :: .word "WHERE".toList ::
          .word "plate_number".toList :: .sym '=' :: us) := by
  rw [query_of_scan scan_texts.2.1]
  rfl

theorem closing_end : Closing [] where
  unquoted := by decide +kernel
  start fin hfin := by
    obtain rfl := Option.some.inj hfin
    rfl
  unclosed _ _ _ := rfl
  harmless := ⟨List.not_mem_nil, List.not_mem_nil⟩

theorem closing_qyeTail : Closing qyeTail where
  unquoted h := by cases h
  start fin hfin := by
    rw [scan_texts.2.2.1]
    rfl
  unclosed _ acc hquote := by
    have hsplit : qyeTail = " AND used_yn = ".toList ++ '\'' :: 'N' ::
        ("' ORDER BY ".toList ++ "start_date, start_time".toList) := rfl
    have hclear : ((" AND used_yn = ".toList).all fun c => c != '\'' && c != '\\') = true ∧
        finish (scan .start ('N' :: ("' ORDER BY ".toList ++ "start_date, start_time".toList))).2 =
          none := by decide +kernel
    obtain ⟨hdouble, hslash, -⟩ := tail_harmless harmless_qyeTail
    exact unclosed_of_split _ _ hsplit hclear.1 (by decide) hclear.2 ⟨hdouble, hslash⟩ acc hquote
  harmless := (tail_harmless harmless_qyeTail).2.2

/-- A text that is read back from between the quotes can stand there. -/
theorem sendable_of_inText {tail : List Char} (ht : Closing tail)
    (hzero : Char.ofNat 0 ∉ '\'' :: tail) {us : List Token}
    (h : inText (c_str (PN ++ '\'' :: tail)) = some (.str PN :: us)) : Sendable PN := by
  by_cases hname : Char.ofNat 0 ∈ PN
  · rw [c_str_append_of_mem hname] at h
    exact absurd (length_le_of_inText h) (Nat.not_le.mpr (length_c_str_lt hname))
  · rw [c_str_name hname hzero] at h
    exact ⟨hname, plain_of_closing ht h⟩

/-- The equations of a query that goes on behind the quote begin with the text that is read. -/
theorem sendable_of_selectRest {tail : List Char} (ht : Closing tail)
    (hzero : Char.ofNat 0 ∉ '\'' :: tail) {columns : List (List Char)} {f t w c : List Char}
    {q : Select} (hq : q.conditions.head? = some (c, .str PN))
    (h : (inText (c_str (PN ++ '\'' :: tail))).bind (fun us =>
      selectRest columns (.word f :: .word t :: .word w :: .word c :: .sym '=' :: us)) = some q) :
    Sendable PN := by
  obtain ⟨us, hus, hselect⟩ := Option.bind_eq_some_iff.mp h
  obtain ⟨d, vs, rfl⟩ := inText_head hus
  obtain ⟨rest, hequations⟩ := selectRest_spec hselect
  obtain ⟨v, more, hv, hconditions⟩ := equations_head hequations
  obtain rfl : Value.str d = v := Option.some.inj hv
  rw [hconditions] at hq
  obtain ⟨-, hd⟩ := Prod.mk.inj (Option.some.inj hq)
  obtain rfl := Value.str.inj hd
  exact sendable_of_inText ht hzero hus

theorem query_qqq (h : Sendable PN) : query (c_str (qqq PN)) = some (checkQuery PN) := by
  have hcut : c_str (qqq PN) = qqqHead ++ (PN ++ ['\'']) := by
    rw [qqq, c_str_append zero_not_mem_heads.1, c_str_name h.1 (by decide)]
  rw [hcut, query_qqqHead, inText_plain_end h.2]
  rfl

theorem query_qye (h : Sendable PN) : query (c_str (qye PN)) = some (openQuery PN) := by
  have hcut : c_str (qye PN) = qyeHead ++ (PN ++ '\'' :: qyeTail) := by
    rw [qye, c_str_append zero_not_mem_heads.2.1, c_str_name h.1 zero_not_mem_qyeTail]
  obtain ⟨c, tail, htail, hc⟩ : ∃ c tail, qyeTail = c :: tail ∧ c ≠ '\'' :=
    ⟨' ', _, rfl, by decide⟩
  have htokens : tokens qyeTail = some [.word "AND".toList, .word "used_yn".toList, .sym '=',
      .str ['N'], .word "ORDER".toList, .word "BY".toList, .word "start_date".toList, .sym ',',
      .word "start_time".toList] := by
    rw [tokens, scan_texts.2.2.1]
    rfl
  rw [htail] at htokens
  rw [hcut, query_qyeHead, htail, inText_plain h.2 hc htokens rfl rfl]
  rfl

/-- The two queries are the ones that are meant exactly for the plates that can be sent. -/
theorem queries_meant_iff (PN : List Char) :
    (query (c_str (qqq PN)) = some (checkQuery PN) ↔ Sendable PN) ∧
      (query (c_str (qye PN)) = some (openQuery PN) ↔ Sendable PN) := by
  refine ⟨⟨fun h => ?_, query_qqq⟩, ⟨fun h => ?_, query_qye⟩⟩
  · rw [qqq, c_str_append zero_not_mem_heads.1, query_qqqHead] at h
    exact sendable_of_selectRest closing_end (by decide) rfl h
  · rw [qye, c_str_append zero_not_mem_heads.2.1, query_qyeHead] at h
    exact sendable_of_selectRest closing_qyeTail zero_not_mem_qyeTail rfl h

end Texts

section Meaning

variable {PN : String} {table : ReservationTable}

theorem plan_checkQuery (PN : List Char) : (checkQuery PN).plan Reservation.column =
    some ⟨[fun r => .num r.sequence], [(fun r => .str r.plate_number.toList, .str PN)], []⟩ := rfl

theorem plan_openQuery (PN : List Char) : (openQuery PN).plan Reservation.column =
    some ⟨[fun r => .num r.sequence, fun r => .num r.start_date, fun r => .num r.end_date,
        fun r => .num r.start_time, fun r => .num r.end_time, fun r => .str r.plate_number.toList],
      [(fun r => .str r.plate_number.toList, .str PN),
        (fun r => .str (if r.used_yn then ['Y'] else ['N']), .str ['N'])],
      [fun r => .num r.start_date, fun r => .num r.start_time]⟩ := rfl

theorem plate_beq (r : Reservation) (PN : String) :
    (Value.str r.plate_number.toList == .str PN.toList) = (r.plate_number == PN) := by
  rw [Bool.eq_iff_iff, beq_iff_eq, beq_iff_eq, Value.str.injEq, String.toList_inj]

theorem unused_beq (r : Reservation) :
    (Value.str (if r.used_yn then ['Y'] else ['N']) == .str ['N']) = !r.used_yn := by
  cases r.used_yn <;> rfl

/-- The order of `qye` is the one of the table. -/
theorem inOrder_eq_before :
    InOrder [fun r : Reservation => .num r.start_date, fun r => .num r.start_time] =
      Reservation.Before := by
  funext r s
  simp only [InOrder, Value.Lt, Value.num.injEq, Reservation.Before, and_true, eq_iff_iff]
  omega

/-- `check_res` gets the sequence numbers of the rows of the plate. -/
theorem mysql_store_result_qqq (h : Sendable PN.toList) :
    table.mysql_store_result (qqq PN.toList) =
      some ((table.filter fun r => r.plate_number == PN).map fun r => [to_string r.sequence]) := by
  have hname : (checkQuery PN.toList).table = "end_user_reservation".toList := rfl
  rw [mysql_store_result, query_qqq h, Option.bind_some, if_pos hname, plan_checkQuery]
  simp only [Option.map_some, Plan.rows, insertionSort_nil, List.all_cons, List.all_nil,
    Bool.and_true, plate_beq, List.map_cons, List.map_nil, toText]

/-- `entVehicle` gets the rows of the plate that are not used, in their order. -/
theorem mysql_store_result_qye (h : Sendable PN.toList) :
    table.mysql_store_result (qye PN.toList) =
      some ((table.openRows PN).map Reservation.row_spot) := by
  have hname : (openQuery PN.toList).table = "end_user_reservation".toList := rfl
  rw [mysql_store_result, query_qye h, Option.bind_some, if_pos hname, plan_openQuery]
  simp only [Option.map_some, Plan.rows, List.all_cons, List.all_nil, Bool.and_true, plate_beq,
    unused_beq, List.map_cons, List.map_nil, toText, inOrder_eq_before, openRows]
  congr!

/-- `entVehicle` marks the row with the number it has read. -/
theorem mysql_query_updateQy (tmp : ℤ) :
    table.mysql_query (updateQy tmp) = some (table.markUsed tmp) := by
  have hparse : parse (c_str (updateQy tmp)) = some (.update "end_user_reservation".toList
      [("used_yn".toList, .str ['Y'])] "sequence".toList (.num tmp)) := by
    rw [updateQy, c_str_append zero_not_mem_heads.2.2, c_str_of_not_mem (zero_not_mem_to_string tmp),
      parse, tokens_append_of scan_texts.2.2.2, to_string_eq_numeral, tokens_numeral,
      Option.map_some, Option.bind_some, literals_append]
    have hnumber : literals (numeralTokens tmp) = [.number tmp] := by
      have hlast := literals_numeralTokens tmp []
      rwa [List.append_nil] at hlast
    rw [hnumber]
    rfl
  have hrows : ∀ column assignments, Reservation.column "sequence".toList = some column →
      [("used_yn".toList, Value.str ['Y'])].mapM Reservation.assign = some assignments →
      table.mysql_query (updateQy tmp) = some (table.map fun r =>
        if column r = .num tmp then assignments.foldl (fun r f => f r) r else r) := by
    intro column assignments hcolumn hassignments
    rw [mysql_query, hparse, Option.bind_some]
    simp only [reduceIte, hcolumn, hassignments]
    rfl
  rw [hrows _ _ rfl rfl, markUsed]
  simp only [Value.num.injEq]
  rfl

end Meaning

end ReservationTable

/-- The same place, with the row as it was sent. -/
def SensorAt.asked : SensorAt → SensorAsks
  | .idle => .idle
  | .found PN entryTime => .found PN entryTime
  | .selected PN entryTime row_spot => .selected PN entryTime row_spot.row_spot

def Grant.answer (g : Grant) : Answer := ⟨g.PN, g.entryTime, g.row_spot.row_spot⟩

/-- The lot as its sensors see it, who send texts. -/
def ReservationLot.served {Sensor : Type} (l : ReservationLot Sensor) : ReservationServer Sensor :=
  { table := l.table
    place := fun s => (l.place s).asked
    handed := l.handed.map Grant.answer }

/-- The plates that are sent can stand between quotes. -/
def Statement.Sends {Sensor : Type} : Statement Sensor → Prop
  | .check_res _ PN _ => Sendable PN.toList
  | _ => True

namespace ReservationServer
open ReservationTable

variable {Sensor : Type} [DecidableEq Sensor] {l m : ReservationLot Sensor} {a : Statement Sensor}

theorem minutes_answer (g : Grant) : g.answer.minutes = g.minutes := rfl

/-- A sensor that has moved has moved for those who send texts. -/
theorem served_update (l : ReservationLot Sensor) (table : ReservationTable) (handed : List Grant)
    (s : Sensor) (p : SensorAt) :
    ReservationLot.served ⟨table, Function.update l.place s p, handed⟩ =
      ⟨table, Function.update l.served.place s p.asked, handed.map Grant.answer⟩ := by
  have hplace : (fun s' => (Function.update l.place s p s').asked) =
      Function.update l.served.place s p.asked := by
    funext s'
    rw [Function.update_apply, Function.update_apply]
    split_ifs <;> rfl
  rw [← hplace]
  rfl

/-- The plates the sensors are looking up can stand between quotes. -/
def Waiting (l : ReservationLot Sensor) : Prop :=
  ∀ s PN, (l.place s).plate = some PN → Sendable PN.toList

/-- One statement does with texts what it does with the table. -/
theorem step_served (hl : Waiting l) (ha : a.Sends) :
    step l.served a = (l.step a).map ReservationLot.served := by
  cases a with
  | check_res s PN entryTime =>
    have hrows : l.served.table.mysql_store_result (qqq PN.toList) = _ :=
      mysql_store_result_qqq ha
    have hplace : l.served.place s = (l.place s).asked := rfl
    cases hs : l.place s with
    | found | selected =>
      rw [hs, SensorAt.asked] at hplace
      simp only [step, ReservationLot.step, hs, hplace, Option.map_none]
    | idle =>
      rw [hs, SensorAt.asked] at hplace
      simp only [step, ReservationLot.step, hs, hplace, hrows, Option.map_some, List.isEmpty_map]
      cases hfound : (l.served.table.filter fun r => r.plate_number == PN).isEmpty with
      | true =>
        have hnone : l.table.check_res PN = false := congrArg (!·) hfound
        rw [hnone, if_pos rfl, if_neg Bool.false_ne_true]
      | false =>
        have hsome : l.table.check_res PN = true := congrArg (!·) hfound
        rw [hsome, if_neg Bool.false_ne_true, if_pos rfl, served_update]
        rfl
  | select s =>
    have hplace : l.served.place s = (l.place s).asked := rfl
    cases hs : l.place s with
    | idle | selected =>
      rw [hs, SensorAt.asked] at hplace
      simp only [step, ReservationLot.step, hs, hplace, Option.map_none]
    | found PN entryTime =>
      rw [hs, SensorAt.asked] at hplace
      have hplate : Sendable PN.toList := hl s PN (by rw [hs, SensorAt.plate])
      have hrows : l.served.table.mysql_store_result (qye PN.toList) = _ :=
        mysql_store_result_qye hplate
      simp only [step, ReservationLot.step, hs, hplace, hrows, Option.bind_some, List.head?_map,
        Option.map_map]
      cases hhead : (l.table.openRows PN).head? with
      | none => simp [ReservationLot.served, hhead]
      | some row_spot =>
        have hserved : (l.served.table.openRows PN).head? = some row_spot := hhead
        rw [hserved, Option.map_some, Option.map_some, Function.comp_apply, Function.comp_apply,
          served_update]
        rfl
  | update s =>
    have hplace : l.served.place s = (l.place s).asked := rfl
    cases hs : l.place s with
    | idle | found =>
      rw [hs, SensorAt.asked] at hplace
      simp only [step, ReservationLot.step, hs, hplace, Option.map_none]
    | selected PN entryTime row_spot =>
      rw [hs, SensorAt.asked] at hplace
      have hmark : l.served.table.mysql_query (updateQy (atoi (row_spot.row_spot.getD 0 []))) =
          some (l.table.markUsed (atoi (to_string row_spot.sequence))) := mysql_query_updateQy _
      simp only [step, ReservationLot.step, hs, hplace, hmark, Option.map_some]
      rw [served_update, List.map_append]
      rfl

theorem waiting_step (hl : Waiting l) (ha : a.Sends) (hm : l.step a = some m) : Waiting m := by
  -- Only the sensor that moves can be at another plate, and that is the one of the statement.
  have hmoves : ∀ s p, (∀ PN, p.plate = some PN → Sendable PN.toList) →
      m.place = Function.update l.place s p → Waiting m := by
    intro s p hp hplace s' PN hPN
    rw [hplace, Function.update_apply] at hPN
    split_ifs at hPN
    · exact hp PN hPN
    · exact hl s' PN hPN
  cases a with
  | check_res s PN entryTime =>
    simp only [ReservationLot.step] at hm
    split at hm
    · split_ifs at hm
      · obtain rfl := Option.some.inj hm
        refine hmoves s (.found PN entryTime) (fun PN' hPN => ?_) rfl
        obtain rfl := Option.some.inj hPN
        exact ha
      · exact Option.some.inj hm ▸ hl
    · cases hm
  | select s =>
    simp only [ReservationLot.step] at hm
    split at hm
    · rename_i PN entryTime hs
      obtain ⟨row_spot, -, rfl⟩ := Option.map_eq_some_iff.mp hm
      refine hmoves s (.selected PN entryTime row_spot) (fun PN' hPN => ?_) rfl
      obtain rfl := Option.some.inj hPN
      exact hl s PN (by rw [hs, SensorAt.plate])
    · cases hm
  | update s =>
    simp only [ReservationLot.step] at hm
    split at hm
    · obtain rfl := Option.some.inj hm
      refine hmoves s .idle (fun PN hPN => ?_) rfl
      cases hPN
    · cases hm

/-- A whole run with texts is the run on the table: the same rows are marked, and every call gets
the same row and with it the same minutes. -/
theorem exec_served {as : List (Statement Sensor)} (hl : Waiting l) (has : ∀ a ∈ as, a.Sends) :
    exec step l.served as = (exec ReservationLot.step l as).map ReservationLot.served := by
  induction as generalizing l with
  | nil => rfl
  | cons a as ih =>
    have ha := has a List.mem_cons_self
    rw [exec_cons, exec_cons, step_served hl ha]
    cases hm : l.step a with
    | none => rfl
    | some m => exact ih (waiting_step hl ha hm) fun b hb => has b (List.mem_cons_of_mem _ hb)

/-- Whatever the order of the statements of the sensors, with texts they mark the rows they mark on
the table, each gets the same row, and every call of `entVehicle` returns the same minutes. -/
theorem served_by_texts {table : ReservationTable} {as : List (Statement Sensor)}
    (has : ∀ a ∈ as, a.Sends) :
    exec step { table := table } as =
        (exec ReservationLot.step { table := table } as).map ReservationLot.served ∧
      ∀ l : ReservationLot Sensor,
        l.served.handed.map Answer.minutes = l.handed.map Grant.minutes := by
  have hidle : Waiting ({ table := table } : ReservationLot Sensor) := by
    intro s PN hPN
    cases hPN
  refine ⟨exec_served hidle has, fun l => ?_⟩
  show (l.handed.map Grant.answer).map Answer.minutes = _
  rw [List.map_map]
  exact List.map_congr_left fun g _ => minutes_answer g

theorem sendable_of_all {PN : List Char}
    (h : (PN.all fun c => c != Char.ofNat 0 && (c != '\'' && c != '\\')) = true) :
    Sendable PN := by
  have hclear : ∀ c ∈ PN, (c != Char.ofNat 0) = true ∧ (c != '\'' && c != '\\') = true :=
    fun c hc => Bool.and_eq_true_iff.mp (List.all_eq_true.mp h c hc)
  refine ⟨fun hzero => ?_, plain_of_all (List.all_eq_true.mpr fun c hc => (hclear c hc).2)⟩
  exact bne_iff_ne.mp (hclear _ hzero).1 rfl

theorem served_by_texts_two :
    (exec step { table := ReservationLot.threeReservations } ReservationLot.twoSensors).map
      (fun d => d.handed.map fun a => a.row_spot.headD []) = some [['3'], ['2'], ['1']] := by
  have hsends : ∀ a ∈ ReservationLot.twoSensors, a.Sends := by
    intro a ha
    simp only [ReservationLot.twoSensors, List.mem_cons, List.not_mem_nil, or_false] at ha
    rcases ha with rfl | rfl | rfl | rfl | rfl | rfl | rfl | rfl | rfl
    · exact sendable_of_all (by decide +kernel)
    · exact sendable_of_all (by decide +kernel)
    · trivial
    · trivial
    · trivial
    · trivial
    · exact sendable_of_all (by decide +kernel)
    · trivial
    · trivial
  rw [(served_by_texts hsends).1]
  decide +kernel

end ReservationServer
end VisionSensor
