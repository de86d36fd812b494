import Mathlib.Data.List.Sort
import VisionSensor.Lib.GuardedRun
import VisionSensor.Spot.ParkingSpot
import VisionSensor.Core.Decimal

/-! The reservation table and the two queries of `ParkingSpot.cpp` on it. `check_res` asks for any
row of a plate, `entVehicle` takes its first unused one and computes the minutes up to its end. -/
namespace VisionSensor

/-- A row of `end_user_reservation`; the texts of `row_spot` are its decimal numbers. -/
structure Reservation where
  sequence : ℤ
  start_date : ℤ
  end_date : ℤ
  start_time : ℤ
  end_time : ℤ
  plate_number : String
  used_yn : Bool
  sequence_int : InInt sequence
  deriving DecidableEq

namespace Reservation

/-- `ORDER BY start_date, start_time`. -/
def Before (r s : Reservation) : Prop :=
  r.start_date < s.start_date ∨ (r.start_date = s.start_date ∧ r.start_time ≤ s.start_time)

instance : DecidableRel Before := fun _ _ => inferInstanceAs (Decidable (_ ∨ _))

end Reservation

abbrev ReservationTable := List Reservation

namespace ReservationTable

/-- `check_res`, for a plate without quotes. -/
def check_res (table : ReservationTable) (PN : String) : Bool :=
  !(table.filter fun r => r.plate_number == PN).isEmpty

/-- The `SELECT` of `entVehicle`. -/
def openRows (table : ReservationTable) (PN : String) : List Reservation :=
  (table.filter fun r => r.plate_number == PN && !r.used_yn).insertionSort Reservation.Before

/-- The `UPDATE` of `entVehicle`. -/
def markUsed (table : ReservationTable) (tmp : ℤ) : ReservationTable :=
  table.map fun r => if r.sequence = tmp then { r with used_yn := true } else r

/-- A product of two `int`s. -/
def intMul (a b : ℤ) : ℤ := (a * b).bmod (2 ^ 32)

/-- The characters of the entry time that the loop appends to one of its strings. -/
def cut (entryTime : List Char) (positions : ℕ → Bool) : List Char :=
  ((List.range 13).filter positions).map fun i => entryTime.getD i '\x00'

/-- `ent_sum`; the parts of the sum are `long long`. -/
def ent_sum (entryTime : List Char) : ℤ :=
  let yye := cut entryTime fun i => i ≤ 3
  let moe := cut entryTime fun i => !(i ≤ 3) && i ≤ 5
  let dde := cut entryTime fun i => !(i ≤ 5) && i ≤ 7
  let hhe := cut entryTime fun i => !(i ≤ 7) && (i > 8 && i ≤ 10)
  let mme := cut entryTime fun i => i > 10
  intMul (atoi yye) 15768000 + intMul (atoi moe) 43200 + intMul (atoi dde) 1440 +
    intMul (atoi hhe) 60 + atoi mme

/-- `db_sum`. -/
def db_sum (end_date end_time : ℤ) : ℤ :=
  intMul (end_date.tdiv 10000) 15768000 + intMul ((end_date.tmod 10000).tdiv 100) 43200 +
    intMul ((end_date.tmod 10000).tmod 100) 1440 + intMul (end_time.tdiv 100) 60 +
    end_time.tmod 100

/-- `result_timer`; the difference is cast to an `int`. -/
def result_timer (db_sum ent_sum : ℤ) : ℤ :=
  if db_sum - ent_sum > 0 then (db_sum - ent_sum).bmod (2 ^ 32) else 10

/-- `entVehicle`: the minutes, and the table after the update; `none` when `row_spot` is null. -/
def entVehicle (table : ReservationTable) (PN : String) (entryTime : List Char) :
    Option (ℤ × ReservationTable) :=
  match table.openRows PN with
  | [] => none
  | row_spot :: _ =>
      let tmp := atoi (to_string row_spot.sequence)
      let end_date := atoi (to_string row_spot.end_date)
      let end_time := atoi (to_string row_spot.end_time)
      some (result_timer (db_sum end_date end_time) (ent_sum entryTime), table.markUsed tmp)

end ReservationTable

/-- The table and the sequence numbers that visits have marked used so far. -/
structure ReservationDesk where
  table : ReservationTable
  marked : List ℤ := []

namespace ReservationDesk
open GuardedRun

/-- What `enter` on a reservation sensor does to the table; `none` when it indexes a null row. -/
def visit (d : ReservationDesk) (v : String × List Char) : Option ReservationDesk :=
  if d.table.check_res v.1 then
    (d.table.entVehicle v.1 v.2).map fun entered =>
      { table := entered.2, marked := d.marked ++
          ((d.table.openRows v.1).head?.map fun row_spot => atoi (to_string row_spot.sequence)).toList }
  else some d

end ReservationDesk

theorem inInt_one : InInt 1 := by decide

theorem atoi_to_string {n : ℤ} (h : InInt n) : atoi (to_string n) = n := by
  have hr := readInt_to_string n [] (by simp)
  rw [List.append_nil] at hr
  obtain ⟨hlow, hhigh⟩ := h
  have hclamp : max (-2 ^ 63) (min n (2 ^ 63 - 1)) = n := by omega
  simp only [atoi, hr, Option.elim_some, hclamp]
  apply Int.bmod_eq_of_le <;> omega

end VisionSensor
