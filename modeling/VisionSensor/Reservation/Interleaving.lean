import Mathlib.Data.Fintype.Basic
import VisionSensor.Lib.StableSort
import VisionSensor.Reservation.Usable

/-! Several sensors at one reservation table. `check_res` and `entVehicle` send three statements,
and those of other sensors may come between them. -/
namespace VisionSensor
open GuardedRun

/-- Where `enter` is at a sensor: `found` after `check_res`, `selected` between the `SELECT` and the
`UPDATE` of `entVehicle`. -/
inductive SensorAt where
  | idle
  | found (PN : String) (entryTime : List Char)
  | selected (PN : String) (entryTime : List Char) (row_spot : Reservation)

/-- A call of `entVehicle` that has returned. -/
structure Grant where
  PN : String
  entryTime : List Char
  row_spot : Reservation

/-- The minutes it returned. -/
def Grant.minutes (g : Grant) : ℤ :=
  ReservationTable.result_timer
    (ReservationTable.db_sum (atoi (to_string g.row_spot.end_date))
      (atoi (to_string g.row_spot.end_time)))
    (ReservationTable.ent_sum g.entryTime)

structure ReservationLot (Sensor : Type) where
  table : ReservationTable
  place : Sensor → SensorAt := fun _ => .idle
  handed : List Grant := []

/-- One of the three statements of a sensor. -/
inductive Statement (Sensor : Type) where
  | check_res (s : Sensor) (PN : String) (entryTime : List Char)
  | select (s : Sensor)
  | update (s : Sensor)

/-- The plate that `enter` is looking up. -/
def SensorAt.plate : SensorAt → Option String
  | .idle => none
  | .found PN _ => some PN
  | .selected PN _ _ => some PN

namespace Reservation

instance : Std.Total Before where
  total r s := by
    unfold Before
    omega

instance : IsTrans Reservation Before where
  trans r s t hrs hst := by
    unfold Before at *
    omega

end Reservation

namespace ReservationTable

variable {table : ReservationTable} {PN plate : String}

/-- A mark takes a row out of the selection and leaves the others in their order. -/
theorem openRows_markUsed (q : ℤ) : (table.markUsed q).openRows PN =
    (table.openRows PN).filter fun r => r.sequence ≠ q := by
  have hfilter : ((table.markUsed q).filter fun r => r.plate_number == PN && !r.used_yn) =
      (table.filter fun r => r.plate_number == PN && !r.used_yn).filter
        fun r => r.sequence ≠ q := by
    unfold markUsed
    induction table with
    | nil => rfl
    | cons r table ih =>
      rw [List.map_cons, List.filter_cons, List.filter_cons, ih]
      by_cases hq : r.sequence = q
      · rw [if_pos hq, if_neg (by simp)]
        split_ifs
        · rw [List.filter_cons_of_neg (by simp [hq])]
        · rfl
      · rw [if_neg hq]
        split_ifs
        · rw [List.filter_cons_of_pos (by simp [hq])]
        · rfl
  rw [openRows, hfilter, StableSort.insertionSort_filter]
  rfl

theorem map_sequence_markUsed (q : ℤ) :
    (table.markUsed q).map Reservation.sequence = table.map Reservation.sequence := by
  unfold markUsed
  rw [List.map_map]
  refine List.map_congr_left fun r _ => ?_
  simp only [Function.comp_apply]
  split_ifs <;> rfl

theorem nodup_openRows (hkey : (table.map Reservation.sequence).Nodup) :
    ((table.openRows PN).map Reservation.sequence).Nodup := by
  have hperm := (List.perm_insertionSort Reservation.Before
    (table.filter fun r => r.plate_number == PN && !r.used_yn)).map Reservation.sequence
  exact hperm.nodup_iff.mpr ((List.filter_sublist.map _).nodup hkey)

/-- Marking the row that was selected leaves the rest of its plate's rows. -/
theorem openRows_markUsed_head (hkey : (table.map Reservation.sequence).Nodup) {row : Reservation}
    (hrow : (table.openRows PN).head? = some row) :
    table.openRows PN = row :: (table.markUsed row.sequence).openRows PN := by
  have hnodup := @nodup_openRows table PN hkey
  obtain ⟨rest, hrest⟩ := List.head?_eq_some_iff.mp hrow
  rw [openRows_markUsed, hrest, List.filter_cons_of_neg (by simp)]
  rw [hrest, List.map_cons, List.nodup_cons] at hnodup
  rw [List.filter_eq_self.mpr]
  intro r hr
  have hne : r.sequence ≠ row.sequence := by
    intro heq
    exact hnodup.1 (heq ▸ List.mem_map_of_mem hr)
  simpa using hne

/-- The rows of another plate stay. -/
theorem openRows_markUsed_other (hkey : (table.map Reservation.sequence).Nodup) {row : Reservation}
    (hrow : (table.openRows PN).head? = some row) (hne : plate ≠ PN) :
    (table.markUsed row.sequence).openRows plate = table.openRows plate := by
  rw [openRows_markUsed, List.filter_eq_self.mpr]
  intro r hr
  obtain ⟨hrow, hplate, -⟩ := mem_openRows.mp (List.mem_of_head? hrow)
  obtain ⟨hr, hrplate, -⟩ := mem_openRows.mp hr
  have hseq : r.sequence ≠ row.sequence := by
    intro heq
    obtain rfl := List.inj_on_of_nodup_map hkey hr hrow heq
    exact hne (hrplate.symm.trans hplate)
  simpa using hseq

end ReservationTable

namespace ReservationLot
open ReservationTable

variable {Sensor : Type}

/-- `none` where the sensor is at another statement, and where it indexes a null row. -/
def step [DecidableEq Sensor] (l : ReservationLot Sensor) :
    Statement Sensor → Option (ReservationLot Sensor)
  | .check_res s PN entryTime =>
      match l.place s with
      | .idle => some (if l.table.check_res PN then
          { l with place := Function.update l.place s (.found PN entryTime) } else l)
      | _ => none
  | .select s =>
      match l.place s with
      | .found PN entryTime => (l.table.openRows PN).head?.map fun row_spot =>
          { l with place := Function.update l.place s (.selected PN entryTime row_spot) }
      | _ => none
  | .update s =>
      match l.place s with
      | .selected PN entryTime row_spot => some
          { table := l.table.markUsed (atoi (to_string row_spot.sequence))
            place := Function.update l.place s .idle
            handed := l.handed ++ [⟨PN, entryTime, row_spot⟩] }
      | _ => none

/-- Undisturbed, the three statements are `entVehicle`. -/
theorem exec_entVehicle [DecidableEq Sensor] {l : ReservationLot Sensor} {s : Sensor} {PN : String}
    (hidle : l.place s = .idle) (hcheck : l.table.check_res PN = true) (entryTime : List Char) :
    (exec step l [.check_res s PN entryTime, .select s, .update s]).map
        (fun e => (e.handed.getLast?.map Grant.minutes, e.table)) =
      (l.table.entVehicle PN entryTime).map fun entered => (some entered.1, entered.2) := by
  unfold entVehicle
  cases hrows : l.table.openRows PN with
  | nil => simp [exec, step, hidle, hcheck, hrows]
  | cons row_spot rows => simp [exec, step, hidle, hcheck, hrows, Grant.minutes]

/-- The rows the calls for a plate have got. -/
def handedTo (l : ReservationLot Sensor) (PN : String) : List Reservation :=
  (l.handed.filter fun g => g.PN == PN).map Grant.row_spot

/-- A vehicle is at one sensor at a time. -/
def OneAtATime (l : ReservationLot Sensor) : Statement Sensor → Prop
  | .check_res _ PN _ => ∀ s, (l.place s).plate ≠ some PN
  | _ => True

instance [Fintype Sensor] (l : ReservationLot Sensor) (a : Statement Sensor) :
    Decidable (l.OneAtATime a) := by
  cases a <;> unfold OneAtATime <;> infer_instance

/-- What holds between the statements, in a lot that opened with `table`. -/
structure Orderly (table : ReservationTable) (l : ReservationLot Sensor) : Prop where
  keys : (l.table.map Reservation.sequence).Nodup
  split : ∀ PN, l.handedTo PN ++ l.table.openRows PN = table.openRows PN
  head : ∀ s PN entryTime row_spot, l.place s = .selected PN entryTime row_spot →
    (l.table.openRows PN).head? = some row_spot
  apart : ∀ s s' PN, (l.place s).plate = some PN → (l.place s').plate = some PN → s = s'
  once : (l.handed.map fun g => g.row_spot.sequence).Nodup
  spent : ∀ g ∈ l.handed, ∀ PN, g.row_spot.sequence ∉ l.table.openSequences PN

variable {table : ReservationTable} {l m : ReservationLot Sensor}

theorem orderly_start (hkey : (table.map Reservation.sequence).Nodup) :
    @Orderly Sensor table { table := table } := by
  refine ⟨hkey, fun PN => rfl, ?_, ?_, List.nodup_nil, ?_⟩
  · intro s PN entryTime row hs
    cases hs
  · intro s s' PN hs
    cases hs
  · intro g hg
    cases hg

variable [DecidableEq Sensor]

theorem Orderly.check_res (h : l.Orderly table) {s : Sensor} {PN : String} {entryTime : List Char}
    (hcar : l.OneAtATime (.check_res s PN entryTime))
    (hstep : l.step (.check_res s PN entryTime) = some m) : m.Orderly table := by
  simp only [step] at hstep
  split at hstep
  · obtain rfl := Option.some.inj hstep
    split_ifs
    · refine ⟨h.keys, h.split, fun s' PN' t row hs' => ?_, fun s₁ s₂ PN' h₁ h₂ => ?_, h.once,
        h.spent⟩
      · dsimp only at hs'
        rw [Function.update_apply] at hs'
        split_ifs at hs'
        exact h.head s' PN' t row hs'
      · dsimp only at h₁ h₂
        rw [Function.update_apply] at h₁ h₂
        split_ifs at h₁ h₂ with e₁ e₂ e₂
        · rw [e₁, e₂]
        · cases h₁
          exact absurd h₂ (hcar s₂)
        · cases h₂
          exact absurd h₁ (hcar s₁)
        · exact h.apart s₁ s₂ PN' h₁ h₂
    · exact h
  · cases hstep

theorem Orderly.select (h : l.Orderly table) {s : Sensor} (hstep : l.step (.select s) = some m) :
    m.Orderly table := by
  simp only [step] at hstep
  split at hstep
  · rename_i PN entryTime hs
    obtain ⟨row, hrow, rfl⟩ := Option.map_eq_some_iff.mp hstep
    have hplate : ∀ s', (Function.update l.place s (.selected PN entryTime row) s').plate =
        (l.place s').plate := by
      intro s'
      rw [Function.update_apply]
      split_ifs with heq
      · rw [heq, hs]
        rfl
      · rfl
    refine ⟨h.keys, h.split, fun s' PN' t row' hs' => ?_, fun s₁ s₂ PN' h₁ h₂ => ?_, h.once,
      h.spent⟩
    · dsimp only at hs'
      rw [Function.update_apply] at hs'
      split_ifs at hs' with heq
      · cases hs'
        exact hrow
      · exact h.head s' PN' t row' hs'
    · exact h.apart s₁ s₂ PN' ((hplate s₁).symm.trans h₁) ((hplate s₂).symm.trans h₂)
  · cases hstep

theorem Orderly.update (h : l.Orderly table) {s : Sensor} (hstep : l.step (.update s) = some m) :
    m.Orderly table := by
  simp only [step] at hstep
  split at hstep
  · rename_i PN entryTime row hs
    obtain rfl := Option.some.inj hstep
    have hhead := h.head s PN entryTime row hs
    have hseq : atoi (to_string row.sequence) = row.sequence := atoi_to_string row.sequence_int
    have hopen : row.sequence ∈ l.table.openSequences PN := by
      obtain ⟨hrow, hplate, hused⟩ := mem_openRows.mp (List.mem_of_head? hhead)
      exact mem_openSequences.mpr ⟨row, hrow, hplate, hused, rfl⟩
    rw [hseq]
    refine ⟨?_, fun PN' => ?_, fun s' PN' t row' hs' => ?_, fun s₁ s₂ PN' h₁ h₂ => ?_, ?_, ?_⟩
    · rw [map_sequence_markUsed]
      exact h.keys
    · rw [← h.split PN', handedTo, List.filter_append, List.map_append]
      by_cases hplate : PN' = PN
      · subst hplate
        rw [List.filter_cons_of_pos (by simp), openRows_markUsed_head h.keys hhead,
          List.append_assoc]
        rfl
      · rw [List.filter_cons_of_neg (by simpa using Ne.symm hplate),
          openRows_markUsed_other h.keys hhead hplate]
        exact congrArg (· ++ _) (List.append_nil _)
    · dsimp only at hs'
      rw [Function.update_apply] at hs'
      split_ifs at hs' with heq
      have hplate : PN' ≠ PN := by
        rintro rfl
        exact heq (h.apart s' s PN' (by rw [hs']; rfl) (by rw [hs]; rfl))
      rw [openRows_markUsed_other h.keys hhead hplate]
      exact h.head s' PN' t row' hs'
    · have hbusy : ∀ s', (Function.update l.place s .idle s').plate = some PN' →
          (l.place s').plate = some PN' := by
        intro s' hs'
        rw [Function.update_apply] at hs'
        split_ifs at hs'
        · cases hs'
        · exact hs'
      exact h.apart s₁ s₂ PN' (hbusy s₁ h₁) (hbusy s₂ h₂)
    · rw [List.map_append]
      refine List.nodup_append.mpr ⟨h.once, List.nodup_singleton _, ?_⟩
      rintro q hq t ht rfl
      obtain ⟨g, hg, rfl⟩ := List.mem_map.mp hq
      refine h.spent g hg PN ?_
      rw [List.mem_singleton.mp ht]
      exact hopen
    · intro g hg PN' hmem
      rw [openSequences_markUsed, Finset.mem_erase] at hmem
      rcases List.mem_append.mp hg with hg | hg
      · exact h.spent g hg PN' hmem.2
      · obtain rfl := List.mem_singleton.mp hg
        exact hmem.1 rfl
  · cases hstep

theorem Orderly.step {a : Statement Sensor} (h : l.Orderly table) (hcar : l.OneAtATime a)
    (hstep : l.step a = some m) : m.Orderly table := by
  cases a with
  | check_res s PN entryTime => exact h.check_res hcar hstep
  | select s => exact h.select hstep
  | update s => exact h.update hstep

/-- However the statements of the sensors fall, as long as a vehicle is at one sensor at a time: the
rows given for a plate are its unused ones from the first on, in the order of their start, the rest
of them are still there, no row is given twice, and a sensor finds a null row exactly when its
plate's rows are all given. -/
theorem handed_in_order (hkey : (table.map Reservation.sequence).Nodup)
    {as : List (Statement Sensor)}
    (hcars : ∀ l a, Takes ReservationLot.step { table := table } as l a → l.OneAtATime a)
    (hl : Visits ReservationLot.step { table := table } as l) :
    (∀ PN, l.handedTo PN ++ l.table.openRows PN = table.openRows PN) ∧
      (l.handed.map fun g => g.row_spot.sequence).Nodup ∧
      ∀ s PN entryTime, l.place s = .found PN entryTime →
        (l.step (.select s) = none ↔ l.handedTo PN = table.openRows PN) := by
  have h : l.Orderly table :=
    guarded_invariant (fun _ _ _ h hcar hstep => h.step hcar hstep) (orderly_start hkey) hcars hl
  refine ⟨h.split, h.once, fun s PN entryTime hs => ?_⟩
  have hsplit := h.split PN
  simp only [ReservationLot.step, hs, Option.map_eq_none_iff, List.head?_eq_none_iff]
  constructor
  · intro hnil
    rw [hnil, List.append_nil] at hsplit
    exact hsplit
  · intro hall
    rw [hall] at hsplit
    exact List.self_eq_append_right.mp hsplit.symm

/-- Two reservations of a plate, the later one first, and one of another. -/
def threeReservations : ReservationTable :=
  [{ sequence := 1, start_date := 20180101, end_date := 20180101, start_time := 1300,
     end_time := 1800, plate_number := "12A3456", used_yn := false, sequence_int := by decide },
   { sequence := 2, start_date := 20180101, end_date := 20180101, start_time := 900,
     end_time := 1800, plate_number := "78B9012", used_yn := false, sequence_int := by decide },
   { sequence := 3, start_date := 20180101, end_date := 20180101, start_time := 900,
     end_time := 1200, plate_number := "12A3456", used_yn := false, sequence_int := by decide }]

/-- Two vehicles at two sensors, and then the first of them at the other one. -/
def twoSensors : List (Statement Bool) :=
  [.check_res true "12A3456" "20180101T090000".toList,
    .check_res false "78B9012" "20180101T090500".toList, .select false, .select true, .update true,
    .update false, .check_res false "12A3456" "20180101T133000".toList, .select false,
    .update false]

theorem handed_in_order_two :
    ∃ l, exec ReservationLot.step { table := threeReservations } twoSensors = some l ∧
      (l.handedTo "12A3456").map Reservation.sequence = [3, 1] ∧
      l.handedTo "12A3456" ++ l.table.openRows "12A3456" =
        threeReservations.openRows "12A3456" := by
  have hkey : (threeReservations.map Reservation.sequence).Nodup := by decide
  have hcheck : checkTakes ReservationLot.step OneAtATime { table := threeReservations }
      twoSensors = true := by decide
  have hgiven : (exec ReservationLot.step { table := threeReservations } twoSensors).map
      (fun l => (l.handedTo "12A3456").map Reservation.sequence) = some [3, 1] := by decide
  obtain ⟨l, hl, hseq⟩ := Option.map_eq_some_iff.mp hgiven
  obtain ⟨hsplit, -⟩ := handed_in_order hkey (fun l a h => takes_of_checkTakes hcheck h)
    (visits_of_exec hl)
  exact ⟨l, hl, hseq, hsplit "12A3456"⟩

/-- The plate at both sensors at once: both get the first of its rows. -/
example : ((exec ReservationLot.step { table := threeReservations }
    [.check_res true "12A3456" [], .check_res false "12A3456" [], .select true, .select false,
      .update true, .update false]).map fun l =>
        (l.handedTo "12A3456").map Reservation.sequence) = some [3, 3] := by decide

end ReservationLot
end VisionSensor
