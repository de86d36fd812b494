import Mathlib.Data.Finset.Dedup
import Mathlib.Data.Finset.Erase
import Mathlib.Data.Finset.Card
import Mathlib.Data.List.Induction
import VisionSensor.Lib.FuelLoop
import VisionSensor.Reservation.EntVehicle

/-! Whether a reservation that `check_res` finds is one that `entVehicle` can use. The one counts the
used rows, the other leaves them out, so a plate runs out of rows before it is refused. -/
namespace VisionSensor
open GuardedRun FuelLoop

namespace ReservationTable

variable {table : ReservationTable} {PN plate : String} {r row : Reservation} {s : ℤ}

/-- The sequence numbers of the unused rows of a plate. -/
def openSequences (table : ReservationTable) (plate : String) : Finset ℤ :=
  ((table.filter fun r => r.plate_number == plate && !r.used_yn).map
    Reservation.sequence).toFinset

/-- No two plates share a sequence number. -/
def OnePlateEach (table : ReservationTable) : Prop :=
  ∀ r ∈ table, ∀ r' ∈ table, r.sequence = r'.sequence → r.plate_number = r'.plate_number

theorem check_res_iff : table.check_res PN = true ↔ PN ∈ table.map Reservation.plate_number := by
  simp [check_res, List.filter_eq_nil_iff]

theorem mem_openSequences : s ∈ table.openSequences plate ↔
    ∃ r ∈ table, r.plate_number = plate ∧ r.used_yn = false ∧ r.sequence = s := by
  simp [openSequences, and_assoc]

theorem mem_openRows : r ∈ table.openRows PN ↔
    r ∈ table ∧ r.plate_number = PN ∧ r.used_yn = false := by
  simp [openRows, List.mem_insertionSort]

theorem openRows_eq_nil_iff : table.openRows PN = [] ↔ table.openSequences PN = ∅ := by
  rw [Finset.eq_empty_iff_forall_notMem, List.eq_nil_iff_forall_not_mem]
  simp only [mem_openRows, mem_openSequences]
  constructor
  · rintro h s ⟨r, hr, hplate, hused, -⟩
    exact h r ⟨hr, hplate, hused⟩
  · rintro h r ⟨hr, hplate, hused⟩
    exact h r.sequence ⟨r, hr, hplate, hused, rfl⟩

theorem mem_markUsed : r ∈ table.markUsed s ↔
    ∃ r' ∈ table, r = if r'.sequence = s then { r' with used_yn := true } else r' := by
  simp only [markUsed, List.mem_map, eq_comm]

/-- Only the flag of a row changes. -/
theorem mem_markUsed_same (h : r ∈ table.markUsed s) : ∃ r' ∈ table,
    r.sequence = r'.sequence ∧ r.plate_number = r'.plate_number ∧
      r.used_yn = (r'.used_yn || decide (r'.sequence = s)) := by
  obtain ⟨r', hr', rfl⟩ := mem_markUsed.mp h
  refine ⟨r', hr', ?_⟩
  split_ifs with hs <;> simp [hs]

theorem openSequences_markUsed : (table.markUsed s).openSequences plate =
    (table.openSequences plate).erase s := by
  ext q
  rw [Finset.mem_erase, mem_openSequences, mem_openSequences]
  constructor
  · rintro ⟨r, hr, rfl, hused, rfl⟩
    obtain ⟨r', hr', hseq, hplate, hflag⟩ := mem_markUsed_same hr
    rw [hused, eq_comm, Bool.or_eq_false_iff, decide_eq_false_iff_not] at hflag
    exact ⟨hseq ▸ hflag.2, r', hr', hplate.symm, hflag.1, hseq.symm⟩
  · rintro ⟨hne, r, hr, hplate, hused, rfl⟩
    exact ⟨r, mem_markUsed.mpr ⟨r, hr, (if_neg hne).symm⟩, hplate, hused, rfl⟩

theorem map_plate_markUsed :
    (table.markUsed s).map Reservation.plate_number = table.map Reservation.plate_number := by
  unfold markUsed
  rw [List.map_map]
  refine List.map_congr_left fun r _ => ?_
  simp only [Function.comp_apply]
  split_ifs <;> rfl

theorem OnePlateEach.markUsed (h : table.OnePlateEach) (s : ℤ) : (table.markUsed s).OnePlateEach := by
  intro r hr q hq hseq
  obtain ⟨r', hr', hseq', hplate', -⟩ := mem_markUsed_same hr
  obtain ⟨q', hq', hseq'', hplate'', -⟩ := mem_markUsed_same hq
  rw [hplate', hplate'']
  exact h r' hr' q' hq' (by rw [← hseq', ← hseq'', hseq])

end ReservationTable

namespace ReservationDesk
open ReservationTable

/-- What a visit does: nothing for a plate without a row, and for one with an unused row it marks
the first of these. -/
theorem visit_eq_some {d e : ReservationDesk} {v : String × List Char}
    (h : d.visit v = some e) : (v.1 ∉ d.table.map Reservation.plate_number ∧ e = d) ∨
      ∃ s, s ∈ d.table.openSequences v.1 ∧ e = ⟨d.table.markUsed s, d.marked ++ [s]⟩ := by
  unfold visit at h
  split_ifs at h with hcheck
  · right
    obtain ⟨entered, hentered, rfl⟩ := Option.map_eq_some_iff.mp h
    unfold entVehicle at hentered
    cases hrows : d.table.openRows v.1 with
    | nil =>
      rw [hrows] at hentered
      cases hentered
    | cons row_spot rows =>
      rw [hrows] at hentered
      obtain rfl := Option.some.inj hentered
      have hmem : row_spot ∈ d.table.openRows v.1 := by simp [hrows]
      obtain ⟨hrow, hplate, hused⟩ := mem_openRows.mp hmem
      refine ⟨row_spot.sequence, mem_openSequences.mpr ⟨row_spot, hrow, hplate, hused, rfl⟩, ?_⟩
      simp only [List.head?_cons, Option.map_some, Option.toList_some,
        atoi_to_string row_spot.sequence_int]
  · rw [check_res_iff] at hcheck
    exact .inl ⟨hcheck, (Option.some.inj h).symm⟩

/-- A null row is indexed exactly when the plate has rows and none of them is unused. -/
theorem visit_isSome_iff (d : ReservationDesk) (v : String × List Char) :
    (d.visit v).isSome ↔
      (d.table.check_res v.1 = true → d.table.openRows v.1 ≠ []) := by
  unfold visit entVehicle
  split_ifs with hcheck
  · cases d.table.openRows v.1 <;> simp [hcheck]
  · simp [hcheck]

/-- A visit that marks a row takes one from the visits its plate has left, and from no other's. -/
theorem count_le_markUsed_iff {table : ReservationTable} {PN plate : String} {s : ℤ}
    (h : table.OnePlateEach) (hs : s ∈ table.openSequences PN) (plates : List String) :
    plates.count plate ≤ ((table.markUsed s).openSequences plate).card ↔
      (PN :: plates).count plate ≤ (table.openSequences plate).card := by
  rw [openSequences_markUsed, List.count_cons]
  by_cases heq : PN = plate
  · subst heq
    have hpos := Finset.card_pos.mpr ⟨s, hs⟩
    rw [Finset.card_erase_of_mem hs]
    simp
    omega
  · have hother : s ∉ table.openSequences plate := by
      intro hs'
      obtain ⟨r, hr, hrplate, -, hrs⟩ := mem_openSequences.mp hs
      obtain ⟨q, hq, hqplate, -, hqs⟩ := mem_openSequences.mp hs'
      exact heq (by rw [← hrplate, ← hqplate, h r hr q hq (hrs.trans hqs.symm)])
    rw [Finset.erase_eq_of_notMem hother]
    simp [heq]

/-- The visits of a run never index a null row exactly if no plate with a row comes more often
than it has unused reservations. -/
theorem exec_isSome_iff_count {d : ReservationDesk} (h : d.table.OnePlateEach)
    (visits : List (String × List Char)) : (exec visit d visits).isSome ↔
      ∀ plate ∈ d.table.map Reservation.plate_number,
        (visits.map Prod.fst).count plate ≤ (d.table.openSequences plate).card := by
  induction visits generalizing d with
  | nil => simp
  | cons v visits ih =>
    rw [exec_cons, List.map_cons]
    cases hv : d.visit v with
    | none =>
      have hnull : ¬ (d.table.check_res v.1 = true → d.table.openRows v.1 ≠ []) := by
        rw [← visit_isSome_iff, hv]
        simp
      simp only [Classical.not_imp, not_not] at hnull
      obtain ⟨hcheck, hempty⟩ := hnull
      refine iff_of_false (by simp) fun hcount => ?_
      have hfew := hcount v.1 (check_res_iff.mp hcheck)
      rw [openRows_eq_nil_iff.mp hempty] at hfew
      simp at hfew
    | some e =>
      rw [Option.bind_some]
      rcases visit_eq_some hv with ⟨hno, rfl⟩ | ⟨s, hs, rfl⟩
      · rw [ih h]
        refine forall₂_congr fun plate hplate => ?_
        have hne : v.1 ≠ plate := by
          rintro rfl
          exact hno hplate
        rw [List.count_cons_of_ne hne]
      · rw [ih (h.markUsed s), map_plate_markUsed]
        refine forall₂_congr fun plate hplate => ?_
        exact count_le_markUsed_iff h hs _

/-- Sequence numbers that were marked have no unused row left, and none was marked twice. -/
structure MarkedOnce (d : ReservationDesk) : Prop where
  nodup : d.marked.Nodup
  used : ∀ s ∈ d.marked, ∀ plate, s ∉ d.table.openSequences plate

theorem MarkedOnce.visit {d e : ReservationDesk} {v : String × List Char} (h : d.MarkedOnce)
    (hv : d.visit v = some e) : e.MarkedOnce := by
  rcases visit_eq_some hv with ⟨-, rfl⟩ | ⟨s, hs, rfl⟩
  · exact h
  · refine ⟨?_, ?_⟩
    · refine List.nodup_append.mpr ⟨h.nodup, List.nodup_singleton s, ?_⟩
      rintro q hq t ht rfl
      obtain rfl := List.mem_singleton.mp ht
      exact h.used q hq v.1 hs
    · intro q hq plate hopen
      rw [openSequences_markUsed, Finset.mem_erase] at hopen
      rcases List.mem_append.mp hq with hq | hq
      · exact h.used q hq plate hopen.2
      · exact hopen.1 (List.mem_singleton.mp hq)

theorem exec_markedOnce {table : ReservationTable} {d : ReservationDesk}
    {visits : List (String × List Char)} (h : exec visit { table := table } visits = some d) :
    d.MarkedOnce :=
  invariant (fun _ _ _ hd hv => hd.visit hv) ⟨List.nodup_nil, fun _ hs => absurd hs List.not_mem_nil⟩
    (visits_of_exec h)

/-- Whenever a visit of the run finds `check_res` true, the query of `entVehicle` has a row. -/
def AllUsable (table : ReservationTable) (visits : List (String × List Char)) : Prop :=
  ∀ pre v post, visits = pre ++ v :: post → ∃ d, exec visit { table := table } pre = some d ∧
    (d.table.check_res v.1 = true → d.table.openRows v.1 ≠ [])

theorem allUsable_iff (table : ReservationTable) (visits : List (String × List Char)) :
    AllUsable table visits ↔ (exec visit { table := table } visits).isSome := by
  induction visits using List.reverseRecOn with
  | nil => exact iff_of_true (fun pre v post h => by simp at h) rfl
  | append_singleton visits v ih =>
    unfold AllUsable at ih ⊢
    rw [forall_split_concat, ih]
    constructor
    · rintro ⟨-, d, hd, husable⟩
      obtain ⟨e, he⟩ := Option.isSome_iff_exists.mp ((visit_isSome_iff d v).mpr husable)
      exact Option.isSome_iff_exists.mpr ⟨e, exec_concat_eq_some.mpr ⟨d, hd, he⟩⟩
    · intro h
      obtain ⟨e, he⟩ := Option.isSome_iff_exists.mp h
      obtain ⟨d, hd, hv⟩ := exec_concat_eq_some.mp he
      exact ⟨Option.isSome_iff_exists.mpr ⟨d, hd⟩, d, hd,
        (visit_isSome_iff d v).mp (Option.isSome_iff_exists.mpr ⟨e, hv⟩)⟩

/-- What the two queries and the update guarantee over any run of visits. -/
theorem reservations_usable_iff (table : ReservationTable) (visits : List (String × List Char)) :
    (table.OnePlateEach → (AllUsable table visits ↔
      ∀ plate ∈ table.map Reservation.plate_number,
        (visits.map Prod.fst).count plate ≤ (table.openSequences plate).card)) ∧
      ∀ d, exec visit { table := table } visits = some d →
        ∀ r ∈ table, d.marked.count r.sequence ≤ 1 := by
  refine ⟨fun h => ?_, fun d hd r _ => ?_⟩
  · rw [allUsable_iff]
    exact exec_isSome_iff_count h visits
  · exact List.nodup_iff_count_le_one.mp (exec_markedOnce hd).nodup r.sequence

/-- A table with one reservation. -/
def oneReservation : ReservationTable :=
  [{ sequence := 1, start_date := 20180101, end_date := 20180101, start_time := 900,
     end_time := 1800, plate_number := "12A3456", used_yn := false, sequence_int := inInt_one }]

/-- One visit of its plate can use it. -/
theorem reservations_usable_one :
    AllUsable oneReservation [("12A3456", "20180101T090000".toList)] ∧
      ∀ d, exec visit { table := oneReservation } [("12A3456", "20180101T090000".toList)] =
        some d → ∀ r ∈ oneReservation, d.marked.count r.sequence ≤ 1 := by
  obtain ⟨husable, hmarked⟩ :=
    reservations_usable_iff oneReservation [("12A3456", "20180101T090000".toList)]
  refine ⟨(husable (by simp [OnePlateEach, oneReservation])).mpr ?_, hmarked⟩
  decide

/-- The second visit of the plate finds its row, but no unused one. -/
theorem not_allUsable_second_visit : ¬ AllUsable oneReservation
    [("12A3456", "20180101T090000".toList), ("12A3456", "20180101T110000".toList)] := by
  rw [allUsable_iff]
  decide

end ReservationDesk
end VisionSensor
