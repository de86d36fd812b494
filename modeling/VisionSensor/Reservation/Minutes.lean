import VisionSensor.Lib.Calendar
import VisionSensor.Reservation.EntVehicle

/-! The minutes `entVehicle` computes, against the calendar. The code gives every month 30 days and
every year 15768000 minutes, thirty times as many as it has, in products of 32 bits. -/
namespace VisionSensor
open Calendar

/-- A number with leading zeros up to a width. -/
def zeroPad (w n : ℕ) : List Char :=
  List.replicate (w - (Nat.toDigits 10 n).length) '0' ++ Nat.toDigits 10 n

namespace ReservationTable

/-- `YYYYMMDDTHHMMSS`. -/
def isoForm (t : Minute) (second : ℕ) : List Char :=
  zeroPad 4 t.year ++ zeroPad 2 t.month ++ zeroPad 2 t.day ++ 'T' :: (zeroPad 2 t.hour ++
    zeroPad 2 t.minute ++ zeroPad 2 second)

/-- `YYYYMMDD` as a number. -/
def dateNumber (t : Minute) : ℤ := t.year * 10000 + t.month * 100 + t.day

/-- `HHMM` as a number. -/
def timeNumber (t : Minute) : ℤ := t.hour * 100 + t.minute

end ReservationTable

theorem mem_zeroPad {w n : ℕ} {c : Char} (h : c ∈ zeroPad w n) : c.isDigit = true := by
  rcases List.mem_append.mp h with h | h
  · rw [List.eq_of_mem_replicate h]
    rfl
  · exact isDigit_toDigits h

theorem length_zeroPad {w n : ℕ} (hw : 0 < w) (h : n < 10 ^ w) : (zeroPad w n).length = w := by
  have hlen : (Nat.toDigits 10 n).length ≤ w := (Nat.length_toDigits_le_iff (by decide) hw).mpr h
  simp [zeroPad]
  omega

theorem atoi_digits {ds : List Char} (hne : ds ≠ []) (hds : ∀ c ∈ ds, c.isDigit = true)
    (hsmall : Nat.ofDigitChars 10 ds 0 < 2 ^ 31) : atoi ds = Nat.ofDigitChars 10 ds 0 := by
  obtain ⟨d, cs, rfl⟩ := List.exists_cons_of_ne_nil hne
  obtain ⟨hspace, hminus, hplus, -⟩ := digit_spec (hds d List.mem_cons_self)
  have hstart : (d :: cs).dropWhile isSpace = d :: cs := by
    rw [List.dropWhile_cons, hspace]
    rfl
  have hsign : readSign (d :: cs) = (false, d :: cs) := by
    unfold readSign
    split <;> simp_all
  have hread := @takeWhile_digits (d :: cs) [] hds (by simp)
  rw [List.append_nil] at hread
  have hint : readInt (d :: cs) = some ((Nat.ofDigitChars 10 (d :: cs) 0 : ℤ), []) := by
    simp only [readInt, hstart, hsign, hread.1, hread.2, if_neg hne, Bool.false_eq_true, reduceIte]
  simp only [atoi, hint, Option.elim_some]
  generalize Nat.ofDigitChars 10 (d :: cs) 0 = n at *
  have hclamp : max (-2 ^ 63) (min (n : ℤ) (2 ^ 63 - 1)) = n := by omega
  rw [hclamp]
  apply Int.bmod_eq_of_le <;> omega

theorem atoi_zeroPad {w n : ℕ} (h : n < 2 ^ 31) : atoi (zeroPad w n) = n := by
  have hvalue : Nat.ofDigitChars 10 (zeroPad w n) 0 = n := by
    rw [zeroPad, Nat.ofDigitChars_append, Nat.ofDigitChars_replicate_zero, Nat.mul_zero,
      Nat.ofDigitChars_ten_toDigits]
  have hne : zeroPad w n ≠ [] := List.append_ne_nil_of_right_ne_nil _ Nat.toDigits_ne_nil
  rw [atoi_digits hne (fun c hc => mem_zeroPad hc) (by rwa [hvalue]), hvalue]

namespace ReservationTable

theorem intMul_eq {a b : ℤ} (hlow : -2 ^ 31 ≤ a * b) (hhigh : a * b < 2 ^ 31) :
    intMul a b = a * b := by
  unfold intMul
  apply Int.bmod_eq_of_le <;> omega

/-- The sums of the code, in minutes of its own calendar. -/
def codeMinutes (t : Minute) : ℤ :=
  intMul t.year 15768000 + t.month * 43200 + t.day * 1440 + t.hour * 60 + t.minute

/-- The loop cuts the date and the time out of the ISO form. -/
theorem cut_fields (rest : List Char) {y mo d h mi : List Char} (hy : y.length = 4)
    (hmo : mo.length = 2) (hd : d.length = 2) (hh : h.length = 2) (hmi : mi.length = 2) :
    let entryTime := y ++ mo ++ d ++ 'T' :: (h ++ mi ++ rest)
    (cut entryTime fun i => i ≤ 3) = y ∧ (cut entryTime fun i => !(i ≤ 3) && i ≤ 5) = mo ∧
      (cut entryTime fun i => !(i ≤ 5) && i ≤ 7) = d ∧
      (cut entryTime fun i => !(i ≤ 7) && (i > 8 && i ≤ 10)) = h ∧
      (cut entryTime fun i => i > 10) = mi := by
  match y, mo, d, h, mi, hy, hmo, hd, hh, hmi with
  | [_, _, _, _], [_, _], [_, _], [_, _], [_, _], _, _, _, _, _ => exact ⟨rfl, rfl, rfl, rfl, rfl⟩

theorem ent_sum_isoForm (t : Minute) (second : ℕ) (hyear : t.year < 10 ^ 4) :
    ent_sum (isoForm t second) = codeMinutes t := by
  obtain ⟨hmonth, hday, hhour, hminute⟩ := t.bounds
  obtain ⟨hy, hmo, hd, hh, hmi⟩ := cut_fields (zeroPad 2 second)
    (length_zeroPad (by decide) hyear)
    (length_zeroPad (w := 2) (n := t.month) (by decide) (by omega))
    (length_zeroPad (w := 2) (n := t.day) (by decide) (by omega))
    (length_zeroPad (w := 2) (n := t.hour) (by decide) (by omega))
    (length_zeroPad (w := 2) (n := t.minute) (by decide) (by omega))
  unfold ent_sum codeMinutes isoForm
  simp only [hy, hmo, hd, hh, hmi]
  rw [atoi_zeroPad (by omega), atoi_zeroPad (by omega), atoi_zeroPad (by omega),
    atoi_zeroPad (by omega), atoi_zeroPad (by omega), intMul_eq (b := 43200) (by omega) (by omega),
    intMul_eq (b := 1440) (by omega) (by omega), intMul_eq (b := 60) (by omega) (by omega)]

theorem db_sum_eq (t : Minute) : db_sum (dateNumber t) (timeNumber t) = codeMinutes t := by
  obtain ⟨hmonth, hday, hhour, hminute⟩ := t.bounds
  have hyear : (dateNumber t).tdiv 10000 = t.year := by
    rw [Int.tdiv_eq_ediv_of_nonneg] <;> unfold dateNumber <;> omega
  have hrest : (dateNumber t).tmod 10000 = t.month * 100 + t.day := by
    rw [Int.tmod_eq_emod_of_nonneg] <;> unfold dateNumber <;> omega
  have hmonth' : ((t.month : ℤ) * 100 + t.day).tdiv 100 = t.month := by
    rw [Int.tdiv_eq_ediv_of_nonneg] <;> omega
  have hday' : ((t.month : ℤ) * 100 + t.day).tmod 100 = t.day := by
    rw [Int.tmod_eq_emod_of_nonneg] <;> omega
  have hhour' : (timeNumber t).tdiv 100 = t.hour := by
    rw [Int.tdiv_eq_ediv_of_nonneg] <;> unfold timeNumber <;> omega
  have hminute' : (timeNumber t).tmod 100 = t.minute := by
    rw [Int.tmod_eq_emod_of_nonneg] <;> unfold timeNumber <;> omega
  unfold db_sum codeMinutes
  rw [hyear, hrest, hmonth', hday', hhour', hminute', intMul_eq (b := 43200) (by omega) (by omega),
    intMul_eq (b := 1440) (by omega) (by omega), intMul_eq (b := 60) (by omega) (by omega)]

/-- The days by which years of 10950 days run ahead of the calendar. -/
def yearDrift (y y' : ℕ) : ℤ := 10950 * (y' - y) - (daysBeforeYear y' - daysBeforeYear y)

/-- The days by which months of 30 days run ahead of the calendar, in one year. -/
def monthDrift (t : Minute) : ℤ := 30 * t.month - daysBeforeMonth t.year t.month

/-- How often the minutes of a year wrap around in 32 bits. -/
def wraps (y : ℕ) : ℤ := (y * 15768000 + 2 ^ 31) / 2 ^ 32

/-- The minutes by which the calendar of the code runs ahead of the real one between two dates. -/
def calendarError (t e : Minute) : ℤ :=
  1440 * (yearDrift t.year e.year + (monthDrift e - monthDrift t)) -
    2 ^ 32 * (wraps e.year - wraps t.year)

/-- The same year, and between the first days of the two months as many days as months of 30 days
have. -/
def SameDrift (t e : Minute) : Prop :=
  t.year = e.year ∧ 30 * ((e.month : ℤ) - t.month) =
    daysBeforeMonth e.year e.month - daysBeforeMonth t.year t.month

/-- When the minutes are right. An end ten minutes later is right also where it seems to lie in the
past, and one in the past where it seems to lie ten minutes ahead. -/
def MinutesRight (t e : Minute) : Prop :=
  if t.count < e.count then
    SameDrift t e ∨ (e.count - t.count = 10 ∧ calendarError t e ≤ -10)
  else
    calendarError t e ≤ t.count - e.count ∨ 2 ^ 32 ∣ calendarError t e - (t.count - e.count) - 10

theorem intMul_year (y : ℕ) : intMul y 15768000 = y * 15768000 - 2 ^ 32 * wraps y := by
  unfold intMul wraps
  rw [Int.bmod_def]
  omega

theorem codeMinutes_sub (t e : Minute) :
    codeMinutes e - codeMinutes t = e.count - t.count + calendarError t e := by
  unfold codeMinutes calendarError yearDrift monthDrift Minute.count Minute.dayNumber
  rw [intMul_year, intMul_year]
  omega

theorem yearDrift_self (y : ℕ) : yearDrift y y = 0 := by simp [yearDrift]

theorem yearDrift_swap (y y' : ℕ) : yearDrift y' y = -yearDrift y y' := by
  unfold yearDrift
  omega

theorem yearDrift_bounds {y y' : ℕ} (h : y < y') (hy' : y' < 10 ^ 4) :
    10584 ≤ yearDrift y y' ∧ yearDrift y y' < 110000000 := by
  obtain ⟨k, rfl⟩ := Nat.exists_eq_add_of_lt h
  have hdays := daysBeforeYear_add y (k + 1)
  rw [← Nat.add_assoc] at hdays
  unfold yearDrift
  generalize daysBeforeYear (y + k + 1) = a at *
  generalize daysBeforeYear y = b at *
  omega

theorem monthDrift_bounds (t : Minute) : 25 ≤ monthDrift t ∧ monthDrift t ≤ 31 := by
  have hmonth := daysBeforeMonth_bounds (y := t.year) t.month_pos t.month_le
  unfold monthDrift
  omega

theorem sameDrift_iff (t e : Minute) :
    SameDrift t e ↔ t.year = e.year ∧ monthDrift e = monthDrift t := by
  unfold SameDrift monthDrift
  refine and_congr_right fun _ => ?_
  constructor <;> intro h <;> omega

theorem SameDrift.calendarError_eq_zero {t e : Minute} (h : SameDrift t e) :
    calendarError t e = 0 := by
  obtain ⟨hyear, hmonth⟩ := (sameDrift_iff t e).mp h
  rw [calendarError, hyear, hmonth, yearDrift_self]
  omega

/-- A number of days whose minutes are a multiple of the word size is large or zero. -/
theorem eq_zero_of_dvd {x w : ℤ} (h : 2 ^ 32 ∣ 1440 * x - 2 ^ 32 * w) (hlow : -2 ^ 27 < x)
    (hhigh : x < 2 ^ 27) : x = 0 := by
  obtain ⟨c, hc⟩ := h
  have hodd : (2 ^ 27 : ℤ) ∣ 45 * x := ⟨c + w, by omega⟩
  have hdvd : (2 ^ 27 : ℤ) ∣ x := Int.dvd_of_dvd_mul_right_of_gcd_one hodd (by decide)
  omega

/-- The error is a multiple of the word size only if there is none. -/
theorem dvd_calendarError_iff {t e : Minute} (ht : t.year < 10 ^ 4) (he : e.year < 10 ^ 4) :
    2 ^ 32 ∣ calendarError t e ↔ SameDrift t e := by
  refine ⟨fun h => ?_, fun h => by simp [h.calendarError_eq_zero]⟩
  have hmonth := monthDrift_bounds t
  have hmonth' := monthDrift_bounds e
  rw [sameDrift_iff]
  rcases Nat.lt_trichotomy t.year e.year with hlt | heq | hlt
  · obtain ⟨hlow, hhigh⟩ := yearDrift_bounds hlt he
    have hzero := eq_zero_of_dvd h (by omega) (by omega)
    omega
  · have hsame : yearDrift t.year e.year = 0 := by rw [heq, yearDrift_self]
    have hzero := eq_zero_of_dvd h (by omega) (by omega)
    exact ⟨heq, by omega⟩
  · obtain ⟨hlow, hhigh⟩ := yearDrift_bounds hlt ht
    rw [yearDrift_swap] at hlow hhigh
    have hzero := eq_zero_of_dvd h (by omega) (by omega)
    omega

/-- Later by less than the cast can hold. -/
theorem count_sub_lt {t e : Minute} (hend : e.year ≤ 2100) : e.count - t.count < 2 ^ 31 := by
  obtain ⟨hmonth, hday, hhour, hminute⟩ := e.bounds
  have hday' := t.day_pos
  have hyears := daysBeforeYear_add 0 e.year
  have hmonths := daysBeforeMonth_bounds (y := e.year) e.month_pos e.month_le
  simp only [Nat.zero_add, daysBeforeYear] at hyears
  unfold Minute.count Minute.dayNumber
  generalize daysBeforeYear e.year = a at *
  generalize daysBeforeYear t.year = b at *
  omega

/-- The minutes are right exactly when the calendar of the code is. -/
theorem result_timer_eq_iff {t e : Minute} (ht : t.year < 10 ^ 4) (he : e.year ≤ 2100) :
    result_timer (codeMinutes e) (codeMinutes t) =
      (if t.count < e.count then e.count - t.count else 10) ↔ MinutesRight t e := by
  unfold result_timer MinutesRight
  rw [codeMinutes_sub]
  have hdvd := dvd_calendarError_iff ht (e := e) (by omega)
  have hlong := count_sub_lt (t := t) he
  split_ifs with hpos hlater hlater
  · have hcast : (e.count - t.count + calendarError t e).bmod (2 ^ 32) = e.count - t.count ↔
        2 ^ 32 ∣ calendarError t e := by
      rw [Int.bmod_def]
      omega
    rw [hcast, hdvd]
    exact ⟨.inl, fun h => h.resolve_right (by omega)⟩
  · rw [Int.bmod_def]
    omega
  · refine ⟨fun h => .inr (by omega), fun h => ?_⟩
    rcases h with h | ⟨hten, -⟩
    · rw [h.calendarError_eq_zero] at hpos
      omega
    · exact hten.symm
  · exact iff_of_true rfl (.inl (by omega))

/-- Within one month the calendars agree. -/
theorem minutesRight_of_same_month {t e : Minute} (hyear : t.year = e.year)
    (hmonth : t.month = e.month) : MinutesRight t e := by
  have hdrift : SameDrift t e := ⟨hyear, by rw [hyear, hmonth]; omega⟩
  unfold MinutesRight
  rw [hdrift.calendarError_eq_zero]
  split_ifs with hlater
  · exact .inl hdrift
  · exact .inl (by omega)

/-- Exactly which pairs of dates `entVehicle` measures in real minutes. -/
theorem entVehicle_minutes_iff {table : ReservationTable} {PN : String} {row_spot : Reservation}
    {rows : List Reservation} {t e : Minute} (second : ℕ) (ht : t.year < 10 ^ 4)
    (he : e.year ≤ 2100) (hrows : table.openRows PN = row_spot :: rows)
    (hdate : row_spot.end_date = dateNumber e) (htime : row_spot.end_time = timeNumber e) :
    (table.entVehicle PN (isoForm t second)).map Prod.fst =
      some (if t.count < e.count then e.count - t.count else 10) ↔ MinutesRight t e := by
  obtain ⟨hmonth, hday, hhour, hminute⟩ := e.bounds
  have hint : InInt (dateNumber e) := by
    unfold InInt dateNumber
    omega
  have hint' : InInt (timeNumber e) := by
    unfold InInt timeNumber
    omega
  unfold entVehicle
  rw [hrows]
  simp only [hdate, htime, atoi_to_string hint, atoi_to_string hint', db_sum_eq,
    ent_sum_isoForm t second ht, Option.map_some, Option.some_inj]
  exact result_timer_eq_iff ht he

/-- Noon of a day in the first two months of 2017. -/
def noon (month day : ℕ) (hmonth : 1 ≤ month ∧ month ≤ 2) (hday : 1 ≤ day ∧ day ≤ 28) : Minute where
  year := 2017
  month := month
  day := day
  hour := 12
  minute := 0
  month_pos := hmonth.1
  month_le := by omega
  day_pos := hday.1
  day_le := by
    obtain ⟨hlow, hhigh⟩ := hmonth
    interval_cases month
    · exact Nat.le_trans hday.2 (by decide)
    · exact hday.2
  hour_lt := by decide
  minute_lt := by decide

/-- A reservation until noon. -/
def untilNoon (end_date : ℤ) : ReservationTable :=
  [{ sequence := 1, start_date := 20170101, end_date := end_date, start_time := 0,
     end_time := 1200, plate_number := "12A3456", used_yn := false, sequence_int := inInt_one }]

/-- One day within a month is measured right. -/
theorem entVehicle_minutes_one_day :
    ((untilNoon 20170202).entVehicle "12A3456"
        (isoForm (noon 2 1 (by decide) (by decide)) 30)).map Prod.fst =
      some (if (noon 2 1 (by decide) (by decide)).count < (noon 2 2 (by decide) (by decide)).count
        then (noon 2 2 (by decide) (by decide)).count - (noon 2 1 (by decide) (by decide)).count
        else 10) := by
  -- with names for the two dates nothing counts their minutes
  generalize ht : noon 2 1 (by decide) (by decide) = t
  generalize he : noon 2 2 (by decide) (by decide) = e
  have hmonth : MinutesRight t e := by
    apply minutesRight_of_same_month
    · rw [← ht, ← he]
      rfl
    · rw [← ht, ← he]
      rfl
  have hend : dateNumber e = 20170202 ∧ timeNumber e = 1200 := by
    rw [← he]
    decide
  refine (entVehicle_minutes_iff 30 ?_ ?_ rfl hend.1.symm hend.2.symm).mpr hmonth
  · rw [← ht]
    decide
  · rw [← he]
    decide

/-- Four days across the end of January, which the code takes for three. -/
theorem not_entVehicle_minutes_four_days :
    ¬ ((untilNoon 20170201).entVehicle "12A3456"
        (isoForm (noon 1 28 (by decide) (by decide)) 0)).map Prod.fst =
      some (if (noon 1 28 (by decide) (by decide)).count < (noon 2 1 (by decide) (by decide)).count
        then (noon 2 1 (by decide) (by decide)).count - (noon 1 28 (by decide) (by decide)).count
        else 10) := by
  have hdays : (noon 2 1 (by decide) (by decide)).count -
      (noon 1 28 (by decide) (by decide)).count = 5760 := by
    simp only [Minute.count, Minute.dayNumber, noon, daysBeforeMonth, monthLength]
    omega
  have hcode : ((untilNoon 20170201).entVehicle "12A3456"
      (isoForm (noon 1 28 (by decide) (by decide)) 0)).map Prod.fst = some 4320 := by
    decide +kernel
  rw [hcode, if_pos (by omega), hdays]
  decide

end ReservationTable
end VisionSensor
