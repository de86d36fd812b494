import VisionSensor.Lib.Debouncer

/-! What is reported about one watched place: a debouncer that exists only while the place is listed,
fed with observations, and one line for each change of its flag. -/
namespace Reporter

variable {β : Type*}

/-- An observation with the thresholds then in force, or a new list of the places. -/
inductive Event (β : Type*) where
  | seen (p n : ℤ) (b : Bool) (x : β)
  | listed (present : Bool)

/-- A place that is listed anew starts from zero. -/
def next : Option Debouncer → Event β → Option Debouncer
  | d, .seen p n b _ => d.map (Debouncer.feed p n b)
  | d, .listed true => some (d.getD ⟨0, false⟩)
  | _, .listed false => none

/-- The new flag, with what was seen, if it is new. -/
def output : Option Debouncer → Event β → List (Bool × β)
  | some d, .seen p n b x =>
      if (d.feed p n b).flag = d.flag then [] else [((d.feed p n b).flag, x)]
  | _, _ => []

def after (d : Option Debouncer) (es : List (Event β)) : Option Debouncer := es.foldl next d

/-- The lines reported over a sequence of events. -/
def report : Option Debouncer → List (Event β) → List (Bool × β)
  | _, [] => []
  | d, e :: es => output d e ++ report (next d e) es

theorem after_append (d : Option Debouncer) (es fs : List (Event β)) :
    after d (es ++ fs) = after (after d es) fs := List.foldl_append

theorem report_append (d : Option Debouncer) (es fs : List (Event β)) :
    report d (es ++ fs) = report d es ++ report (after d es) fs := by
  induction es generalizing d with
  | nil => rfl
  | cons e es ih =>
    show output d e ++ report (next d e) (es ++ fs) = _
    rw [ih, ← List.append_assoc]
    rfl

/-- One answer again and again, with fixed thresholds. -/
def steady (p n : ℤ) (b : Bool) (xs : List β) : List (Event β) := xs.map fun x => .seen p n b x

theorem report_steady_flag {p n : ℤ} {d : Debouncer} (h : d.flag = true) (xs : List β) :
    report (some d) (steady p n true xs) = [] := by
  induction xs generalizing d with
  | nil => rfl
  | cons x xs ih =>
    have hflag : (d.feed p n true).flag = true := Debouncer.rise_flag h
    show (if (d.feed p n true).flag = d.flag then [] else [((d.feed p n true).flag, x)]) ++
      report (some (d.feed p n true)) (steady p n true xs) = []
    rw [ih hflag, hflag, h, if_pos rfl]
    rfl

/-- A flag that is down is reported up once, for the observation with which the counter passes the
threshold. -/
theorem report_steady_true {p n : ℤ} {d : Debouncer} (hp : 0 < p) (hd : ¬ d.StuckLow p)
    (hflag : d.flag = false) (xs : List β) :
    report (some d) (steady p n true xs) =
      (xs[(p - d.counter).toNat]?).toList.map fun x => (true, x) := by
  induction xs generalizing d with
  | nil => simp [steady, report]
  | cons x xs ih =>
    show (if (d.feed p n true).flag = d.flag then [] else [((d.feed p n true).flag, x)]) ++
      report (some (d.feed p n true)) (steady p n true xs) = _
    by_cases hc : d.counter < p
    · have hrise : d.feed p n true = ⟨d.counter + 1, d.flag⟩ := if_pos hc
      have hnext := ih (d := d.feed p n true) (Debouncer.not_stuck_rise hp hd) (by rw [hrise, hflag])
      have hindex : (p - d.counter).toNat = (p - (d.counter + 1)).toNat + 1 := by omega
      rw [hnext, hrise, if_pos rfl, hindex, List.getElem?_cons_succ]
      rfl
    · have hlow : d.counter - p < p := by
        by_contra hhigh
        exact hd ⟨by omega, hflag⟩
      have hrise : d.feed p n true = ⟨d.counter + 1, true⟩ := by
        show Debouncer.rise p d = _
        rw [Debouncer.rise, if_neg hc, if_pos hlow]
      have hindex : (p - d.counter).toNat = 0 := by omega
      rw [report_steady_flag (by rw [hrise]), hrise, hflag, if_neg (by simp), hindex]
      rfl

/-- The same place seen with the roles of the two answers exchanged. -/
theorem report_steady_mirror (p n : ℤ) (b : Bool) (d : Debouncer) (xs : List β) :
    report (some d.mirror) (steady (-n) (-p) (!b) xs) =
      (report (some d) (steady p n b xs)).map fun r => (!r.1, r.2) := by
  induction xs generalizing d with
  | nil => rfl
  | cons x xs ih =>
    have hfeed := (Debouncer.mirror_feed p n b d).symm
    show (if (d.mirror.feed (-n) (-p) !b).flag = d.mirror.flag then []
        else [((d.mirror.feed (-n) (-p) !b).flag, x)]) ++
      report (some (d.mirror.feed (-n) (-p) !b)) (steady (-n) (-p) (!b) xs) =
      List.map _ ((if (d.feed p n b).flag = d.flag then [] else [((d.feed p n b).flag, x)]) ++
        report (some (d.feed p n b)) (steady p n b xs))
    rw [hfeed, ih, List.map_append]
    congr 1
    simp only [Debouncer.mirror, Bool.not_inj_iff]
    split_ifs <;> rfl

/-- After how many answers `b` the next one changes the flag. -/
def delay (p n : ℤ) (b : Bool) (d : Debouncer) : ℕ :=
  (if b then p - d.counter else d.counter - n).toNat

/-- Over the same answer again and again one change is reported, if the flag was not that answer, and
for the observation with which the counter passes the threshold. -/
theorem report_steady {p n : ℤ} {d : Debouncer} (hp : 0 < p) (hn : n < 0)
    (hd : ¬ d.StuckLow p ∧ ¬ d.StuckHigh n) (b : Bool) (xs : List β) :
    report (some d) (steady p n b xs) =
      if d.flag = b then [] else (xs[delay p n b d]?).toList.map fun x => (b, x) := by
  cases b with
  | true =>
    split_ifs with hflag
    · exact report_steady_flag hflag xs
    · exact report_steady_true hp hd.1 (by simpa using hflag) xs
  | false =>
    have hmirror := report_steady_mirror (-n) (-p) true d.mirror xs
    rw [Debouncer.mirror_mirror, neg_neg, neg_neg, Bool.not_true] at hmirror
    rw [hmirror]
    split_ifs with hflag
    · rw [report_steady_flag (by simp [Debouncer.mirror, hflag])]
      rfl
    · have hup : d.mirror.flag = false := by simpa [Debouncer.mirror] using hflag
      have hdelay : (-n - d.mirror.counter).toNat = delay p n false d := by
        simp only [Debouncer.mirror, delay]
        congr 1
        simp
        omega
      rw [report_steady_true (by omega) (mt (Debouncer.stuckHigh_iff_mirror n d).mpr hd.2) hup,
        hdelay]
      simp

end Reporter
