import VisionSensor.Spot.Observation

/-! When the occupancy flag follows the observations. A spot answers unless its counter has
left the band in which the flag is switched while the flag still has the old value: the
second test of `update(bool)` ends the counting and the switching together. -/
namespace VisionSensor
namespace SpotState
open GuardedRun

/-- A frame observation with the given detection result. -/
def IsObservation (b : Bool) (op : SpotOp) : Prop :=
  ∃ env frame now, op = .observe env b frame now

/-- After any `n` observations `b` in a row the flag is `b`. -/
def Answers (b : Bool) (n : ℤ) (s : SpotState) : Prop :=
  ∀ obs t, (∀ op ∈ obs, IsObservation b op) → (obs.length : ℤ) = n →
    exec step s obs = some t → t.spot.isOccupied = b

/-- With the counter `c` and the thresholds `E` and `-X` in force, `max (E - c) 0 + 1`
detections fill the spot and `max (c + X) 0 + 1` misses empty it. -/
def Responsive (s : SpotState) : Prop :=
  let c := s.spot.mOccupiedFrameCounter
  let E := s.statics.mPositiveThreshold
  let X := -s.statics.mNegativeThreshold
  Answers true (max (E - c) 0 + 1) s ∧ Answers false (max (c + X) 0 + 1) s

/-- The thresholds a management update with positive counts sets. -/
def PositiveCounts : SpotOp → Prop
  | .setPositiveThreshold n => 0 < n
  | .setNegativeThreshold n => n < 0
  | _ => True

/-- The steps after which the spot still answers: the debug exit key is not pressed, and no
threshold lowered, when that leaves the counter outside the band with the wrong flag. -/
def KeepsBand (s : SpotState) : SpotOp → Prop
  | .debugExit _ _ => s.spot.mOccupiedFrameCounter < 2 * s.statics.mPositiveThreshold
  | .setPositiveThreshold n => s.spot.mOccupiedFrameCounter < 2 * n ∨ s.spot.mOccupied = true
  | .setNegativeThreshold n => 2 * n < s.spot.mOccupiedFrameCounter ∨ s.spot.mOccupied = false
  | _ => True

/-- The thresholds lie on their own sides of zero. -/
def Signed (s : SpotState) : Prop :=
  0 < s.statics.mPositiveThreshold ∧ s.statics.mNegativeThreshold < 0

/-- The debouncer is not stuck on either side. -/
def Free (s : SpotState) : Prop :=
  ¬ s.spot.debouncer.StuckLow s.statics.mPositiveThreshold ∧
    ¬ s.spot.debouncer.StuckHigh s.statics.mNegativeThreshold

theorem exec_observations {b : Bool} {obs : List SpotOp} {s t : SpotState}
    (hobs : ∀ op ∈ obs, IsObservation b op) (h : exec step s obs = some t) :
    t.spot.debouncer = (Debouncer.feed s.statics.mPositiveThreshold
      s.statics.mNegativeThreshold b)^[obs.length] s.spot.debouncer := by
  induction obs generalizing s with
  | nil =>
    obtain rfl : s = t := by simpa using h
    rfl
  | cons op obs ih =>
    obtain ⟨u, hu, ht⟩ := Option.bind_eq_some_iff.mp h
    obtain ⟨env, frame, now, rfl⟩ := hobs op List.mem_cons_self
    obtain ⟨hst, hd, _⟩ := observe_spec hu
    have hrest := ih (fun o ho => hobs o (List.mem_cons_of_mem _ ho)) ht
    rw [hrest, hst, hd, List.length_cons, Function.iterate_succ_apply]

/-- An observation that changes nothing in the debouncer calls neither `enter` nor `exit`,
so some run of such observations always exists. -/
theorem exec_fixed {b : Bool} {s : SpotState}
    (h : s.spot.debouncer.feed s.statics.mPositiveThreshold s.statics.mNegativeThreshold b =
      s.spot.debouncer) (k : ℕ) :
    ∃ obs t, (∀ op ∈ obs, IsObservation b op) ∧ obs.length = k ∧
      exec step s obs = some t ∧ t.spot.mOccupied = s.spot.mOccupied := by
  let env : EntryServices := ⟨fun _ => false, fun _ _ => 0, fun _ => []⟩
  have hobs : ∀ op ∈ List.replicate k (SpotOp.observe env b Mat.none none), IsObservation b op :=
    fun op hop => ⟨env, Mat.none, none, (List.mem_replicate.mp hop).2⟩
  have hrun : ∃ t, exec step s (List.replicate k (SpotOp.observe env b Mat.none none)) = some t := by
    induction k generalizing s with
    | zero => exact ⟨s, rfl⟩
    | succ k ih =>
      obtain ⟨hd, hu⟩ := ParkingSpot.update_debouncer s.statics s.spot b
      rw [h] at hd
      have hflag : (s.spot.update s.statics b).1.mOccupied = s.spot.mOccupied :=
        congrArg Debouncer.flag hd
      have hsnd : (s.spot.update s.statics b).2 = false := by simp [hu, hflag]
      have hstep : step s (.observe env b Mat.none none) =
          some { s with spot := (s.spot.update s.statics b).1 } := by
        simp [step, observe, hsnd]
      obtain ⟨t, ht⟩ := ih (s := { s with spot := (s.spot.update s.statics b).1 })
        (by simpa only [hd] using h)
        (fun op hop => ⟨env, Mat.none, none, (List.mem_replicate.mp hop).2⟩)
      exact ⟨t, by rw [List.replicate_succ, exec_cons, hstep]; exact ht⟩
  obtain ⟨t, ht⟩ := hrun
  refine ⟨_, t, hobs, List.length_replicate, ht, ?_⟩
  have hd := exec_observations hobs ht
  rw [Function.iterate_fixed h] at hd
  exact congrArg Debouncer.flag hd

/-- A spot that does not answer is one whose debouncer is stuck. -/
theorem answers_iff {b : Bool} {n : ℤ} {s : SpotState} {stuck : Prop} (hn : 0 ≤ n)
    (hfixed : stuck → s.spot.debouncer.feed s.statics.mPositiveThreshold
      s.statics.mNegativeThreshold b = s.spot.debouncer ∧ s.spot.mOccupied = !b)
    (hset : ∀ k : ℕ, (k : ℤ) = n → (((Debouncer.feed s.statics.mPositiveThreshold
      s.statics.mNegativeThreshold b)^[k] s.spot.debouncer).flag = b ↔ ¬ stuck)) :
    s.Answers b n ↔ ¬ stuck := by
  constructor
  · intro h hstuck
    obtain ⟨hfeed, hflag⟩ := hfixed hstuck
    obtain ⟨obs, t, hobs, hlen, hex, hocc⟩ := exec_fixed hfeed n.toNat
    have ht := h obs t hobs (by rw [hlen, Int.toNat_of_nonneg hn]) hex
    rw [ParkingSpot.isOccupied, hocc, hflag] at ht
    cases b <;> cases ht
  · intro h obs t hobs hlen hex
    have hd := exec_observations hobs hex
    have hflag := (hset obs.length hlen).mpr h
    rw [← hd] at hflag
    exact hflag

theorem answers_true_iff {s : SpotState} (hs : s.Signed) :
    s.Answers true (max (s.statics.mPositiveThreshold - s.spot.mOccupiedFrameCounter) 0 + 1) ↔
      ¬ s.spot.debouncer.StuckLow s.statics.mPositiveThreshold :=
  answers_iff (by omega) (fun h => ⟨Debouncer.rise_of_stuck hs.1 h, h.2⟩)
    fun _ hk => Debouncer.rise_iterate_iff hs.1 s.spot.debouncer hk

theorem answers_false_iff {s : SpotState} (hs : s.Signed) :
    s.Answers false (max (s.spot.mOccupiedFrameCounter + -s.statics.mNegativeThreshold) 0 + 1) ↔
      ¬ s.spot.debouncer.StuckHigh s.statics.mNegativeThreshold :=
  answers_iff (by omega) (fun h => ⟨Debouncer.fall_of_stuck hs.2 h, h.2⟩)
    fun _ hk => Debouncer.fall_iterate_iff hs.2 s.spot.debouncer hk

theorem responsive_iff {s : SpotState} (hs : s.Signed) : s.Responsive ↔ s.Free :=
  and_congr (answers_true_iff hs) (answers_false_iff hs)

theorem step_signed {s t : SpotState} {op : SpotOp} (hs : s.Signed) (hop : PositiveCounts op)
    (h : step s op = some t) : t.Signed := by
  cases op with
  | observe env b frame now =>
    obtain ⟨hst, _⟩ := observe_spec h
    exact ⟨hst ▸ hs.1, hst ▸ hs.2⟩
  | debugExit frame now =>
    obtain rfl := Option.some.inj h
    simpa [Signed] using hs
  | setPositiveThreshold n =>
    obtain rfl := Option.some.inj h
    exact ⟨hop, hs.2⟩
  | setNegativeThreshold n =>
    obtain rfl := Option.some.inj h
    exact ⟨hs.1, hop⟩
  | updateAttributes | reset | notifyExpiration =>
    obtain rfl := Option.some.inj h
    exact hs

/-- From a state that answers, `KeepsBand` decides whether the next one does. -/
theorem step_free_iff {s t : SpotState} {op : SpotOp} (hs : s.Signed) (hf : s.Free)
    (hop : PositiveCounts op) (h : step s op = some t) : t.Free ↔ s.KeepsBand op := by
  obtain ⟨hlow, hhigh⟩ := hf
  cases op with
  | observe env b frame now =>
    obtain ⟨hst, hd, _⟩ := observe_spec h
    have hfree := Debouncer.not_stuck_feed hs.1 hs.2 b ⟨hlow, hhigh⟩
    rw [← hd, ← hst] at hfree
    exact iff_of_true ⟨by simpa [hst] using hfree.1, by simpa [hst] using hfree.2⟩ trivial
  | debugExit frame now =>
    obtain rfl := Option.some.inj h
    simp [Free, debugExit_debouncer, Debouncer.StuckLow, Debouncer.StuckHigh, KeepsBand]
  | updateAttributes name limit roi policy =>
    obtain rfl := Option.some.inj h
    exact iff_of_true ⟨by simpa using hlow, by simpa using hhigh⟩ trivial
  | reset =>
    obtain rfl := Option.some.inj h
    have hp := hs.1
    refine iff_of_true ⟨?_, ?_⟩ trivial
    · rintro ⟨hc, _⟩
      simp only [ParkingSpot.reset_debouncer] at hc
      omega
    · rintro ⟨_, hflag⟩
      simp at hflag
  | setPositiveThreshold n =>
    obtain rfl := Option.some.inj h
    simp only [Free, Debouncer.StuckLow, KeepsBand, hhigh, not_false_eq_true, and_true,
      ParkingSpot.debouncer_counter, ParkingSpot.debouncer_flag, not_and_or, not_le,
      Bool.not_eq_false]
  | setNegativeThreshold n =>
    obtain rfl := Option.some.inj h
    simp only [Free, Debouncer.StuckHigh, KeepsBand, hlow, not_false_eq_true, true_and,
      ParkingSpot.debouncer_counter, ParkingSpot.debouncer_flag, not_and_or, not_le,
      Bool.not_eq_true]
  | notifyExpiration readAt =>
    obtain rfl := Option.some.inj h
    exact iff_of_true ⟨by simpa [notifyExpiration] using hlow,
      by simpa [notifyExpiration] using hhigh⟩ trivial

/-- A run with positive counts leaves the spot responsive in every state it visits exactly
when each of its steps keeps the counter and the flag together. -/
theorem responsive_run_iff (isReservation_sensor : Bool) (id : ℤ) (spotName : String)
    (length : ℤ) (roi : Rect) (policy : ParkingSpotPolicy) (ops : List SpotOp)
    (hops : ∀ op ∈ ops, PositiveCounts op) :
    (∀ s, Visits step (fresh isReservation_sensor id spotName length roi policy) ops s →
        s.Responsive) ↔
      ∀ s op, Takes step (fresh isReservation_sensor id spotName length roi policy) ops s op →
        s.KeepsBand op := by
  have hs : (fresh isReservation_sensor id spotName length roi policy).Signed :=
    ⟨Int.one_pos, by change (-1 : ℤ) < 0; decide⟩
  have hfree : (fresh isReservation_sensor id spotName length roi policy).Free := by
    constructor <;> rintro ⟨hc, hf⟩
    · exact absurd hc (by show ¬ 2 * (1 : ℤ) ≤ 0; decide)
    · cases hf
  refine visits_iff_takes (J := Signed) (fun s op t hj hg h => step_signed hj hg h)
    (fun s op t hj hr hg h => ?_) hs ((responsive_iff hs).mpr hfree) hops
  rw [responsive_iff (step_signed hj hg h)]
  exact step_free_iff hj ((responsive_iff hj).mp hr) hg h

/-- A frame with or without a vehicle on the spot. -/
def seen (b : Bool) : SpotOp :=
  .observe ⟨fun _ => false, fun _ _ => 0, fun _ => []⟩ b ⟨2, 2, [[0, 0], [0, 0]]⟩ (some 0)

/-- The thresholds of the shipped settings, six detections, a threshold lowered to a value above
half the counter, and one more detection, which now fills the spot. -/
def loweredInBand : List SpotOp :=
  [.setPositiveThreshold 6, .setNegativeThreshold (-3)] ++ List.replicate 6 (seen true) ++
    [.setPositiveThreshold 4, seen true, seen false]

instance (s : SpotState) : DecidablePred s.KeepsBand
  | .debugExit _ _ => inferInstanceAs
      (Decidable (s.spot.mOccupiedFrameCounter < 2 * s.statics.mPositiveThreshold))
  | .setPositiveThreshold n => inferInstanceAs
      (Decidable (s.spot.mOccupiedFrameCounter < 2 * n ∨ s.spot.mOccupied = true))
  | .setNegativeThreshold n => inferInstanceAs
      (Decidable (2 * n < s.spot.mOccupiedFrameCounter ∨ s.spot.mOccupied = false))
  | .observe _ _ _ _ | .updateAttributes _ _ _ _ | .reset | .notifyExpiration _ => .isTrue trivial

theorem responsive_run_lowered_in_band :
    ∃ s ∈ exec step (fresh false 1 "A1" 60 ⟨0, 0, 2, 2⟩ 1) loweredInBand,
      s.spot.isOccupied = true ∧ s.Responsive := by
  obtain ⟨s, hs, hocc⟩ : ∃ s ∈ exec step (fresh false 1 "A1" 60 ⟨0, 0, 2, 2⟩ 1) loweredInBand,
      s.spot.isOccupied = true := by decide
  refine ⟨s, hs, hocc, (responsive_run_iff false 1 "A1" 60 ⟨0, 0, 2, 2⟩ 1 loweredInBand ?_).mpr
    (fun _ _ h => takes_of_checkTakes (C := KeepsBand) (by decide) h) s (visits_of_exec hs)⟩
  intro op hop
  simp only [loweredInBand, List.mem_append, List.mem_replicate, List.mem_cons,
    List.not_mem_nil, or_false] at hop
  rcases hop with ((rfl | rfl) | ⟨-, rfl⟩) | rfl | rfl | rfl
  · change (0 : ℤ) < 6; decide
  · change (-3 : ℤ) < 0; decide
  · trivial
  · change (0 : ℤ) < 4; decide
  · trivial
  · trivial

/-- Ten detections under the threshold 10 leave the counter at 10 and the spot empty; once
the threshold is lowered to 5, the counter is at its double and no detection counts. -/
theorem lowered_threshold_unresponsive :
    let ops := .setPositiveThreshold 10 ::
      List.replicate 10 (.observe ⟨fun _ => false, fun _ _ => 0, fun _ => []⟩ true Mat.none none) ++
        [.setPositiveThreshold 5]
    (∀ op ∈ ops, PositiveCounts op) ∧
      ∃ s, Visits step (fresh false 1 "A1" 60 ⟨0, 0, 2, 2⟩ 1) ops s ∧ ¬ s.Responsive := by
  refine ⟨?_, _, visits_of_exec rfl, ?_⟩
  · intro op hop
    simp only [List.cons_append, List.mem_cons, List.mem_append, List.mem_replicate] at hop
    obtain rfl | ⟨_, rfl⟩ | rfl | h := hop
    · change (0 : ℤ) < 10; decide
    · trivial
    · change (0 : ℤ) < 5; decide
    · cases h
  · rw [responsive_iff ⟨by decide, by decide⟩]
    exact fun h => h.1 ⟨by decide, rfl⟩

end SpotState
end VisionSensor
