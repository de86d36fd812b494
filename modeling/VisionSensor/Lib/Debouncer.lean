import Mathlib.Algebra.Order.Group.Int
import Mathlib.Data.List.Induction
import Mathlib.Logic.Function.Iterate
import Mathlib.Tactic.Linarith

/-! A saturating up-down counter with two thresholds. The counter follows the
observations, the flag switches in the bands between a threshold and its double. -/

/-- Counter and flag of a two-threshold debouncer. -/
@[ext] structure Debouncer where
  counter : ℤ
  flag : Bool
  deriving DecidableEq, Repr

namespace Debouncer

/-- A positive observation: count up to `p`, then set the flag while below `2 * p`. -/
def rise (p : ℤ) (d : Debouncer) : Debouncer :=
  if d.counter < p then ⟨d.counter + 1, d.flag⟩
  else if d.counter - p < p then ⟨d.counter + 1, true⟩
  else d

/-- A negative observation, with a negative threshold `n`. -/
def fall (n : ℤ) (d : Debouncer) : Debouncer :=
  if d.counter > n then ⟨d.counter - 1, d.flag⟩
  else if d.counter - n > n then ⟨d.counter - 1, false⟩
  else d

/-- One observation. -/
def feed (p n : ℤ) (b : Bool) (d : Debouncer) : Debouncer :=
  bif b then rise p d else fall n d

/-- The same debouncer seen with the roles of the two observations exchanged. -/
def mirror (d : Debouncer) : Debouncer := ⟨-d.counter, !d.flag⟩

@[simp] theorem mirror_mirror (d : Debouncer) : d.mirror.mirror = d := by
  ext <;> simp [mirror]

theorem mirror_fall (n : ℤ) (d : Debouncer) : (fall n d).mirror = rise (-n) d.mirror := by
  unfold fall rise mirror
  simp only
  split_ifs <;> first | omega | (ext <;> simp <;> omega)

theorem mirror_fall_iterate (n : ℤ) (k : ℕ) (d : Debouncer) :
    ((fall n)^[k] d).mirror = (rise (-n))^[k] d.mirror :=
  Function.Semiconj.iterate_right (f := mirror) (mirror_fall n) k d

/-- The counter has run past the band in which the flag is set, with the flag still down. -/
def StuckLow (p : ℤ) (d : Debouncer) : Prop := 2 * p ≤ d.counter ∧ d.flag = false

def StuckHigh (n : ℤ) (d : Debouncer) : Prop := d.counter ≤ 2 * n ∧ d.flag = true

instance (p : ℤ) (d : Debouncer) : Decidable (StuckLow p d) := by
  unfold StuckLow; infer_instance

instance (n : ℤ) (d : Debouncer) : Decidable (StuckHigh n d) := by
  unfold StuckHigh; infer_instance

theorem stuckHigh_iff_mirror (n : ℤ) (d : Debouncer) :
    StuckHigh n d ↔ StuckLow (-n) d.mirror := by
  simp only [StuckHigh, StuckLow, mirror, Bool.not_eq_false']
  constructor <;> rintro ⟨h, hf⟩ <;> exact ⟨by omega, hf⟩

theorem rise_flag {p : ℤ} {d : Debouncer} (h : d.flag = true) : (rise p d).flag = true := by
  unfold rise
  split_ifs <;> first | exact h | rfl

theorem rise_iterate_flag {p : ℤ} {d : Debouncer} (h : d.flag = true) (k : ℕ) :
    ((rise p)^[k] d).flag = true := by
  induction k generalizing d with
  | zero => exact h
  | succ k ih => exact ih (rise_flag h)

/-- A stuck debouncer ignores every further positive observation. -/
theorem rise_of_stuck {p : ℤ} {d : Debouncer} (hp : 0 < p) (h : StuckLow p d) :
    rise p d = d := by
  obtain ⟨hc, _⟩ := h
  unfold rise
  rw [if_neg (by omega), if_neg (by omega)]

theorem fall_of_stuck {n : ℤ} {d : Debouncer} (hn : n < 0) (h : StuckHigh n d) :
    fall n d = d := by
  obtain ⟨hc, _⟩ := h
  unfold fall
  rw [if_neg (by omega), if_neg (by omega)]

theorem not_stuck_rise {p : ℤ} {d : Debouncer} (hp : 0 < p) (h : ¬ StuckLow p d) :
    ¬ StuckLow p (rise p d) := by
  unfold rise
  split_ifs with h1 h2
  · rintro ⟨hc, _⟩
    simp only at hc
    omega
  · rintro ⟨_, hf⟩
    simp at hf
  · exact h

/-- Unless it is stuck, the flag is up once the counter has had time to pass the threshold. -/
theorem rise_iterate_sets {p : ℤ} {d : Debouncer} (hp : 0 < p) (h : ¬ StuckLow p d)
    {k : ℕ} (hk : 1 ≤ k) (hd : p - d.counter + 1 ≤ k) : ((rise p)^[k] d).flag = true := by
  induction k generalizing d with
  | zero => omega
  | succ k ih =>
    rw [Function.iterate_succ_apply]
    by_cases hc : d.counter < p
    · have hr : rise p d = ⟨d.counter + 1, d.flag⟩ := if_pos hc
      apply ih (not_stuck_rise hp h) (by omega)
      rw [hr]
      push_cast at hd ⊢
      omega
    · apply rise_iterate_flag
      unfold rise
      rw [if_neg hc]
      split_ifs with h2
      · rfl
      · cases hf : d.flag with
        | true => rfl
        | false => exact absurd ⟨by omega, hf⟩ h

/-- Exactly the stuck states miss the flag after that many positive observations. -/
theorem rise_iterate_iff {p : ℤ} (hp : 0 < p) (d : Debouncer) {k : ℕ}
    (hk : (k : ℤ) = max (p - d.counter) 0 + 1) :
    ((rise p)^[k] d).flag = true ↔ ¬ StuckLow p d := by
  constructor
  · intro hf hs
    rw [Function.iterate_fixed (rise_of_stuck hp hs), hs.2] at hf
    cases hf
  · intro h
    exact rise_iterate_sets hp h (by omega) (by omega)

theorem fall_iterate_iff {n : ℤ} (hn : n < 0) (d : Debouncer) {k : ℕ}
    (hk : (k : ℤ) = max (d.counter - n) 0 + 1) :
    ((fall n)^[k] d).flag = false ↔ ¬ StuckHigh n d := by
  have hm : (k : ℤ) = max (-n - d.mirror.counter) 0 + 1 := by
    simp only [mirror]
    omega
  have h := rise_iterate_iff (p := -n) (by omega) d.mirror hm
  rw [← mirror_fall_iterate] at h
  rw [stuckHigh_iff_mirror, ← h]
  simp [mirror]

theorem fall_iterate_clears {n : ℤ} {d : Debouncer} (hn : n < 0) (h : ¬ StuckHigh n d) {k : ℕ}
    (hk : 1 ≤ k) (hd : d.counter - n + 1 ≤ k) : ((fall n)^[k] d).flag = false := by
  have hset := rise_iterate_sets (p := -n) (by omega) (mt (stuckHigh_iff_mirror n d).mpr h) hk
    (by simp only [mirror]; omega)
  rw [← mirror_fall_iterate] at hset
  simpa [mirror] using hset

/-- A positive observation never leads into the state that only negative ones clear. -/
theorem not_stuckHigh_rise {p n : ℤ} {d : Debouncer} (hn : n < 0)
    (h : ¬ StuckHigh n d) : ¬ StuckHigh n (rise p d) := by
  unfold rise
  split_ifs with h1 h2
  · rintro ⟨hc, hf⟩
    simp only at hc hf
    exact h ⟨by omega, hf⟩
  · rintro ⟨hc, _⟩
    simp only at hc
    omega
  · exact h

theorem not_stuckLow_fall {p n : ℤ} {d : Debouncer} (hp : 0 < p)
    (h : ¬ StuckLow p d) : ¬ StuckLow p (fall n d) := by
  have hm : StuckLow p d ↔ StuckHigh (-p) d.mirror := by
    rw [stuckHigh_iff_mirror]; simp
  have hm' : StuckLow p (fall n d) ↔ StuckHigh (-p) (rise (-n) d.mirror) := by
    rw [← mirror_fall, stuckHigh_iff_mirror]; simp
  rw [hm']
  exact not_stuckHigh_rise (by omega) (fun hs => h (hm.mpr hs))

theorem not_stuckHigh_fall {n : ℤ} {d : Debouncer} (hn : n < 0) (h : ¬ StuckHigh n d) :
    ¬ StuckHigh n (fall n d) := by
  rw [stuckHigh_iff_mirror] at h ⊢
  rw [mirror_fall]
  exact not_stuck_rise (by omega) h

/-- Observations alone never make a debouncer stuck. -/
theorem not_stuck_feed {p n : ℤ} {d : Debouncer} (hp : 0 < p) (hn : n < 0) (b : Bool)
    (h : ¬ StuckLow p d ∧ ¬ StuckHigh n d) :
    ¬ StuckLow p (feed p n b d) ∧ ¬ StuckHigh n (feed p n b d) := by
  cases b
  · exact ⟨not_stuckLow_fall hp h.1, not_stuckHigh_fall hn h.2⟩
  · exact ⟨not_stuck_rise hp h.1, not_stuckHigh_rise hn h.2⟩

theorem feed_counter_ge (p n : ℤ) (b : Bool) (d : Debouncer) :
    d.counter - 1 ≤ (feed p n b d).counter := by
  cases b <;> simp only [feed, cond_false, cond_true, rise, fall] <;> split_ifs <;>
    first | omega | (simp only; omega)

/-- One observation moves the counter by at most one. -/
theorem abs_feed_counter_le (p n : ℤ) (b : Bool) (d : Debouncer) :
    |(feed p n b d).counter| ≤ |d.counter| + 1 := by
  have hup : |d.counter + 1| ≤ |d.counter| + 1 := abs_add_le d.counter 1
  have hdown : |d.counter - 1| ≤ |d.counter| + 1 := abs_sub d.counter 1
  cases b <;> simp only [feed, cond_false, cond_true, rise, fall] <;> split_ifs <;>
    first | assumption | omega

theorem mirror_feed (p n : ℤ) (b : Bool) (d : Debouncer) :
    (feed p n b d).mirror = feed (-n) (-p) (!b) d.mirror := by
  cases b with
  | false => exact mirror_fall n d
  | true =>
    have h := mirror_fall (-p) d.mirror
    rw [mirror_mirror, neg_neg] at h
    show (rise p d).mirror = fall (-p) d.mirror
    rw [← h, mirror_mirror]

/-- A sequence of observations. -/
def feeds (p n : ℤ) (bs : List Bool) (d : Debouncer) : Debouncer :=
  bs.foldl (fun d b => feed p n b d) d

@[simp] theorem feeds_nil (p n : ℤ) (d : Debouncer) : feeds p n [] d = d := rfl

theorem feeds_concat (p n : ℤ) (bs : List Bool) (b : Bool) (d : Debouncer) :
    feeds p n (bs ++ [b]) d = feed p n b (feeds p n bs d) := by
  simp [feeds, List.foldl_append]

theorem feeds_replicate (p n : ℤ) (k : ℕ) (b : Bool) (d : Debouncer) :
    feeds p n (List.replicate k b) d = (feed p n b)^[k] d := by
  induction k generalizing d with
  | zero => rfl
  | succ k ih =>
    rw [Function.iterate_succ_apply, ← ih]
    rfl

theorem mirror_feeds (p n : ℤ) (bs : List Bool) (d : Debouncer) :
    (feeds p n bs d).mirror = feeds (-n) (-p) (bs.map not) d.mirror := by
  induction bs using List.reverseRecOn with
  | nil => rfl
  | append_singleton bs b ih =>
    rw [feeds_concat, mirror_feed, ih, List.map_append, List.map_singleton, feeds_concat]

/-- The counter lies between the doubled thresholds, and beyond a threshold the flag is the one
that this threshold sets. -/
structure Banded (p n : ℤ) (d : Debouncer) : Prop where
  lower : 2 * n ≤ d.counter
  upper : d.counter ≤ 2 * p
  high : p < d.counter → d.flag = true
  low : d.counter < n → d.flag = false

theorem Banded.mirror {p n : ℤ} {d : Debouncer} (h : Banded p n d) :
    Banded (-n) (-p) d.mirror := by
  obtain ⟨hlower, hupper, hhigh, hlow⟩ := h
  refine ⟨?_, ?_, fun hc => ?_, fun hc => ?_⟩ <;> simp only [Debouncer.mirror] at *
  · omega
  · omega
  · rw [hlow (by omega), Bool.not_false]
  · rw [hhigh (by omega), Bool.not_true]

theorem banded_rise {p n : ℤ} (hp : 0 < p) (hn : n < 0) {d : Debouncer} (h : Banded p n d) :
    Banded p n (rise p d) := by
  obtain ⟨hlower, hupper, hhigh, hlow⟩ := h
  unfold rise
  split_ifs with h1 h2
  · -- still below the threshold
    refine ⟨?_, ?_, fun hc => hhigh ?_, fun hc => hlow ?_⟩ <;> simp only at * <;> omega
  · -- in the band that sets the flag
    refine ⟨?_, ?_, fun _ => rfl, fun hc => absurd hc ?_⟩ <;> simp only at * <;> omega
  · exact ⟨hlower, hupper, hhigh, hlow⟩

theorem banded_feed {p n : ℤ} (hp : 0 < p) (hn : n < 0) (b : Bool) {d : Debouncer}
    (h : Banded p n d) : Banded p n (feed p n b d) := by
  cases b with
  | true => exact banded_rise hp hn h
  | false =>
    have hrise := (banded_rise (by omega) (by omega) h.mirror).mirror
    rw [← mirror_fall, mirror_mirror, neg_neg, neg_neg] at hrise
    exact hrise

theorem banded_feeds {p n : ℤ} (hp : 0 < p) (hn : n < 0) (bs : List Bool) {d : Debouncer}
    (h : Banded p n d) : Banded p n (feeds p n bs d) := by
  induction bs using List.reverseRecOn with
  | nil => exact h
  | append_singleton bs b ih =>
    rw [feeds_concat]
    exact banded_feed hp hn b ih

theorem Banded.not_stuck {p n : ℤ} {d : Debouncer} (hp : 0 < p) (hn : n < 0)
    (h : Banded p n d) : ¬ StuckLow p d ∧ ¬ StuckHigh n d := by
  constructor
  · rintro ⟨hc, hf⟩
    rw [h.high (by omega)] at hf
    cases hf
  · rintro ⟨hc, hf⟩
    rw [h.low (by omega)] at hf
    cases hf

/-- The flag goes up only from the positive threshold on. -/
theorem feed_sets {p n : ℤ} {b : Bool} {d : Debouncer} (h : d.flag = false)
    (h' : (feed p n b d).flag = true) :
    p ≤ d.counter ∧ (feed p n b d).counter = d.counter + 1 := by
  cases b with
  | false =>
    show p ≤ d.counter ∧ (fall n d).counter = d.counter + 1
    have hflag : (fall n d).flag = true := h'
    unfold fall at hflag
    split_ifs at hflag <;> simp [h] at hflag
  | true =>
    show p ≤ d.counter ∧ (rise p d).counter = d.counter + 1
    have hflag : (rise p d).flag = true := h'
    unfold rise at hflag ⊢
    split_ifs at hflag ⊢ with h1 h2
    · simp [h] at hflag
    · exact ⟨by omega, rfl⟩
    · simp [h] at hflag

theorem feed_clears {p n : ℤ} {b : Bool} {d : Debouncer} (h : d.flag = true)
    (h' : (feed p n b d).flag = false) :
    d.counter ≤ n ∧ (feed p n b d).counter = d.counter - 1 := by
  have hset := feed_sets (p := -n) (n := -p) (b := !b) (d := d.mirror) (by simp [mirror, h])
    (by rw [← mirror_feed]; simp [mirror, h'])
  rw [← mirror_feed] at hset
  simp only [mirror] at hset
  omega

/-- A flag that is up stays up until the counter has come down to the negative threshold. -/
theorem feeds_hold_up (p n : ℤ) (bs : List Bool) {d : Debouncer} (h : d.flag = true) :
    (feeds p n bs d).flag = true ∧ d.counter - bs.length ≤ (feeds p n bs d).counter ∨
      d.counter - n + 1 ≤ bs.length := by
  induction bs using List.reverseRecOn with
  | nil => exact .inl ⟨h, by simp⟩
  | append_singleton bs b ih =>
    rw [feeds_concat, List.length_append, List.length_singleton]
    push_cast
    rcases ih with ⟨hf, hc⟩ | hlong
    · cases hf' : (feed p n b (feeds p n bs d)).flag with
      | true =>
        have hstep := feed_counter_ge p n b (feeds p n bs d)
        exact .inl ⟨rfl, by omega⟩
      | false =>
        have hclear := feed_clears hf hf'
        exact .inr (by omega)
    · exact .inr (by omega)

theorem feeds_hold_down (p n : ℤ) (bs : List Bool) {d : Debouncer} (h : d.flag = false) :
    (feeds p n bs d).flag = false ∧ (feeds p n bs d).counter ≤ d.counter + bs.length ∨
      p - d.counter + 1 ≤ bs.length := by
  have hup := feeds_hold_up (-n) (-p) (bs.map not) (d := d.mirror) (by simp [mirror, h])
  rw [← mirror_feeds, List.length_map] at hup
  simp only [mirror, Bool.not_eq_true'] at hup
  rcases hup with ⟨hf, hc⟩ | hlong
  · exact .inl ⟨hf, by omega⟩
  · exact .inr (by omega)

end Debouncer
