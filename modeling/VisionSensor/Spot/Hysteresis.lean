import VisionSensor.Spot.ParkingSpot

/-! The occupancy of a spot under a sequence of frame observations with fixed thresholds: how far
the counter goes, how far apart two changes are, and how long a change can take. -/
namespace VisionSensor
namespace ParkingSpot

/-- The spot after a sequence of frame observations. -/
def updates (st : Thresholds) (s : ParkingSpot) (bs : List Bool) : ParkingSpot :=
  bs.foldl (fun s b => (s.update st b).1) s

/-- The observation `i` of the sequence changes the occupancy: `update(bool)` answers true. -/
def Updated (st : Thresholds) (s : ParkingSpot) (bs : List Bool) (i : ℕ) : Prop :=
  ∃ b, bs[i]? = some b ∧ ((s.updates st (bs.take i)).update st b).2 = true

theorem updates_append (st : Thresholds) (s : ParkingSpot) (bs bs' : List Bool) :
    s.updates st (bs ++ bs') = (s.updates st bs).updates st bs' := List.foldl_append

theorem updates_debouncer (st : Thresholds) (s : ParkingSpot) (bs : List Bool) :
    (s.updates st bs).debouncer =
      s.debouncer.feeds st.mPositiveThreshold st.mNegativeThreshold bs := by
  induction bs using List.reverseRecOn with
  | nil => rfl
  | append_singleton bs b ih =>
    rw [updates_append, Debouncer.feeds_concat, ← ih]
    exact (update_debouncer st (s.updates st bs) b).1

theorem updated_iff (st : Thresholds) (s : ParkingSpot) (b : Bool) :
    (s.update st b).2 = true ↔ (s.update st b).1.isOccupied ≠ s.isOccupied := by
  rw [(update_debouncer st s b).2, bne_iff_ne]
  exact ne_comm

theorem updates_replicate (st : Thresholds) (s : ParkingSpot) (k : ℕ) (b : Bool) :
    (s.updates st (List.replicate k b)).isOccupied =
      ((Debouncer.feed st.mPositiveThreshold st.mNegativeThreshold b)^[k] s.debouncer).flag := by
  rw [← Debouncer.feeds_replicate, ← updates_debouncer]
  rfl

/-- A change is made at the threshold of the new state, one observation further. -/
theorem updated_counter {E X : ℤ} {s : ParkingSpot}
    (hs : s.debouncer.Banded E (-X)) {b : Bool} (h : (s.update ⟨E, -X⟩ b).2 = true) :
    (s.mOccupied = false ∧ s.mOccupiedFrameCounter = E ∧
      (s.update ⟨E, -X⟩ b).1.debouncer = ⟨E + 1, true⟩) ∨
    (s.mOccupied = true ∧ s.mOccupiedFrameCounter = -X ∧
      (s.update ⟨E, -X⟩ b).1.debouncer = ⟨-X - 1, false⟩) := by
  have hd : (s.update ⟨E, -X⟩ b).1.debouncer = s.debouncer.feed E (-X) b :=
    (update_debouncer ⟨E, -X⟩ s b).1
  have hne := (updated_iff ⟨E, -X⟩ s b).mp h
  have hflag : (s.debouncer.feed E (-X) b).flag ≠ s.mOccupied := by
    rw [← hd]
    exact hne
  have hhigh := hs.high
  have hlow := hs.low
  simp only [debouncer_counter, debouncer_flag] at hhigh hlow
  rw [hd]
  cases ho : s.mOccupied with
  | false =>
    have hup : (s.debouncer.feed E (-X) b).flag = true := by simpa [ho] using hflag
    obtain ⟨hc, hc'⟩ := Debouncer.feed_sets ho hup
    rw [debouncer_counter] at hc hc'
    have hle : s.mOccupiedFrameCounter ≤ E := by
      by_contra hn
      rw [hhigh (by omega)] at ho
      cases ho
    exact .inl ⟨rfl, by omega, Debouncer.ext (show _ = E + 1 by omega) hup⟩
  | true =>
    have hdown : (s.debouncer.feed E (-X) b).flag = false := by simpa [ho] using hflag
    obtain ⟨hc, hc'⟩ := Debouncer.feed_clears ho hdown
    rw [debouncer_counter] at hc hc'
    have hle : -X ≤ s.mOccupiedFrameCounter := by
      by_contra hn
      rw [hlow (by omega)] at ho
      cases ho
    exact .inr ⟨rfl, by omega, Debouncer.ext (show _ = -X - 1 by omega) hdown⟩

/-- A spot that has changed changes back only after the counter has gone from one threshold to the
other. -/
theorem change_back {E X : ℤ} (hE : 0 < E) (hX : 0 < X) {s : ParkingSpot}
    (hs : s.debouncer.Banded E (-X)) {b b' : Bool} {bs : List Bool}
    (h : (s.update ⟨E, -X⟩ b).2 = true)
    (h' : (((s.update ⟨E, -X⟩ b).1.updates ⟨E, -X⟩ bs).update ⟨E, -X⟩ b').2 = true) :
    E + X + 1 ≤ bs.length := by
  have hfed : ((s.update ⟨E, -X⟩ b).1.updates ⟨E, -X⟩ bs).debouncer =
      (s.update ⟨E, -X⟩ b).1.debouncer.feeds E (-X) bs := updates_debouncer ..
  have hband := Debouncer.banded_feed hE (neg_neg_of_pos hX) b hs
  rw [← (update_debouncer ⟨E, -X⟩ s b).1] at hband
  have hband' := Debouncer.banded_feeds hE (neg_neg_of_pos hX) bs hband
  rw [← hfed] at hband'
  have hturn := updated_counter hband' h'
  generalize (s.update ⟨E, -X⟩ b).1.updates ⟨E, -X⟩ bs = t at hfed hturn
  have hcounter := congrArg Debouncer.counter hfed
  have hflag := congrArg Debouncer.flag hfed
  rw [debouncer_counter] at hcounter
  rw [debouncer_flag] at hflag
  rcases updated_counter hs h with ⟨-, -, hd⟩ | ⟨-, -, hd⟩
  · rw [hd] at hcounter hflag
    rcases Debouncer.feeds_hold_up E (-X) bs (d := ⟨E + 1, true⟩) rfl with ⟨hup, hc⟩ | hlong
    · rw [hup] at hflag
      rcases hturn with ⟨ho, -⟩ | ⟨-, hturn, -⟩
      · rw [hflag] at ho
        cases ho
      · simp only at hcounter hc
        omega
    · simp only at hlong
      omega
  · rw [hd] at hcounter hflag
    rcases Debouncer.feeds_hold_down E (-X) bs (d := ⟨-X - 1, false⟩) rfl with ⟨hdown, hc⟩ | hlong
    · rw [hdown] at hflag
      rcases hturn with ⟨-, hturn, -⟩ | ⟨ho, -⟩
      · simp only at hcounter hc
        omega
      · rw [hflag] at ho
        cases ho
    · simp only at hlong
      omega

theorem updated_first {E X : ℤ} {s : ParkingSpot} {bs : List Bool} {b : Bool} {i : ℕ}
    (hs : (s.updates ⟨E, -X⟩ (bs.take i)).debouncer.Banded E (-X))
    (hc : s.mOccupiedFrameCounter = 0) (ho : s.mOccupied = false)
    (h : ((s.updates ⟨E, -X⟩ (bs.take i)).update ⟨E, -X⟩ b).2 = true) : E + 1 ≤ i + 1 := by
  have hfed : (s.updates ⟨E, -X⟩ (bs.take i)).debouncer = s.debouncer.feeds E (-X) (bs.take i) :=
    updates_debouncer ..
  have hlen := List.length_take_le i bs
  rcases Debouncer.feeds_hold_down E (-X) (bs.take i) (d := s.debouncer) ho with ⟨hf, hup⟩ | hlong
  · rw [← hfed, debouncer_flag] at hf
    rw [← hfed, debouncer_counter, debouncer_counter, hc] at hup
    rcases updated_counter hs h with ⟨-, hE, -⟩ | ⟨hf', -⟩
    · omega
    · rw [hf] at hf'
      cases hf'
  · rw [debouncer_counter, hc] at hlong
    omega

theorem take_split {bs : List Bool} {b : Bool} {i j : ℕ} (hij : i < j) (hb : bs[i]? = some b) :
    bs.take j = bs.take i ++ b :: (bs.drop (i + 1)).take (j - i - 1) := by
  have hsucc : bs.take (i + 1) = bs.take i ++ [b] := by
    rw [List.take_add_one, hb]
    rfl
  have hlen : j - i - 1 = j - (i + 1) := by omega
  rw [← Nat.add_sub_of_le hij, List.take_add, hsucc, List.append_assoc, List.singleton_append,
    Nat.add_sub_of_le hij, hlen]

/-- What the thresholds `E` and `-X` promise of a sequence of observations. -/
structure Hysteresis (E X : ℤ) (s : ParkingSpot) (bs : List Bool) : Prop where
  /-- The counter stays within the doubled thresholds. -/
  bounds : -(2 * X) ≤ (s.updates ⟨E, -X⟩ bs).mOccupiedFrameCounter ∧
    (s.updates ⟨E, -X⟩ bs).mOccupiedFrameCounter ≤ 2 * E
  occupied : E < (s.updates ⟨E, -X⟩ bs).mOccupiedFrameCounter →
    (s.updates ⟨E, -X⟩ bs).isOccupied = true
  empty : (s.updates ⟨E, -X⟩ bs).mOccupiedFrameCounter < -X →
    (s.updates ⟨E, -X⟩ bs).isOccupied = false
  /-- `update(bool)` answers true exactly when the occupancy changes. -/
  changed : ∀ b, ((s.updates ⟨E, -X⟩ bs).update ⟨E, -X⟩ b).2 = true ↔
    ((s.updates ⟨E, -X⟩ bs).update ⟨E, -X⟩ b).1.isOccupied ≠ (s.updates ⟨E, -X⟩ bs).isOccupied
  first : ∀ i, s.Updated ⟨E, -X⟩ bs i → E + 1 ≤ i + 1
  spacing : ∀ i j, i < j → s.Updated ⟨E, -X⟩ bs i → s.Updated ⟨E, -X⟩ bs j →
    (i : ℤ) + (E + X + 2) ≤ j
  fills : ∀ k : ℕ, (k : ℤ) = E + 2 * X + 1 →
    ((s.updates ⟨E, -X⟩ bs).updates ⟨E, -X⟩ (List.replicate k true)).isOccupied = true
  empties : ∀ k : ℕ, (k : ℤ) = 2 * E + X + 1 →
    ((s.updates ⟨E, -X⟩ bs).updates ⟨E, -X⟩ (List.replicate k false)).isOccupied = false

/-- From the initial state every sequence of observations keeps the promise. -/
theorem update_hysteresis {E X : ℤ} (hE : 0 < E) (hX : 0 < X) {s : ParkingSpot}
    (hc : s.mOccupiedFrameCounter = 0) (ho : s.mOccupied = false) (bs : List Bool) :
    s.Hysteresis E X bs := by
  have hn : -X < 0 := neg_neg_of_pos hX
  have hstart : s.debouncer = ⟨0, false⟩ := Debouncer.ext hc ho
  have hinit : Debouncer.Banded E (-X) s.debouncer := by
    rw [hstart]
    refine ⟨?_, ?_, fun h => absurd h ?_, fun _ => rfl⟩ <;> simp only <;> omega
  have hband : ∀ bs, Debouncer.Banded E (-X) (s.updates ⟨E, -X⟩ bs).debouncer := by
    intro bs
    rw [updates_debouncer]
    exact Debouncer.banded_feeds hE hn bs hinit
  have hlast := hband bs
  have hlower := hlast.lower
  have hupper := hlast.upper
  rw [debouncer_counter] at hlower hupper
  have hfree := hlast.not_stuck hE hn
  exact {
    bounds := ⟨by omega, hupper⟩
    occupied := hlast.high
    empty := hlast.low
    changed := updated_iff ⟨E, -X⟩ _
    first := by
      intro i ⟨b, hb, h⟩
      exact updated_first (hband _) hc ho h
    spacing := by
      intro i j hij ⟨b, hb, h⟩ ⟨b', hb', h'⟩
      rw [take_split hij hb, updates_append] at h'
      have hback := change_back hE hX (hband _) h h'
      have hlen := List.length_take_le (j - i - 1) (bs.drop (i + 1))
      omega
    fills := by
      intro k hk
      rw [updates_replicate]
      apply Debouncer.rise_iterate_sets hE hfree.1 (by omega)
      rw [debouncer_counter]
      omega
    empties := by
      intro k hk
      rw [updates_replicate]
      apply Debouncer.fall_iterate_clears hn hfree.2 (by omega)
      rw [debouncer_counter]
      omega }

/-- Thresholds 3 and -2, and a vehicle that comes and goes. -/
theorem update_hysteresis_visit :
    (ParkingSpot.new false 1 "A1" 5 Rect.zero 0).Hysteresis 3 2
      [true, true, true, true, true, false, false] :=
  update_hysteresis (by decide) (by decide) rfl rfl _

end ParkingSpot
end VisionSensor
