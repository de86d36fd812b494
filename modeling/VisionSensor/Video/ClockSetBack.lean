import VisionSensor.Video.MonotoneClock

/-! The search at the front when the clock is set back. Seconds indexed behind the front are never
removed, and once the index is full of them the search does not end. -/
namespace VisionSensor
open FuelLoop GuardedRun

namespace SerialVideoReader

/-- The second `frontOfIndexerTime` stands at. -/
def front (r : SerialVideoReader) : ℤ := r.frontOfIndexerTime.getD 0

/-- The next frame is indexed behind the front: its second follows that of the frame before, is not
yet in the index, and lies before the key the front comes to stand at. -/
def InsertsLate (r : SerialVideoReader) (now : ℤ) : Prop :=
  r.mFrameIndexer ≠ [] ∧ now - r.prev = 1 ∧ now ∉ r.mFrameIndexer.keys ∧
    if r.mFrameIndexer.keys.card < mHoldingFramesSeconds then now < r.front
    else ∀ k ∈ r.mFrameIndexer.keys, r.front ≤ k → now < k

instance (r : SerialVideoReader) (now : ℤ) : Decidable (r.InsertsLate now) :=
  inferInstanceAs (Decidable (_ ∧ _ ∧ _ ∧ _))

/-- An iteration, and the number of frames indexed behind the front so far. -/
def watch (fuel : ℕ) (w : SerialVideoReader × ℕ) (captured : ℤ × Mat) :
    Option (SerialVideoReader × ℕ) :=
  (iterate fuel w.1 captured).map fun r =>
    (r, if w.1.InsertsLate captured.1 then w.2 + 1 else w.2)

/-- The keys that the search has already passed. -/
def passed (keys : Finset ℤ) (front : ℤ) : Finset ℤ := keys.filter (· < front)

/-- The counter is the number of passed keys. -/
structure Counts (w : SerialVideoReader × ℕ) : Prop where
  sound : w.1.Sound
  size : w.1.mFrameIndexer.keys.card ≤ mHoldingFramesSeconds
  late : (passed w.1.mFrameIndexer.keys w.1.front).card = w.2

variable {r u : SerialVideoReader} {w v : SerialVideoReader × ℕ} {fuel : ℕ} {c : ℤ × Mat}
  {keys keys' : Finset ℤ}

/-- The front moves over no key. -/
theorem Evicts.passed_eq {front front' : ℤ} (h : Evicts keys front keys' front') :
    passed keys' front' = passed keys front := by
  rcases h with ⟨-, rfl, rfl⟩ | ⟨-, hleast, rfl⟩
  · rfl
  · ext k
    simp only [passed, Finset.mem_filter, Finset.mem_erase]
    constructor
    · rintro ⟨⟨-, hk⟩, hlt⟩
      refine ⟨hk, ?_⟩
      by_contra hle
      have hge := hleast.2 ⟨hk, Int.not_lt.mp hle⟩
      omega
    · rintro ⟨hk, hlt⟩
      have hfront := hleast.1.2
      exact ⟨⟨by omega, hk⟩, by omega⟩

theorem card_passed_insert {now front : ℤ} :
    (passed (insert now keys) front).card =
      if now ∉ keys ∧ now < front then (passed keys front).card + 1
      else (passed keys front).card := by
  unfold passed
  rw [Finset.filter_insert]
  by_cases hlt : now < front
  · rw [if_pos hlt]
    by_cases hmem : now ∈ keys
    · rw [if_neg (by simp [hmem]), Finset.insert_eq_self.mpr (by simp [hmem, hlt])]
    · rw [if_pos ⟨hmem, hlt⟩, Finset.card_insert_of_notMem (by simp [hmem])]
  · rw [if_neg hlt, if_neg (by simp [hlt])]

/-- A second is indexed behind the front exactly if it lies there once the eviction is done. -/
theorem insertsLate_iff {front' now : ℤ} (hne : r.mFrameIndexer ≠ [])
    (h : Evicts r.mFrameIndexer.keys r.front keys front') :
    r.InsertsLate now ↔ now - r.prev = 1 ∧ now ∉ keys ∧ now < front' := by
  unfold InsertsLate
  rcases h with ⟨hroom, rfl, rfl⟩ | ⟨hfull, hleast, rfl⟩
  · rw [if_pos hroom]
    exact ⟨fun h => h.2, fun h => ⟨hne, h⟩⟩
  · rw [if_neg (Nat.not_lt.mpr hfull)]
    constructor
    · rintro ⟨-, hnext, hnew, hbefore⟩
      exact ⟨hnext, fun hmem => hnew (Finset.mem_of_mem_erase hmem),
        hbefore front' hleast.1.1 hleast.1.2⟩
    · rintro ⟨hnext, hnew, hlt⟩
      refine ⟨hne, hnext, fun hmem => hnew (Finset.mem_erase.mpr ⟨hlt.ne, hmem⟩), ?_⟩
      intro k hk hfront
      exact hlt.trans_le (hleast.2 ⟨hk, hfront⟩)

/-- While the clock does not run backwards, no frame is indexed behind the front. -/
theorem Ordered.not_insertsLate (h : r.Ordered) (hsound : r.Sound) {now : ℤ} :
    ¬ r.InsertsLate now := by
  rintro ⟨hne, hnext, -, hlate⟩
  obtain ⟨k, hk⟩ : r.mFrameIndexer.keys.Nonempty := by
    rw [← Finset.card_pos, hsound.keyed.card_keys]
    exact List.length_pos_iff.mpr hne
  obtain ⟨front, hfront⟩ := Option.isSome_iff_exists.mp (hsound.front hne)
  have hfk : r.front ≤ k := by
    rw [SerialVideoReader.front, hfront, Option.getD_some]
    exact h.front_le front hfront k hk
  have hkp := h.le_prev k hk
  split_ifs at hlate with hroom
  · omega
  · have hnow := hlate k hk hfk
    omega

theorem Counts.step (h : Counts w) (hv : watch fuel w c = some v) : Counts v := by
  obtain ⟨u, hu, rfl⟩ := Option.map_eq_some_iff.mp hv
  obtain ⟨hsound, hprev, -, -, hindexes⟩ := iterate_spec h.sound hu
  have hlate := h.late
  rcases hindexes with
    ⟨hnil, hfront, hkeys⟩ | ⟨hne, front, front', keys, hfront, hfront', hevicts, hkeys⟩
  · have hnot : ¬ w.1.InsertsLate c.1 := fun hlate => hlate.1 hnil
    have hempty : (passed w.1.mFrameIndexer.keys w.1.front).card = 0 := by
      rw [hnil]
      rfl
    refine ⟨hsound, ?_, ?_⟩
    · simp only [hkeys, Finset.card_singleton]
      decide
    · simp only [if_neg hnot, ← hlate, hempty, hkeys]
      simp [passed, SerialVideoReader.front, hfront]
  · have hw : w.1.front = front := by simp [SerialVideoReader.front, hfront]
    have hu' : u.front = front' := by simp [SerialVideoReader.front, hfront']
    rw [← hw] at hevicts
    have hroom := hevicts.card_lt h.size
    have hpassed := hevicts.passed_eq
    refine ⟨hsound, ?_, ?_⟩
    · simp only [hkeys]
      split_ifs
      · exact (Finset.card_insert_le _ _).trans hroom
      · exact hroom.le
    · simp only [insertsLate_iff hne hevicts, hkeys, hu']
      by_cases hnext : c.1 - w.1.prev = 1
      · rw [if_pos hnext, card_passed_insert, hpassed, hlate]
        simp only [hnext, true_and]
      · rw [if_neg hnext, if_neg (fun hl => hnext hl.1), hpassed, hlate]

/-- The next search ends as long as not every key is passed. -/
theorem Counts.ends_iff (h : Counts w) (c : ℤ × Mat) :
    (∃ fuel v, watch fuel w c = some v) ↔ w.2 < mHoldingFramesSeconds := by
  have hends : (∃ fuel v, watch fuel w c = some v) ↔ ∃ fuel u, iterate fuel w.1 c = some u := by
    simp [watch, Option.map_eq_some_iff]
  have hsub : passed w.1.mFrameIndexer.keys w.1.front ⊆ w.1.mFrameIndexer.keys :=
    Finset.filter_subset _ _
  rw [hends, iterate_ends_iff h.sound, ← h.late]
  constructor
  · intro hkey
    by_contra hfull
    have hsize := h.size
    have hall := Finset.eq_of_subset_of_card_le hsub (by omega)
    have hpos : 0 < mHoldingFramesSeconds := by decide
    obtain ⟨k, hk, hfront⟩ := hkey (by rw [← hall]; omega)
    have hne : w.1.mFrameIndexer ≠ [] := by
      intro hnil
      rw [hnil] at hk
      exact Finset.notMem_empty k hk
    obtain ⟨front, hsome⟩ := Option.isSome_iff_exists.mp (h.sound.front hne)
    have hlt := (Finset.mem_filter.mp (hall ▸ hk)).2
    have hle := hfront front hsome
    rw [SerialVideoReader.front, hsome, Option.getD_some] at hlt
    omega
  · intro hlt hfull
    obtain ⟨k, hk, hnot⟩ := Finset.exists_mem_notMem_of_card_lt_card (hlt.trans_le hfull)
    refine ⟨k, hk, fun front hsome => ?_⟩
    have hle : ¬ k < w.1.front := fun hlt => hnot (Finset.mem_filter.mpr ⟨hk, hlt⟩)
    rw [SerialVideoReader.front, Option.mem_def.mp hsome, Option.getD_some] at hle
    omega

theorem watch_mono : FuelMono watch := by
  intro m n w c v hle h
  obtain ⟨u, hu, rfl⟩ := Option.map_eq_some_iff.mp h
  exact Option.map_eq_some_iff.mpr ⟨u, iterate_mono m n w.1 c u hle hu, rfl⟩

/-- Watching changes nothing. -/
theorem exec_watch (fuel : ℕ) (w : SerialVideoReader × ℕ) (frames : List (ℤ × Mat)) :
    (exec (watch fuel) w frames).map Prod.fst = exec (iterate fuel) w.1 frames := by
  induction frames generalizing w with
  | nil => rfl
  | cons c frames ih =>
    rw [exec_cons, exec_cons, Option.map_bind, watch, Option.bind_map]
    exact Option.bind_congr fun u _ => ih _

/-- However the clock runs, every search ends exactly if before each frame fewer than 100 frames
have been indexed behind the front. -/
theorem searches_end_iff (prev : ℤ) (frames : List (ℤ × Mat)) :
    (∃ fuel r, exec (iterate fuel) (start prev) frames = some r) ↔
      ∀ pre c post, frames = pre ++ c :: post →
        ∀ fuel w, exec (watch fuel) (start prev, 0) pre = some w → w.2 < mHoldingFramesSeconds := by
  have hstart : Counts (start prev, 0) := ⟨start_sound prev, Nat.zero_le _, rfl⟩
  have hends := exec_ends_iff watch_mono (I := Counts) (C := fun w _ => w.2 < mHoldingFramesSeconds)
    (fun _ _ _ _ h hv => h.step hv) (fun _ c h => h.ends_iff c) hstart frames
  rw [← hends]
  simp only [← exec_watch _ (start prev, 0), Option.map_eq_some_iff]
  constructor
  · rintro ⟨fuel, r, w, hw, -⟩
    exact ⟨fuel, w, hw⟩
  · rintro ⟨fuel, w, hw⟩
    exact ⟨fuel, w.1, w, hw, rfl⟩

/-- A hundred seconds, and another hundred after the clock was set back by an hour. -/
def setBack : List (ℤ × Mat) :=
  (List.range 100).map (fun i => (10000 + (i : ℤ), Mat.none)) ++
    (List.range 101).map fun i => (6500 + (i : ℤ), Mat.none)

/-- Then the search does not end. -/
theorem not_searches_end_setBack :
    ¬ ∀ prev frames, ∃ fuel r, exec (iterate fuel) (start prev) frames = some r := by
  intro h
  obtain ⟨fuel, u, hu⟩ := h 9999 (setBack ++ [(6601, Mat.none)])
  obtain ⟨r, hr, hlast⟩ := exec_concat_eq_some.mp hu
  have hrun : (exec (iterate 2) (start 9999) setBack).any (fun r =>
      r.frontOfIndexerTime == some 10099 && r.mFrameIndexer.length == 100 &&
        r.mFrameIndexer.all fun e => e.1.all (· < 10099)) = true := by
    decide +kernel
  obtain ⟨r', hr', hcheck⟩ := (Option.any_eq_true _ _).mp hrun
  obtain rfl := exec_unique iterate_mono hr hr'
  simp only [Bool.and_eq_true, beq_iff_eq, List.all_eq_true] at hcheck
  obtain ⟨⟨hfront, hlen⟩, hbehind⟩ := hcheck
  have hsound := (exec_tracks hr).sound
  have hfull : mHoldingFramesSeconds ≤ r.mFrameIndexer.keys.card := by
    rw [hsound.keyed.card_keys, hlen]
    decide
  obtain ⟨k, hk, hle⟩ := (iterate_ends_iff hsound _).mp ⟨fuel, u, hlast⟩ hfull
  obtain ⟨e, he, hek⟩ := List.mem_map.mp (FrameIndexer.mem_keys.mp hk)
  have hlt := hbehind e he
  rw [hek, Option.all_some, decide_eq_true_eq] at hlt
  have hge := hle 10099 hfront
  omega

end SerialVideoReader
end VisionSensor
