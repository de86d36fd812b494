import Mathlib.Data.Int.ConditionallyCompleteOrder
import Mathlib.Data.Int.Interval
import Mathlib.Tactic.Linarith
import VisionSensor.Video.SerialVideoReader

/-! The frame index while the clock does not run backwards: the front stays behind all keys, so the
search meets the oldest one. The index lists every recent second as long as no second is skipped, and
misses the one after each gap. -/
namespace VisionSensor
open FuelLoop GuardedRun

namespace SerialVideoReader

/-- A frame as the queue and the index hold it. -/
def stamped (captured : ℤ × Mat) : Ptime × Mat := (some captured.1, captured.2)

/-- What holds after any frames, however the clock runs. -/
structure Tracks (frames : List (ℤ × Mat)) (r : SerialVideoReader) : Prop where
  sound : r.Sound
  size : r.mFrameIndexer.keys.card ≤ mHoldingFramesSeconds
  captured : ∀ e ∈ r.mFrameIndexer, e ∈ frames.map stamped
  queue : r.mFrameQueue = (frames.map stamped).drop (frames.length - mMaxFrames)
  prev : ∀ c ∈ frames.getLast?, r.prev = c.1

variable {frames : List (ℤ × Mat)} {r u : SerialVideoReader} {fuel : ℕ} {c : ℤ × Mat}

theorem Evicts.subset {keys keys' : Finset ℤ} {front front' : ℤ}
    (h : Evicts keys front keys' front') : keys' ⊆ keys := by
  rcases h with ⟨-, rfl, -⟩ | ⟨-, -, rfl⟩
  · exact Finset.Subset.refl _
  · exact Finset.erase_subset _ _

/-- There is room for one more second after the eviction. -/
theorem Evicts.card_lt {keys keys' : Finset ℤ} {front front' : ℤ}
    (h : Evicts keys front keys' front') (hsize : keys.card ≤ mHoldingFramesSeconds) :
    keys'.card < mHoldingFramesSeconds := by
  rcases h with ⟨hroom, rfl, -⟩ | ⟨-, hleast, rfl⟩
  · exact hroom
  · rw [Finset.card_erase_of_mem hleast.1.1]
    have hpos : 0 < keys.card := Finset.card_pos.mpr ⟨front', hleast.1.1⟩
    omega

theorem pushFrame_drop (l : List (Ptime × Mat)) (now : Ptime) (frame : Mat) :
    pushFrame (l.drop (l.length - mMaxFrames)) now frame =
      (l ++ [(now, frame)]).drop (l.length + 1 - mMaxFrames) := by
  have hlen : (l.drop (l.length - mMaxFrames)).length = l.length - (l.length - mMaxFrames) :=
    List.length_drop
  unfold pushFrame
  split_ifs with hroom
  · have hzero : l.length - mMaxFrames = 0 := by omega
    have hzero' : l.length + 1 - mMaxFrames = 0 := by omega
    rw [hzero, hzero', List.drop_zero, List.drop_zero]
  · have hsucc : l.length + 1 - mMaxFrames = l.length - mMaxFrames + 1 := by omega
    have hpos : 0 < mMaxFrames := by decide
    rw [hsucc, List.drop_append_of_le_length (by omega), List.tail_drop]

theorem Tracks.step (h : Tracks frames r) (hu : iterate fuel r c = some u) :
    Tracks (frames ++ [c]) u := by
  obtain ⟨hsound, hprev, hqueue, hentries, hindexes⟩ := iterate_spec h.sound hu
  refine ⟨hsound, ?_, ?_, ?_, ?_⟩
  · rcases hindexes with ⟨-, -, hkeys⟩ | ⟨-, front, front', keys, -, -, hevicts, hkeys⟩
    · rw [hkeys, Finset.card_singleton]
      decide
    · have hroom := hevicts.card_lt h.size
      rw [hkeys]
      split_ifs
      · exact (Finset.card_insert_le _ _).trans hroom
      · exact hroom.le
  · intro e he
    rw [List.map_append, List.mem_append]
    rcases hentries e he with he | rfl
    · exact .inl (h.captured e he)
    · exact .inr (List.mem_singleton_self _)
  · rw [hqueue, h.queue]
    have hdrop := pushFrame_drop (frames.map stamped) (some c.1) c.2
    rw [List.length_map] at hdrop
    rw [hdrop, List.map_append, List.length_append]
    rfl
  · intro c' hc'
    rw [List.getLast?_concat] at hc'
    obtain rfl := Option.mem_some_iff.mp hc'
    exact hprev

theorem exec_tracks {prev : ℤ} (h : exec (iterate fuel) (start prev) frames = some r) :
    Tracks frames r := by
  refine exec_history (I := Tracks) ⟨start_sound prev, Nat.zero_le _, ?_, rfl, ?_⟩
    (fun _ _ _ _ ht hu => ht.step hu) h
  · intro e he
    cases he
  · intro c hc
    cases hc

/-- The keys lie between the front and the last time stamp. -/
structure Ordered (r : SerialVideoReader) : Prop where
  front_le : ∀ front ∈ r.frontOfIndexerTime, ∀ k ∈ r.mFrameIndexer.keys, front ≤ k
  le_prev : ∀ k ∈ r.mFrameIndexer.keys, k ≤ r.prev

theorem start_ordered (prev : ℤ) : (start prev).Ordered :=
  ⟨(fun _ h => nomatch h), fun k hk => absurd hk (Finset.notMem_empty k)⟩

/-- The key that a full index gives up is the smallest one. -/
theorem Ordered.isLeast (h : r.Ordered) {front k : ℤ} (hfront : r.frontOfIndexerTime = some front)
    (hk : IsLeast {k | k ∈ r.mFrameIndexer.keys ∧ front ≤ k} k) :
    IsLeast (r.mFrameIndexer.keys : Set ℤ) k :=
  ⟨hk.1.1, fun j hj => hk.2 ⟨hj, h.front_le front hfront j hj⟩⟩

theorem Ordered.step (h : r.Ordered) (hsound : r.Sound)
    (hclock : r.mFrameIndexer ≠ [] → r.prev ≤ c.1) (hu : iterate fuel r c = some u) : u.Ordered := by
  obtain ⟨-, hprev, -, -, hindexes⟩ := iterate_spec hsound hu
  rcases hindexes with
    ⟨-, hfront, hkeys⟩ | ⟨hne, front, front', keys, hfront, hfront', hevicts, hkeys⟩
  · refine ⟨?_, ?_⟩ <;> simp [hfront, hkeys, hprev]
  · have hsub : ∀ k ∈ keys, k ∈ r.mFrameIndexer.keys := fun k hk => hevicts.subset hk
    have hold : ∀ k ∈ keys, front' ≤ k := by
      intro k hk
      rcases hevicts with ⟨-, -, rfl⟩ | ⟨-, hleast, -⟩
      · exact h.front_le _ hfront k (hsub k hk)
      · exact (h.isLeast hfront hleast).2 (hsub k hk)
    have hnow : front' ≤ c.1 := by
      rcases hevicts with ⟨-, -, rfl⟩ | ⟨-, hleast, -⟩
      · have hcard := List.length_pos_iff.mpr hne
        rw [← hsound.keyed.card_keys, Finset.card_pos] at hcard
        obtain ⟨k, hk⟩ := hcard
        have hfk := h.front_le _ hfront k hk
        exact hfk.trans ((h.le_prev k hk).trans (hclock hne))
      · exact (h.le_prev front' hleast.1.1).trans (hclock hne)
    refine ⟨?_, ?_⟩
    · intro f hf k hk
      obtain rfl : front' = f := by simpa [hfront'] using hf
      rw [hkeys] at hk
      split_ifs at hk
      · rcases Finset.mem_insert.mp hk with rfl | hk
        · exact hnow
        · exact hold k hk
      · exact hold k hk
    · intro k hk
      have hle : ∀ k ∈ keys, k ≤ c.1 := fun k hk => (h.le_prev k (hsub k hk)).trans (hclock hne)
      rw [hkeys] at hk
      rw [hprev]
      split_ifs at hk
      · rcases Finset.mem_insert.mp hk with rfl | hk
        · exact le_refl _
        · exact hle k hk
      · exact hle k hk

/-- Time stamps that do not run backwards. -/
def Monotone (frames : List (ℤ × Mat)) : Prop := frames.Pairwise fun c c' => c.1 ≤ c'.1

theorem Monotone.concat (h : Monotone (frames ++ [c])) :
    Monotone frames ∧ ∀ c' ∈ frames, c'.1 ≤ c.1 := by
  obtain ⟨hframes, -, hlast⟩ := List.pairwise_append.mp h
  exact ⟨hframes, fun c' hc' => hlast c' hc' c (List.mem_singleton_self c)⟩

theorem Tracks.clock (h : Tracks frames r) (hc : ∀ c' ∈ frames, c'.1 ≤ c.1)
    (hne : r.mFrameIndexer ≠ []) : r.prev ≤ c.1 := by
  have hframes : frames ≠ [] := by
    rintro rfl
    obtain ⟨e, he⟩ := List.exists_mem_of_ne_nil _ hne
    exact nomatch h.captured e he
  rw [h.prev _ (List.getLast?_eq_getLast_of_ne_nil hframes)]
  exact hc _ (List.getLast_mem hframes)

/-- Every search ends while the clock does not run backwards. -/
theorem exec_ordered (prev : ℤ) (h : Monotone frames) :
    ∃ fuel r, exec (iterate fuel) (start prev) frames = some r ∧ r.Ordered := by
  induction frames using List.reverseRecOn with
  | nil => exact ⟨0, _, rfl, start_ordered prev⟩
  | append_singleton frames c ih =>
    obtain ⟨hframes, hc⟩ := h.concat
    obtain ⟨m, r, hr, hordered⟩ := ih hframes
    have htracks := exec_tracks hr
    have hends : mHoldingFramesSeconds ≤ r.mFrameIndexer.keys.card →
        ∃ k ∈ r.mFrameIndexer.keys, ∀ front ∈ r.frontOfIndexerTime, front ≤ k := by
      intro hfull
      have hpos : 0 < mHoldingFramesSeconds := by decide
      obtain ⟨k, hk⟩ := Finset.card_pos.mp (hpos.trans_le hfull)
      exact ⟨k, hk, fun front hfront => hordered.front_le front hfront k hk⟩
    obtain ⟨n, u, hu⟩ := (iterate_ends_iff htracks.sound c).mpr hends
    exact ⟨max m n, u, ends_concat iterate_mono hr hu,
      hordered.step htracks.sound (htracks.clock hc) hu⟩

/-- A full index gives up the frame of its oldest second. -/
def EvictsOldest (r : SerialVideoReader) : Prop :=
  mHoldingFramesSeconds ≤ r.mFrameIndexer.length → ∃ fuel u k, evict fuel r = some u ∧
    IsLeast (r.mFrameIndexer.keys : Set ℤ) k ∧
    u.mFrameIndexer = r.mFrameIndexer.erase (some k)

theorem Ordered.evictsOldest (h : r.Ordered) (hsound : r.Sound) : r.EvictsOldest := by
  intro hfull
  have hpos : 0 < mHoldingFramesSeconds := by decide
  have hne : r.mFrameIndexer ≠ [] := List.length_pos_iff.mp (hpos.trans_le hfull)
  obtain ⟨front, hfront⟩ := Option.isSome_iff_exists.mp (hsound.front hne)
  obtain ⟨k, hk⟩ : r.mFrameIndexer.keys.Nonempty := by
    rw [← Finset.card_pos, hsound.keyed.card_keys]
    exact hpos.trans_le hfull
  obtain ⟨fuel, time, htime⟩ := (searchFront_ends_iff front).mpr
    ⟨k, hk, h.front_le front hfront k hk⟩
  obtain ⟨j, rfl, hj⟩ := searchFront_spec htime
  refine ⟨fuel, { r with
    frontOfIndexerTime := some j
    mFrameIndexer := r.mFrameIndexer.erase (some j) }, j, ?_, h.isLeast hfront hj, rfl⟩
  rw [evict, if_pos hfull, hfront, htime]
  rfl

/-- The index and the queue after any frames whose time stamps do not run backwards. -/
theorem monotone_eviction (prev : ℤ) (frames : List (ℤ × Mat)) (h : Monotone frames) :
    ∃ fuel r, exec (iterate fuel) (start prev) frames = some r ∧
      r.mFrameIndexer.length ≤ mHoldingFramesSeconds ∧
      (∀ e ∈ r.mFrameIndexer, e ∈ frames.map stamped) ∧
      (∀ front ∈ r.frontOfIndexerTime, ∀ k ∈ r.mFrameIndexer.keys, front ≤ k) ∧
      r.EvictsOldest ∧
      r.mFrameQueue = (frames.map stamped).drop (frames.length - mMaxFrames) := by
  obtain ⟨fuel, r, hr, hordered⟩ := exec_ordered prev h
  have htracks := exec_tracks hr
  have hsize := htracks.size
  rw [htracks.sound.keyed.card_keys] at hsize
  exact ⟨fuel, r, hr, hsize, htracks.captured, hordered.front_le,
    hordered.evictsOldest htracks.sound, htracks.queue⟩

theorem monotone_eviction_gap :
    ∃ fuel r, exec (iterate fuel) (start 0) [(5, Mat.none), (5, Mat.none), (8, Mat.none)] = some r ∧
      r.mFrameIndexer.length ≤ mHoldingFramesSeconds ∧
      (∀ e ∈ r.mFrameIndexer, e ∈ [(5, Mat.none), (5, Mat.none), (8, Mat.none)].map stamped) ∧
      (∀ front ∈ r.frontOfIndexerTime, ∀ k ∈ r.mFrameIndexer.keys, front ≤ k) ∧
      r.EvictsOldest ∧
      r.mFrameQueue =
        ([(5, Mat.none), (5, Mat.none), (8, Mat.none)].map stamped).drop (3 - mMaxFrames) :=
  monotone_eviction 0 [(5, Mat.none), (5, Mat.none), (8, Mat.none)] (by simp [Monotone])

/-- No second is skipped between two frames. -/
def Gapless (frames : List (ℤ × Mat)) : Prop := frames.IsChain fun c c' => c'.1 - c.1 ≤ 1

/-- The index has a frame of every recent second in which one was captured. -/
def HoldsRecent (frames : List (ℤ × Mat)) (now : ℤ) (r : SerialVideoReader) : Prop :=
  ∀ s, now - 98 ≤ s → s ≤ now → (∃ c ∈ frames, c.1 = s) →
    some s ∈ r.mFrameIndexer.map Prod.fst

/-- The keys are the last seconds, from the first frame on or for as long as the index can. -/
def Contiguous (frames : List (ℤ × Mat)) (r : SerialVideoReader) : Prop :=
  ∃ first, first ≤ r.prev ∧ r.mFrameIndexer.keys = Finset.Icc first r.prev ∧
    ((∀ c ∈ frames, first ≤ c.1) ∨ first ≤ r.prev - 98)

theorem Contiguous.ne_nil (h : Contiguous frames r) : r.mFrameIndexer ≠ [] := by
  obtain ⟨first, hle, hkeys, -⟩ := h
  intro hnil
  have hmem : first ∈ r.mFrameIndexer.keys := hkeys ▸ Finset.left_mem_Icc.mpr hle
  rw [hnil] at hmem
  exact Finset.notMem_empty first hmem

theorem Contiguous.holdsRecent (h : Contiguous frames r) : HoldsRecent frames r.prev r := by
  obtain ⟨first, -, hkeys, hfirst⟩ := h
  rintro s hrecent hs ⟨c, hc, rfl⟩
  rw [← FrameIndexer.mem_keys, hkeys, Finset.mem_Icc]
  refine ⟨?_, hs⟩
  rcases hfirst with hfirst | hfirst
  · exact hfirst c hc
  · omega

theorem insert_Icc_succ {first now : ℤ} (h : first ≤ now + 1) :
    insert (now + 1) (Finset.Icc first now) = Finset.Icc first (now + 1) := by
  ext s
  simp only [Finset.mem_insert, Finset.mem_Icc]
  omega

theorem erase_Icc_left (first now : ℤ) :
    (Finset.Icc first now).erase first = Finset.Icc (first + 1) now := by
  ext s
  simp only [Finset.mem_erase, Finset.mem_Icc]
  omega

/-- An index of consecutive seconds stays one if the next frame is of the same second or of the
next. -/
theorem Contiguous.step (h : Contiguous frames r) (htracks : Tracks frames r)
    (hordered : r.Ordered) (hclock : r.prev ≤ c.1) (hgap : c.1 - r.prev ≤ 1)
    (hu : iterate fuel r c = some u) : Contiguous (frames ++ [c]) u := by
  obtain ⟨first, hle, hkeys, hfirst⟩ := h
  obtain ⟨-, hprev, -, -, hindexes⟩ := iterate_spec htracks.sound hu
  have hcard : r.mFrameIndexer.keys.card = (r.prev + 1 - first).toNat := by
    rw [hkeys, Int.card_Icc]
  rcases hindexes with ⟨hnil, -, -⟩ | ⟨-, front, front', keys, hfront, -, hevicts, hkeys'⟩
  · exact absurd hnil (Contiguous.ne_nil ⟨first, hle, hkeys, hfirst⟩)
  · obtain ⟨first', hle', hkeep, hfirst'⟩ : ∃ first', first' ≤ r.prev ∧
        keys = Finset.Icc first' r.prev ∧
        ((∀ c ∈ frames, first' ≤ c.1) ∨ first' ≤ r.prev - 98) := by
      rcases hevicts with ⟨-, rfl, -⟩ | ⟨hfull, hleast, rfl⟩
      · exact ⟨first, hle, hkeys, hfirst⟩
      · have hsize := htracks.size
        have hlimit : mHoldingFramesSeconds = 100 := rfl
        have hleft : IsLeast (r.mFrameIndexer.keys : Set ℤ) first := by
          rw [hkeys, Finset.coe_Icc]
          exact isLeast_Icc hle
        have hoold : front' = first := (hordered.isLeast hfront hleast).unique hleft
        refine ⟨first + 1, by omega, ?_, .inr (by omega)⟩
        rw [hkeys, hoold, erase_Icc_left]
    refine ⟨first', by omega, ?_, ?_⟩
    · rw [hkeys', hkeep, hprev]
      split_ifs with hnext
      · have hc : c.1 = r.prev + 1 := by omega
        rw [hc, insert_Icc_succ (by omega)]
      · have hc : c.1 = r.prev := by omega
        rw [hc]
    · rw [hprev]
      rcases hfirst' with hfirst' | hfirst'
      · refine .inl fun c' hc' => ?_
        rcases List.mem_append.mp hc' with hc' | hc'
        · exact hfirst' c' hc'
        · obtain rfl := List.mem_singleton.mp hc'
          omega
      · exact .inr (by omega)

/-- The first frame is indexed. -/
theorem Contiguous.start {prev : ℤ} (hu : iterate fuel (start prev) c = some u) :
    Contiguous [c] u := by
  obtain ⟨-, hprev, -, -, hindexes⟩ := iterate_spec (start_sound prev) hu
  rcases hindexes with ⟨-, -, hkeys⟩ | ⟨hne, -⟩
  · refine ⟨c.1, hprev.ge, ?_, .inl ?_⟩
    · rw [hkeys, hprev, Finset.Icc_self]
    · intro c' hc'
      rw [List.mem_singleton.mp hc']
  · exact absurd rfl hne

/-- A frame two seconds or more after the one before is not indexed. -/
theorem not_mem_keys_of_gap (hsound : r.Sound) (hordered : r.Ordered) (hne : r.mFrameIndexer ≠ [])
    (hgap : 1 < c.1 - r.prev) (hu : iterate fuel r c = some u) : c.1 ∉ u.mFrameIndexer.keys := by
  obtain ⟨-, -, -, -, hindexes⟩ := iterate_spec hsound hu
  rcases hindexes with ⟨hnil, -⟩ | ⟨-, front, front', keys, -, -, hevicts, hkeys⟩
  · exact absurd hnil hne
  · intro hmem
    rw [hkeys, if_neg (by omega)] at hmem
    have hle := hordered.le_prev c.1 (hevicts.subset hmem)
    omega

theorem ordered_of_exec {prev : ℤ} (h : Monotone frames)
    (hr : exec (iterate fuel) (start prev) frames = some r) : r.Ordered := by
  obtain ⟨n, u, hu, hordered⟩ := exec_ordered prev h
  rwa [exec_unique iterate_mono hr hu]

theorem Gapless.concat_iff : Gapless (frames ++ [c]) ↔
    Gapless frames ∧ ∀ x ∈ frames.getLast?, c.1 - x.1 ≤ 1 := by
  unfold Gapless
  rw [List.isChain_append]
  simp

/-- The index behind frames without a gap. -/
theorem exec_contiguous {prev : ℤ} (hframes : frames ≠ []) (h : Monotone frames)
    (hgap : Gapless frames) (hr : exec (iterate fuel) (start prev) frames = some r) :
    Contiguous frames r := by
  induction frames using List.reverseRecOn generalizing r with
  | nil => exact absurd rfl hframes
  | append_singleton frames c ih =>
    obtain ⟨hmono, hc⟩ := h.concat
    obtain ⟨hgap, hlast⟩ := Gapless.concat_iff.mp hgap
    obtain ⟨v, hv, hr⟩ := exec_concat_eq_some.mp hr
    by_cases hnil : frames = []
    · subst hnil
      obtain rfl := Option.some.inj hv
      exact Contiguous.start hr
    · have hbefore := ih hnil hmono hgap hv
      have htracks := exec_tracks hv
      have hprev := htracks.prev _ (List.getLast?_eq_getLast_of_ne_nil hnil)
      have hnext := hlast _ (List.getLast?_eq_getLast_of_ne_nil hnil)
      rw [← hprev] at hnext
      exact hbefore.step htracks (ordered_of_exec hmono hv) (htracks.clock hc hbefore.ne_nil) hnext hr

/-- After every iteration the index has the recent seconds. -/
def RecentAfterEach (prev : ℤ) (frames : List (ℤ × Mat)) : Prop :=
  ∀ pre c post, frames = pre ++ c :: post → ∃ fuel r,
    exec (iterate fuel) (start prev) (pre ++ [c]) = some r ∧ HoldsRecent (pre ++ [c]) c.1 r

/-- While the clock does not run backwards, the index has a frame of each recent second exactly if
no second is skipped. -/
theorem recentAfterEach_iff (prev : ℤ) (frames : List (ℤ × Mat)) (h : Monotone frames) :
    RecentAfterEach prev frames ↔ Gapless frames := by
  induction frames using List.reverseRecOn with
  | nil => exact iff_of_true (fun pre c post hsplit => by simp at hsplit) List.isChain_nil
  | append_singleton frames c ih =>
    obtain ⟨hmono, hc⟩ := h.concat
    unfold RecentAfterEach at ih ⊢
    rw [forall_split_concat, ih hmono, Gapless.concat_iff]
    refine and_congr_right fun hgap => ?_
    constructor
    · rintro ⟨n, u, hu, hrecent⟩ x hx
      obtain ⟨r, hr, hu⟩ := exec_concat_eq_some.mp hu
      have hne : frames ≠ [] := by
        rintro rfl
        cases hx
      have htracks := exec_tracks hr
      have hindex := (exec_contiguous hne hmono hgap hr).ne_nil
      rw [← htracks.prev x hx]
      by_contra hskip
      have hmissing := not_mem_keys_of_gap htracks.sound (ordered_of_exec hmono hr) hindex
        (Int.not_le.mp hskip) hu
      exact hmissing (FrameIndexer.mem_keys.mpr
        (hrecent c.1 (by omega) (le_refl _) ⟨c, List.mem_append_right _ (List.mem_singleton_self c), rfl⟩))
    · intro hlast
      obtain ⟨n, u, hu, -⟩ := exec_ordered prev h
      have hprev : u.prev = c.1 := (exec_tracks hu).prev c (by simp)
      have hcontiguous := exec_contiguous (by simp) h (Gapless.concat_iff.mpr ⟨hgap, hlast⟩) hu
      exact ⟨n, u, hu, hprev ▸ hcontiguous.holdsRecent⟩

/-- A frame in every second, and two in one of them. -/
theorem recentAfterEach_each_second :
    RecentAfterEach 0 [(5, Mat.none), (6, Mat.none), (6, Mat.none), (7, Mat.none)] :=
  (recentAfterEach_iff 0 _ (by simp [Monotone])).mpr (by simp [Gapless])

/-- A frame two seconds after the first one is not in the index. -/
theorem not_recentAfterEach_skip : ¬ ∀ prev frames, Monotone frames → RecentAfterEach prev frames := by
  intro h
  obtain ⟨n, r, hr, hrecent⟩ := h 0 [(5, Mat.none), (7, Mat.none)] (by simp [Monotone])
    [(5, Mat.none)] (7, Mat.none) [] rfl
  have hrun : exec (iterate n) (start 0) [(5, Mat.none), (7, Mat.none)] = some {
      mFrameQueue := [(some 5, Mat.none), (some 7, Mat.none)]
      mFrameIndexer := [(some 5, Mat.none)]
      mReady := true
      prev := 7
      frontOfIndexerTime := some 5 } := rfl
  obtain rfl := Option.some.inj (hr.symm.trans hrun)
  exact absurd (hrecent 7 (by decide) (by decide) ⟨(7, Mat.none), by simp, rfl⟩) (by decide)

end SerialVideoReader
end VisionSensor
