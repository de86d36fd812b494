import Mathlib.Data.Finset.Dedup
import Mathlib.Data.Finset.Erase
import Mathlib.Data.Finset.Card
import VisionSensor.Video.FrameIndexer

/-! What `SerialVideoReader` does to its frame index, and the set of seconds that have a frame. -/
namespace VisionSensor

namespace FrameIndexer

/-- `insert` of an `unordered_map`: an entry that is there already stays. -/
def insert (mFrameIndexer : FrameIndexer) (time : Ptime) (frame : Mat) : FrameIndexer :=
  if (mFrameIndexer.lookup time).isSome then mFrameIndexer else mFrameIndexer ++ [(time, frame)]

/-- `erase` of an `unordered_map`. -/
def erase (mFrameIndexer : FrameIndexer) (time : Ptime) : FrameIndexer :=
  mFrameIndexer.eraseP fun e => e.1 == time

/-- The seconds with a frame. -/
def keys (mFrameIndexer : FrameIndexer) : Finset ℤ := (mFrameIndexer.filterMap Prod.fst).toFinset

/-- Every key is a date, and no key occurs twice. -/
structure Keyed (mFrameIndexer : FrameIndexer) : Prop where
  dated : ∀ e ∈ mFrameIndexer, e.1.isSome
  nodup : (mFrameIndexer.map Prod.fst).Nodup

variable {mFrameIndexer : FrameIndexer} {k s : ℤ} {frame : Mat}

theorem mem_keys : k ∈ mFrameIndexer.keys ↔ some k ∈ mFrameIndexer.map Prod.fst := by
  simp [keys]

theorem lookup_isSome_iff {time : Ptime} :
    (mFrameIndexer.lookup time).isSome ↔ time ∈ mFrameIndexer.map Prod.fst := by
  rw [List.lookup_isSome_iff, List.mem_map]
  simp only [beq_iff_eq, eq_comm (a := time)]

theorem lookup_key_isSome_iff : (mFrameIndexer.lookup (some k)).isSome ↔ k ∈ mFrameIndexer.keys := by
  rw [lookup_isSome_iff, mem_keys]

theorem Keyed.card_keys (h : mFrameIndexer.Keyed) :
    mFrameIndexer.keys.card = mFrameIndexer.length := by
  have hdates : (mFrameIndexer.filterMap Prod.fst).map some = mFrameIndexer.map Prod.fst := by
    rw [List.map_filterMap]
    refine List.filterMap_eq_map_iff_forall_eq_some.mpr fun e he => ?_
    obtain ⟨t, ht⟩ := Option.isSome_iff_exists.mp (h.dated e he)
    simp [ht]
  have hnodup : (mFrameIndexer.filterMap Prod.fst).Nodup := by
    have hn := h.nodup
    rw [← hdates] at hn
    exact hn.of_map some
  have hlen := congrArg List.length hdates
  rw [List.length_map, List.length_map] at hlen
  rw [keys, List.toFinset_card_of_nodup hnodup, hlen]

theorem Keyed.insert (h : mFrameIndexer.Keyed) (k : ℤ) (frame : Mat) :
    (mFrameIndexer.insert (some k) frame).Keyed := by
  unfold FrameIndexer.insert
  split_ifs with hfound
  · exact h
  · rw [lookup_isSome_iff] at hfound
    refine ⟨?_, ?_⟩
    · intro e he
      rcases List.mem_append.mp he with he | he
      · exact h.dated e he
      · rw [List.mem_singleton.mp he]
        rfl
    · rw [List.map_append, List.nodup_append]
      refine ⟨h.nodup, List.nodup_singleton _, ?_⟩
      rintro t ht u hu rfl
      obtain rfl : t = some k := List.mem_singleton.mp hu
      exact hfound ht

theorem keys_insert (k : ℤ) (frame : Mat) :
    (mFrameIndexer.insert (some k) frame).keys = Insert.insert k mFrameIndexer.keys := by
  unfold FrameIndexer.insert
  split_ifs with hfound
  · exact (Finset.insert_eq_self.mpr (lookup_key_isSome_iff.mp hfound)).symm
  · ext s
    simp [mem_keys, or_comm]

theorem mem_insert {e : Ptime × Mat} {time : Ptime} (he : e ∈ mFrameIndexer.insert time frame) :
    e ∈ mFrameIndexer ∨ e = (time, frame) := by
  unfold FrameIndexer.insert at he
  split_ifs at he
  · exact .inl he
  · simpa using he

theorem map_erase (time : Ptime) :
    (mFrameIndexer.erase time).map Prod.fst = (mFrameIndexer.map Prod.fst).erase time := by
  rw [List.erase_eq_eraseP', List.eraseP_map]
  rfl

theorem Keyed.erase (h : mFrameIndexer.Keyed) (time : Ptime) : (mFrameIndexer.erase time).Keyed := by
  refine ⟨fun e he => h.dated e (List.mem_of_mem_eraseP he), ?_⟩
  rw [map_erase]
  exact h.nodup.erase time

theorem Keyed.keys_erase (h : mFrameIndexer.Keyed) (k : ℤ) :
    (mFrameIndexer.erase (some k)).keys = mFrameIndexer.keys.erase k := by
  ext s
  rw [mem_keys, map_erase, h.nodup.mem_erase_iff, Finset.mem_erase, mem_keys, ne_eq,
    Option.some.injEq]

end FrameIndexer
end VisionSensor
