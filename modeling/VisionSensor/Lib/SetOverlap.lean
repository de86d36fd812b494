import Mathlib.Algebra.Order.Field.Rat
import Mathlib.Data.Finset.Card
import Mathlib.Tactic.Linarith
import Mathlib.Tactic.Positivity

/-! How far two finite sets overlap: the common part over the union, and over the smaller set. -/
namespace SetOverlap
open Finset

variable {α : Type*} [DecidableEq α]

def iou (s t : Finset α) : ℚ := #(s ∩ t) / #(s ∪ t)

def ios (s t : Finset α) : ℚ := #(s ∩ t) / min #s #t

theorem iou_comm (s t : Finset α) : iou s t = iou t s := by
  rw [iou, iou, inter_comm, union_comm]

theorem ios_comm (s t : Finset α) : ios s t = ios t s := by
  rw [ios, ios, inter_comm, min_comm]

/-- The union is counted by inclusion and exclusion. -/
theorem card_union_cast (s t : Finset α) : (#(s ∪ t) : ℚ) = #s + #t - #(s ∩ t) := by
  have h := card_union_add_card_inter s t
  have hq : (#(s ∪ t) : ℚ) + #(s ∩ t) = #s + #t := by exact_mod_cast h
  linarith

theorem iou_nonneg (s t : Finset α) : 0 ≤ iou s t :=
  div_nonneg (Nat.cast_nonneg _) (Nat.cast_nonneg _)

theorem iou_le_one (s t : Finset α) : iou s t ≤ 1 := by
  apply div_le_one_of_le₀
  · have h : #(s ∩ t) ≤ #(s ∪ t) := card_le_card (inter_subset_left.trans subset_union_left)
    exact_mod_cast h
  · positivity

theorem ios_nonneg (s t : Finset α) : 0 ≤ ios s t :=
  div_nonneg (Nat.cast_nonneg _) (Nat.cast_nonneg _)

theorem ios_le_one (s t : Finset α) : ios s t ≤ 1 := by
  apply div_le_one_of_le₀
  · have h : #(s ∩ t) ≤ min #s #t :=
      le_min (card_le_card inter_subset_left) (card_le_card inter_subset_right)
    exact_mod_cast h
  · positivity

/-- The common part fills the union only when there is nothing else. -/
theorem iou_eq_one_iff {s t : Finset α} (hs : s.Nonempty) : iou s t = 1 ↔ s = t := by
  have hpos : (#(s ∪ t) : ℚ) ≠ 0 := by
    have hunion : (s ∪ t).Nonempty := hs.mono subset_union_left
    exact_mod_cast (card_pos.mpr hunion).ne'
  constructor
  · intro h
    have hcard : #(s ∪ t) ≤ #(s ∩ t) := by
      have := (div_eq_one_iff_eq hpos).mp h
      exact_mod_cast this.ge
    have heq : s ∩ t = s ∪ t :=
      eq_of_subset_of_card_le (inter_subset_left.trans subset_union_left) hcard
    apply Subset.antisymm
    · exact (subset_union_left.trans heq.ge).trans inter_subset_right
    · exact (subset_union_right.trans heq.ge).trans inter_subset_left
  · rintro rfl
    simp only [iou, inter_self, union_self] at hpos ⊢
    exact div_self hpos

end SetOverlap
