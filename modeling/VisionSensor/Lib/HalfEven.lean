import Mathlib.Algebra.Order.Floor.Ring
import Mathlib.Algebra.Order.Field.Basic
import Mathlib.Tactic.Linarith
import Mathlib.Tactic.Push

/-! Rounding to the nearest integer, with halves going to the even side. -/
namespace HalfEven

variable {α : Type*} [Field α] [LinearOrder α] [IsStrictOrderedRing α] [FloorRing α]

def round (x : α) : ℤ :=
  let k := ⌊x⌋
  if x < k + 1 / 2 then k
  else if k + 1 / 2 < x then k + 1
  else if k % 2 = 0 then k else k + 1

theorem sub_half_le_round (x : α) : x - 1 / 2 ≤ round x := by
  have hlt := Int.lt_floor_add_one x
  unfold round
  dsimp only
  split_ifs with hlow hhigh heven
  · linarith
  · push_cast
    linarith
  · linarith
  · push_cast
    linarith

theorem round_le_add_half (x : α) : (round x : α) ≤ x + 1 / 2 := by
  have hle := Int.floor_le x
  unfold round
  dsimp only
  split_ifs with hlow hhigh heven
  · linarith
  · push_cast
    linarith
  · linarith
  · push_cast
    linarith

/-- Only to an even number a half is rounded up. -/
theorem even_of_round_eq {x : α} (h : (round x : α) = x + 1 / 2) : round x % 2 = 0 := by
  have hle := Int.floor_le x
  unfold round at h ⊢
  dsimp only at h ⊢
  split_ifs at h ⊢ with hlow hhigh heven
  · linarith
  · push_cast at h
    linarith
  · exact heven
  · omega

theorem round_nonneg {x : α} (h : 0 ≤ x) : 0 ≤ round x := by
  have hhalf := sub_half_le_round x
  have hcast : (-1 : α) < round x := by linarith
  have hint : (-1 : ℤ) < round x := by exact_mod_cast hcast
  omega

/-- Two numbers rounded apart do not pass an even bound on their sum: both would have to be halves
rounded up, to even numbers. -/
theorem round_add_round_le {x y : α} {n : ℤ} (hn : n % 2 = 0) (h : x + y ≤ n) :
    round x + round y ≤ n := by
  have hx := round_le_add_half x
  have hy := round_le_add_half y
  have hcast : ((round x + round y : ℤ) : α) ≤ (n + 1 : ℤ) := by
    push_cast
    linarith
  have hle : round x + round y ≤ n + 1 := by exact_mod_cast hcast
  rcases Int.lt_or_eq_of_le hle with hlt | heq
  · omega
  · have hsum : (round x : α) + round y = n + 1 := by exact_mod_cast heq
    have hxe := even_of_round_eq (x := x) (by linarith)
    have hye := even_of_round_eq (x := y) (by linarith)
    omega

end HalfEven
