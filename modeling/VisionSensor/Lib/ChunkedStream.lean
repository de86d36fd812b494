import Mathlib.Algebra.GroupWithZero.Nat
import Mathlib.Data.List.Basic

/-! A stream that arrives in pieces: a read that takes what has arrived, up to the size of its
buffer, and a read that waits for an exact amount. -/
namespace ChunkedStream

variable {α : Type*}

/-- The pieces that are left once `n` entries have been taken. -/
def skip : List (List α) → ℕ → List (List α)
  | [], _ => []
  | c :: cs, n => if c.length ≤ n then skip cs (n - c.length) else c.drop n :: cs

/-- Takes the next piece, or as much of it as fits; at the end of the stream nothing. -/
def readSome (size : ℕ) (chunks : List (List α)) : List α × List (List α) :=
  ((chunks.headD []).take size, skip chunks (min size (chunks.headD []).length))

/-- Takes `n` entries, from as many pieces as they lie in; `none` at the end of the stream. -/
def readExactly (n : ℕ) (chunks : List (List α)) : Option (List α × List (List α)) :=
  if n ≤ chunks.flatten.length then some (chunks.flatten.take n, skip chunks n) else none

/-- The pieces that are still to come, each with its end counted. -/
def weight (chunks : List (List α)) : ℕ := (chunks.map fun c => c.length + 1).sum

theorem flatten_skip (chunks : List (List α)) (n : ℕ) :
    (skip chunks n).flatten = chunks.flatten.drop n := by
  induction chunks generalizing n with
  | nil => simp [skip]
  | cons c cs ih =>
    rw [skip, List.flatten_cons, List.drop_append]
    split_ifs with h
    · rw [ih, List.drop_eq_nil_of_le h, List.nil_append]
    · rw [List.flatten_cons, Nat.sub_eq_zero_of_le (by omega), List.drop_zero]

theorem weight_cons (c : List α) (cs : List (List α)) :
    weight (c :: cs) = c.length + 1 + weight cs := by
  unfold weight
  rw [List.map_cons, List.sum_cons]

theorem skip_weight (chunks : List (List α)) (n : ℕ) : weight (skip chunks n) ≤ weight chunks := by
  induction chunks generalizing n with
  | nil => exact Nat.le_refl _
  | cons c cs ih =>
    rw [skip, weight_cons]
    split_ifs
    · exact Nat.le_add_left_of_le (ih (n - c.length))
    · rw [weight_cons, List.length_drop]
      omega

/-- Taking a piece, or part of it, leaves less to come. -/
theorem readSome_weight {size : ℕ} (hsize : 0 < size) (c : List α) (cs : List (List α)) :
    weight (readSome size (c :: cs)).2 < weight (c :: cs) := by
  show weight (skip (c :: cs) (min size c.length)) < _
  rw [skip, weight_cons]
  split_ifs
  · have hcs := skip_weight cs (min size c.length - c.length)
    omega
  · rw [weight_cons, List.length_drop]
    omega

theorem readExactly_weight {n : ℕ} {chunks rest : List (List α)} {taken : List α}
    (h : readExactly n chunks = some (taken, rest)) : weight rest ≤ weight chunks := by
  unfold readExactly at h
  split_ifs at h
  obtain ⟨-, rfl⟩ := Prod.mk.inj (Option.some.inj h)
  exact skip_weight chunks n

theorem skip_nonempty {chunks : List (List α)} (h : ∀ c ∈ chunks, c ≠ []) (n : ℕ) :
    ∀ c ∈ skip chunks n, c ≠ [] := by
  induction chunks generalizing n with
  | nil => simp [skip]
  | cons c cs ih =>
    rw [skip]
    split_ifs with hc
    · exact ih (fun c' hc' => h c' (List.mem_cons_of_mem c hc')) _
    · intro c' hc'
      rcases List.mem_cons.mp hc' with rfl | hmem
      · exact List.ne_nil_of_length_pos (by rw [List.length_drop]; omega)
      · exact h c' (List.mem_cons_of_mem c hmem)

theorem skip_zero {chunks : List (List α)} (h : ∀ c ∈ chunks, c ≠ []) : skip chunks 0 = chunks := by
  cases chunks with
  | nil => rfl
  | cons c cs =>
    have hc : 0 < c.length := List.length_pos_iff.mpr (h c List.mem_cons_self)
    rw [skip, if_neg (by omega), List.drop_zero]

/-- A piece that fits is taken whole, and the others are left. -/
theorem readSome_cons {size : ℕ} {c : List α} {cs : List (List α)} (hc : c.length ≤ size)
    (h : ∀ c ∈ cs, c ≠ []) : readSome size (c :: cs) = (c, cs) := by
  show (c.take size, skip (c :: cs) (min size c.length)) = _
  rw [List.take_of_length_le hc, Nat.min_eq_right hc, skip, if_pos (Nat.le_refl _), Nat.sub_self,
    skip_zero h]

/-- A read takes a beginning of the stream and leaves the rest. -/
theorem readSome_append (size : ℕ) (chunks : List (List α)) :
    (readSome size chunks).1 ++ (readSome size chunks).2.flatten = chunks.flatten := by
  cases chunks with
  | nil => simp [readSome, skip]
  | cons c cs =>
    show c.take size ++ (skip (c :: cs) (min size c.length)).flatten = _
    have htake : c.take size = (c ++ cs.flatten).take (min size c.length) := by
      rw [List.take_append_of_le_length (Nat.min_le_right _ _)]
      simp
    rw [flatten_skip, List.flatten_cons, htake, List.take_append_drop]

theorem length_readSome (size : ℕ) (chunks : List (List α)) :
    (readSome size chunks).1.length = min size (chunks.headD []).length := List.length_take

section Blank

variable {p : α → Bool}

/-- Two readings of one stream that both have `a` after blanks leave the same, up to blanks: an
`a` that is not blank is found in one place, and a blank one makes the streams blank up to there. -/
theorem dropWhile_shift {s v a w l : List α} (hs : ∀ x ∈ s, p x) (hv : ∀ x ∈ v, p x)
    (h : s ++ (a ++ w) = v ++ (a ++ l)) : w.dropWhile p = l.dropWhile p := by
  have hdrop := congrArg (List.dropWhile p) h
  rw [List.dropWhile_append_of_pos hs, List.dropWhile_append_of_pos hv, List.dropWhile_append,
    List.dropWhile_append] at hdrop
  split_ifs at hdrop
  · exact hdrop
  · rw [List.append_cancel_left hdrop]

end Blank

end ChunkedStream
