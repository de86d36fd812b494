import Mathlib.Data.List.Induction
import Mathlib.Order.Lattice
import Mathlib.Order.Nat

/-! The scan of a list for its largest value, where some entries have no value and the first of
several largest ones is kept. -/
namespace FirstMax

variable {α β : Type*}

def valueAt (f : α → Option β) (l : List α) (i : ℕ) : Option β := l[i]?.bind f

theorem valueAt_concat {f : α → Option β} {l : List α} (a : α) (j : ℕ) :
    valueAt f (l ++ [a]) j =
      if j < l.length then valueAt f l j else if j = l.length then f a else none := by
  unfold valueAt
  rcases lt_trichotomy j l.length with h | rfl | h
  · rw [if_pos h, List.getElem?_append_left h]
  · simp
  · rw [if_neg (by omega), if_neg (by omega), List.getElem?_eq_none (by simp; omega)]
    rfl

theorem valueAt_eq_none {f : α → Option β} {l : List α} {j : ℕ} (h : l.length ≤ j) :
    valueAt f l j = none := by
  rw [valueAt, List.getElem?_eq_none h]
  rfl

variable [LinearOrder β]

/-- One step of the scan: the best position so far, if any, and its value. -/
def step (f : α → Option β) (best : Option ℕ × β) (p : α × ℕ) : Option ℕ × β :=
  match f p.1 with
  | none => best
  | some v => if best.2 < v then (some p.2, v) else best

def scan (f : α → Option β) (b₀ : β) (l : List α) : Option ℕ × β :=
  l.zipIdx.foldl (step f) (none, b₀)

/-- The position `i` holds the largest value, it is above `b₀`, and no earlier one equals it. -/
structure IsFirstMax (f : α → Option β) (b₀ : β) (l : List α) (i : ℕ) (v : β) : Prop where
  value : valueAt f l i = some v
  above : b₀ < v
  max : ∀ j w, valueAt f l j = some w → w ≤ v
  first : ∀ j < i, ∀ w, valueAt f l j = some w → w < v

variable {f : α → Option β} {b₀ : β} {l : List α}

theorem scan_concat (a : α) : scan f b₀ (l ++ [a]) = step f (scan f b₀ l) (a, l.length) := by
  simp [scan, List.zipIdx_append, List.foldl_append]

theorem IsFirstMax.lt_length {i : ℕ} {v : β} (h : IsFirstMax f b₀ l i v) : i < l.length := by
  by_contra hn
  have := h.value
  rw [valueAt_eq_none (by omega)] at this
  cases this

theorem bounded_concat {a : α} {u : β} (hl : ∀ j w, valueAt f l j = some w → w ≤ u)
    (ha : ∀ w, f a = some w → w ≤ u) : ∀ j w, valueAt f (l ++ [a]) j = some w → w ≤ u := by
  intro j w hw
  rw [valueAt_concat] at hw
  split_ifs at hw with hj hj'
  · exact hl j w hw
  · exact ha w hw

/-- A value at the end that beats everything before it. -/
theorem isFirstMax_last {a : α} {u v : β} (hl : ∀ j w, valueAt f l j = some w → w ≤ u)
    (hu : b₀ ≤ u) (hv : f a = some v) (huv : u < v) : IsFirstMax f b₀ (l ++ [a]) l.length v := by
  refine ⟨by simp [valueAt_concat, hv], hu.trans_lt huv, ?_, ?_⟩
  · refine bounded_concat (fun j w hw => (hl j w hw).trans huv.le) fun w hw => ?_
    exact (Option.some.inj (hv.symm.trans hw)).ge
  · intro j hj w hw
    rw [valueAt_concat, if_pos hj] at hw
    exact (hl j w hw).trans_lt huv

/-- A last value that is no larger changes nothing. -/
theorem IsFirstMax.concat {a : α} {i : ℕ} {v : β} (h : IsFirstMax f b₀ l i v)
    (ha : ∀ w, f a = some w → w ≤ v) : IsFirstMax f b₀ (l ++ [a]) i v := by
  refine ⟨?_, h.above, bounded_concat h.max ha, ?_⟩
  · rw [valueAt_concat, if_pos h.lt_length, h.value]
  · intro j hj w hw
    rw [valueAt_concat, if_pos (hj.trans h.lt_length)] at hw
    exact h.first j hj w hw

/-- What the scan finds: no value above `b₀`, or the first largest one. -/
theorem scan_spec (f : α → Option β) (b₀ : β) (l : List α) :
    (scan f b₀ l = (none, b₀) ∧ ∀ j w, valueAt f l j = some w → w ≤ b₀) ∨
      ∃ i v, scan f b₀ l = (some i, v) ∧ IsFirstMax f b₀ l i v := by
  induction l using List.reverseRecOn with
  | nil => exact .inl ⟨rfl, by simp [valueAt]⟩
  | append_singleton l a ih =>
    rw [scan_concat]
    rcases ih with ⟨hs, hl⟩ | ⟨i, v, hs, hi⟩
    · rw [hs, step]
      cases ha : f a with
      | none => exact .inl ⟨rfl, bounded_concat hl (by simp [ha])⟩
      | some w =>
        dsimp only
        split_ifs with hw
        · exact .inr ⟨_, _, rfl, isFirstMax_last hl le_rfl ha hw⟩
        · refine .inl ⟨rfl, bounded_concat hl fun w' hw' => ?_⟩
          obtain rfl := Option.some.inj (ha.symm.trans hw')
          exact not_lt.mp hw
    · rw [hs, step]
      cases ha : f a with
      | none => exact .inr ⟨i, v, rfl, hi.concat (by simp [ha])⟩
      | some w =>
        dsimp only
        split_ifs with hw
        · exact .inr ⟨_, _, rfl, isFirstMax_last hi.max hi.above.le ha hw⟩
        · refine .inr ⟨i, v, rfl, hi.concat fun w' hw' => ?_⟩
          obtain rfl := Option.some.inj (ha.symm.trans hw')
          exact not_lt.mp hw

theorem IsFirstMax.unique {i i' : ℕ} {v v' : β} (h : IsFirstMax f b₀ l i v)
    (h' : IsFirstMax f b₀ l i' v') : i = i' ∧ v = v' := by
  obtain rfl : v = v' := le_antisymm (h'.max i v h.value) (h.max i' v' h'.value)
  refine ⟨?_, rfl⟩
  rcases lt_trichotomy i i' with hlt | heq | hlt
  · exact absurd (h'.first i hlt v h.value) (lt_irrefl v)
  · exact heq
  · exact absurd (h.first i' hlt v h'.value) (lt_irrefl v)

/-- The scan finds a position exactly when it holds the first largest value. -/
theorem scan_eq_some_iff {i : ℕ} {v : β} : scan f b₀ l = (some i, v) ↔ IsFirstMax f b₀ l i v := by
  rcases scan_spec f b₀ l with ⟨hs, hl⟩ | ⟨i', v', hs, hi⟩
  · rw [hs]
    refine iff_of_false (by simp) fun h => ?_
    exact absurd (h.above.trans_le (hl i v h.value)) (lt_irrefl _)
  · rw [hs]
    constructor
    · intro h
      obtain ⟨hi', rfl⟩ := Prod.mk.inj h
      obtain rfl := Option.some.inj hi'
      exact hi
    · intro h
      obtain ⟨rfl, rfl⟩ := hi.unique h
      rfl

/-- Whether the value found lies in an upper set that leaves `b₀` out: one entry decides. -/
theorem scan_mem_upper_iff {P : β → Prop} (hP : ∀ u v, u ≤ v → P u → P v) (h₀ : ¬ P b₀) :
    P (scan f b₀ l).2 ↔ ∃ a ∈ l, ∃ v, f a = some v ∧ P v := by
  rcases scan_spec f b₀ l with ⟨hs, hl⟩ | ⟨i, v, hs, hi⟩
  · rw [hs]
    apply iff_of_false h₀
    rintro ⟨a, ha, w, hw, hPw⟩
    obtain ⟨j, hj⟩ := List.mem_iff_getElem?.mp ha
    have hle := hl j w (by rw [valueAt, hj, Option.bind_some, hw])
    exact h₀ (hP w b₀ hle hPw)
  · rw [hs]
    constructor
    · intro hv
      obtain ⟨a, ha, hfa⟩ := Option.bind_eq_some_iff.mp hi.value
      exact ⟨a, List.mem_of_getElem? ha, v, hfa, hv⟩
    · rintro ⟨a, ha, w, hw, hPw⟩
      obtain ⟨j, hj⟩ := List.mem_iff_getElem?.mp ha
      have hle := hi.max j w (by rw [valueAt, hj, Option.bind_some, hw])
      exact hP w v hle hPw

/-- A value other than `b₀` comes with the position of an entry. -/
theorem scan_index {P : β → Prop} (h₀ : ¬ P b₀) (h : P (scan f b₀ l).2) :
    ∃ i < l.length, (scan f b₀ l).1 = some i := by
  rcases scan_spec f b₀ l with ⟨hs, -⟩ | ⟨i, v, hs, hi⟩
  · rw [hs] at h
    exact absurd h h₀
  · rw [hs]
    exact ⟨i, hi.lt_length, rfl⟩

end FirstMax
