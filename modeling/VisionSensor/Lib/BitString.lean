import Mathlib.Algebra.Group.Nat.Defs
import Mathlib.Algebra.GroupWithZero.Nat
import Mathlib.Algebra.Order.Group.Nat
import Mathlib.Data.List.Induction

/-! Strings of bits, the most significant bit first: numbers of a fixed width written one behind
another, and the same bits read again in groups of another width. -/
namespace BitString

/-- The last `w` binary digits of a number. -/
def bits : ℕ → ℕ → List Bool
  | 0, _ => []
  | w + 1, n => bits w (n / 2) ++ [n % 2 == 1]

/-- The number a string of bits stands for. -/
def value (bs : List Bool) : ℕ := bs.foldl (fun n b => 2 * n + b.toNat) 0

/-- The numbers of the full groups of `w` bits; a rest that fills no group is dropped. -/
def groups (w : ℕ) (bs : List Bool) : List ℕ :=
  (List.range (bs.length / w)).map fun i => value ((bs.drop (w * i)).take w)

/-- Zeros up to the next full group of `w` bits. -/
def fill (w : ℕ) (bs : List Bool) : List Bool :=
  bs ++ List.replicate ((w - bs.length % w) % w) false

variable {w : ℕ} {bs cs : List Bool}

@[simp] theorem length_bits (w n : ℕ) : (bits w n).length = w := by
  induction w generalizing n with
  | zero => rfl
  | succ w ih => simp [bits, ih]

/-- The digits of a number are its upper ones and its lower ones. -/
theorem bits_add (v w n : ℕ) : bits (v + w) n = bits v (n / 2 ^ w) ++ bits w n := by
  induction w generalizing n with
  | zero => simp [bits]
  | succ w ih =>
    rw [← Nat.add_assoc, bits, ih, bits, Nat.div_div_eq_div_mul, Nat.pow_succ', List.append_assoc]

/-- Only the last `w` digits count. -/
theorem bits_mod (w n : ℕ) : bits w (n % 2 ^ w) = bits w n := by
  induction w generalizing n with
  | zero => rfl
  | succ w ih =>
    have hlow : n % 2 ^ (w + 1) % 2 = n % 2 := by
      rw [Nat.pow_succ', Nat.mod_mul_right_mod]
    have hhigh : n % 2 ^ (w + 1) / 2 = n / 2 % 2 ^ w := by
      rw [Nat.pow_succ', Nat.mod_mul_right_div_self]
    rw [bits, bits, hlow, hhigh, ih]

theorem bits_split {u v m : ℕ} (hu : v + w = u) (hm : 2 ^ w = m) (n : ℕ) :
    bits u n = bits v (n / m) ++ bits w (n % m) := by
  subst hu hm
  rw [bits_add, bits_mod]

/-- A number put together from upper and lower digits has those digits. -/
theorem bits_join {u v m : ℕ} (hu : v + w = u) (hm : 2 ^ w = m) {x y : ℕ} (hy : y < m) :
    bits u (x * m + y) = bits v x ++ bits w y := by
  subst hm
  have hhigh : (x * 2 ^ w + y) / 2 ^ w = x := by
    rw [Nat.mul_comm, Nat.mul_add_div (Nat.two_pow_pos w), Nat.div_eq_of_lt hy, Nat.add_zero]
  have hlow : (x * 2 ^ w + y) % 2 ^ w = y := by
    rw [Nat.mul_comm, Nat.mul_add_mod, Nat.mod_eq_of_lt hy]
  rw [bits_split hu rfl, hhigh, hlow]

theorem value_append_singleton (bs : List Bool) (b : Bool) :
    value (bs ++ [b]) = 2 * value bs + b.toNat := by
  unfold value
  rw [List.foldl_append]
  rfl

/-- A number that has room in `w` digits is read back from them. -/
theorem value_bits {n : ℕ} (h : n < 2 ^ w) : value (bits w n) = n := by
  induction w generalizing n with
  | zero =>
    have hzero : n = 0 := by simpa using h
    rw [hzero]
    rfl
  | succ w ih =>
    have hhalf : n / 2 < 2 ^ w := by
      rw [Nat.pow_succ'] at h
      omega
    rw [bits, value_append_singleton, ih hhalf]
    rcases Nat.mod_two_eq_zero_or_one n with hn | hn <;> simp [hn] <;> omega

@[simp] theorem length_groups (w : ℕ) (bs : List Bool) : (groups w bs).length = bs.length / w := by
  simp [groups]

theorem groups_of_short (h : bs.length < w) : groups w bs = [] := by
  rw [← List.length_eq_zero_iff, length_groups, Nat.div_eq_of_lt h]

/-- The first group, and the groups behind it. -/
theorem groups_append (hw : 0 < w) (h : bs.length = w) (cs : List Bool) :
    groups w (bs ++ cs) = value bs :: groups w cs := by
  have hlen : (bs ++ cs).length / w = cs.length / w + 1 := by
    rw [List.length_append, h, Nat.add_div_left _ hw]
  unfold groups
  rw [hlen, List.range_succ_eq_map, List.map_cons, List.map_map]
  congr 1
  · rw [Nat.mul_zero, List.drop_zero, List.take_append_of_le_length (by omega),
      List.take_of_length_le (by omega)]
  · apply List.map_congr_left
    intro i _
    have hdrop : w * i.succ = bs.length + w * i := by
      rw [h, Nat.mul_succ, Nat.add_comm]
    simp only [Function.comp_apply, hdrop, List.drop_append]
    rw [List.drop_eq_nil_of_le (by omega), Nat.add_sub_cancel_left, List.nil_append]

/-- Numbers of `w` digits are read back, whatever follows them. -/
theorem groups_flatMap_bits (hw : 0 < w) {ns : List ℕ} (h : ∀ n ∈ ns, n < 2 ^ w)
    (cs : List Bool) : groups w (ns.flatMap (bits w) ++ cs) = ns ++ groups w cs := by
  induction ns with
  | nil => rfl
  | cons n ns ih =>
    rw [List.flatMap_cons, List.append_assoc, groups_append hw (length_bits w n),
      value_bits (h n List.mem_cons_self), ih fun m hm => h m (List.mem_cons_of_mem n hm)]
    rfl

theorem groups_bits (hw : 0 < w) {ns : List ℕ} (h : ∀ n ∈ ns, n < 2 ^ w) :
    groups w (ns.flatMap (bits w)) = ns := by
  have hnil : groups w [] = [] := groups_of_short hw
  have hgroups := groups_flatMap_bits hw h []
  rwa [List.append_nil, hnil, List.append_nil] at hgroups

@[simp] theorem length_flatMap_bits (w : ℕ) (ns : List ℕ) :
    (ns.flatMap (bits w)).length = w * ns.length := by
  induction ns with
  | nil => rfl
  | cons n ns ih =>
    rw [List.flatMap_cons, List.length_append, length_bits, ih, List.length_cons, Nat.mul_succ,
      Nat.add_comm]

theorem value_lt (bs : List Bool) : value bs < 2 ^ bs.length := by
  induction bs using List.reverseRecOn with
  | nil => simp [value]
  | append_singleton bs b ih =>
    have hb := b.toNat_lt
    rw [value_append_singleton, List.length_append, List.length_singleton, Nat.pow_succ]
    omega

/-- The digits of the number a string of bits stands for are those bits. -/
theorem bits_value (bs : List Bool) : bits bs.length (value bs) = bs := by
  induction bs using List.reverseRecOn with
  | nil => rfl
  | append_singleton bs b ih =>
    have hhalf : (2 * value bs + b.toNat) / 2 = value bs := by
      have hb := b.toNat_lt
      omega
    have hlow : ((2 * value bs + b.toNat) % 2 == 1) = b := by
      cases b <;> simp
    rw [List.length_append, List.length_singleton, bits, value_append_singleton, hhalf, hlow, ih]

/-- Bits that fill their groups are the digits of the numbers of these. -/
theorem flatMap_groups (hw : 0 < w) {k : ℕ} (h : bs.length = w * k) :
    (groups w bs).flatMap (bits w) = bs := by
  induction k generalizing bs with
  | zero =>
    rw [Nat.mul_zero, List.length_eq_zero_iff] at h
    rw [h, groups_of_short hw]
    rfl
  | succ k ih =>
    rw [Nat.mul_succ] at h
    have hfirst : (bs.take w).length = w := by simp; omega
    have hrest : (bs.drop w).length = w * k := by simp; omega
    have hdigits := bits_value (bs.take w)
    rw [hfirst] at hdigits
    conv_lhs => rw [← List.take_append_drop w bs]
    rw [groups_append hw hfirst, List.flatMap_cons, hdigits, ih hrest, List.take_append_drop]

theorem groups_lt {n : ℕ} (h : n ∈ groups w bs) : n < 2 ^ w := by
  simp only [groups, List.mem_map, List.mem_range] at h
  obtain ⟨i, -, rfl⟩ := h
  have hlen : ((bs.drop (w * i)).take w).length ≤ w := List.length_take_le w _
  exact Nat.lt_of_lt_of_le (value_lt _) (Nat.pow_le_pow_right (by decide) hlen)

/-- A rest that fills no group behind full groups is dropped. -/
theorem groups_append_of_short {k : ℕ} (h : bs.length = w * k) (hcs : cs.length < w) :
    groups w (bs ++ cs) = groups w bs := by
  have hw : 0 < w := by omega
  have hgroups := groups_flatMap_bits hw (fun n (hn : n ∈ groups w bs) => groups_lt hn) cs
  rwa [flatMap_groups hw h, groups_of_short hcs, List.append_nil] at hgroups

/-- Bits behind a string only add groups behind its own. -/
theorem take_groups_append (w : ℕ) (bs cs : List Bool) :
    (groups w (bs ++ cs)).take (bs.length / w) = groups w bs := by
  have hle : bs.length / w ≤ (bs ++ cs).length / w :=
    Nat.div_le_div_right (by simp)
  unfold groups
  rw [← List.map_take, List.take_range, Nat.min_eq_left hle]
  apply List.map_congr_left
  intro i hi
  have hroom : w * i + w ≤ bs.length := by
    have hi' : (i + 1) * w ≤ bs.length / w * w := Nat.mul_le_mul_right w (List.mem_range.mp hi)
    have hdiv := Nat.div_mul_le_self bs.length w
    rw [Nat.succ_mul, Nat.mul_comm i w] at hi'
    omega
  rw [List.drop_append_of_le_length (by omega), List.take_append_of_le_length (by simp; omega)]

/-- Full groups in front are left as they are. -/
theorem fill_append (h : bs.length % w = 0) (cs : List Bool) :
    fill w (bs ++ cs) = bs ++ fill w cs := by
  have hmod : (bs ++ cs).length % w = cs.length % w := by
    rw [List.length_append, Nat.add_mod, h, Nat.zero_add, Nat.mod_mod]
  unfold fill
  rw [hmod, List.append_assoc]

/-- Zeros behind the digits of a number. -/
theorem bits_append_false {k u m : ℕ} (hu : w + k = u) (hm : 2 ^ k = m) (n : ℕ) :
    bits w n ++ List.replicate k false = bits u (n * m) := by
  subst hu hm
  induction k with
  | zero => simp
  | succ k ih =>
    rw [List.replicate_succ', ← List.append_assoc, ih, ← Nat.add_assoc, bits, Nat.pow_succ,
      ← Nat.mul_assoc, Nat.mul_div_cancel _ (by decide), Nat.mul_mod_left]
    rfl

end BitString
