import Mathlib.Algebra.Group.Nat.Defs
import Mathlib.Algebra.Group.Int.Defs
import Mathlib.Data.Int.Order.Basic

/-! Decimal integers in text, read as `std::stoi`, `atoi` and the stream operators read an `int`
and written as `std::to_string` writes one. -/
namespace VisionSensor

/-- `std::isspace` in the classic locale. -/
def isSpace (c : Char) : Bool := [9, 10, 11, 12, 13, 32].contains c.toNat

/-- The sign in front of a number: whether it is a minus, and what follows. -/
def readSign : List Char → Bool × List Char
  | '-' :: cs => (true, cs)
  | '+' :: cs => (false, cs)
  | cs => (false, cs)

/-- A number at the beginning of a text, after white space, and what follows it. -/
def readInt (cs : List Char) : Option (ℤ × List Char) :=
  let (neg, cs) := readSign (cs.dropWhile isSpace)
  let ds := cs.takeWhile Char.isDigit
  let n : ℤ := Nat.ofDigitChars 10 ds 0
  if ds = [] then none else some (if neg then -n else n, cs.dropWhile Char.isDigit)

/-- The values of an `int`. -/
def InInt (n : ℤ) : Prop := -2 ^ 31 ≤ n ∧ n < 2 ^ 31

instance : DecidablePred InInt := fun n => inferInstanceAs (Decidable (-2 ^ 31 ≤ n ∧ n < 2 ^ 31))

/-- The exceptions of `std::stoi`. -/
inductive StoiError where
  | invalid_argument | out_of_range
  deriving DecidableEq, Repr

/-- `std::stoi`; what follows the number is ignored. -/
def stoi (cs : List Char) : Except StoiError ℤ :=
  match readInt cs with
  | none => .error .invalid_argument
  | some (n, _) => if InInt n then .ok n else .error .out_of_range

/-- `atoi`: a text without a number is 0. The number saturates at the bounds of a `long`, and an
`int` takes its low 32 bits. -/
def atoi (cs : List Char) : ℤ :=
  (readInt cs).elim 0 fun r => (max (-2 ^ 63) (min r.1 (2 ^ 63 - 1))).bmod (2 ^ 32)

/-- `std::to_string`. -/
def to_string (n : ℤ) : List Char :=
  if n < 0 then '-' :: Nat.toDigits 10 n.natAbs else Nat.toDigits 10 n.natAbs

theorem takeWhile_digits {ds cs : List Char} (hds : ∀ c ∈ ds, c.isDigit)
    (hcs : ∀ c ∈ cs.head?, c.isDigit = false) :
    (ds ++ cs).takeWhile Char.isDigit = ds ∧ (ds ++ cs).dropWhile Char.isDigit = cs := by
  induction ds with
  | nil =>
    cases cs with
    | nil => exact ⟨rfl, rfl⟩
    | cons c cs =>
      have hc : c.isDigit = false := hcs c rfl
      simp [hc]
  | cons d ds ih =>
    have hd : d.isDigit = true := hds d List.mem_cons_self
    obtain ⟨h1, h2⟩ := ih fun c hc => hds c (List.mem_cons_of_mem _ hc)
    simp [hd, h1, h2]

theorem isDigit_toDigits {n : ℕ} {c : Char} (h : c ∈ Nat.toDigits 10 n) : c.isDigit = true :=
  Nat.isDigit_of_mem_toDigits (by decide) (by decide) h

/-- No digit is white space or a sign. -/
theorem digit_spec {c : Char} (h : c.isDigit = true) :
    isSpace c = false ∧ c ≠ '-' ∧ c ≠ '+' ∧ c ≠ '_' ∧ c ≠ '.' ∧ c ≠ '/' := by
  have hr : 48 ≤ c.toNat ∧ c.toNat ≤ 57 := by
    simpa [Char.isDigit, UInt32.le_iff_toNat_le] using h
  refine ⟨?_, ?_, ?_, ?_, ?_, ?_⟩
  · simp [isSpace]
    omega
  all_goals
    rintro rfl
    revert hr
    decide

/-- A written number is read back, whatever text without a leading digit follows. -/
theorem readInt_to_string (n : ℤ) (cs : List Char) (hcs : ∀ c ∈ cs.head?, c.isDigit = false) :
    readInt (to_string n ++ cs) = some (n, cs) := by
  have hdigits : ∀ c ∈ Nat.toDigits 10 n.natAbs, c.isDigit = true := fun c => isDigit_toDigits
  obtain ⟨htake, hdrop⟩ := takeWhile_digits hdigits hcs
  have hne : Nat.toDigits 10 n.natAbs ≠ [] := Nat.toDigits_ne_nil
  have hval : Nat.ofDigitChars 10 (Nat.toDigits 10 n.natAbs) 0 = n.natAbs :=
    Nat.ofDigitChars_ten_toDigits
  unfold to_string
  split_ifs with hneg
  · have hsign : readSign (('-' :: Nat.toDigits 10 n.natAbs ++ cs).dropWhile isSpace) =
        (true, Nat.toDigits 10 n.natAbs ++ cs) := rfl
    have hn : -(n.natAbs : ℤ) = n := by omega
    simp only [readInt, hsign, htake, hdrop, if_neg hne, hval, hn, reduceIte]
  · obtain ⟨d, ds, hd⟩ := List.exists_cons_of_ne_nil hne
    obtain ⟨hspace, hminus, hplus, -⟩ := digit_spec (hdigits d (by simp [hd]))
    have hsign : readSign ((Nat.toDigits 10 n.natAbs ++ cs).dropWhile isSpace) =
        (false, Nat.toDigits 10 n.natAbs ++ cs) := by
      rw [hd, List.cons_append, List.dropWhile_cons, hspace]
      simp only [Bool.false_eq_true, reduceIte]
      unfold readSign
      split <;> simp_all
    have hn : (n.natAbs : ℤ) = n := by omega
    simp only [readInt, hsign, htake, hdrop, if_neg hne, hval, hn, Bool.false_eq_true, reduceIte]

theorem to_string_injective : Function.Injective to_string := by
  intro a b h
  have ha := readInt_to_string a [] (by simp)
  rw [h, readInt_to_string b [] (by simp)] at ha
  exact (Prod.mk.inj (Option.some.inj ha)).1.symm

theorem stoi_to_string {n : ℤ} (h : InInt n) : stoi (to_string n) = .ok n := by
  have hr := readInt_to_string n [] (by simp)
  rw [List.append_nil] at hr
  simp [stoi, hr, h]

/-- A written number holds digits and a minus only. -/
theorem isDigit_of_mem_to_string {n : ℤ} {c : Char} (h : c ∈ to_string n) :
    c.isDigit = true ∨ c = '-' := by
  unfold to_string at h
  split_ifs at h
  · rcases List.mem_cons.mp h with rfl | h
    · exact .inr rfl
    · exact .inl (isDigit_toDigits h)
  · exact .inl (isDigit_toDigits h)

theorem to_string_mem {n : ℤ} {c : Char} (h : c ∈ to_string n) :
    c ≠ '_' ∧ c ≠ '.' ∧ c ≠ '/' := by
  rcases isDigit_of_mem_to_string h with h | rfl
  · exact (digit_spec h).2.2.2
  · decide

example : stoi " -42x".toList = .ok (-42) := rfl

end VisionSensor
