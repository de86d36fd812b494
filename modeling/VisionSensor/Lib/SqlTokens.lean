import Mathlib.Algebra.Order.Group.Nat
import Mathlib.Data.Int.Basic
import Mathlib.Data.Nat.Digits.Defs

/-! The text of an SQL statement cut into tokens, one character at a time. Strings stand between
single or double quotes; a doubled quote or a backslash brings a quote into a string, and the
backslash in front of a wildcard stays. There are comments of three kinds. -/
namespace Sql

inductive Token where
  | word (w : List Char)
  | number (n : ℤ)
  | str (s : List Char)
  | sym (c : Char)
  deriving DecidableEq, Repr

/-- Where the reader is, with what it has read of the token: inside a string, behind a backslash in
it, and behind a quote that ends it unless it is doubled; `dash` and `slash` are behind one of these
characters, `dashes` behind two, and `star` behind a star inside a block comment. -/
inductive Mode where
  | start
  | word (acc : List Char)
  | number (acc : List Char)
  | text (quote : Char) (acc : List Char)
  | escaped (quote : Char) (acc : List Char)
  | quoted (quote : Char) (acc : List Char)
  | dash | dashes | slash | line | block | star
  deriving DecidableEq, Repr

def isSpace (c : Char) : Bool := [9, 10, 11, 12, 13, 32].contains c.toNat

/-- White space and control characters, which make two dashes a comment. -/
def isBlank (c : Char) : Bool := c.toNat ≤ 32 || c.toNat == 127

def isWord (c : Char) : Bool := c.isAlphanum || c == '_' || c == '$'

/-- What a backslash and a character stand for. -/
def escape (c : Char) : List Char :=
  if c = '%' ∨ c = '_' then ['\\', c]
  else if c = '0' then [Char.ofNat 0]
  else if c = 'b' then [Char.ofNat 8]
  else if c = 'n' then [Char.ofNat 10]
  else if c = 'r' then [Char.ofNat 13]
  else if c = 't' then [Char.ofNat 9]
  else if c = 'Z' then [Char.ofNat 26]
  else [c]

/-- The first character of a token. -/
def first (c : Char) : List Token × Mode :=
  if isSpace c then ([], .start)
  else if c = '\'' ∨ c = '"' then ([], .text c [])
  else if c = '-' then ([], .dash)
  else if c = '/' then ([], .slash)
  else if c = '#' then ([], .line)
  else if c.isDigit then ([], .number [c])
  else if isWord c then ([], .word [c])
  else ([.sym c], .start)

def emit (ts : List Token) (r : List Token × Mode) : List Token × Mode := (ts ++ r.1, r.2)

def digits (acc : List Char) : Token := .number (Nat.ofDigitChars 10 acc 0)

/-- One character: the tokens it completes, and where the reader is behind it. -/
def next : Mode → Char → List Token × Mode
  | .start, c => first c
  | .word acc, c => if isWord c then ([], .word (acc ++ [c])) else emit [.word acc] (first c)
  | .number acc, c => if c.isDigit then ([], .number (acc ++ [c])) else emit [digits acc] (first c)
  | .text quote acc, c =>
      if c = quote then ([], .quoted quote acc)
      else if c = '\\' then ([], .escaped quote acc)
      else ([], .text quote (acc ++ [c]))
  | .escaped quote acc, c => ([], .text quote (acc ++ escape c))
  | .quoted quote acc, c =>
      if c = quote then ([], .text quote (acc ++ [c])) else emit [.str acc] (first c)
  | .dash, c => if c = '-' then ([], .dashes) else emit [.sym '-'] (first c)
  | .dashes, c =>
      if c = '\n' then ([], .start)
      else if isBlank c then ([], .line)
      else if c = '-' then ([.sym '-'], .dashes)
      else emit [.sym '-', .sym '-'] (first c)
  | .slash, c => if c = '*' then ([], .block) else emit [.sym '/'] (first c)
  | .line, c => ([], if c = '\n' then .start else .line)
  | .block, c => ([], if c = '*' then .star else .block)
  | .star, c => ([], if c = '/' then .start else if c = '*' then .star else .block)

/-- The end of the text. It may not stand inside a string or a block comment. -/
def finish : Mode → Option (List Token)
  | .start | .line | .dashes => some []
  | .word acc => some [.word acc]
  | .number acc => some [digits acc]
  | .quoted _ acc => some [.str acc]
  | .dash => some [.sym '-']
  | .slash => some [.sym '/']
  | .text _ _ | .escaped _ _ | .block | .star => none

def scan : Mode → List Char → List Token × Mode
  | m, [] => ([], m)
  | m, c :: cs => emit (next m c).1 (scan (next m c).2 cs)

def tokens (cs : List Char) : Option (List Token) :=
  (finish (scan .start cs).2).map fun ts => (scan .start cs).1 ++ ts

@[simp] theorem emit_nil (r : List Token × Mode) : emit [] r = r := rfl

theorem emit_emit (ts us : List Token) (r : List Token × Mode) :
    emit ts (emit us r) = emit (ts ++ us) r := by
  simp [emit]

theorem scan_cons (m : Mode) (c : Char) (cs : List Char) :
    scan m (c :: cs) = emit (next m c).1 (scan (next m c).2 cs) := rfl

theorem scan_append (m : Mode) (as bs : List Char) :
    scan m (as ++ bs) = emit (scan m as).1 (scan (scan m as).2 bs) := by
  induction as generalizing m with
  | nil => rfl
  | cons a as ih =>
    rw [List.cons_append, scan_cons, scan_cons, ih, emit_emit]
    rfl

/-- Reading on from a point that is known. -/
theorem scan_append_of {m m' : Mode} {as : List Char} {ts : List Token} (h : scan m as = (ts, m'))
    (bs : List Char) : scan m (as ++ bs) = emit ts (scan m' bs) := by
  rw [scan_append, h]

section Numerals

/-- A number in decimal. -/
def numeral (n : ℤ) : List Char :=
  if n < 0 then '-' :: Nat.toDigits 10 n.natAbs else Nat.toDigits 10 n.natAbs

/-- The tokens of a number. -/
def numeralTokens (n : ℤ) : List Token :=
  if n < 0 then [.sym '-', .number n.natAbs] else [.number n.natAbs]

theorem first_digit {c : Char} (h : c.isDigit = true) : first c = ([], .number [c]) := by
  have hr : 48 ≤ c.toNat ∧ c.toNat ≤ 57 := by
    simpa [Char.isDigit, UInt32.le_iff_toNat_le] using h
  have hspace : isSpace c = false := by
    simp [isSpace]
    omega
  have hne : ∀ d : Char, ¬ (48 ≤ d.toNat ∧ d.toNat ≤ 57) → c ≠ d := by
    rintro d hd rfl
    exact hd hr
  rw [first, hspace, if_neg (by decide), if_neg, if_neg (hne '-' (by decide)),
    if_neg (hne '/' (by decide)), if_neg (hne '#' (by decide)), if_pos h]
  rintro (rfl | rfl) <;> revert h <;> decide

/-- Digits are collected up to the first character that is none. -/
theorem scan_digits (acc ds : List Char) (hds : ∀ d ∈ ds, d.isDigit = true) {c : Char}
    (hc : c.isDigit = false) (cs : List Char) :
    scan (.number acc) (ds ++ c :: cs) = emit [digits (acc ++ ds)] (scan .start (c :: cs)) := by
  induction ds generalizing acc with
  | nil =>
    have hnext : next (.number acc) c = emit [digits acc] (first c) := if_neg (by simp [hc])
    rw [List.nil_append, List.append_nil, scan_cons, hnext, scan_cons, emit_emit]
    rfl
  | cons d ds ih =>
    have hd := hds d List.mem_cons_self
    rw [List.cons_append, scan_cons, next, hd, if_pos rfl, emit_nil,
      ih _ fun d' hd' => hds d' (List.mem_cons_of_mem d hd'), List.append_assoc]
    rfl

theorem scan_numeral (n : ℤ) {c : Char} (hc : c.isDigit = false) (cs : List Char) :
    scan .start (numeral n ++ c :: cs) = emit (numeralTokens n) (scan .start (c :: cs)) := by
  have hdigits : ∀ d ∈ Nat.toDigits 10 n.natAbs, d.isDigit = true :=
    fun d hd => Nat.isDigit_of_mem_toDigits (by decide) (by decide) hd
  obtain ⟨d, ds, hd⟩ := List.exists_cons_of_ne_nil (Nat.toDigits_ne_nil (n := n.natAbs) (b := 10))
  have hval : digits (d :: ds) = .number n.natAbs := by
    rw [digits, ← hd, Nat.ofDigitChars_ten_toDigits]
  rw [hd] at hdigits
  have hfirst := first_digit (hdigits d List.mem_cons_self)
  have hrest := scan_digits [d] ds (fun d' hd' => hdigits d' (List.mem_cons_of_mem d hd')) hc cs
  rw [List.cons_append, List.nil_append, hval] at hrest
  unfold numeral numeralTokens
  split_ifs
  · have hdash : next .dash d = emit [.sym '-'] (first d) := by
      rw [next, if_neg]
      rintro rfl
      exact absurd (hdigits '-' List.mem_cons_self) (by decide)
    rw [List.cons_append, scan_cons, hd, List.cons_append]
    show scan .dash (d :: (ds ++ c :: cs)) = _
    rw [scan_cons, hdash, hfirst]
    show emit [.sym '-'] (scan (.number [d]) (ds ++ c :: cs)) = _
    rw [hrest, emit_emit]
    rfl
  · rw [hd, List.cons_append, scan_cons, next, hfirst]
    exact hrest

end Numerals

end Sql
