import VisionSensor.Lib.SqlTokens

/-! What is denoted by a text that has been put between quotes: that text only if it is plain.
Adjacent strings are one string, so what counts is the run of strings the text begins with. -/
namespace Sql

def isStr : Token → Bool
  | .str _ => true
  | _ => false

/-- The strings at the front, put together. -/
def run : List Token → List Char
  | .str s :: ts => s ++ run ts
  | _ => []

/-- How long the string is that the reader is in. -/
def pending : Mode → ℕ
  | .text _ acc => acc.length
  | .escaped _ acc => acc.length + 1
  | .quoted _ acc => acc.length
  | _ => 0

/-- The length of the run, with the string the reader is in if that belongs to it. -/
def weight (ts : List Token) (m : Mode) : ℕ :=
  (run ts).length + if ts.all isStr then pending m else 0

/-- No quote, and no backslash but before a wildcard. -/
def Plain (quote : Char) : List Char → Prop
  | [] => True
  | c :: cs =>
      if c = '\\' then
        match cs with
        | [] => False
        | d :: ds => (d = '%' ∨ d = '_') ∧ Plain quote ds
      else c ≠ quote ∧ Plain quote cs

theorem run_append (as bs : List Token) :
    run (as ++ bs) = if as.all isStr then run as ++ run bs else run as := by
  induction as with
  | nil => simp [run]
  | cons a as ih =>
    cases a with
    | str s =>
      rw [List.cons_append, run, ih, List.all_cons, isStr, Bool.true_and, run]
      split_ifs <;> simp
    | word w => simp [run, isStr]
    | number n => simp [run, isStr]
    | sym c => simp [run, isStr]

/-- Tokens without a string at the front add nothing to the run. -/
theorem run_append_of_run_nil (as : List Token) {bs : List Token} (h : run bs = []) :
    run (as ++ bs) = run as := by
  rw [run_append, h, List.append_nil, ite_self]

theorem length_run_append_str (as : List Token) (s : List Char) {bs : List Token}
    (h : run bs = []) :
    (run (as ++ .str s :: bs)).length = (run as).length + if as.all isStr then s.length else 0 := by
  rw [run_append, run, h, List.append_nil]
  split_ifs <;> simp

/-- The first character of a token completes no string and begins an empty one at most. -/
theorem first_spec (c : Char) : run (first c).1 = [] ∧ pending (first c).2 = 0 := by
  unfold first
  split_ifs <;> exact ⟨rfl, rfl⟩

theorem length_escape_le (c : Char) : (escape c).length ≤ 2 := by
  unfold escape
  split_ifs <;> simp

/-- Tokens that do not begin with a string, and a string that has grown by at most one. -/
def Small (m : Mode) (r : List Token × Mode) : Prop := run r.1 = [] ∧ pending r.2 ≤ pending m + 1

theorem small_first (m : Mode) (c : Char) : Small m (first c) :=
  ⟨(first_spec c).1, (first_spec c).2.trans_le (Nat.zero_le _)⟩

theorem small_emit (m : Mode) {t : Token} (ht : isStr t = false) (ts : List Token) (c : Char) :
    Small m (emit (t :: ts) (first c)) := by
  refine ⟨?_, (small_first m c).2⟩
  cases t with
  | str s => cases ht
  | word w => rfl
  | number n => rfl
  | sym d => rfl

/-- What one character can do: a string is completed only behind its quote. -/
theorem next_cases (m : Mode) (c : Char) :
    Small m (next m c) ∨
      ∃ quote acc, m = .quoted quote acc ∧ next m c = emit [.str acc] (first c) := by
  have hskip : ∀ m', pending m' = 0 → Small m ([], m') :=
    fun m' h => ⟨rfl, h.trans_le (Nat.zero_le _)⟩
  cases m with
  | start => exact .inl (small_first _ c)
  | word acc | number acc | dash | slash =>
    left
    simp only [next]
    split_ifs
    · exact hskip _ rfl
    · exact small_emit _ rfl _ c
  | text quote acc =>
    left
    simp only [next]
    split_ifs
    · exact ⟨rfl, Nat.le_succ _⟩
    · exact ⟨rfl, le_rfl⟩
    · exact ⟨rfl, List.length_append.le⟩
  | escaped quote acc =>
    have hlen := length_escape_le c
    refine .inl ⟨rfl, ?_⟩
    simp only [next, pending, List.length_append]
    omega
  | quoted quote acc =>
    simp only [next]
    split_ifs
    · exact .inl ⟨rfl, List.length_append.le⟩
    · exact .inr ⟨quote, acc, rfl, rfl⟩
  | dashes =>
    left
    simp only [next]
    split_ifs
    · exact hskip _ rfl
    · exact hskip _ rfl
    · exact ⟨rfl, Nat.zero_le _⟩
    · exact small_emit _ rfl _ c
  | line | block | star =>
    left
    simp only [next]
    split_ifs <;> exact hskip _ rfl

/-- A character completes no more of the run than the reader has read. -/
theorem length_run_next_le (ts : List Token) (m : Mode) (c : Char) :
    (run (ts ++ (next m c).1)).length ≤ weight ts m := by
  rcases next_cases m c with ⟨hrun, -⟩ | ⟨quote, acc, rfl, hnext⟩
  · rw [run_append_of_run_nil ts hrun]
    exact Nat.le_add_right _ _
  · rw [hnext]
    exact (length_run_append_str ts acc (first_spec c).1).le

/-- A character adds at most one to the weight. -/
theorem weight_next_le (ts : List Token) (m : Mode) (c : Char) :
    weight (ts ++ (next m c).1) (next m c).2 ≤ weight ts m + 1 := by
  rcases next_cases m c with ⟨hrun, hpending⟩ | ⟨quote, acc, rfl, hnext⟩
  · rw [weight, weight, run_append_of_run_nil ts hrun, List.all_append]
    cases ts.all isStr with
    | false => exact Nat.le_succ _
    | true =>
      rw [Bool.true_and, if_pos rfl]
      split_ifs <;> omega
  · have hrun := length_run_next_le ts (.quoted quote acc) c
    rw [hnext] at hrun ⊢
    rw [weight]
    show _ + (if _ then pending (first c).2 else 0) ≤ _
    rw [(first_spec c).2, ite_self]
    exact Nat.le_succ_of_le hrun

theorem weight_scan_le (ts : List Token) (m : Mode) (cs : List Char) :
    weight (ts ++ (scan m cs).1) (scan m cs).2 ≤ weight ts m + cs.length := by
  induction cs generalizing ts m with
  | nil =>
    rw [scan, List.append_nil]
    exact le_rfl
  | cons c cs ih =>
    have hnext := weight_next_le ts m c
    have hrest := ih (ts ++ (next m c).1) (next m c).2
    rw [List.append_assoc] at hrest
    rw [List.length_cons]
    exact hrest.trans (by omega)

/-- The end of the text completes no more of the run than the reader has read. -/
theorem length_run_finish_le (ts : List Token) {m : Mode} {us : List Token}
    (h : finish m = some us) : (run (ts ++ us)).length ≤ weight ts m := by
  have hcases : run us = [] ∨ ∃ quote acc, m = .quoted quote acc ∧ us = [.str acc] := by
    cases m with
    | quoted quote acc => exact .inr ⟨quote, acc, rfl, (Option.some.inj h).symm⟩
    | text quote acc | escaped quote acc | block | star => cases h
    | _ =>
      obtain rfl := Option.some.inj h
      exact .inl rfl
  rcases hcases with hrun | ⟨quote, acc, rfl, rfl⟩
  · rw [run_append_of_run_nil ts hrun]
    exact Nat.le_add_right _ _
  · exact (length_run_append_str ts acc rfl).le

theorem next_text_backslash {quote : Char} (hquote : quote ≠ '\\') (acc : List Char) :
    next (.text quote acc) '\\' = ([], .escaped quote acc) := by
  rw [next, if_neg hquote.symm, if_pos rfl]

theorem next_text {quote c : Char} (hquote : c ≠ quote) (hc : c ≠ '\\') (acc : List Char) :
    next (.text quote acc) c = ([], .text quote (acc ++ [c])) := by
  rw [next, if_neg hquote, if_neg hc]

theorem scan_text_backslash {quote : Char} (hquote : quote ≠ '\\') (acc : List Char) (d : Char)
    (ds : List Char) : scan (.text quote acc) ('\\' :: d :: ds) =
      scan (.text quote (acc ++ escape d)) ds := by
  rw [scan_cons, next_text_backslash hquote, emit_nil, scan_cons]
  rfl

/-- Inside a string, a plain text is read as it is. -/
theorem scan_plain {quote : Char} (hquote : quote ≠ '\\') (acc : List Char) {cs : List Char}
    (h : Plain quote cs) : scan (.text quote acc) cs = ([], .text quote (acc ++ cs)) := by
  fun_induction Plain quote cs generalizing acc with
  | case1 => rw [List.append_nil, scan]
  | case2 => cases h
  | case3 d ds ih =>
    have hescape : escape d = ['\\', d] := if_pos h.1
    rw [scan_text_backslash hquote, ih _ h.2, hescape, List.append_assoc]
    rfl
  | case4 c cs hc ih =>
    rw [scan_cons, next_text h.1 hc, emit_nil, ih _ h.2, List.append_assoc]
    rfl

theorem weight_text (quote : Char) (acc : List Char) : weight [] (.text quote acc) = acc.length :=
  Nat.zero_add _

/-- What is left of a text can bring the string no further than its own length. -/
theorem weight_of_scan_le {m m' : Mode} {cs ds : List Char} (h : scan m cs = scan m' ds) :
    weight (scan m cs).1 (scan m cs).2 ≤ weight [] m' + ds.length := by
  rw [h]
  exact weight_scan_le [] m' ds

/-- A backslash that does not stand in front of a wildcard makes one character of two. -/
theorem length_escape_eq {d : Char} (h : ¬ (d = '%' ∨ d = '_')) : (escape d).length = 1 := by
  unfold escape
  rw [if_neg h]
  split_ifs <;> rfl

/-- A text that is not plain leaves the reader behind what it has read, or behind a backslash. -/
theorem scan_text_cases {quote : Char} (hquote : quote ≠ '\\') (acc cs : List Char) :
    Plain quote cs ∨
      (cs ≠ [] ∧ ∃ acc', scan (.text quote acc) cs = ([], .escaped quote acc')) ∨
      weight (scan (.text quote acc) cs).1 (scan (.text quote acc) cs).2 <
        acc.length + cs.length := by
  fun_induction Plain quote cs generalizing acc with
  | case1 => exact .inl trivial
  | case2 =>
    refine .inr (.inl ⟨by simp, acc, ?_⟩)
    rw [scan_cons, next_text_backslash hquote]
    rfl
  | case3 d ds ih =>
    have hscan := scan_text_backslash hquote acc d ds
    by_cases hd : d = '%' ∨ d = '_'
    · have hescape : escape d = ['\\', d] := if_pos hd
      rw [hscan]
      rcases ih (acc ++ escape d) with hplain | ⟨-, hesc⟩ | hlt
      · exact .inl ⟨hd, hplain⟩
      · exact .inr (.inl ⟨by simp, hesc⟩)
      · rw [hescape] at hlt ⊢
        simp only [List.length_append, List.length_cons, List.length_nil] at hlt ⊢
        omega
    · have hle := weight_of_scan_le hscan
      rw [weight_text, List.length_append, length_escape_eq hd] at hle
      refine .inr (.inr ?_)
      simp only [List.length_cons]
      omega
  | case4 c cs hc ih =>
    by_cases hcq : c = quote
    · have hscan : scan (.text quote acc) (c :: cs) = scan (.quoted quote acc) cs := by
        rw [scan_cons, next, if_pos hcq, emit_nil]
      have hle := weight_of_scan_le hscan
      have hweight : weight [] (.quoted quote acc) = acc.length := Nat.zero_add _
      refine .inr (.inr ?_)
      rw [List.length_cons]
      omega
    · have hscan : scan (.text quote acc) (c :: cs) = scan (.text quote (acc ++ [c])) cs := by
        rw [scan_cons, next_text hcq hc, emit_nil]
      rw [hscan]
      rcases ih (acc ++ [c]) with hplain | ⟨-, hesc⟩ | hlt
      · exact .inl ⟨hcq, hplain⟩
      · exact .inr (.inl ⟨by simp, hesc⟩)
      · refine .inr (.inr ?_)
        simp only [List.length_append, List.length_cons, List.length_nil] at hlt ⊢
        omega

/-- Where a quote leaves the reader: in a string, behind the end of one, or in a comment. -/
theorem next_quote_cases (m : Mode) :
    (∃ quote acc, (next m '\'').2 = .text quote acc) ∨
      (∃ acc, m = .text '\'' acc ∧ next m '\'' = ([], .quoted '\'' acc)) ∨
      (next m '\'').2 = .line ∨ (next m '\'').2 = .block := by
  have hfirst : first '\'' = ([], .text '\'' []) := by decide
  cases m with
  | text quote acc =>
    by_cases hquote : '\'' = quote
    · obtain rfl := hquote
      exact .inr (.inl ⟨acc, rfl, by rw [next, if_pos rfl]⟩)
    · rw [next_text hquote (by decide)]
      exact .inl ⟨_, _, rfl⟩
  | quoted quote acc =>
    simp only [next]
    split_ifs
    · exact .inl ⟨_, _, rfl⟩
    · rw [hfirst]
      exact .inl ⟨_, _, rfl⟩
  | escaped quote acc => exact .inl ⟨_, _, rfl⟩
  | line => exact .inr (.inr (.inl rfl))
  | block | star => exact .inr (.inr (.inr rfl))
  | _ => exact .inl ⟨'\'', [], rfl⟩

/-- The string is still open, but the run before it is too short. -/
def StillOpen (n : ℕ) (r : List Token × Mode) : Prop :=
  (∃ quote acc, r.2 = .text quote acc) ∧ (run r.1).length < n

/-- The string has ended too early, or the rest is taken for a comment. -/
def EndedEarly (n : ℕ) (r : List Token × Mode) : Prop :=
  (∃ acc, r.2 = .quoted '\'' acc ∧ weight r.1 r.2 < n) ∨
    ((r.2 = .line ∨ r.2 = .block) ∧ (run r.1).length < n)

/-- A text between quotes: read as it is, still open behind the second quote, or ended too early. -/
theorem scan_between_quotes (cs : List Char) :
    (Plain '\'' cs ∧ scan (.text '\'' []) (cs ++ ['\'']) = ([], .quoted '\'' cs)) ∨
      StillOpen cs.length (scan (.text '\'' []) (cs ++ ['\''])) ∨
      EndedEarly cs.length (scan (.text '\'' []) (cs ++ ['\''])) := by
  have hquote : scan (.text '\'' []) (cs ++ ['\'']) =
      emit (scan (.text '\'' []) cs).1 (next (scan (.text '\'' []) cs).2 '\'') := by
    rw [scan_append, scan_cons]
    simp [emit, scan]
  rcases scan_text_cases (show '\'' ≠ '\\' by decide) [] cs with hplain | ⟨hne, acc, hesc⟩ | hlt
  · refine .inl ⟨hplain, ?_⟩
    rw [hquote, scan_plain (by decide) [] hplain]
    rfl
  · rw [hquote, hesc]
    exact .inr (.inl ⟨⟨_, _, rfl⟩, List.length_pos_iff.mpr hne⟩)
  · rw [List.length_nil, Nat.zero_add] at hlt
    have hrun := length_run_next_le (scan (.text '\'' []) cs).1 (scan (.text '\'' []) cs).2 '\''
    rw [hquote]
    rcases next_quote_cases (scan (.text '\'' []) cs).2 with htext | ⟨acc, hm, hnext⟩ | hcomment
    · exact .inr (.inl ⟨htext, hrun.trans_lt hlt⟩)
    · refine .inr (.inr (.inl ⟨acc, ?_, ?_⟩))
      · rw [hnext]
        rfl
      · rw [hm] at hlt
        rw [hnext]
        simpa [emit, weight, pending] using hlt
    · exact .inr (.inr (.inr ⟨hcomment, hrun.trans_lt hlt⟩))

end Sql
