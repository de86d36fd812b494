import VisionSensor.Lib.SqlStatement

/-! A text put between quotes in front of more of a statement: if the literal read there is that
text, the text is plain, or the literal went on and ran into a number. -/
namespace Sql

/-- The quote of the string the reader is in. -/
def quoteOf : Mode → Option Char
  | .text quote _ | .escaped quote _ | .quoted quote _ => some quote
  | _ => none

theorem quoteOf_first {c q : Char} (h : quoteOf (first c).2 = some q) : q = '\'' ∨ q = '"' := by
  unfold first at h
  split_ifs at h with hspace hquote
  · cases h
  · obtain rfl := Option.some.inj h
    exact hquote
  all_goals cases h

theorem quoteOf_next {m : Mode} {c q : Char} (h : quoteOf (next m c).2 = some q) :
    q = '\'' ∨ q = '"' ∨ quoteOf m = some q := by
  have hfirst : quoteOf (first c).2 = some q → q = '\'' ∨ q = '"' ∨ quoteOf m = some q :=
    fun h => (quoteOf_first h).imp_right .inl
  cases m with
  | start => exact hfirst h
  | word acc | number acc | dash | slash =>
    simp only [next] at h
    split_ifs at h
    · cases h
    · exact hfirst h
  | dashes =>
    simp only [next] at h
    split_ifs at h
    · cases h
    · cases h
    · cases h
    · exact hfirst h
  | text quote acc =>
    simp only [next] at h
    split_ifs at h <;> exact .inr (.inr h)
  | escaped quote acc => exact .inr (.inr h)
  | quoted quote acc =>
    simp only [next] at h
    split_ifs at h
    · exact .inr (.inr h)
    · exact hfirst h
  | line | block | star =>
    simp only [next] at h
    split_ifs at h <;> cases h

/-- Only the two kinds of quotes open a string. -/
theorem quoteOf_scan {m : Mode} {cs : List Char} {q : Char} (h : quoteOf (scan m cs).2 = some q) :
    q = '\'' ∨ q = '"' ∨ quoteOf m = some q := by
  induction cs generalizing m with
  | nil => exact .inr (.inr h)
  | cons c cs ih =>
    rcases ih (m := (next m c).2) h with hq | hq | hq
    · exact .inl hq
    · exact .inr (.inl hq)
    · exact quoteOf_next hq

theorem plain_of_clear {quote : Char} {cs : List Char} (h : ∀ c ∈ cs, c ≠ quote ∧ c ≠ '\\') :
    Plain quote cs := by
  induction cs with
  | nil => trivial
  | cons c cs ih =>
    obtain ⟨hquote, hslash⟩ := h c List.mem_cons_self
    rw [Plain.eq_def]
    dsimp only
    rw [if_neg hslash]
    exact ⟨hquote, ih fun c' hc' => h c' (List.mem_cons_of_mem c hc')⟩

theorem quote_not_mem_of_plain {cs : List Char} (h : Plain '\'' cs) : '\'' ∉ cs := by
  fun_induction Plain '\'' cs with
  | case1 => exact List.not_mem_nil
  | case2 => cases h
  | case3 d ds ih =>
    rw [List.mem_cons, List.mem_cons, not_or, not_or]
    refine ⟨by decide, ?_, ih h.2⟩
    rintro rfl
    rcases h.1 with h | h <;> cases h
  | case4 c cs hc ih =>
    rw [List.mem_cons, not_or]
    exact ⟨Ne.symm h.1, ih h.2⟩

theorem scan_quoted {quote c : Char} (hc : c ≠ quote) (acc cs : List Char) :
    scan (.quoted quote acc) (c :: cs) = emit [.str acc] (scan .start (c :: cs)) := by
  have hnext : next (.quoted quote acc) c = emit [.str acc] (first c) := if_neg hc
  rw [scan_cons, hnext, scan_cons, emit_emit]
  rfl

/-- A line comment goes on to the end of the line. -/
theorem scan_line {cs : List Char} (h : '\n' ∉ cs) : scan .line cs = ([], .line) := by
  induction cs with
  | nil => rfl
  | cons c cs ih =>
    rw [List.mem_cons, not_or] at h
    have hnext : next .line c = ([], .line) := by
      rw [next, if_neg (Ne.symm h.1)]
    rw [scan_cons, hnext, emit_nil, ih h.2]

theorem scan_block {cs : List Char} (h : '*' ∉ cs) : scan .block cs = ([], .block) := by
  induction cs with
  | nil => rfl
  | cons c cs ih =>
    rw [List.mem_cons, not_or] at h
    have hnext : next .block c = ([], .block) := by
      rw [next, if_neg (Ne.symm h.1)]
    rw [scan_cons, hnext, emit_nil, ih h.2]

theorem numeral_cons (n : ℤ) : ∃ d ds, numeral n = d :: ds ∧ d ≠ '\'' := by
  obtain ⟨d, ds, hd⟩ := List.exists_cons_of_ne_nil (Nat.toDigits_ne_nil (n := n.natAbs) (b := 10))
  unfold numeral
  split_ifs
  · exact ⟨'-', _, rfl, by decide⟩
  · refine ⟨d, ds, hd, ?_⟩
    rintro rfl
    have hdigit : ('\'').isDigit = true :=
      Nat.isDigit_of_mem_toDigits (by decide) (by decide) (hd ▸ List.mem_cons_self)
    cases hdigit

/-- The statement behind a text between quotes: a comma, then up to the next quote nothing special,
and behind that quote a number. There is nothing in it that ends a comment. -/
structure Tail (tail : List Char) : Prop where
  cut : ∃ a b, tail = ',' :: (a ++ b) ∧ '\'' ∉ a ∧
    (b = [] ∨ ∃ n c rest, b = '\'' :: (numeral n ++ c :: rest) ∧ c.isDigit = false)
  harmless : '"' ∉ tail ∧ '\\' ∉ tail ∧ '\n' ∉ tail ∧ '*' ∉ tail

section Quoted

variable {tail cs : List Char} {fin us : List Token}

/-- A string that is still open ends at the next single quote, in front of a number. -/
theorem open_in_tail (ht : Tail tail) {quote : Char} (hquote : quote = '\'' ∨ quote = '"')
    {acc : List Char} (hfin : finish (scan (.text quote acc) tail).2 = some fin) :
    ∃ s n more, (scan (.text quote acc) tail).1 = .str s :: (numeralTokens n ++ more) := by
  obtain ⟨⟨a, b, rfl, ha, hb⟩, hdouble, hslash, -⟩ := ht
  rcases hquote with rfl | rfl
  · have hplain : Plain '\'' (',' :: a) := by
      apply plain_of_clear
      intro c hc
      refine ⟨?_, ?_⟩
      · rintro rfl
        rcases List.mem_cons.mp hc with h | h
        · cases h
        · exact ha h
      · rintro rfl
        exact hslash (List.mem_append_left b hc)
    rw [← List.cons_append, scan_append_of (scan_plain (by decide) acc hplain), emit_nil]
      at hfin ⊢
    rcases hb with rfl | ⟨n, c, rest, rfl, hc⟩
    · cases hfin
    · have hend : next (.text '\'' (acc ++ ',' :: a)) '\'' =
          ([], .quoted '\'' (acc ++ ',' :: a)) := by rw [next, if_pos rfl]
      obtain ⟨d, ds, hd, hne⟩ := numeral_cons n
      rw [scan_cons, hend, emit_nil, hd, List.cons_append, scan_quoted hne, ← List.cons_append,
        ← hd, scan_numeral n hc]
      exact ⟨_, n, _, rfl⟩
  · have hplain : Plain '"' (',' :: (a ++ b)) := by
      apply plain_of_clear
      intro c hc
      refine ⟨?_, ?_⟩
      · rintro rfl
        exact hdouble hc
      · rintro rfl
        exact hslash hc
    rw [scan_plain (by decide) acc hplain] at hfin
    cases hfin

/-- A string that is still open, behind less than the whole text, becomes the text only if it runs
into a number. -/
theorem number_of_open (ht : Tail tail) {ts : List Token} {quote : Char}
    (hquote : quote = '\'' ∨ quote = '"') {acc : List Char} (hshort : (run ts).length < cs.length)
    (hfin : finish (scan (.text quote acc) tail).2 = some fin)
    (hhead : literals (ts ++ (scan (.text quote acc) tail).1 ++ fin) = .str cs :: us) :
    ∃ n vs, us = .number n :: vs := by
  have hrun := run_of_literals hhead
  obtain ⟨str, n, more, htoks⟩ := open_in_tail ht hquote hfin
  simp only [htoks, List.cons_append, List.append_assoc] at hhead hrun
  by_cases hall : ts.all isStr = true
  · rw [literals_strs hall str (literals_numeralTokens n (more ++ fin))] at hhead
    exact ⟨n, _, (List.cons.inj hhead).2.symm⟩
  · rw [run_append, if_neg hall] at hrun
    rw [hrun] at hshort
    exact absurd hshort (Nat.lt_irrefl _)

/-- A string that has ended too early stays too short. -/
theorem length_run_early (ht : Tail tail) {n : ℕ} {r : List Token × Mode} (h : EndedEarly n r)
    (hfin : finish (scan r.2 tail).2 = some fin) :
    (run (r.1 ++ (scan r.2 tail).1 ++ fin)).length < n := by
  obtain ⟨ts, m⟩ := r
  rcases h with ⟨acc, hm, hweight⟩ | ⟨hm | hm, hshort⟩
  · obtain rfl : m = .quoted '\'' acc := hm
    obtain ⟨⟨a, b, rfl, -⟩, -⟩ := ht
    have hcomma : scan .start (',' :: (a ++ b)) = emit [.sym ','] (scan .start (a ++ b)) := rfl
    rw [scan_quoted (by decide), hcomma]
    simp only [emit, List.cons_append, List.nil_append, List.append_assoc]
    exact (length_run_append_str ts acc rfl).trans_lt hweight
  · obtain rfl : m = .line := hm
    rw [scan_line ht.harmless.2.2.1] at hfin ⊢
    obtain rfl := Option.some.inj hfin
    rw [List.append_nil, List.append_nil]
    exact hshort
  · obtain rfl : m = .block := hm
    rw [scan_block ht.harmless.2.2.2] at hfin
    cases hfin

/-- If the literal read from between the quotes is the text put there, the text is plain or a
number follows the literal. -/
theorem plain_or_number (ht : Tail tail)
    (hfin : finish (scan (.text '\'' []) (cs ++ '\'' :: tail)).2 = some fin)
    (hhead : literals ((scan (.text '\'' []) (cs ++ '\'' :: tail)).1 ++ fin) = .str cs :: us) :
    Plain '\'' cs ∨ ∃ n vs, us = .number n :: vs := by
  have hsplit : cs ++ '\'' :: tail = (cs ++ ['\'']) ++ tail := by simp
  have hquote : ∀ q, quoteOf (scan (.text '\'' []) (cs ++ ['\''])).2 = some q →
      q = '\'' ∨ q = '"' ∨ some '\'' = some q := fun q => quoteOf_scan
  rw [hsplit, scan_append] at hfin hhead
  rcases scan_between_quotes cs with ⟨hplain, -⟩ | ⟨⟨quote, acc, hopen⟩, hshort⟩ | hearly
  · exact .inl hplain
  · have hkind : quote = '\'' ∨ quote = '"' := by
      rcases hquote quote (by rw [hopen, quoteOf]) with h | h | h
      · exact .inl h
      · exact .inr h
      · exact .inl (Option.some.inj h).symm
    rw [hopen] at hfin hhead
    exact .inr (number_of_open ht hkind hshort hfin hhead)
  · have hrun := run_of_literals hhead
    have hlen := length_run_early ht hearly hfin
    rw [emit] at hrun
    rw [hrun] at hlen
    exact absurd hlen (Nat.lt_irrefl _)

end Quoted

section Inside

/-- The literals of a text that begins inside a string. -/
def inText (body : List Char) : Option (List Token) :=
  (finish (scan (.text '\'' []) body).2).map fun fin =>
    literals ((scan (.text '\'' []) body).1 ++ fin)

theorem parse_of_scan {cs : List Char} {ts : List Token}
    (h : scan .start cs = (ts, .text '\'' [])) (body : List Char) :
    parse (cs ++ body) = (inText body).bind fun us => statement (ts.foldr glue us) := by
  rw [parse, tokens, scan_append_of h, inText]
  simp only [emit]
  cases finish (scan (.text '\'' []) body).2 with
  | none => rfl
  | some fin =>
    simp only [Option.map_some, Option.bind_some, List.append_assoc, literals_append]

/-- The literal at the front of what is read is no longer than the text. -/
theorem length_le_of_inText {body d : List Char} {us : List Token}
    (h : inText body = some (.str d :: us)) : d.length ≤ body.length := by
  obtain ⟨fin, hfin, hliterals⟩ := Option.map_eq_some_iff.mp h
  have hweight := weight_scan_le [] (.text '\'' []) body
  have hlength := length_run_finish_le (scan (.text '\'' []) body).1 hfin
  rw [run_of_literals hliterals] at hlength
  rw [List.nil_append, weight_text, List.length_nil, Nat.zero_add] at hweight
  exact hlength.trans hweight

/-- From inside a string, the first token that is completed is a string. -/
theorem scan_in_string {m : Mode} (hm : (quoteOf m).isSome) (cs : List Char) :
    ((scan m cs).1 = [] ∧ (quoteOf (scan m cs).2).isSome) ∨
      ∃ s ts, (scan m cs).1 = .str s :: ts := by
  induction cs generalizing m with
  | nil => exact .inl ⟨rfl, hm⟩
  | cons c cs ih =>
    have hstay : ∀ m', next m c = ([], m') → (quoteOf m').isSome →
        ((scan m (c :: cs)).1 = [] ∧ (quoteOf (scan m (c :: cs)).2).isSome) ∨
          ∃ s ts, (scan m (c :: cs)).1 = .str s :: ts := by
      intro m' hnext hm'
      rw [scan_cons, hnext, emit_nil]
      exact ih hm'
    cases m with
    | text quote acc =>
      by_cases hquote : c = quote
      · exact hstay _ (if_pos hquote) rfl
      · by_cases hslash : c = '\\'
        · exact hstay (.escaped quote acc) (by rw [next, if_neg hquote, if_pos hslash]) rfl
        · exact hstay _ (next_text hquote hslash acc) rfl
    | escaped quote acc => exact hstay _ rfl rfl
    | quoted quote acc =>
      by_cases hquote : c = quote
      · exact hstay _ (if_pos hquote) rfl
      · rw [scan_quoted hquote]
        exact .inr ⟨acc, _, rfl⟩
    | _ => cases hm

theorem literals_head_str (s : List Char) (ts : List Token) :
    ∃ d us, literals (.str s :: ts) = .str d :: us := by
  have hglue : literals (.str s :: ts) = glue (.str s) (literals ts) := rfl
  rw [hglue]
  cases literals ts with
  | nil => exact ⟨s, [], rfl⟩
  | cons u us =>
    cases u with
    | str d => exact ⟨s ++ d, us, rfl⟩
    | word w | number n | sym c => exact ⟨s, _, rfl⟩

theorem inText_head {body : List Char} {us : List Token} (h : inText body = some us) :
    ∃ d vs, us = .str d :: vs := by
  obtain ⟨fin, hfin, rfl⟩ := Option.map_eq_some_iff.mp h
  rcases scan_in_string (show (quoteOf (.text '\'' [])).isSome from rfl) body with
    ⟨hnil, hstring⟩ | ⟨s, ts, hts⟩
  · rw [hnil, List.nil_append]
    cases hm : (scan (.text '\'' []) body).2 with
    | quoted quote acc =>
      rw [hm] at hfin
      obtain rfl := Option.some.inj hfin
      exact literals_head_str acc []
    | text quote acc | escaped quote acc =>
      rw [hm] at hfin
      cases hfin
    | _ =>
      rw [hm] at hstring
      cases hstring
  · rw [hts]
    exact literals_head_str s _

/-- A string that is read up to the quote in front of a piece that is read on its own. -/
theorem scan_between {cs d piece : List Char} (h : scan (.text '\'' []) cs = ([], .text '\'' d))
    (hpiece : piece.head? = some ',') {ts : List Token} {m : Mode}
    (hscan : scan .start piece = (ts, m)) (rest : List Char) :
    scan (.text '\'' []) (cs ++ '\'' :: (piece ++ rest)) = emit (.str d :: ts) (scan m rest) := by
  obtain ⟨more, rfl⟩ := List.head?_eq_some_iff.mp hpiece
  have hquote : next (.text '\'' d) '\'' = ([], .quoted '\'' d) := by rw [next, if_pos rfl]
  rw [scan_append_of h, emit_nil, scan_cons, hquote, emit_nil, List.cons_append,
    scan_quoted (by decide), ← List.cons_append, scan_append_of hscan, emit_emit]
  rfl

/-- Without a quote in it, a text leaves the string open, or its last backslash waits. -/
theorem scan_clear {cs : List Char} (h : '\'' ∉ cs) :
    ∃ d, scan (.text '\'' []) cs = ([], .text '\'' d) ∨
      scan (.text '\'' []) cs = ([], .escaped '\'' d) := by
  suffices hmodes : ∀ m acc, m = .text '\'' acc ∨ m = .escaped '\'' acc →
      ∃ d, scan m cs = ([], .text '\'' d) ∨ scan m cs = ([], .escaped '\'' d) from
    hmodes _ [] (.inl rfl)
  intro m acc hm
  induction cs generalizing m acc with
  | nil => exact ⟨acc, hm.imp (fun h => by rw [h, scan]) fun h => by rw [h, scan]⟩
  | cons c cs ih =>
    rw [List.mem_cons, not_or] at h
    rcases hm with rfl | rfl
    · by_cases hslash : c = '\\'
      · rw [hslash, scan_cons, next_text_backslash (by decide), emit_nil]
        exact ih h.2 _ acc (.inr rfl)
      · rw [scan_cons, next_text (Ne.symm h.1) hslash, emit_nil]
        exact ih h.2 _ _ (.inl rfl)
    · exact ih h.2 _ _ (.inl rfl)

/-- A backslash in front of the quote keeps the string open, up to a number. -/
theorem inText_of_escaped {tail cs d : List Char} (ht : Tail tail)
    (h : scan (.text '\'' []) cs = ([], .escaped '\'' d)) {us : List Token}
    (hus : inText (cs ++ '\'' :: tail) = some us) : ∃ s n vs, us = .str s :: .number n :: vs := by
  obtain ⟨fin, hfin, rfl⟩ := Option.map_eq_some_iff.mp hus
  have hscan : scan (.text '\'' []) (cs ++ '\'' :: tail) =
      scan (.text '\'' (d ++ ['\''])) tail := by
    rw [scan_append_of h, emit_nil, scan_cons]
    rfl
  rw [hscan] at hfin ⊢
  obtain ⟨s, n, more, htoks⟩ := open_in_tail ht (.inl rfl) hfin
  rw [htoks, List.cons_append, List.append_assoc, literals_str (literals_numeralTokens _ _) rfl]
  exact ⟨s, n, _, rfl⟩

end Inside

end Sql
