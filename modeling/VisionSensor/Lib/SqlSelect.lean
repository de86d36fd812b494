import Mathlib.Data.List.Sort
import VisionSensor.Lib.SqlQuoting

/-! `SELECT` from one table, with equations as the condition and perhaps an order: how it is read,
which rows it gives, and what can stand between the quotes of a value in it. -/
namespace Sql

/-- Names with commas between them. -/
def nameList : List Token → Option (List (List Char) × List Token)
  | .word w :: ts =>
      match ts with
      | .sym c :: us => if c = ',' then (nameList us).map fun r => (w :: r.1, r.2) else none
      | us => some ([w], us)
  | _ => none

/-- Equations with `AND` between them. -/
def equations : List Token → Option (List (List Char × Value) × List Token)
  | .word w :: .sym e :: t :: ts =>
      if e = '=' then
        t.value.bind fun v =>
          match ts with
          | .word a :: us =>
              if isKeyword a "and" then (equations us).map fun r => ((w, v) :: r.1, r.2)
              else some ([(w, v)], .word a :: us)
          | us => some ([(w, v)], us)
      else none
  | _ => none

structure Select where
  columns : List (List Char)
  table : List Char
  conditions : List (List Char × Value)
  order : List (List Char) := []
  deriving DecidableEq, Repr

/-- The end of a `SELECT`, behind the equations. -/
def orderBy : List Token → Option (List (List Char))
  | [] => some []
  | .word o :: .word b :: ts =>
      if isKeyword o "order" && isKeyword b "by" then
        (nameList ts).bind fun r => if r.2 = [] then some r.1 else none
      else none
  | _ => none

/-- The rest of a `SELECT`, behind the columns. -/
def selectRest (columns : List (List Char)) : List Token → Option Select
  | .word f :: .word table :: .word w :: ts =>
      if isKeyword f "from" && isKeyword w "where" then
        (equations ts).bind fun r => (orderBy r.2).map fun order => ⟨columns, table, r.1, order⟩
      else none
  | _ => none

def select : List Token → Option Select
  | .word s :: ts =>
      if isKeyword s "select" then (nameList ts).bind fun r => selectRest r.1 r.2 else none
  | _ => none

def query (cs : List Char) : Option Select :=
  (tokens cs).bind fun ts => select (literals ts)

example : query "select a, b from t where c = 'it''s' and d = -2 order by b".toList =
    some ⟨["a".toList, "b".toList], "t".toList,
      [("c".toList, .str "it's".toList), ("d".toList, .num (-2))], ["b".toList]⟩ := by
  decide +kernel

section Rows

variable {Row : Type*}

/-- A query whose columns have been looked up. -/
structure Plan (Row : Type*) where
  columns : List (Row → Value)
  conditions : List ((Row → Value) × Value)
  order : List (Row → Value)

/-- The columns of a query, by their names. -/
def Select.plan (column : List Char → Option (Row → Value)) (q : Select) : Option (Plan Row) := do
  let columns ← q.columns.mapM column
  let conditions ← q.conditions.mapM fun e => (column e.1).map fun c => (c, e.2)
  let order ← q.order.mapM column
  some ⟨columns, conditions, order⟩

/-- The order of the values of one column. -/
def Value.Lt : Value → Value → Prop
  | .num m, .num n => m < n
  | .str s, .str t => s < t
  | _, _ => False

instance : DecidableRel Value.Lt := fun v w => by
  cases v <;> cases w <;> unfold Value.Lt <;> infer_instance

/-- The first of the columns in which two rows differ decides. -/
def InOrder : List (Row → Value) → Row → Row → Prop
  | [], _, _ => True
  | c :: cs, r, s => (c r).Lt (c s) ∨ (c r = c s ∧ InOrder cs r s)

instance decidableInOrder : (cs : List (Row → Value)) → DecidableRel (InOrder cs)
  | [] => fun _ _ => inferInstanceAs (Decidable True)
  | _ :: cs => fun r s =>
      have := decidableInOrder cs r s
      inferInstanceAs (Decidable (_ ∨ (_ ∧ _)))

/-- The rows a query gives, before they are cut down to its columns. -/
def Plan.rows (p : Plan Row) (table : List Row) : List Row :=
  (table.filter fun r => p.conditions.all fun e => e.1 r == e.2).insertionSort (InOrder p.order)

/-- Without an order the rows come as they are. -/
theorem insertionSort_nil (rows : List Row) : rows.insertionSort (InOrder []) = rows := by
  induction rows with
  | nil => rfl
  | cons r rows ih =>
    rw [List.insertionSort_cons, ih]
    cases rows with
    | nil => rfl
    | cons s rows => exact List.orderedInsert_cons_of_le _ _ trivial

end Rows

section Numerals

/-- Where a space ends the token, so does the end of the text. -/
theorem finish_of_space {m : Mode} {ts : List Token} (h : next m ' ' = (ts, .start)) :
    finish m = some ts := by
  cases m with
  | text quote acc =>
    simp only [next] at h
    split_ifs at h <;> cases h
  | quoted quote acc =>
    simp only [next] at h
    split_ifs at h
    · cases h
    · cases h
      rfl
  | start | word acc | number acc | dash | slash =>
    cases h
    rfl
  | escaped quote acc | dashes | line | block | star => cases h

/-- A number at the end of the text. -/
theorem tokens_numeral (n : ℤ) : tokens (numeral n) = some (numeralTokens n) := by
  have hspace := scan_numeral n (show ' '.isDigit = false by decide) []
  rw [scan_append, scan_cons] at hspace
  obtain ⟨htokens, hmode⟩ := Prod.mk.inj hspace
  simp only [emit, scan, List.append_nil] at htokens hmode
  have hfinish := finish_of_space (Prod.ext rfl hmode)
  rw [tokens, hfinish, Option.map_some, htokens]
  exact congrArg some (List.append_nil _)

theorem tokens_append_of {as : List Char} {ts : List Token} (h : scan .start as = (ts, .start))
    (bs : List Char) : tokens (as ++ bs) = (tokens bs).map fun us => ts ++ us := by
  rw [tokens, tokens, scan_append_of h]
  simp only [emit]
  cases finish (scan .start bs).2 with
  | none => rfl
  | some fin => simp only [Option.map_some, List.append_assoc]

end Numerals

/-- The statement behind a text between quotes, which ends, or goes on, where no string begins; a
string that is open in front of it stays so. -/
structure Closing (tail : List Char) : Prop where
  unquoted : tail.head? ≠ some '\''
  start : ∀ fin, finish (scan .start tail).2 = some fin → run ((scan .start tail).1 ++ fin) = []
  unclosed : ∀ quote acc, quote = '\'' ∨ quote = '"' → finish (scan (.text quote acc) tail).2 = none
  harmless : '\n' ∉ tail ∧ '*' ∉ tail

section Quoted

theorem plain_of_all {quote : Char} {cs : List Char}
    (h : (cs.all fun c => c != quote && c != '\\') = true) : Plain quote cs := by
  apply plain_of_clear
  intro c hc
  have hclear := List.all_eq_true.mp h c hc
  rw [Bool.and_eq_true, bne_iff_ne, bne_iff_ne] at hclear
  exact hclear

variable {tail cs : List Char} {fin us : List Token}

/-- A string that is open in front of two single quotes, where the second begins a string that the
text ends in. -/
theorem unclosed_of_split (a b : List Char) {c : Char} (hsplit : tail = a ++ '\'' :: c :: b)
    (ha : (a.all fun c => c != '\'' && c != '\\') = true) (hc : c ≠ '\'')
    (hb : finish (scan .start (c :: b)).2 = none)
    (htail : '"' ∉ tail ∧ '\\' ∉ tail) {quote : Char} (acc : List Char)
    (hquote : quote = '\'' ∨ quote = '"') : finish (scan (.text quote acc) tail).2 = none := by
  rcases hquote with rfl | rfl
  · have hend : next (.text '\'' (acc ++ a)) '\'' = ([], .quoted '\'' (acc ++ a)) := by
      rw [next, if_pos rfl]
    rw [hsplit, scan_append_of (scan_plain (by decide) acc (plain_of_all ha)), emit_nil, scan_cons,
      hend, emit_nil, scan_quoted hc]
    exact hb
  · have hplain : Plain '"' tail := by
      apply plain_of_clear
      intro c hc
      refine ⟨?_, ?_⟩
      · rintro rfl
        exact htail.1 hc
      · rintro rfl
        exact htail.2 hc
    rw [scan_plain (by decide) acc hplain]
    rfl

/-- A string that has ended too early stays too short. -/
theorem length_run_closing (ht : Closing tail) {n : ℕ} {r : List Token × Mode}
    (h : EndedEarly n r) (hfin : finish (scan r.2 tail).2 = some fin) :
    (run (r.1 ++ (scan r.2 tail).1 ++ fin)).length < n := by
  obtain ⟨ts, m⟩ := r
  rcases h with ⟨acc, hm, hweight⟩ | ⟨hm | hm, hshort⟩
  · obtain rfl : m = .quoted '\'' acc := hm
    cases tail with
    | nil =>
      have hle := length_run_finish_le ts hfin
      rw [scan, List.append_nil]
      exact hle.trans_lt hweight
    | cons c tail =>
      have hc : c ≠ '\'' := fun h => ht.unquoted (congrArg some h)
      rw [scan_quoted hc] at hfin ⊢
      have hstart := ht.start fin hfin
      simp only [emit, List.cons_append, List.nil_append, List.append_assoc]
      exact (length_run_append_str ts acc hstart).trans_lt hweight
  · obtain rfl : m = .line := hm
    rw [scan_line ht.harmless.1] at hfin ⊢
    obtain rfl := Option.some.inj hfin
    rw [List.append_nil, List.append_nil]
    exact hshort
  · obtain rfl : m = .block := hm
    rw [scan_block ht.harmless.2] at hfin
    cases hfin

/-- If the literal read from between the quotes is the text put there, the text is plain. -/
theorem plain_of_closing (ht : Closing tail)
    (h : inText (cs ++ '\'' :: tail) = some (.str cs :: us)) : Plain '\'' cs := by
  obtain ⟨fin, hfin, hhead⟩ := Option.map_eq_some_iff.mp h
  have hsplit : cs ++ '\'' :: tail = (cs ++ ['\'']) ++ tail := by simp
  rw [hsplit, scan_append] at hfin hhead
  rcases scan_between_quotes cs with ⟨hplain, -⟩ | ⟨⟨quote, acc, hopen⟩, -⟩ | hearly
  · exact hplain
  · have hkind : quote = '\'' ∨ quote = '"' := by
      have hquote : quoteOf (scan (.text '\'' []) (cs ++ ['\''])).2 = some quote := by
        rw [hopen, quoteOf]
      rcases quoteOf_scan hquote with h | h | h
      · exact .inl h
      · exact .inr h
      · exact .inl (Option.some.inj h).symm
    have hnone := ht.unclosed quote acc hkind
    rw [hopen] at hfin
    cases hnone.symm.trans hfin
  · have hrun := run_of_literals hhead
    have hlen := length_run_closing ht hearly hfin
    rw [emit] at hrun
    rw [hrun] at hlen
    exact absurd hlen (Nat.lt_irrefl _)

/-- A plain text is the string, and behind it comes what is read from the start. -/
theorem inText_plain (h : Plain '\'' cs) {c : Char} {tail : List Char} (hc : c ≠ '\'')
    {ts : List Token} {t : Token} (hts : tokens (c :: tail) = some ts)
    (hus : literals ts = t :: us) (ht : isStr t = false) :
    inText (cs ++ '\'' :: c :: tail) = some (.str cs :: t :: us) := by
  obtain ⟨fin, hfin, rfl⟩ := Option.map_eq_some_iff.mp hts
  have hquote : next (.text '\'' cs) '\'' = ([], .quoted '\'' cs) := by rw [next, if_pos rfl]
  have hscan : scan (.text '\'' []) (cs ++ '\'' :: c :: tail) =
      emit [.str cs] (scan .start (c :: tail)) := by
    rw [scan_append_of (scan_plain (by decide) [] h), List.nil_append, emit_nil, scan_cons, hquote,
      emit_nil, scan_quoted hc]
  rw [inText, hscan]
  simp only [emit, List.cons_append, List.nil_append, hfin, Option.map_some]
  rw [literals_str hus ht]

/-- At the end of the statement the string is all there is. -/
theorem inText_plain_end (h : Plain '\'' cs) : inText (cs ++ ['\'']) = some [.str cs] := by
  have hquote : next (.text '\'' cs) '\'' = ([], .quoted '\'' cs) := by rw [next, if_pos rfl]
  rw [inText, scan_append_of (scan_plain (by decide) [] h), List.nil_append, emit_nil, scan_cons,
    hquote]
  rfl

theorem query_of_scan {ts : List Token} (h : scan .start cs = (ts, .text '\'' []))
    (body : List Char) :
    query (cs ++ body) = (inText body).bind fun us => select (ts.foldr glue us) := by
  rw [query, tokens, scan_append_of h, inText]
  simp only [emit]
  cases finish (scan (.text '\'' []) body).2 with
  | none => rfl
  | some fin =>
    simp only [Option.map_some, Option.bind_some, List.append_assoc, literals_append]

/-- Equations begin with one. -/
theorem equations_head {c : List Char} {t : Token} {ts rest : List Token}
    {es : List (List Char × Value)}
    (h : equations (.word c :: .sym '=' :: t :: ts) = some (es, rest)) :
    ∃ v more, t.value = some v ∧ es = (c, v) :: more := by
  rw [equations.eq_def] at h
  simp only [reduceIte] at h
  obtain ⟨v, hv, hmore⟩ := Option.bind_eq_some_iff.mp h
  refine ⟨v, ?_⟩
  split at hmore
  · split_ifs at hmore
    · obtain ⟨r, -, hcons⟩ := Option.map_eq_some_iff.mp hmore
      exact ⟨r.1, hv, (Prod.mk.inj hcons).1.symm⟩
    · exact ⟨[], hv, (Prod.mk.inj (Option.some.inj hmore)).1.symm⟩
  · exact ⟨[], hv, (Prod.mk.inj (Option.some.inj hmore)).1.symm⟩

theorem selectRest_spec {columns : List (List Char)} {f table w : List Char} {ts : List Token}
    {q : Select} (h : selectRest columns (.word f :: .word table :: .word w :: ts) = some q) :
    ∃ rest, equations ts = some (q.conditions, rest) := by
  simp only [selectRest] at h
  split_ifs at h
  obtain ⟨r, hr, horder⟩ := Option.bind_eq_some_iff.mp h
  obtain ⟨order, -, rfl⟩ := Option.map_eq_some_iff.mp horder
  exact ⟨r.2, hr⟩

end Quoted

end Sql
