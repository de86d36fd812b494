import VisionSensor.Lib.SqlLiteral

/-! The two statements that change rows, as far as their values are literals: `INSERT INTO` a table
with columns and one row of values, and `UPDATE` with assignments and one equation as condition. -/
namespace Sql

/-- A token put in front of literals: adjacent strings are one string, and a minus in front of a
number belongs to it. -/
def glue : Token → List Token → List Token
  | .str s, us =>
      match us with
      | .str t :: us => .str (s ++ t) :: us
      | us => .str s :: us
  | .sym c, us =>
      if c = '-' then
        match us with
        | .number n :: us => .number (-n) :: us
        | us => .sym c :: us
      else .sym c :: us
  | t, us => t :: us

def literals (ts : List Token) : List Token := ts.foldr glue []

inductive Value where
  | num (n : ℤ)
  | str (s : List Char)
  deriving DecidableEq, Repr

def Token.value : Token → Option Value
  | .number n => some (.num n)
  | .str s => some (.str s)
  | _ => none

def isKeyword (w : List Char) (keyword : String) : Bool := w.map Char.toLower == keyword.toList

/-- Names up to a closing parenthesis. -/
def names : List Token → Option (List (List Char) × List Token)
  | .word w :: .sym c :: ts =>
      if c = ',' then (names ts).map fun r => (w :: r.1, r.2)
      else if c = ')' then some ([w], ts)
      else none
  | _ => none

/-- Values up to a closing parenthesis. -/
def values : List Token → Option (List Value × List Token)
  | t :: .sym c :: ts =>
      t.value.bind fun v =>
        if c = ',' then (values ts).map fun r => (v :: r.1, r.2)
        else if c = ')' then some ([v], ts)
        else none
  | _ => none

/-- Assignments up to one that no comma follows. -/
def assignments : List Token → Option (List (List Char × Value) × List Token)
  | .word w :: .sym e :: t :: ts =>
      if e = '=' then
        t.value.bind fun v =>
          match ts with
          | .sym c :: us =>
              if c = ',' then (assignments us).map fun r => ((w, v) :: r.1, r.2) else none
          | us => some ([(w, v)], us)
      else none
  | _ => none

inductive Statement where
  | insert (table : List Char) (columns : List (List Char)) (row : List Value)
  | update (table : List Char) (sets : List (List Char × Value)) (column : List Char) (key : Value)
  deriving DecidableEq, Repr

/-- The rest of an `INSERT`, behind the opening parenthesis of the columns. -/
def insertRest (table : List Char) (ts : List Token) : Option Statement :=
  (names ts).bind fun r =>
    match r.2 with
    | .word w :: .sym '(' :: us =>
        if isKeyword w "values" then
          (values us).bind fun v => if v.2 = [] then some (.insert table r.1 v.1) else none
        else none
    | _ => none

/-- The rest of an `UPDATE`, behind `SET`. -/
def updateRest (table : List Char) (ts : List Token) : Option Statement :=
  (assignments ts).bind fun r =>
    match r.2 with
    | [.word w, .word column, .sym '=', t] =>
        if isKeyword w "where" then t.value.map fun v => .update table r.1 column v else none
    | _ => none

def statement : List Token → Option Statement
  | .word a :: .word b :: .word c :: ts =>
      if isKeyword a "insert" && isKeyword b "into" then
        match ts with
        | .sym '(' :: us => insertRest c us
        | _ => none
      else if isKeyword a "update" && isKeyword c "set" then updateRest b ts
      else none
  | _ => none

def parse (cs : List Char) : Option Statement :=
  (tokens cs).bind fun ts => statement (literals ts)

example : parse "update t set a = 'it''s', b = -2 where c = '7'".toList =
    some (.update "t".toList [("a".toList, .str "it's".toList), ("b".toList, .num (-2))] "c".toList
      (.str "7".toList)) := by
  decide +kernel

theorem literals_append (as bs : List Token) : literals (as ++ bs) = as.foldr glue (literals bs) :=
  List.foldr_append

theorem literals_sym {c : Char} (hc : c ≠ '-') (ts : List Token) :
    literals (.sym c :: ts) = .sym c :: literals ts := if_neg hc

/-- A string in front of a token that is no string stays by itself. -/
theorem literals_str {s : List Char} {ts us : List Token} {t : Token} (h : literals ts = t :: us)
    (ht : isStr t = false) : literals (.str s :: ts) = .str s :: t :: us := by
  show glue (.str s) (literals ts) = _
  rw [h]
  cases t with
  | str s => cases ht
  | word w => rfl
  | number n => rfl
  | sym c => rfl

/-- A number is one literal, with its sign. -/
theorem glue_numeralTokens (n : ℤ) (us : List Token) :
    (numeralTokens n).foldr glue us = .number n :: us := by
  unfold numeralTokens
  split_ifs with hneg
  · show Token.number (-(n.natAbs : ℤ)) :: us = _
    rw [show -(n.natAbs : ℤ) = n by omega]
  · show Token.number (n.natAbs : ℤ) :: us = _
    rw [show (n.natAbs : ℤ) = n by omega]

theorem literals_numeralTokens (n : ℤ) (ts : List Token) :
    literals (numeralTokens n ++ ts) = .number n :: literals ts := by
  rw [literals_append, glue_numeralTokens]

/-- The string that literals begin with, if they do. -/
def leading : List Token → List Char
  | .str d :: _ => d
  | _ => []

theorem leading_glue_str (s : List Char) (us : List Token) :
    leading (glue (.str s) us) = s ++ leading us := by
  cases us with
  | nil => exact (List.append_nil s).symm
  | cons u us =>
    cases u with
    | str d => rfl
    | word w | number n | sym c => exact (List.append_nil s).symm

theorem leading_glue_sym (c : Char) (us : List Token) : leading (glue (.sym c) us) = [] := by
  cases us with
  | nil => by_cases hc : c = '-' <;> simp [glue, leading, hc]
  | cons u us => cases u <;> by_cases hc : c = '-' <;> simp [glue, leading, hc]

/-- The strings at the front are what the literals begin with. -/
theorem run_eq_leading (ts : List Token) : run ts = leading (literals ts) := by
  induction ts with
  | nil => rfl
  | cons t ts ih =>
    cases t with
    | str s =>
      rw [run, ih]
      exact (leading_glue_str s _).symm
    | sym c => exact (leading_glue_sym c _).symm
    | word w | number n => rfl

theorem run_of_literals {ts us : List Token} {d : List Char} (h : literals ts = .str d :: us) :
    run ts = d := by
  rw [run_eq_leading, h]
  rfl

/-- Strings in front of a number are one string. -/
theorem literals_strs {as ts us : List Token} (has : as.all isStr = true) (s : List Char) {n : ℤ}
    (h : literals ts = .number n :: us) :
    literals (as ++ .str s :: ts) = .str (run as ++ s) :: .number n :: us := by
  induction as with
  | nil => exact literals_str h rfl
  | cons a as ih =>
    rw [List.all_cons, Bool.and_eq_true] at has
    cases a with
    | str d =>
      show glue (.str d) (literals (as ++ .str s :: ts)) = _
      rw [ih has.2, run, List.append_assoc]
      rfl
    | word w => cases has.1
    | number n => cases has.1
    | sym c => cases has.1

section Heads

/-- Values begin with one, and a symbol behind it. -/
theorem values_head {us rest : List Token} {vs : List Value} (h : values us = some (vs, rest)) :
    ∃ t c ts v ws, us = t :: .sym c :: ts ∧ t.value = some v ∧ vs = v :: ws := by
  cases us with
  | nil => cases h
  | cons t us =>
    cases us with
    | nil => cases h
    | cons u us =>
      cases u with
      | word w | number n | str s => cases h
      | sym c =>
        obtain ⟨v, hv, hrest⟩ := Option.bind_eq_some_iff.mp h
        refine ⟨t, c, us, v, ?_⟩
        split_ifs at hrest with hcomma hclose
        · obtain ⟨r, hr, hcons⟩ := Option.map_eq_some_iff.mp hrest
          exact ⟨r.1, rfl, hv, (Prod.mk.inj hcons).1.symm⟩
        · exact ⟨[], rfl, hv, (Prod.mk.inj (Option.some.inj hrest)).1.symm⟩

/-- Assignments begin with one, and behind it comes a comma, or what they leave. -/
theorem assignments_head {c : List Char} {us rest : List Token}
    {sets : List (List Char × Value)}
    (h : assignments (.word c :: .sym '=' :: us) = some (sets, rest)) :
    ∃ t ts v more, us = t :: ts ∧ t.value = some v ∧ sets = (c, v) :: more ∧
      ((∃ ts', ts = .sym ',' :: ts') ∨ ts = rest) := by
  cases us with
  | nil => cases h
  | cons t ts =>
    rw [assignments, if_pos rfl] at h
    obtain ⟨v, hv, hmore⟩ := Option.bind_eq_some_iff.mp h
    refine ⟨t, ts, v, ?_⟩
    split at hmore
    · split_ifs at hmore with hcomma
      obtain ⟨r, hr, hcons⟩ := Option.map_eq_some_iff.mp hmore
      exact ⟨r.1, rfl, hv, (Prod.mk.inj hcons).1.symm, .inl ⟨_, by rw [hcomma]⟩⟩
    · obtain ⟨hsets, hrest⟩ := Prod.mk.inj (Option.some.inj hmore)
      exact ⟨[], rfl, hv, hsets.symm, .inr hrest⟩

theorem updateRest_spec {table : List Char} {ts : List Token} {s : Statement}
    (h : updateRest table ts = some s) :
    ∃ sets column key w us, s = .update table sets column key ∧
      assignments ts = some (sets, .word w :: us) := by
  obtain ⟨⟨sets, rest⟩, hsets, hrest⟩ := Option.bind_eq_some_iff.mp h
  dsimp only at hrest
  split at hrest
  · split_ifs at hrest
    obtain ⟨v, -, hv⟩ := Option.map_eq_some_iff.mp hrest
    exact ⟨sets, _, v, _, _, hv.symm, hsets⟩
  · cases hrest

/-- Behind a number no `UPDATE` goes on. -/
theorem updateRest_number (table c s : List Char) (n : ℤ) (vs : List Token) :
    updateRest table (.word c :: .sym '=' :: .str s :: .number n :: vs) = none := by
  rw [Option.eq_none_iff_forall_ne_some]
  intro u h
  obtain ⟨sets, column, key, w, us, -, hsets⟩ := updateRest_spec h
  obtain ⟨t, ts, v, more, hcons, -, -, hbehind⟩ := assignments_head hsets
  obtain ⟨-, rfl⟩ := List.cons.inj hcons
  rcases hbehind with ⟨ts, hcomma⟩ | hword
  · cases hcomma
  · cases hword

end Heads

end Sql
