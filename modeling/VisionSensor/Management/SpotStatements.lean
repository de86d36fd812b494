import VisionSensor.Management.SpotRows

/-! What the texts of `createDB` and `updateDB` say: the `INSERT` is right for the names that can
stand between its quotes, and the `UPDATE`, with a comma in front of `WHERE`, for none. -/
namespace VisionSensor.SpotRows
open Sql

section Pieces

theorem createTail_eq (roi_x roi_y roi_h roi_w : ℤ) : createTail roi_x roi_y roi_h roi_w =
    ',' :: ' ' :: (to_string roi_x ++ ',' :: ' ' :: (to_string roi_y ++ ',' :: ' ' ::
      (to_string roi_h ++ ',' :: ' ' :: (to_string roi_w ++ ',' :: ' ' ::
        (to_string 5 ++ [')']))))) := by
  have hcomma : ", ".toList = [',', ' '] := rfl
  have hclose : ")".toList = [')'] := rfl
  unfold createTail
  simp only [hcomma, hclose, List.append_assoc, List.cons_append, List.nil_append]

/-- The text of the `UPDATE` behind the name, with the quotes behind the values by themselves. -/
theorem updateTail_eq (id roi_x roi_y roi_h roi_w : ℤ) : updateTail id roi_x roi_y roi_h roi_w =
    ", roi_coordx = '".toList ++ (to_string roi_x ++ '\'' :: (", roi_coordy = '".toList ++
      (to_string roi_y ++ '\'' :: (", roi_height = '".toList ++ (to_string roi_h ++ '\'' ::
        (", roi_width = '".toList ++ (to_string roi_w ++ '\'' :: (", policy_id = '".toList ++
          (to_string 5 ++ '\'' ::
            (", WHERE parking_spot_id = ".toList ++ to_string id)))))))))) := by
  have hy : "', roi_coordy = '".toList = '\'' :: ", roi_coordy = '".toList := rfl
  have hh : "', roi_height = '".toList = '\'' :: ", roi_height = '".toList := rfl
  have hw : "', roi_width = '".toList = '\'' :: ", roi_width = '".toList := rfl
  have hp : "', policy_id = '".toList = '\'' :: ", policy_id = '".toList := rfl
  have hi : "', WHERE parking_spot_id = ".toList = '\'' :: ", WHERE parking_spot_id = ".toList :=
    rfl
  unfold updateTail
  simp only [hy, hh, hw, hp, hi, List.append_assoc, List.cons_append]

/-- A character that means nothing in a string or a comment, nor ends the text. -/
def harmless (c : Char) : Bool :=
  c != '"' && c != '\\' && c != '\n' && c != '*' && c != Char.ofNat 0

theorem harmless_of_mem_to_string {n : ℤ} {c : Char} (h : c ∈ to_string n) :
    harmless c = true := by
  have hne : ∀ d : Char, d.isDigit = false → d ≠ '-' → (c != d) = true := by
    intro d hdigit hminus
    rw [bne_iff_ne]
    rintro rfl
    rcases isDigit_of_mem_to_string h with hc | hc
    · rw [hdigit] at hc
      cases hc
    · exact hminus hc
  simp only [harmless, hne '"' (by decide) (by decide), hne '\\' (by decide) (by decide),
    hne '\n' (by decide) (by decide), hne '*' (by decide) (by decide),
    hne (Char.ofNat 0) (by decide) (by decide), Bool.and_self]

theorem harmless_to_string (n : ℤ) : (to_string n).all harmless = true :=
  List.all_eq_true.mpr fun _ => harmless_of_mem_to_string

theorem harmless_createTail (roi_x roi_y roi_h roi_w : ℤ) :
    (createTail roi_x roi_y roi_h roi_w).all harmless = true := by
  have hcomma : (", ".toList).all harmless = true := by decide
  have hclose : (")".toList).all harmless = true := by decide
  unfold createTail
  simp only [List.all_append, harmless_to_string, hcomma, hclose, Bool.and_self]

theorem harmless_updateTail (id roi_x roi_y roi_h roi_w : ℤ) :
    (updateTail id roi_x roi_y roi_h roi_w).all harmless = true := by
  have hx : (", roi_coordx = '".toList).all harmless = true := by decide
  have hy : ("', roi_coordy = '".toList).all harmless = true := by decide
  have hh : ("', roi_height = '".toList).all harmless = true := by decide
  have hw : ("', roi_width = '".toList).all harmless = true := by decide
  have hp : ("', policy_id = '".toList).all harmless = true := by decide
  have hi : ("', WHERE parking_spot_id = ".toList).all harmless = true := by decide
  unfold updateTail
  simp only [List.all_append, harmless_to_string, hx, hy, hh, hw, hp, hi, Bool.and_self]

theorem not_mem_of_harmless {cs : List Char} (h : cs.all harmless = true) {c : Char}
    (hc : harmless c = false) : c ∉ cs := by
  intro hmem
  rw [List.all_eq_true.mp h c hmem] at hc
  cases hc

theorem tail_harmless {tail : List Char} (h : tail.all harmless = true) :
    '"' ∉ tail ∧ '\\' ∉ tail ∧ '\n' ∉ tail ∧ '*' ∉ tail :=
  ⟨not_mem_of_harmless h (by decide), not_mem_of_harmless h (by decide),
    not_mem_of_harmless h (by decide), not_mem_of_harmless h (by decide)⟩

theorem quote_not_mem_to_string (n : ℤ) : '\'' ∉ to_string n := by
  intro h
  rcases isDigit_of_mem_to_string h with h | h <;> cases h

theorem tail_createTail (roi_x roi_y roi_h roi_w : ℤ) :
    Tail (createTail roi_x roi_y roi_h roi_w) := by
  refine ⟨⟨(createTail roi_x roi_y roi_h roi_w).tail, [], ?_, ?_, .inl rfl⟩,
    tail_harmless (harmless_createTail _ _ _ _)⟩
  · rw [createTail_eq, List.append_nil, List.tail_cons]
  · intro h
    have hcomma : '\'' ∉ ", ".toList := by decide
    have hclose : '\'' ∉ ")".toList := by decide
    have hmem := List.mem_of_mem_tail h
    unfold createTail at hmem
    simp only [List.mem_append, quote_not_mem_to_string, hcomma, hclose, or_self] at hmem

theorem tail_updateTail (id roi_x roi_y roi_h roi_w : ℤ) :
    Tail (updateTail id roi_x roi_y roi_h roi_w) := by
  refine ⟨?_, tail_harmless (harmless_updateTail _ _ _ _ _)⟩
  have hcolumn : ", roi_coordx = '".toList = ',' :: (" roi_coordx = ".toList ++ ['\'']) := rfl
  rw [updateTail_eq, hcolumn, List.cons_append, List.append_assoc]
  exact ⟨_, _, rfl, by decide, .inr ⟨roi_x, '\'', _, rfl, by decide⟩⟩

end Pieces

section Reading

theorem to_string_eq_numeral (n : ℤ) : to_string n = numeral n := rfl

def createColumns : List (List Char) :=
  ["parking_spot_id".toList, "parking_spot_name".toList, "roi_coordx".toList, "roi_coordy".toList,
    "roi_height".toList, "roi_width".toList, "policy_id".toList]

/-- The tokens of the `INSERT` in front of the id. -/
def createTokens : List Token :=
  [.word "insert".toList, .word "into".toList, .word "parking_spot".toList, .sym '(',
    .word "parking_spot_id".toList, .sym ',', .word "parking_spot_name".toList, .sym ',',
    .word "roi_coordx".toList, .sym ',', .word "roi_coordy".toList, .sym ',',
    .word "roi_height".toList, .sym ',', .word "roi_width".toList, .sym ',',
    .word "policy_id".toList, .sym ')', .word "values".toList, .sym '(']

theorem scan_createHead : scan .start createHead = (createTokens, .start) := by decide +kernel

theorem scan_updateHead : scan .start updateHead =
    ([.word "UPDATE".toList, .word "parking_spot".toList, .word "SET".toList,
      .word "parking_spot_name".toList, .sym '='], .text '\'' []) := by
  decide +kernel

theorem parse_createHead (id : ℤ) (body : List Char) :
    parse (createHead ++ to_string id ++ ", '".toList ++ body) = (inText body).bind fun us =>
      (values (.number id :: .sym ',' :: us)).bind fun v =>
        if v.2 = [] then some (.insert "parking_spot".toList createColumns v.1) else none := by
  have hcomma : ", '".toList = [',', ' ', '\''] := rfl
  have hnumeral := scan_numeral id (show ','.isDigit = false by decide) [' ', '\'']
  have hrest : scan .start [',', ' ', '\''] = ([.sym ','], .text '\'' []) := by decide
  have hhead : scan .start (createHead ++ to_string id ++ ", '".toList) =
      (createTokens ++ (numeralTokens id ++ [.sym ',']), .text '\'' []) := by
    rw [hcomma, List.append_assoc, scan_append_of scan_createHead, to_string_eq_numeral, hnumeral,
      hrest]
    rfl
  rw [parse_of_scan hhead]
  simp only [List.foldr_append, glue_numeralTokens]
  rfl

theorem parse_updateHead (body : List Char) :
    parse (updateHead ++ body) = (inText body).bind fun us =>
      updateRest "parking_spot".toList (.word "parking_spot_name".toList :: .sym '=' :: us) := by
  rw [parse_of_scan scan_updateHead]
  rfl

theorem scan_item (n : ℤ) {c : Char} (hc : c.isDigit = false) (cs : List Char) :
    scan .start (',' :: ' ' :: (to_string n ++ c :: cs)) =
      emit (.sym ',' :: numeralTokens n) (scan .start (c :: cs)) := by
  have hstart : scan .start (',' :: ' ' :: (to_string n ++ c :: cs)) =
      emit [.sym ','] (scan .start (numeral n ++ c :: cs)) := rfl
  rw [hstart, scan_numeral n hc, emit_emit]
  rfl

theorem scan_createTail (roi_x roi_y roi_h roi_w : ℤ) :
    scan .start (createTail roi_x roi_y roi_h roi_w) =
      (.sym ',' :: (numeralTokens roi_x ++ .sym ',' :: (numeralTokens roi_y ++ .sym ',' ::
        (numeralTokens roi_h ++ .sym ',' :: (numeralTokens roi_w ++ .sym ',' ::
          (numeralTokens 5 ++ [.sym ')']))))), .start) := by
  have hclose : scan .start [')'] = ([.sym ')'], .start) := by decide
  rw [createTail_eq, scan_item _ (by decide), scan_item _ (by decide), scan_item _ (by decide),
    scan_item _ (by decide), scan_item _ (by decide), hclose]
  simp only [emit, List.cons_append]

theorem inText_create {name : List Char} (hname : Plain '\'' name) (roi_x roi_y roi_h roi_w : ℤ) :
    inText (name ++ '\'' :: createTail roi_x roi_y roi_h roi_w) =
      some [.str name, .sym ',', .number roi_x, .sym ',', .number roi_y, .sym ',', .number roi_h,
        .sym ',', .number roi_w, .sym ',', .number 5, .sym ')'] := by
  have hhead : (createTail roi_x roi_y roi_h roi_w).head? = some ',' := by
    rw [createTail_eq, List.head?_cons]
  have hscan := scan_between (scan_plain (by decide) [] hname) hhead
    (scan_createTail roi_x roi_y roi_h roi_w) []
  rw [List.append_nil] at hscan
  have hcomma : ∀ ts, literals (.sym ',' :: ts) = .sym ',' :: literals ts :=
    literals_sym (by decide)
  rw [inText, hscan]
  simp only [emit, scan, finish, Option.map_some, List.append_nil, List.cons_append]
  rw [literals_str (hcomma _) rfl, literals_numeralTokens, hcomma, literals_numeralTokens, hcomma,
    literals_numeralTokens, hcomma, literals_numeralTokens, hcomma, literals_numeralTokens]
  rfl

theorem plain_to_string (n : ℤ) : Plain '\'' (to_string n) := by
  apply plain_of_clear
  intro c hc
  refine ⟨?_, ?_⟩
  · rintro rfl
    exact quote_not_mem_to_string n hc
  · rintro rfl
    cases harmless_of_mem_to_string hc

theorem scan_to_string (n : ℤ) :
    scan (.text '\'' []) (to_string n) = ([], .text '\'' (to_string n)) :=
  scan_plain (by decide) [] (plain_to_string n)

/-- The text of the `UPDATE` goes on with a comma, and a word that no equation follows. -/
theorem parse_update_of_open {name d : List Char}
    (hname : scan (.text '\'' []) name = ([], .text '\'' d)) (id roi_x roi_y roi_h roi_w : ℤ) :
    parse (updateHead ++ (name ++ '\'' :: updateTail id roi_x roi_y roi_h roi_w)) = none := by
  have hx : scan .start ", roi_coordx = '".toList =
      ([.sym ',', .word "roi_coordx".toList, .sym '='], .text '\'' []) := by decide +kernel
  have hy : scan .start ", roi_coordy = '".toList =
      ([.sym ',', .word "roi_coordy".toList, .sym '='], .text '\'' []) := by decide +kernel
  have hh : scan .start ", roi_height = '".toList =
      ([.sym ',', .word "roi_height".toList, .sym '='], .text '\'' []) := by decide +kernel
  have hw : scan .start ", roi_width = '".toList =
      ([.sym ',', .word "roi_width".toList, .sym '='], .text '\'' []) := by decide +kernel
  have hp : scan .start ", policy_id = '".toList =
      ([.sym ',', .word "policy_id".toList, .sym '='], .text '\'' []) := by decide +kernel
  have hi : scan .start ", WHERE parking_spot_id = ".toList =
      ([.sym ',', .word "WHERE".toList, .word "parking_spot_id".toList, .sym '='], .start) := by
    decide +kernel
  have hscan : scan (.text '\'' []) (name ++ '\'' :: updateTail id roi_x roi_y roi_h roi_w) =
      emit [.str d, .sym ',', .word "roi_coordx".toList, .sym '=',
        .str (to_string roi_x), .sym ',', .word "roi_coordy".toList, .sym '=',
        .str (to_string roi_y), .sym ',', .word "roi_height".toList, .sym '=',
        .str (to_string roi_h), .sym ',', .word "roi_width".toList, .sym '=',
        .str (to_string roi_w), .sym ',', .word "policy_id".toList, .sym '=',
        .str (to_string 5), .sym ',', .word "WHERE".toList, .word "parking_spot_id".toList,
        .sym '='] (scan .start (to_string id)) := by
    rw [updateTail_eq, scan_between hname rfl hx, scan_between (scan_to_string _) rfl hy,
      scan_between (scan_to_string _) rfl hh, scan_between (scan_to_string _) rfl hw,
      scan_between (scan_to_string _) rfl hp, scan_between (scan_to_string _) rfl hi]
    simp only [emit_emit, List.cons_append, List.nil_append]
  rw [parse_updateHead, inText, hscan]
  simp only [emit]
  cases finish (scan .start (to_string id)).2 with
  | none => rfl
  | some fin => rfl

end Reading

section Cut

theorem c_str_append {as : List Char} (h : Char.ofNat 0 ∉ as) (bs : List Char) :
    c_str (as ++ bs) = as ++ c_str bs :=
  List.takeWhile_append_of_pos fun _ hc => decide_eq_true fun h0 => h (h0 ▸ hc)

theorem c_str_of_not_mem {cs : List Char} (h : Char.ofNat 0 ∉ cs) : c_str cs = cs := by
  have hcut := c_str_append h []
  rwa [List.append_nil, c_str, c_str, List.takeWhile_nil, List.append_nil] at hcut

theorem length_c_str_lt {name : List Char} (h : Char.ofNat 0 ∈ name) :
    (c_str name).length < name.length := by
  induction name with
  | nil => cases h
  | cons c name ih =>
    rw [c_str, List.takeWhile_cons]
    by_cases hc : c = Char.ofNat 0
    · rw [decide_eq_false (not_not_intro hc)]
      exact Nat.succ_pos _
    · rw [decide_eq_true hc, if_pos rfl, List.length_cons, List.length_cons]
      exact Nat.succ_lt_succ (ih ((List.mem_cons.mp h).resolve_left (Ne.symm hc)))

/-- A zero in the name ends the text inside it. -/
theorem c_str_append_of_mem {name : List Char} (h : Char.ofNat 0 ∈ name) (cs : List Char) :
    c_str (name ++ cs) = c_str name :=
  List.takeWhile_append.trans (if_neg (length_c_str_lt h).ne)

theorem quote_not_mem_of_sendable {name : List Char} (h : Sendable name) : '\'' ∉ name :=
  quote_not_mem_of_plain h.2

theorem zero_not_mem_to_string (n : ℤ) : Char.ofNat 0 ∉ to_string n :=
  not_mem_of_harmless (harmless_to_string n) (by decide)

theorem zero_not_mem_createTail (roi_x roi_y roi_h roi_w : ℤ) :
    Char.ofNat 0 ∉ '\'' :: createTail roi_x roi_y roi_h roi_w := by
  rw [List.mem_cons, not_or]
  exact ⟨by decide, not_mem_of_harmless (harmless_createTail _ _ _ _) (by decide)⟩

theorem zero_not_mem_updateTail (id roi_x roi_y roi_h roi_w : ℤ) :
    Char.ofNat 0 ∉ '\'' :: updateTail id roi_x roi_y roi_h roi_w := by
  rw [List.mem_cons, not_or]
  exact ⟨by decide, not_mem_of_harmless (harmless_updateTail _ _ _ _ _) (by decide)⟩

/-- A name without a zero is sent with all that follows. -/
theorem c_str_name {name tail : List Char} (hname : Char.ofNat 0 ∉ name)
    (htail : Char.ofNat 0 ∉ '\'' :: tail) :
    c_str (name ++ '\'' :: tail) = name ++ '\'' :: tail := by
  rw [c_str_append hname, c_str_of_not_mem htail]

/-- If the name is read back from between the quotes, it can stand there, or a number follows. -/
theorem sendable_or_number {name tail : List Char} (ht : Tail tail) {us : List Token}
    (h : inText (c_str (name ++ '\'' :: tail)) = some (.str name :: us))
    (htail : Char.ofNat 0 ∉ '\'' :: tail) : Sendable name ∨ ∃ n vs, us = .number n :: vs := by
  by_cases hname : Char.ofNat 0 ∈ name
  · rw [c_str_append_of_mem hname] at h
    exact absurd (length_le_of_inText h) (Nat.not_le.mpr (length_c_str_lt hname))
  · rw [c_str_name hname htail] at h
    obtain ⟨fin, hfin, hliterals⟩ := Option.map_eq_some_iff.mp h
    exact (plain_or_number ht hfin hliterals).imp_left fun hplain => ⟨hname, hplain⟩

/-- What is sent is the text up to a zero in the name. -/
theorem c_str_createText (id : ℤ) (name : List Char) (roi_x roi_y roi_h roi_w : ℤ) :
    c_str (createText id name roi_x roi_y roi_h roi_w) = createHead ++ to_string id ++
      ", '".toList ++ c_str (name ++ '\'' :: createTail roi_x roi_y roi_h roi_w) := by
  apply c_str_append
  have hhead : Char.ofNat 0 ∉ createHead := by decide +kernel
  have hcomma : Char.ofNat 0 ∉ ", '".toList := by decide
  rw [List.mem_append, List.mem_append, not_or, not_or]
  exact ⟨⟨hhead, zero_not_mem_to_string id⟩, hcomma⟩

theorem c_str_updateText (id : ℤ) (name : List Char) (roi_x roi_y roi_h roi_w : ℤ) :
    c_str (updateText id name roi_x roi_y roi_h roi_w) =
      updateHead ++ c_str (name ++ '\'' :: updateTail id roi_x roi_y roi_h roi_w) :=
  c_str_append (by decide +kernel) _

end Cut

section Meaning

variable {name : List Char} {roi : Rect}

/-- The row that is inserted for a name that can be sent. -/
theorem parse_createText (h : Sendable name) (id roi_x roi_y roi_h roi_w : ℤ) :
    parse (c_str (createText id name roi_x roi_y roi_h roi_w)) =
      some (.insert "parking_spot".toList createColumns
        [.num id, .str name, .num roi_x, .num roi_y, .num roi_h, .num roi_w, .num 5]) := by
  rw [c_str_createText, c_str_name h.1 (zero_not_mem_createTail _ _ _ _), parse_createHead,
    inText_create h.2]
  rfl

/-- Whatever the name, an `INSERT` that is sent has the id, and a text as name. -/
theorem createText_cases {id roi_x roi_y roi_h roi_w : ℤ} {s : Statement}
    (h : parse (c_str (createText id name roi_x roi_y roi_h roi_w)) = some s) :
    ∃ d vs, s = .insert "parking_spot".toList createColumns (.num id :: .str d :: vs) ∧
      (d = name → Sendable name) := by
  rw [c_str_createText, parse_createHead] at h
  obtain ⟨us, hus, hrow⟩ := Option.bind_eq_some_iff.mp h
  obtain ⟨⟨vs, rest⟩, hvs, hend⟩ := Option.bind_eq_some_iff.mp hrow
  obtain ⟨⟨vs, rest⟩, hvalues, hid⟩ := Option.map_eq_some_iff.mp
    (show (values us).map (fun r => (.num id :: r.1, r.2)) = some (vs, rest) from hvs)
  obtain ⟨d, ts, rfl⟩ := inText_head hus
  obtain ⟨t, c, us, v, ws, hcons, hv, rfl⟩ := values_head hvalues
  obtain ⟨rfl, rfl⟩ := List.cons.inj hcons
  obtain ⟨rfl, rfl⟩ := Prod.mk.inj hid
  obtain rfl := Option.some.inj hv
  split_ifs at hend
  refine ⟨d, ws, (Option.some.inj hend).symm, ?_⟩
  rintro rfl
  rcases sendable_or_number (tail_createTail _ _ _ _) hus (zero_not_mem_createTail _ _ _ _)
    with hsendable | ⟨n, vs, hnumber⟩
  · exact hsendable
  · cases hnumber

/-- The `INSERT` says what was meant exactly for the names that can be sent. -/
theorem saysInsert_createText_iff (id : ℤ) :
    SaysInsert (createText id name roi.x roi.y roi.height roi.width) id name roi ↔
      Sendable name := by
  constructor
  · rintro ⟨columns, row, hparse, -, -, hsays⟩
    obtain ⟨d, vs, hinsert, hname⟩ := createText_cases hparse
    obtain ⟨-, rfl, rfl⟩ := Statement.insert.inj hinsert
    have hlookup : some (Value.str d) = some (.str name) := hsays.name
    exact hname (Value.str.inj (Option.some.inj hlookup))
  · intro h
    have hcolumns : createColumns.Nodup := by decide
    exact ⟨_, _, parse_createText h _ _ _ _ _, rfl, rfl, hcolumns, rfl, rfl, rfl, rfl, rfl⟩

/-- No name makes the text of `updateDB` a statement that says what was meant. -/
theorem not_saysUpdate_updateText (id : ℤ) :
    ¬ SaysUpdate (updateText id name roi.x roi.y roi.height roi.width) id name roi := by
  rintro ⟨sets, key, hparse, -, hsays⟩
  have htext := hparse
  rw [c_str_updateText, parse_updateHead] at hparse
  obtain ⟨us, hus, hrest⟩ := Option.bind_eq_some_iff.mp hparse
  obtain ⟨d, ts, rfl⟩ := inText_head hus
  obtain ⟨sets', column, key', w, more, hs, hsets⟩ := updateRest_spec hrest
  obtain ⟨-, rfl, -, -⟩ := Statement.update.inj hs
  obtain ⟨t, ts, v, ws, hcons, hv, rfl, -⟩ := assignments_head hsets
  obtain ⟨rfl, rfl⟩ := List.cons.inj hcons
  obtain rfl := Option.some.inj hv
  have hlookup : some (Value.str d) = some (.str name) := hsays.name
  obtain rfl := Value.str.inj (Option.some.inj hlookup)
  rcases sendable_or_number (tail_updateTail _ _ _ _ _) hus (zero_not_mem_updateTail _ _ _ _ _)
    with hsendable | ⟨n, vs, rfl⟩
  · rw [c_str_updateText, c_str_name hsendable.1 (zero_not_mem_updateTail _ _ _ _ _),
      parse_update_of_open (scan_plain (by decide) [] hsendable.2)] at htext
    cases htext
  · rw [updateRest_number] at hrest
    cases hrest

/-- Without a quote in the name, the text of `updateDB` is no statement. -/
theorem parse_updateText_of_clear (h : '\'' ∉ name) (id roi_x roi_y roi_h roi_w : ℤ) :
    parse (c_str (updateText id name roi_x roi_y roi_h roi_w)) = none := by
  rw [c_str_updateText]
  by_cases hzero : Char.ofNat 0 ∈ name
  · -- The text ends inside the string.
    have hcut : '\'' ∉ c_str name := fun hmem => h ((List.takeWhile_prefix _).subset hmem)
    rw [c_str_append_of_mem hzero, parse_updateHead, inText]
    obtain ⟨d, hscan | hscan⟩ := scan_clear hcut <;> rw [hscan] <;> rfl
  · rw [c_str_name hzero (zero_not_mem_updateTail _ _ _ _ _)]
    obtain ⟨d, hopen | hescaped⟩ := scan_clear h
    · exact parse_update_of_open hopen _ _ _ _ _
    · rw [parse_updateHead]
      cases hus : inText (name ++ '\'' :: updateTail id roi_x roi_y roi_h roi_w) with
      | none => rfl
      | some us =>
        obtain ⟨s, n, vs, rfl⟩ := inText_of_escaped (tail_updateTail _ _ _ _ _) hescaped hus
        exact updateRest_number "parking_spot".toList "parking_spot_name".toList s n vs

end Meaning

end VisionSensor.SpotRows
