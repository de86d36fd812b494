import Mathlib.Data.List.Infix

/-! Text cut at a mark: what comes before the first mark and what follows it, and a block of lines
that ends at an empty line. The symbols are of any type. -/
namespace MarkedText

variable {α : Type*} [DecidableEq α]

/-- The text before the first `mark`, and the text after it. -/
def cut (mark : List α) : List α → Option (List α × List α)
  | [] => if mark = [] then some ([], []) else none
  | x :: text =>
      if mark <+: x :: text then some ([], (x :: text).drop mark.length)
      else (cut mark text).map fun p => (x :: p.1, p.2)

/-- The lines up to the first empty one, at most `n` in all, and the text after it. -/
def readBlock (mark : List α) : ℕ → List α → Option (List (List α) × List α)
  | 0, _ => none
  | n + 1, text =>
      (cut mark text).bind fun (line, rest) =>
        if line = [] then some ([], rest)
        else (readBlock mark n rest).map fun (lines, rest) => (line :: lines, rest)

/-- Lines as they are written, each with its mark, and an empty line behind them. -/
def writeBlock (mark : List α) (lines : List (List α)) : List α := lines.flatMap (· ++ mark) ++ mark

variable {mark text before after : List α}

theorem cut_marked (hne : text ≠ []) (h : mark <+: text) :
    cut mark text = some ([], text.drop mark.length) := by
  cases text with
  | nil => exact absurd rfl hne
  | cons x text => rw [cut, if_pos h]

theorem cut_unmarked {x : α} (h : ¬ mark <+: x :: text) :
    cut mark (x :: text) = (cut mark text).map fun p => (x :: p.1, p.2) := by
  rw [cut, if_neg h]

/-- The cut takes the text apart. -/
theorem cut_append_eq (h : cut mark text = some (before, after)) :
    before ++ mark ++ after = text := by
  induction text generalizing before with
  | nil =>
    unfold cut at h
    split_ifs at h with hmark
    obtain ⟨rfl, rfl⟩ := Prod.mk.inj (Option.some.inj h)
    simp [hmark]
  | cons x text ih =>
    by_cases hmark : mark <+: x :: text
    · rw [cut_marked (List.cons_ne_nil x text) hmark] at h
      obtain ⟨rfl, rfl⟩ := Prod.mk.inj (Option.some.inj h)
      obtain ⟨rest, hrest⟩ := hmark
      rw [← hrest, List.drop_left, List.nil_append]
    · rw [cut_unmarked hmark] at h
      obtain ⟨⟨tail, rest⟩, hcut, heq⟩ := Option.map_eq_some_iff.mp h
      obtain ⟨rfl, rfl⟩ := Prod.mk.inj heq
      rw [List.cons_append, List.cons_append, ih hcut]

/-- There is a cut exactly where there is a mark. -/
theorem cut_isSome_iff (hmark : mark ≠ []) : (cut mark text).isSome ↔ mark <:+: text := by
  induction text with
  | nil => simp [cut, hmark]
  | cons x text ih =>
    rw [List.infix_cons_iff]
    by_cases h : mark <+: x :: text
    · rw [cut_marked (List.cons_ne_nil x text) h]
      exact iff_of_true rfl (.inl h)
    · rw [cut_unmarked h, Option.isSome_map, ih]
      exact ⟨.inr, fun hor => hor.resolve_left h⟩

/-- What comes later does not move the first mark. -/
theorem cut_append (h : cut mark text = some (before, after)) (hmark : mark ≠ [])
    (later : List α) : cut mark (text ++ later) = some (before, after ++ later) := by
  induction text generalizing before with
  | nil => simp [cut, hmark] at h
  | cons x text ih =>
    by_cases hfirst : mark <+: x :: text
    · rw [cut_marked (List.cons_ne_nil x text) hfirst] at h
      obtain ⟨rfl, rfl⟩ := Prod.mk.inj (Option.some.inj h)
      have hlater : mark <+: (x :: text) ++ later := hfirst.trans (List.prefix_append _ _)
      rw [cut_marked (by simp) hlater, List.drop_append_of_le_length hfirst.length_le]
    · rw [cut_unmarked hfirst] at h
      obtain ⟨⟨tail, rest⟩, hcut, heq⟩ := Option.map_eq_some_iff.mp h
      obtain ⟨rfl, rfl⟩ := Prod.mk.inj heq
      have hshort : ¬ mark <+: x :: (text ++ later) := by
        -- the mark that was found is inside `text`, so a mark at the front is inside it as well
        intro hlong
        have hlen : mark.length ≤ (x :: text).length := by
          have hsplit := congrArg List.length (cut_append_eq hcut)
          simp only [List.length_append, List.length_cons] at hsplit ⊢
          omega
        exact hfirst (List.prefix_of_prefix_length_le hlong
          (List.prefix_append (x :: text) later) hlen)
      rw [List.cons_append, cut_unmarked hshort, ih hcut]
      rfl

/-- The text before the first mark has no mark in it. -/
theorem cut_fst_unmarked (hmark : mark ≠ []) (h : cut mark text = some (before, after)) :
    ¬ mark <:+: before := by
  intro hinfix
  obtain ⟨⟨first, rest⟩, hfirst⟩ := Option.isSome_iff_exists.mp ((cut_isSome_iff hmark).mpr hinfix)
  have hagain := cut_append hfirst hmark (mark ++ after)
  rw [← List.append_assoc, cut_append_eq h, h] at hagain
  obtain ⟨rfl, -⟩ := Prod.mk.inj (Option.some.inj hagain)
  have hlen := congrArg List.length (cut_append_eq hfirst)
  have hpos := List.length_pos_iff.mpr hmark
  simp only [List.length_append] at hlen
  omega

/-- A mark of two different symbols cannot begin inside the text before it, so it is found where
it was put. -/
theorem cut_pair {a b : α} (hab : a ≠ b) (h : ¬ [a, b] <:+: before) (after : List α) :
    cut [a, b] (before ++ [a, b] ++ after) = some (before, after) := by
  induction before with
  | nil => exact cut_marked (by simp) (List.prefix_append [a, b] after)
  | cons x before ih =>
    rw [List.infix_cons_iff, not_or] at h
    have hfront : ¬ [a, b] <+: x :: (before ++ [a, b] ++ after) := by
      intro hprefix
      obtain ⟨rfl, hb⟩ := List.cons_prefix_cons.mp hprefix
      cases before with
      | nil => exact hab (List.cons_prefix_cons.mp hb).1.symm
      | cons y before =>
        obtain ⟨rfl, -⟩ := List.cons_prefix_cons.mp hb
        exact h.1 (by simp [List.cons_prefix_cons])
    rw [List.cons_append, List.cons_append, cut_unmarked hfront, ih h.2]
    rfl

/-- The same for a mark of one symbol. -/
theorem cut_single {a : α} (h : a ∉ before) (after : List α) :
    cut [a] (before ++ [a] ++ after) = some (before, after) := by
  induction before with
  | nil => exact cut_marked (by simp) (List.prefix_append [a] after)
  | cons x before ih =>
    obtain ⟨hx, hbefore⟩ := List.ne_and_not_mem_of_not_mem_cons h
    have hfront : ¬ [a] <+: x :: (before ++ [a] ++ after) := fun hprefix =>
      hx (List.cons_prefix_cons.mp hprefix).1
    rw [List.cons_append, List.cons_append, cut_unmarked hfront, ih hbefore]
    rfl

omit [DecidableEq α] in
/-- A symbol that is not in the mark keeps marks on either side of it. -/
theorem infix_separated {x : α} {left right : List α} (hx : x ∉ mark) :
    mark <:+: left ++ x :: right ↔ mark <:+: left ∨ mark <:+: right := by
  constructor
  · rintro ⟨s, t, h⟩
    rcases List.append_eq_append_iff.mp h with ⟨l, rfl, -⟩ | ⟨l, hl, hright⟩
    · exact .inl ⟨s, l, rfl⟩
    cases l with
    | nil => exact .inl ⟨s, [], by simpa using hl⟩
    | cons y l =>
      obtain ⟨rfl, rfl⟩ := List.cons.inj hright
      rcases List.append_eq_append_iff.mp hl with ⟨l', rfl, hmark⟩ | ⟨l', rfl, hl'⟩
      · exact absurd (hmark ▸ by simp) hx
      cases l' with
      | nil =>
        rw [List.nil_append] at hl'
        exact absurd (hl' ▸ List.mem_cons_self) hx
      | cons z l' =>
        obtain ⟨rfl, rfl⟩ := List.cons.inj hl'
        exact .inr ⟨l', t, by simp⟩
  · rintro (h | h)
    · exact h.trans (List.prefix_append left (x :: right)).isInfix
    · exact h.trans ((List.suffix_cons x right).trans (List.suffix_append left _)).isInfix

/-- Every line of a block that was read is unmarked. -/
theorem readBlock_unmarked (hmark : mark ≠ []) {n : ℕ} {lines : List (List α)}
    (h : readBlock mark n text = some (lines, after)) : ∀ line ∈ lines, ¬ mark <:+: line := by
  induction n generalizing text lines with
  | zero => cases h
  | succ n ih =>
    obtain ⟨⟨line, rest⟩, hcut, h⟩ := Option.bind_eq_some_iff.mp h
    dsimp only at h
    split_ifs at h with hline
    · obtain ⟨rfl, rfl⟩ := Prod.mk.inj (Option.some.inj h)
      simp
    · obtain ⟨⟨tail, after'⟩, hread, heq⟩ := Option.map_eq_some_iff.mp h
      obtain ⟨rfl, rfl⟩ := Prod.mk.inj heq
      exact List.forall_mem_cons.mpr ⟨cut_fst_unmarked hmark hcut, ih hread⟩

omit [DecidableEq α] in
theorem length_le_writeBlock (hmark : mark ≠ []) (lines : List (List α)) :
    lines.length ≤ (writeBlock mark lines).length := by
  have hpos := List.length_pos_iff.mpr hmark
  induction lines with
  | nil => exact Nat.zero_le _
  | cons line lines ih =>
    simp only [writeBlock, List.flatMap_cons, List.length_append, List.length_cons] at ih ⊢
    omega

/-- A block that was written is read back, whatever follows it. -/
theorem readBlock_writeBlock {a b : α} (hab : a ≠ b) {lines : List (List α)}
    (hlines : ∀ line ∈ lines, line ≠ [] ∧ ¬ [a, b] <:+: line) {n : ℕ} (hn : lines.length < n)
    (after : List α) :
    readBlock [a, b] n (writeBlock [a, b] lines ++ after) = some (lines, after) := by
  obtain ⟨n, rfl⟩ := Nat.exists_eq_add_of_lt hn
  induction lines generalizing n with
  | nil =>
    have hcut : cut [a, b] ([a, b] ++ after) = some ([], after) :=
      cut_marked (by simp) (List.prefix_append [a, b] after)
    simp only [writeBlock, List.flatMap_nil, List.nil_append, List.length_nil, Nat.zero_add,
      readBlock, hcut, Option.bind_some, if_true]
  | cons line lines ih =>
    obtain ⟨⟨hne, hunmarked⟩, hlines⟩ := List.forall_mem_cons.mp hlines
    have htext : writeBlock [a, b] (line :: lines) ++ after =
        line ++ [a, b] ++ (writeBlock [a, b] lines ++ after) := by
      simp [writeBlock]
    have hfuel : (line :: lines).length + n + 1 = (lines.length + n + 1) + 1 := by
      simp only [List.length_cons]
      omega
    rw [htext, hfuel, readBlock, cut_pair hab hunmarked, Option.bind_some]
    simp only [if_neg hne, ih hlines n (by omega), Option.map_some]

/-- Takes pieces into a buffer until there is a mark in it; `none` when the pieces end before. -/
def readUntil (mark : List α) : List α → List (List α) → Option (List α × List (List α))
  | buffer, [] => if (cut mark buffer).isSome then some (buffer, []) else none
  | buffer, c :: cs =>
      if (cut mark buffer).isSome then some (buffer, c :: cs) else readUntil mark (buffer ++ c) cs

variable {buffer buffer' : List α} {chunks chunks' : List (List α)}

/-- Nothing is lost or reordered, and the buffer has a mark in it. -/
theorem readUntil_spec (h : readUntil mark buffer chunks = some (buffer', chunks')) :
    (cut mark buffer').isSome ∧ buffer' ++ chunks'.flatten = buffer ++ chunks.flatten := by
  induction chunks generalizing buffer with
  | nil =>
    unfold readUntil at h
    split_ifs at h with hcut
    obtain ⟨rfl, rfl⟩ := Prod.mk.inj (Option.some.inj h)
    exact ⟨hcut, rfl⟩
  | cons c cs ih =>
    unfold readUntil at h
    split_ifs at h with hcut
    · obtain ⟨rfl, rfl⟩ := Prod.mk.inj (Option.some.inj h)
      exact ⟨hcut, rfl⟩
    · obtain ⟨hmark, htext⟩ := ih h
      exact ⟨hmark, by rw [htext, List.append_assoc, List.flatten_cons]⟩

/-- Whether the mark is found does not depend on the pieces. -/
theorem readUntil_isSome_iff (hmark : mark ≠ []) :
    (readUntil mark buffer chunks).isSome ↔ mark <:+: buffer ++ chunks.flatten := by
  induction chunks generalizing buffer with
  | nil =>
    rw [readUntil, List.flatten_nil, List.append_nil, ← cut_isSome_iff hmark]
    split_ifs with hcut
    · exact iff_of_true rfl hcut
    · exact iff_of_false (by simp) hcut
  | cons c cs ih =>
    rw [readUntil, List.flatten_cons, ← List.append_assoc]
    split_ifs with hcut
    · refine iff_of_true rfl (((cut_isSome_iff hmark).mp hcut).trans ?_)
      rw [List.append_assoc]
      exact (List.prefix_append buffer _).isInfix
    · exact ih

end MarkedText
