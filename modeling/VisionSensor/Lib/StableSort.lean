import Mathlib.Data.List.Sort

/-! Insertion sort is stable, so that it commutes with the selection of some of the elements. -/
namespace StableSort

variable {α : Type*} {r : α → α → Prop} [DecidableRel r] {p : α → Bool}

/-- Inserting an element that is not selected is not seen in the selection. -/
theorem filter_orderedInsert_of_not {a : α} (ha : p a = false) (l : List α) :
    (l.orderedInsert r a).filter p = l.filter p := by
  induction l with
  | nil => simp [ha]
  | cons b l ih =>
    rw [List.orderedInsert_cons]
    split_ifs
    · exact List.filter_cons_of_neg (by simp [ha])
    · rw [List.filter_cons, List.filter_cons, ih]

theorem orderedInsert_of_forall {a : α} {l : List α} (h : ∀ b ∈ l, r a b) :
    l.orderedInsert r a = a :: l := by
  cases l with
  | nil => rfl
  | cons b l => exact List.orderedInsert_cons_of_le r l (h b List.mem_cons_self)

variable [IsTrans α r]

theorem filter_orderedInsert {a : α} (ha : p a = true) {l : List α} (hl : l.Pairwise r) :
    (l.orderedInsert r a).filter p = (l.filter p).orderedInsert r a := by
  induction l with
  | nil => simp [ha]
  | cons b l ih =>
    obtain ⟨hb, hl⟩ := List.pairwise_cons.mp hl
    rw [List.orderedInsert_cons]
    split_ifs with hab
    · -- `a` goes before everything, also before what is selected
      have hfirst : ∀ c ∈ (b :: l).filter p, r a c := by
        intro c hc
        rcases List.mem_cons.mp (List.mem_filter.mp hc).1 with rfl | hmem
        · exact hab
        · exact trans_of r hab (hb c hmem)
      rw [List.filter_cons_of_pos ha, orderedInsert_of_forall hfirst]
    · cases hpb : p b with
      | false =>
        rw [List.filter_cons_of_neg (by simp [hpb]), List.filter_cons_of_neg (by simp [hpb]),
          ih hl]
      | true =>
        rw [List.filter_cons_of_pos hpb, List.filter_cons_of_pos hpb,
          List.orderedInsert_of_not_le r _ hab, ih hl]

/-- Sorting a selection selects from the sorted list. -/
theorem insertionSort_filter [Std.Total r] (l : List α) :
    (l.filter p).insertionSort r = (l.insertionSort r).filter p := by
  induction l with
  | nil => rfl
  | cons a l ih =>
    rw [List.insertionSort_cons]
    cases ha : p a with
    | false =>
      rw [List.filter_cons_of_neg (by simp [ha]), filter_orderedInsert_of_not ha, ih]
    | true =>
      rw [List.filter_cons_of_pos ha, List.insertionSort_cons, ih,
        filter_orderedInsert ha (List.pairwise_insertionSort r l)]

end StableSort
