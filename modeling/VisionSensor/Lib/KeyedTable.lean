import Mathlib.Data.List.Basic
import Mathlib.Logic.Function.Basic

/-! Tables under a run of entries, each of which rewrites the row of its own key, and association
lists as such tables. -/
namespace KeyedTable

variable {κ ε β : Type*}

section Rows

variable [DecidableEq κ]

/-- Rewrite the row under the key of an entry. -/
def put (key : ε → κ) (upd : Option β → ε → Option β) (t : κ → Option β) (e : ε) : κ → Option β :=
  Function.update t (key e) (upd (t (key e)) e)

/-- The entries with a key, in order. -/
def under (key : ε → κ) (k : κ) (es : List ε) : List ε := es.filter fun e => key e = k

/-- A row sees the entries of its own key only. -/
theorem foldl_put (key : ε → κ) (upd : Option β → ε → Option β) (t : κ → Option β) (es : List ε)
    (k : κ) : es.foldl (put key upd) t k = (under key k es).foldl upd (t k) := by
  induction es generalizing t with
  | nil => rfl
  | cons e es ih =>
    rw [List.foldl_cons, ih]
    by_cases hk : key e = k
    · subst hk
      simp [put, under]
    · have hput : put key upd t e k = t k := Function.update_of_ne (Ne.symm hk) ..
      have hunder : under key k (e :: es) = under key k es := by simp [under, hk]
      rw [hput, hunder]

theorem mem_under {key : ε → κ} {k : κ} {es : List ε} {e : ε} :
    e ∈ under key k es ↔ e ∈ es ∧ key e = k := by
  simp [under]

theorem under_eq_nil_iff {key : ε → κ} {k : κ} {es : List ε} :
    under key k es = [] ↔ k ∉ es.map key := by
  simp [under, List.filter_eq_nil_iff]

theorem under_map {δ : Type*} {key : ε → κ} {key' : δ → κ} {f : ε → δ} (h : ∀ e, key' (f e) = key e)
    (k : κ) (es : List ε) : under key' k (es.map f) = (under key k es).map f := by
  simp [under, List.filter_map, Function.comp_def, h]

/-- The last entry with a key, and what comes after it. -/
theorem getLast?_under_eq_some {key : ε → κ} {k : κ} {es : List ε} {e : ε} :
    (under key k es).getLast? = some e ↔
      ∃ pre post, es = pre ++ e :: post ∧ key e = k ∧ ∀ e' ∈ post, key e' ≠ k := by
  constructor
  · intro h
    obtain ⟨ys, hys⟩ := List.getLast?_eq_some_iff.mp h
    obtain ⟨l₁, l₂, rfl, -, h₂⟩ := List.filter_eq_append_iff.mp hys
    obtain ⟨l₃, l₄, rfl, -, hk, hnil⟩ := List.filter_eq_cons_iff.mp h₂
    refine ⟨l₁ ++ l₃, l₄, by simp, of_decide_eq_true hk, fun e' he' => ?_⟩
    simpa using List.filter_eq_nil_iff.mp hnil e' he'
  · rintro ⟨pre, post, rfl, rfl, hpost⟩
    have hnil : post.filter (fun e' => decide (key e' = key e)) = [] := by
      simpa [List.filter_eq_nil_iff] using hpost
    simp [under, hnil]

/-- Where keys do not repeat, an entry is the only one with its key. -/
theorem under_of_nodup {key : ε → κ} {es : List ε} (h : (es.map key).Nodup) {e : ε} (he : e ∈ es) :
    under key (key e) es = [e] := by
  induction es with
  | nil => cases he
  | cons e' es ih =>
    obtain ⟨hnew, hrest⟩ := List.nodup_cons.mp h
    rcases List.mem_cons.mp he with rfl | he
    · have hnil : under key (key e) es = [] := under_eq_nil_iff.mpr hnew
      unfold under at hnil ⊢
      rw [List.filter_cons, if_pos (by simp), hnil]
    · have hne : key e' ≠ key e := fun heq => hnew (heq ▸ List.mem_map_of_mem he)
      have hrest := ih hrest he
      unfold under at hrest ⊢
      rw [List.filter_cons, if_neg (by simpa using hne), hrest]

/-- Of two entries of a list, one comes after the other unless they are the same. -/
theorem after_or_after {pre post pre' post' : List ε} {e e' : ε}
    (h : pre ++ e :: post = pre' ++ e' :: post') : e = e' ∨ e' ∈ post ∨ e ∈ post' := by
  rcases List.append_eq_append_iff.mp h with ⟨as, -, has⟩ | ⟨as, -, has⟩
  · cases as with
    | nil => exact .inl (List.cons.inj has).1
    | cons a as => exact .inr (.inl (by simp [(List.cons.inj has).2]))
  · cases as with
    | nil => exact .inl (List.cons.inj has).1.symm
    | cons a as => exact .inr (.inr (by simp [(List.cons.inj has).2]))

/-- Rewrite the rows under the keys of all entries, and drop the rows no entry has the key of. -/
def sync (key : ε → κ) (upd : Option β → ε → Option β) (es : List ε) (t : κ → Option β) (k : κ) :
    Option β :=
  if k ∈ es.map key then es.foldl (put key upd) t k else none

end Rows

section Wins

variable {upd : Option β → ε → Option β}

/-- Of two entries for one row, only the later one shows. -/
def LastWins (key : ε → κ) (upd : Option β → ε → Option β) : Prop :=
  ∀ o e e', key e = key e' → upd (upd o e) e' = upd o e'

/-- Of two entries for one row, only the earlier one shows. -/
def FirstWins (upd : Option β → ε → Option β) : Prop := ∀ o e e', upd (upd o e) e' = upd o e

theorem LastWins.foldl {key : ε → κ} (h : LastWins key upd) {k : κ} {es : List ε}
    (hes : ∀ e ∈ es, key e = k) (o : Option β) : es.foldl upd o = es.getLast?.elim o (upd o) := by
  induction es generalizing o with
  | nil => rfl
  | cons e es ih =>
    have hes' : ∀ e' ∈ es, key e' = k := fun e' he' => hes e' (List.mem_cons_of_mem _ he')
    rw [List.foldl_cons, ih hes', List.getLast?_cons]
    cases hlast : es.getLast? with
    | none => rfl
    | some e' =>
      have he' : key e' = k := hes' e' (List.mem_of_getLast? hlast)
      exact h o e e' ((hes e List.mem_cons_self).trans he'.symm)

theorem FirstWins.foldl (h : FirstWins upd) (o : Option β) (es : List ε) :
    es.foldl upd o = es.head?.elim o (upd o) := by
  cases es with
  | nil => rfl
  | cons e es =>
    rw [List.foldl_cons]
    induction es with
    | nil => rfl
    | cons e' es ih => rw [List.foldl_cons, h, ih, List.head?_cons, List.head?_cons]

variable [DecidableEq κ]

/-- A row that is only inserted into shows the first entry with its key. -/
theorem FirstWins.foldl_put (h : FirstWins upd) (key : ε → κ) (t : κ → Option β) (es : List ε)
    (k : κ) : es.foldl (put key upd) t k = (under key k es).head?.elim (t k) (upd (t k)) := by
  rw [KeyedTable.foldl_put, h.foldl]

/-- A synchronised row is what the last entry with its key makes of the row before. -/
theorem LastWins.sync {key : ε → κ} (h : LastWins key upd) (es : List ε) (t : κ → Option β)
    (k : κ) : sync key upd es t k = (under key k es).getLast?.bind (upd (t k)) := by
  unfold KeyedTable.sync
  split_ifs with hk
  · rw [foldl_put, h.foldl fun e he => (mem_under.mp he).2]
    cases hlast : (under key k es).getLast? with
    | none => exact absurd hk (under_eq_nil_iff.mp (List.getLast?_eq_none_iff.mp hlast))
    | some e => rfl
  · rw [under_eq_nil_iff.mpr hk]
    rfl

end Wins

section Lookup

variable [DecidableEq κ]

theorem lookup_filter_key (p : κ → Bool) (l : List (κ × β)) (k : κ) :
    (l.filter fun e => p e.1).lookup k = if p k then l.lookup k else none := by
  induction l with
  | nil => simp
  | cons e l ih =>
    obtain ⟨k₀, b₀⟩ := e
    by_cases hk : k = k₀
    · subst hk
      by_cases hp : p k
      · simp [hp]
      · simp [hp, ih]
    · have hk' : (k == k₀) = false := by simpa using hk
      by_cases hp : p k₀ <;> simp [hp, hk', List.lookup_cons, ih]

theorem lookup_map_key (k : κ) (b : β) (l : List (κ × β)) (k' : κ) :
    (l.map fun e => if e.1 = k then (e.1, b) else e).lookup k' =
      if k' = k then (l.lookup k).map fun _ => b else l.lookup k' := by
  induction l with
  | nil => simp
  | cons e l ih =>
    obtain ⟨k₀, b₀⟩ := e
    have hhead : (if k₀ = k then (k₀, b) else (k₀, b₀)) = (k₀, if k₀ = k then b else b₀) := by
      split <;> rfl
    rw [List.map_cons, hhead, List.lookup_cons, ih, List.lookup_cons, List.lookup_cons]
    by_cases hk : k' = k₀
    · subst hk
      by_cases hk : k' = k
      · subst hk
        simp
      · simp [hk]
    · have hk' : (k' == k₀) = false := by simpa using hk
      by_cases hkk : k' = k
      · subst hkk
        simp [hk']
      · simp [hk', hkk]

theorem lookup_isSome_iff {l : List (κ × β)} {k : κ} :
    (l.lookup k).isSome ↔ k ∈ l.map Prod.fst := by
  induction l with
  | nil => simp
  | cons e l ih =>
    obtain ⟨k₀, b₀⟩ := e
    by_cases hk : k = k₀
    · simp [hk]
    · have hk' : (k == k₀) = false := by simpa using hk
      simp [hk, hk', List.lookup_cons, ih]

theorem mem_of_lookup {l : List (κ × β)} {k : κ} {b : β} (h : l.lookup k = some b) :
    (k, b) ∈ l := by
  induction l with
  | nil => cases h
  | cons e l ih =>
    obtain ⟨k₀, b₀⟩ := e
    rw [List.lookup_cons] at h
    by_cases hk : k = k₀
    · subst hk
      obtain rfl : b₀ = b := by simpa using h
      exact List.mem_cons_self
    · have hk' : (k == k₀) = false := by simpa using hk
      rw [hk'] at h
      exact List.mem_cons_of_mem _ (ih h)

theorem lookup_of_mem {l : List (κ × β)} (hl : (l.map Prod.fst).Nodup) {k : κ} {b : β}
    (h : (k, b) ∈ l) : l.lookup k = some b := by
  induction l with
  | nil => cases h
  | cons e l ih =>
    obtain ⟨k₀, b₀⟩ := e
    obtain ⟨hnew, hl⟩ := List.nodup_cons.mp hl
    rcases List.mem_cons.mp h with heq | hmem
    · obtain ⟨rfl, rfl⟩ := Prod.mk.inj heq
      simp
    · have hk : k ≠ k₀ := by
        rintro rfl
        exact hnew (List.mem_map.mpr ⟨_, hmem, rfl⟩)
      have hk' : (k == k₀) = false := by simpa using hk
      rw [List.lookup_cons, hk', ih hl hmem]

/-- The order of a table with distinct keys does not matter to a lookup. -/
theorem lookup_perm {l l' : List (κ × β)} (hperm : l.Perm l') (hl : (l.map Prod.fst).Nodup)
    (k : κ) : l.lookup k = l'.lookup k := by
  have hl' : (l'.map Prod.fst).Nodup := (hperm.map Prod.fst).nodup_iff.mp hl
  cases hk : l.lookup k with
  | none =>
    rw [eq_comm, ← Option.not_isSome_iff_eq_none, lookup_isSome_iff,
      ← (hperm.map Prod.fst).mem_iff, ← lookup_isSome_iff, hk]
    exact Bool.false_ne_true
  | some b => exact (lookup_of_mem hl' (hperm.mem_iff.mp (mem_of_lookup hk))).symm

end Lookup

end KeyedTable
