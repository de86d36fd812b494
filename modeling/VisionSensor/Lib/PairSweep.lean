import Mathlib.Data.List.Basic

/-! Thinning a list by comparing its entries in pairs. Each entry in turn is held against the ones
behind it; of two that hit each other one is struck out. When the entry itself is struck, the next
one takes its place and is passed over. -/
namespace PairSweep

variable {α : Type*} (hit loses : α → α → Bool)

/-- Hold `x` against a list: whether `x` is struck out, and what is left of the list. -/
def strike (x : α) : List α → Bool × List α
  | [] => (false, [])
  | r :: rs =>
      if hit x r then
        if loses x r then (true, r :: rs) else strike x rs
      else ((strike x rs).1, r :: (strike x rs).2)

variable {hit loses} in
theorem strike_pass {x r : α} (h : hit x r = false) (rs : List α) :
    strike hit loses x (r :: rs) =
      ((strike hit loses x rs).1, r :: (strike hit loses x rs).2) := by
  simp [strike, h]

variable {hit loses} in
theorem strike_lose {x r : α} (h : hit x r = true) (hl : loses x r = true) (rs : List α) :
    strike hit loses x (r :: rs) = (true, r :: rs) := by
  simp [strike, h, hl]

variable {hit loses} in
theorem strike_win {x r : α} (h : hit x r = true) (hl : loses x r = false) (rs : List α) :
    strike hit loses x (r :: rs) = strike hit loses x rs := by
  simp [strike, h, hl]

theorem strike_sublist (x : α) (rs : List α) : (strike hit loses x rs).2.Sublist rs := by
  induction rs with
  | nil => exact .slnil
  | cons r rs ih =>
    unfold strike
    split_ifs
    · exact .refl _
    · exact ih.cons r
    · exact ih.cons_cons r

def sweep : List α → List α
  | [] => []
  | x :: rs =>
      match _h : strike hit loses x rs with
      | (false, rest) => x :: sweep rest
      | (true, []) => []
      | (true, y :: ys) => y :: sweep ys
termination_by l => l.length
decreasing_by
  all_goals
    have hlen := (strike_sublist hit loses x rs).length_le
    rw [_h] at hlen
    simp only [List.length_cons] at hlen ⊢
    omega

/-- Whenever an entry is struck out, the one that takes its place hits none behind it. -/
inductive SkipsClear : List α → Prop
  | nil : SkipsClear []
  | keep {x : α} {rs rest : List α} :
      strike hit loses x rs = (false, rest) → SkipsClear rest → SkipsClear (x :: rs)
  | skip {x y : α} {rs ys : List α} :
      strike hit loses x rs = (true, y :: ys) → (∀ z ∈ ys, hit y z = false) → SkipsClear ys →
      SkipsClear (x :: rs)

variable {hit loses}

theorem sweep_keep {x : α} {rs rest : List α} (h : strike hit loses x rs = (false, rest)) :
    sweep hit loses (x :: rs) = x :: sweep hit loses rest := by
  rw [sweep]
  split <;> simp_all

theorem sweep_skip {x y : α} {rs ys : List α} (h : strike hit loses x rs = (true, y :: ys)) :
    sweep hit loses (x :: rs) = y :: sweep hit loses ys := by
  rw [sweep]
  split <;> simp_all

/-- An entry is struck out by one that stays. -/
theorem strike_true {x : α} {rs rest : List α} (h : strike hit loses x rs = (true, rest)) :
    ∃ y ys, rest = y :: ys := by
  induction rs generalizing rest with
  | nil => simp [strike] at h
  | cons r rs ih =>
    unfold strike at h
    split_ifs at h
    · exact ⟨r, rs, (Prod.mk.inj h).2.symm⟩
    · exact ih h
    · exact ⟨r, _, (Prod.mk.inj h).2.symm⟩

/-- An entry that is not struck out hits nothing of what is left. -/
theorem strike_false {x : α} {rs rest : List α} (h : strike hit loses x rs = (false, rest)) :
    ∀ z ∈ rest, hit x z = false := by
  induction rs generalizing rest with
  | nil =>
    obtain rfl : [] = rest := (Prod.mk.inj h).2
    simp
  | cons r rs ih =>
    unfold strike at h
    split_ifs at h with hr
    · simp at h
    · exact ih h
    · obtain ⟨h1, rfl⟩ := Prod.mk.inj h
      intro z hz
      rcases List.mem_cons.mp hz with rfl | hz
      · simpa using hr
      · exact ih (Prod.ext h1 rfl) z hz

variable (hit loses) in
/-- The recursion of the sweep, as an induction rule. -/
theorem sweep_induction {P : List α → Prop} (nil : P [])
    (keep : ∀ x rs rest, strike hit loses x rs = (false, rest) → P rest → P (x :: rs))
    (skip : ∀ x rs y ys, strike hit loses x rs = (true, y :: ys) → P ys → P (x :: rs))
    (l : List α) : P l := by
  induction hn : l.length using Nat.strongRecOn generalizing l with
  | ind n ih =>
    cases l with
    | nil => exact nil
    | cons x rs =>
      have hlen := (strike_sublist hit loses x rs).length_le
      simp only [List.length_cons] at hn
      rcases hs : strike hit loses x rs with ⟨struck, rest⟩
      rw [hs] at hlen
      cases struck with
      | false => exact keep x rs rest hs (ih _ (by simp at hlen; omega) rest rfl)
      | true =>
        obtain ⟨y, ys, rfl⟩ := strike_true hs
        exact skip x rs y ys hs (ih _ (by simp at hlen; omega) ys rfl)

@[simp] theorem sweep_nil : sweep hit loses [] = [] := by rw [sweep]

theorem sweep_sublist (l : List α) : (sweep hit loses l).Sublist l := by
  induction l using sweep_induction hit loses with
  | nil => rw [sweep_nil]
  | keep x rs rest h ih =>
    have hs := strike_sublist hit loses x rs
    rw [h] at hs
    rw [sweep_keep h]
    exact (ih.trans hs).cons_cons x
  | skip x rs y ys h ih =>
    have hs := strike_sublist hit loses x rs
    rw [h] at hs
    rw [sweep_skip h]
    exact ((ih.cons_cons y).trans hs).cons x

/-- If the entries passed over hit nothing behind them, no two entries that are left hit each
other. -/
theorem sweep_pairwise {l : List α} (h : SkipsClear hit loses l) :
    (sweep hit loses l).Pairwise fun x y => hit x y = false := by
  induction h with
  | nil =>
    rw [sweep_nil]
    exact .nil
  | keep hs _ ih =>
    rw [sweep_keep hs]
    exact ih.cons fun z hz => strike_false hs z ((sweep_sublist _).subset hz)
  | skip hs hy _ ih =>
    rw [sweep_skip hs]
    exact ih.cons fun z hz => hy z ((sweep_sublist _).subset hz)

variable (loses) in
/-- A list without hits is left as it is. -/
theorem sweep_of_clear {l : List α} (h : l.Pairwise fun x y => hit x y = false) :
    sweep hit loses l = l := by
  have hstrike : ∀ (x : α) (rs : List α), (∀ r ∈ rs, hit x r = false) →
      strike hit loses x rs = (false, rs) := by
    intro x rs hrs
    induction rs with
    | nil => rfl
    | cons r rs ih =>
      rw [strike_pass (hrs r List.mem_cons_self), ih fun r' hr' => hrs r' (List.mem_cons_of_mem r hr')]
  induction h with
  | nil => exact sweep_nil
  | cons hx _ ih => rw [sweep_keep (hstrike _ _ hx), ih]

theorem sweep_ne_nil {l : List α} (h : l ≠ []) : sweep hit loses l ≠ [] := by
  cases l with
  | nil => exact absurd rfl h
  | cons x rs =>
    rcases hs : strike hit loses x rs with ⟨struck, rest⟩
    cases struck with
    | false =>
      rw [sweep_keep hs]
      exact List.cons_ne_nil _ _
    | true =>
      obtain ⟨y, ys, rfl⟩ := strike_true hs
      rw [sweep_skip hs]
      exact List.cons_ne_nil _ _

/-- What is struck out of the list by `x` hits it, and does not beat it. -/
theorem strike_struck {x a : α} {rs : List α} (ha : a ∈ rs)
    (hout : a ∉ (strike hit loses x rs).2) : hit x a = true ∧ loses x a = false := by
  induction rs with
  | nil => simp at ha
  | cons r rs ih =>
    by_cases hr : hit x r = true
    · cases hl : loses x r with
      | true =>
        rw [strike_lose hr hl] at hout
        exact absurd ha hout
      | false =>
        rw [strike_win hr hl] at hout
        rcases List.mem_cons.mp ha with rfl | ha
        · exact ⟨hr, hl⟩
        · exact ih ha hout
    · rw [strike_pass (Bool.not_eq_true _ ▸ hr), List.mem_cons, not_or] at hout
      rcases List.mem_cons.mp ha with rfl | ha
      · exact absurd rfl hout.1
      · exact ih ha hout.2

/-- `x` itself is struck out by an entry that it hits and that beats it. -/
theorem strike_by {x : α} {rs rest : List α} (h : strike hit loses x rs = (true, rest)) :
    ∃ r ∈ rs, hit x r = true ∧ loses x r = true := by
  induction rs generalizing rest with
  | nil => simp [strike] at h
  | cons r rs ih =>
    unfold strike at h
    split_ifs at h with hr hl
    · exact ⟨r, List.mem_cons_self, hr, hl⟩
    · obtain ⟨r', hr', hhit⟩ := ih h
      exact ⟨r', List.mem_cons_of_mem _ hr', hhit⟩
    · obtain ⟨r', hr', hhit⟩ := ih (Prod.ext (Prod.mk.inj h).1 rfl)
      exact ⟨r', List.mem_cons_of_mem _ hr', hhit⟩

/-- An entry that hits `a`, other than `a`, and does not rank below it. -/
def Dominated (hit : α → α → Bool) (le : α → α → Prop) (l : List α) (a : α) : Prop :=
  ∃ b ∈ l, b ≠ a ∧ hit a b = true ∧ le a b

theorem Dominated.mono {le : α → α → Prop} {l l' : List α} {a : α} (hsub : l ⊆ l')
    (h : Dominated hit le l a) : Dominated hit le l' a := by
  obtain ⟨b, hb, h⟩ := h
  exact ⟨b, hsub hb, h⟩

/-- Whatever a sweep strikes out is dominated, if the one that loses never ranks above the
other one. -/
theorem sweep_dominated {le : α → α → Prop} (hsymm : ∀ a b, hit a b = hit b a)
    (hloses : ∀ a b, loses a b = true → le a b) (hwins : ∀ a b, loses a b = false → le b a)
    {l : List α} (hl : l.Nodup) {a : α} (ha : a ∈ l) (hout : a ∉ sweep hit loses l) :
    Dominated hit le l a := by
  -- the entry `a` behind `x` is struck out by `x`, or the list left behind has to answer for it
  have hbehind : ∀ x rs, (x :: rs).Nodup → a ∈ rs →
      (a ∈ (strike hit loses x rs).2 → Dominated hit le (strike hit loses x rs).2 a) →
      Dominated hit le (x :: rs) a := by
    intro x rs hx ha hleft
    by_cases hmem : a ∈ (strike hit loses x rs).2
    · apply (hleft hmem).mono
      exact List.Subset.trans (strike_sublist hit loses x rs).subset (List.subset_cons_self x rs)
    · obtain ⟨hhit, hlose⟩ := strike_struck ha hmem
      refine ⟨x, List.mem_cons_self, ?_, (hsymm a x).trans hhit, hwins x a hlose⟩
      rintro rfl
      exact (List.nodup_cons.mp hx).1 ha
  induction l using sweep_induction hit loses with
  | nil => simp at ha
  | keep x rs rest hs ih =>
    rw [sweep_keep hs, List.mem_cons, not_or] at hout
    have hrest := (strike_sublist hit loses x rs).nodup (List.nodup_cons.mp hl).2
    rw [hs] at hrest
    apply hbehind x rs hl ((List.mem_cons.mp ha).resolve_left hout.1)
    intro hmem
    rw [hs] at hmem ⊢
    exact ih hrest hmem hout.2
  | skip x rs y ys hs ih =>
    rw [sweep_skip hs, List.mem_cons, not_or] at hout
    have hrest := (strike_sublist hit loses x rs).nodup (List.nodup_cons.mp hl).2
    rw [hs] at hrest
    rcases List.mem_cons.mp ha with rfl | ha
    · obtain ⟨r, hr, hhit, hlose⟩ := strike_by hs
      refine ⟨r, List.mem_cons_of_mem _ hr, ?_, hhit, hloses a r hlose⟩
      rintro rfl
      exact (List.nodup_cons.mp hl).1 hr
    · apply hbehind x rs hl ha
      intro hmem
      rw [hs] at hmem ⊢
      have hys := (List.mem_cons.mp hmem).resolve_left hout.1
      exact (ih (List.nodup_cons.mp hrest).2 hys hout.2).mono (List.subset_cons_self y ys)

variable (hit loses) in
theorem strike_map {β : Type*} (f : β → α) (x : β) (rs : List β) :
    strike hit loses (f x) (rs.map f) =
      ((strike (fun a b => hit (f a) (f b)) (fun a b => loses (f a) (f b)) x rs).1,
        (strike (fun a b => hit (f a) (f b)) (fun a b => loses (f a) (f b)) x rs).2.map f) := by
  induction rs with
  | nil => rfl
  | cons r rs ih =>
    simp only [List.map_cons, strike]
    split_ifs
    · rfl
    · exact ih
    · rw [ih, List.map_cons]

/-- A sweep looks at the entries only through the two tests. -/
theorem sweep_map {β : Type*} (f : β → α) (l : List β) :
    sweep hit loses (l.map f) =
      (sweep (fun a b => hit (f a) (f b)) (fun a b => loses (f a) (f b)) l).map f := by
  induction l using sweep_induction (fun a b => hit (f a) (f b))
    (fun a b => loses (f a) (f b)) with
  | nil => simp
  | keep x rs rest hs ih =>
    have hmap := strike_map hit loses f x rs
    rw [hs] at hmap
    rw [sweep_keep hs, List.map_cons, sweep_keep hmap, ih, List.map_cons]
  | skip x rs y ys hs ih =>
    have hmap := strike_map hit loses f x rs
    rw [hs, List.map_cons] at hmap
    rw [sweep_skip hs, List.map_cons, sweep_skip hmap, ih, List.map_cons]

end PairSweep
