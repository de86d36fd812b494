import Mathlib.Data.List.Basic
import Mathlib.Tactic.TypeStar

/-! Runs of a partial step function, and the rules that turn a condition on the
single steps of a run into a property of every state the run visits. -/
namespace GuardedRun

variable {σ τ α β : Type*}

/-- The state after a list of actions; `none` once an action is not enabled. -/
def exec (step : σ → α → Option σ) : σ → List α → Option σ
  | s, [] => some s
  | s, a :: as => (step s a).bind fun t => exec step t as

/-- Some beginning of the run ends in `t`. -/
inductive Visits (step : σ → α → Option σ) : σ → List α → σ → Prop
  | here (s : σ) (as : List α) : Visits step s as s
  | later {s u t : σ} {a : α} {as : List α} :
      step s a = some u → Visits step u as t → Visits step s (a :: as) t

/-- The run takes the action `a` in the state `t`. -/
inductive Takes (step : σ → α → Option σ) : σ → List α → σ → α → Prop
  | here {s u : σ} {a : α} {as : List α} :
      step s a = some u → Takes step s (a :: as) s a
  | later {s u t : σ} {a b : α} {as : List α} :
      step s a = some u → Takes step u as t b → Takes step s (a :: as) t b

variable {step : σ → α → Option σ}

@[simp] theorem exec_nil (s : σ) : exec step s [] = some s := rfl

@[simp] theorem exec_cons (s : σ) (a : α) (as : List α) :
    exec step s (a :: as) = (step s a).bind fun t => exec step t as := rfl

theorem exec_append (step : σ → α → Option σ) (s : σ) (as bs : List α) :
    exec step s (as ++ bs) = (exec step s as).bind fun t => exec step t bs := by
  induction as generalizing s with
  | nil => rfl
  | cons a as ih =>
    rw [List.cons_append, exec_cons, exec_cons, Option.bind_assoc]
    exact Option.bind_congr fun u _ => ih u

theorem visits_of_exec {s t : σ} {as : List α} (h : exec step s as = some t) :
    Visits step s as t := by
  induction as generalizing s with
  | nil =>
    obtain rfl : s = t := by simpa using h
    exact .here _ _
  | cons a as ih =>
    obtain ⟨u, hu, ht⟩ := Option.bind_eq_some_iff.mp h
    exact .later hu (ih ht)

/-- Every step of the run that meets `C` keeps `I`: then so does the whole run. -/
theorem guarded_invariant {I : σ → Prop} {C : σ → α → Prop}
    (hstep : ∀ t a u, I t → C t a → step t a = some u → I u)
    {s : σ} {as : List α} (hs : I s) (hok : ∀ t a, Takes step s as t a → C t a)
    {t : σ} (ht : Visits step s as t) : I t := by
  induction ht with
  | here => exact hs
  | later ha _ ih =>
    exact ih (hstep _ _ _ hs (hok _ _ (.here ha)) ha) fun t b hb => hok t b (.later ha hb)

/-- The plain invariant rule: no step needs a condition. -/
theorem invariant {I : σ → Prop} (hstep : ∀ t a u, I t → step t a = some u → I u)
    {s t : σ} {as : List α} (hs : I s) (ht : Visits step s as t) : I t :=
  guarded_invariant (C := fun _ _ => True) (fun t a u h _ => hstep t a u h) hs
    (fun _ _ _ => trivial) ht

/-- An invariant for runs whose actions all satisfy `good`. -/
theorem invariant_of_actions {I : σ → Prop} {good : α → Prop}
    (hstep : ∀ t a u, I t → good a → step t a = some u → I u)
    {s t : σ} {as : List α} (hs : I s) (has : ∀ a ∈ as, good a)
    (ht : Visits step s as t) : I t := by
  induction ht with
  | here => exact hs
  | later ha _ ih =>
    exact ih (hstep _ _ _ hs (has _ List.mem_cons_self) ha)
      fun b hb => has b (List.mem_cons_of_mem _ hb)

theorem takes_mem {s t : σ} {as : List α} {a : α} (h : Takes step s as t a) : a ∈ as := by
  induction h with
  | here => exact List.mem_cons_self
  | later _ _ ih => exact List.mem_cons_of_mem _ ih

/-- A run visits the state before every action it takes. -/
theorem visits_before {s t : σ} {as : List α} {a : α} (h : Takes step s as t a) :
    Visits step s as t := by
  induction h with
  | here _ => exact .here _ _
  | later hu _ ih => exact .later hu ih

/-- A run visits the state after every action it takes. -/
theorem visits_of_takes {s t : σ} {as : List α} {a : α} (h : Takes step s as t a) :
    ∃ u, step t a = some u ∧ Visits step s as u := by
  induction h with
  | here hu => exact ⟨_, hu, .later hu (.here _ _)⟩
  | later hu _ ih =>
    obtain ⟨v, hv, hvisit⟩ := ih
    exact ⟨v, hv, .later hu hvisit⟩

/-- A run that ends takes its last action in some state. -/
theorem takes_last {s u : σ} (as : List α) {a : α} (h : exec step s (as ++ [a]) = some u) :
    ∃ t, Takes step s (as ++ [a]) t a ∧ step t a = some u := by
  induction as generalizing s with
  | nil =>
    obtain ⟨v, hv, hu⟩ := Option.bind_eq_some_iff.mp h
    obtain rfl : v = u := by simpa using hu
    exact ⟨s, .here hv, hv⟩
  | cons b as ih =>
    obtain ⟨v, hv, hu⟩ := Option.bind_eq_some_iff.mp h
    obtain ⟨t, ht, hlast⟩ := ih hu
    exact ⟨t, .later hv ht, hlast⟩

/-- Checks a condition on every step of a concrete run. -/
def checkTakes (step : σ → α → Option σ) (C : σ → α → Prop) [∀ s a, Decidable (C s a)] :
    σ → List α → Bool
  | _, [] => true
  | s, a :: as => decide (C s a) && (step s a).all fun t => checkTakes step C t as

theorem takes_of_checkTakes {C : σ → α → Prop} [∀ s a, Decidable (C s a)] {s t : σ}
    {as : List α} {a : α} (h : checkTakes step C s as = true) (ht : Takes step s as t a) :
    C t a := by
  induction ht with
  | here _ => exact of_decide_eq_true (Bool.and_eq_true_iff.mp h).1
  | later hu _ ih =>
    have hrest := (Bool.and_eq_true_iff.mp h).2
    rw [hu] at hrest
    exact ih hrest

/-- A condition on the steps that decides `Q` after each of them, whatever held before. -/
theorem takes_iff {J Q : σ → Prop} {G : α → Prop} {C : σ → α → Prop}
    (hJ : ∀ t a u, J t → G a → step t a = some u → J u)
    (hQ : ∀ t a u, J t → G a → step t a = some u → (Q u ↔ C t a))
    {s : σ} {as : List α} (hs : J s) (has : ∀ a ∈ as, G a) :
    (∀ t a u, Takes step s as t a → step t a = some u → Q u) ↔
      ∀ t a, Takes step s as t a → C t a := by
  have hbefore : ∀ t a, Takes step s as t a → J t ∧ G a :=
    fun t a ht => ⟨invariant_of_actions hJ hs has (visits_before ht), has a (takes_mem ht)⟩
  constructor
  · intro h t a ht
    obtain ⟨hj, hg⟩ := hbefore t a ht
    obtain ⟨u, hu, -⟩ := visits_of_takes ht
    exact (hQ t a u hj hg hu).mp (h t a u ht hu)
  · intro h t a u ht hu
    obtain ⟨hj, hg⟩ := hbefore t a ht
    exact (hQ t a u hj hg hu).mpr (h t a ht)

/-- A step condition is exact for `P` when, from a state with `P`, it decides `P` after
the step. Then it is exact for whole runs. -/
theorem visits_iff_takes {J P : σ → Prop} {G : α → Prop} {C : σ → α → Prop}
    (hJ : ∀ t a u, J t → G a → step t a = some u → J u)
    (hP : ∀ t a u, J t → P t → G a → step t a = some u → (P u ↔ C t a))
    {s : σ} {as : List α} (hs : J s) (hp : P s) (has : ∀ a ∈ as, G a) :
    (∀ t, Visits step s as t → P t) ↔ ∀ t a, Takes step s as t a → C t a := by
  constructor
  · intro h
    induction as generalizing s with
    | nil => intro t a ht; cases ht
    | cons b bs ih =>
      have hb : G b := has b List.mem_cons_self
      intro t a ht
      cases ht with
      | here hu => exact (hP _ _ _ hs hp hb hu).mp (h _ (.later hu (.here _ _)))
      | later hu hr =>
        exact ih (hJ _ _ _ hs hb hu) (h _ (.later hu (.here _ _)))
          (fun c hc => has c (List.mem_cons_of_mem _ hc))
          (fun v hv => h v (.later hu hv)) t a hr
  · intro h t ht
    have both : J t ∧ P t := by
      refine guarded_invariant (I := fun v => J v ∧ P v)
        (C := fun v a => C v a ∧ G a) ?_ ⟨hs, hp⟩
        (fun v a hv => ⟨h v a hv, has a (takes_mem hv)⟩) ht
      rintro v a u ⟨hj, hv⟩ ⟨hok, hg⟩ hu
      exact ⟨hJ v a u hj hg hu, (hP v a u hj hv hg hu).mpr hok⟩
    exact both.2

/-- If only the action decides whether a step is enabled, a run ends exactly when every action is
one of those. -/
theorem exec_isSome_iff {I : σ → Prop} {C : α → Prop}
    (hI : ∀ s a t, I s → step s a = some t → I t) (hC : ∀ s a, I s → ((step s a).isSome ↔ C a))
    {s : σ} (hs : I s) (as : List α) : (exec step s as).isSome ↔ ∀ a ∈ as, C a := by
  induction as generalizing s with
  | nil => simp
  | cons a as ih =>
    rw [exec_cons, List.forall_mem_cons, ← hC s a hs]
    cases ha : step s a with
    | none => simp
    | some t =>
      rw [Option.bind_some, ih (hI s a t hs ha)]
      simp

end GuardedRun
