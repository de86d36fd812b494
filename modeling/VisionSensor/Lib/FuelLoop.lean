import Mathlib.Data.List.Induction
import Mathlib.Order.Basic
import VisionSensor.Lib.GuardedRun

/-! Loops that need not end. A loop is run for a number of rounds, its fuel; it ends if some fuel is
enough. A step with a loop in it takes the fuel along, and a run of such steps ends if some fuel is
enough for all of them. -/
namespace FuelLoop
open GuardedRun

variable {σ τ α : Type*}

/-- At most `fuel` rounds of a loop whose body goes on with `inl` and leaves with `inr`. -/
def loop (body : σ → σ ⊕ τ) : ℕ → σ → Option τ
  | 0, _ => none
  | fuel + 1, s =>
      match body s with
      | .inl s' => loop body fuel s'
      | .inr t => some t

section Rules

variable {body : σ → σ ⊕ τ} {s : σ} {t u : τ} {m n : ℕ}

theorem loop_inl {s' : σ} (h : body s = .inl s') (n : ℕ) :
    loop body (n + 1) s = loop body n s' := by
  rw [loop, h]

theorem loop_inr (h : body s = .inr t) (n : ℕ) : loop body (n + 1) s = some t := by
  rw [loop, h]

/-- More fuel does not change what a loop ends with. -/
theorem loop_mono (hle : m ≤ n) (h : loop body m s = some t) : loop body n s = some t := by
  induction m generalizing s n with
  | zero => cases h
  | succ m ih =>
    obtain ⟨k, rfl⟩ := Nat.exists_eq_add_of_lt (Nat.lt_of_succ_le hle)
    cases hbody : body s with
    | inl s' =>
      rw [loop_inl hbody] at h ⊢
      exact ih (Nat.le_add_right m k) h
    | inr t' =>
      rw [loop_inr hbody] at h ⊢
      exact h

/-- The rule of partial correctness. -/
theorem loop_spec {I : σ → Prop} {Q : τ → Prop} (hI : ∀ s s', I s → body s = .inl s' → I s')
    (hQ : ∀ s t, I s → body s = .inr t → Q t) (hs : I s) (h : loop body n s = some t) : Q t := by
  induction n generalizing s with
  | zero => cases h
  | succ n ih =>
    cases hbody : body s with
    | inl s' =>
      rw [loop_inl hbody] at h
      exact ih (hI s s' hs hbody) h
    | inr t' =>
      rw [loop_inr hbody] at h
      exact Option.some.inj h ▸ hQ s t' hs hbody

/-- A loop with a variant ends. -/
theorem loop_ends {I : σ → Prop} (μ : σ → ℕ)
    (hI : ∀ s s', I s → body s = .inl s' → I s' ∧ μ s' < μ s) (hs : I s) :
    ∃ n t, loop body n s = some t := by
  induction hμ : μ s using Nat.strongRecOn generalizing s with
  | _ k ih =>
    subst hμ
    cases hbody : body s with
    | inl s' =>
      obtain ⟨hs', hless⟩ := hI s s' hs hbody
      obtain ⟨n, t, ht⟩ := ih (μ s') hless hs' rfl
      exact ⟨n + 1, t, by rw [loop_inl hbody, ht]⟩
    | inr t => exact ⟨1, t, loop_inr hbody 0⟩

/-- A loop that stays where its body goes on never ends. -/
theorem loop_eq_none {I : σ → Prop} (hI : ∀ s, I s → ∃ s', body s = .inl s' ∧ I s') (hs : I s)
    (n : ℕ) : loop body n s = none := by
  induction n generalizing s with
  | zero => rfl
  | succ n ih =>
    obtain ⟨s', hbody, hs'⟩ := hI s hs
    rw [loop_inl hbody, ih hs']

end Rules

section Runs

/-- More fuel does not change what a step ends with. -/
def FuelMono (step : ℕ → σ → α → Option σ) : Prop :=
  ∀ m n s a t, m ≤ n → step m s a = some t → step n s a = some t

variable {step : ℕ → σ → α → Option σ} {s t u : σ} {as : List α} {m n : ℕ}

theorem exec_mono (hmono : FuelMono step) (hle : m ≤ n) (h : exec (step m) s as = some t) :
    exec (step n) s as = some t := by
  induction as generalizing s with
  | nil => exact h
  | cons a as ih =>
    obtain ⟨v, hv, ht⟩ := Option.bind_eq_some_iff.mp h
    rw [exec_cons, hmono m n s a v hle hv, Option.bind_some, ih ht]

/-- Whatever fuel was enough, a run ends in the same state. -/
theorem exec_unique (hmono : FuelMono step) (ht : exec (step m) s as = some t)
    (hu : exec (step n) s as = some u) : t = u := by
  have ht' := exec_mono hmono (Nat.le_max_left m n) ht
  have hu' := exec_mono hmono (Nat.le_max_right m n) hu
  exact Option.some.inj (ht'.symm.trans hu')

/-- A longer run takes its last action where the run before it ends. -/
theorem exec_concat_eq_some {step : σ → α → Option σ} {a : α} :
    exec step s (as ++ [a]) = some u ↔ ∃ t, exec step s as = some t ∧ step t a = some u := by
  rw [exec_append, Option.bind_eq_some_iff]
  simp

/-- A run goes on with one more action if that action's step ends. -/
theorem ends_concat (hmono : FuelMono step) {a : α} (hs : exec (step m) s as = some t)
    (ha : step n t a = some u) : exec (step (max m n)) s (as ++ [a]) = some u := by
  exact exec_concat_eq_some.mpr ⟨t, exec_mono hmono (Nat.le_max_left m n) hs,
    hmono n _ t a u (Nat.le_max_right m n) ha⟩

/-- What holds at the start and is kept by every step, of the state and the actions so far. -/
theorem exec_history {I : List α → σ → Prop} (hs : I [] s)
    (hI : ∀ as t a u, I as t → step n t a = some u → I (as ++ [a]) u)
    (h : exec (step n) s as = some t) : I as t := by
  induction as using List.reverseRecOn generalizing t with
  | nil =>
    obtain rfl := Option.some.inj h
    exact hs
  | append_singleton as a ih =>
    obtain ⟨v, hv, ha⟩ := exec_concat_eq_some.mp h
    exact hI as v a t (ih hv) ha

/-- Every action of a longer list, with the actions before it, is one of the list or the last. -/
theorem forall_split_concat {P : List α → α → Prop} (as : List α) (b : α) :
    (∀ pre a post, as ++ [b] = pre ++ a :: post → P pre a) ↔
      (∀ pre a post, as = pre ++ a :: post → P pre a) ∧ P as b := by
  constructor
  · intro h
    refine ⟨fun pre a post hsplit => h pre a (post ++ [b]) ?_, h as b [] rfl⟩
    rw [hsplit, List.append_assoc, List.cons_append]
  · rintro ⟨h, hlast⟩ pre a post hsplit
    rcases List.eq_nil_or_concat post with rfl | ⟨post, d, rfl⟩
    · obtain ⟨rfl, hab⟩ := List.append_inj' hsplit rfl
      obtain rfl := List.singleton_inj.mp hab
      exact hlast
    · rw [List.concat_eq_append, ← List.cons_append, ← List.append_assoc] at hsplit
      exact h pre a post (List.append_inj_left' hsplit rfl)

/-- A condition that decides whether a step ends decides whether the run does. -/
theorem exec_ends_iff (hmono : FuelMono step) {I : σ → Prop} {C : σ → α → Prop}
    (hI : ∀ n s a t, I s → step n s a = some t → I t)
    (hC : ∀ s a, I s → ((∃ n t, step n s a = some t) ↔ C s a)) (hs : I s) (as : List α) :
    (∃ n t, exec (step n) s as = some t) ↔
      ∀ pre a post, as = pre ++ a :: post → ∀ n t, exec (step n) s pre = some t → C t a := by
  have hinv : ∀ pre n t, exec (step n) s pre = some t → I t := fun pre n t h =>
    exec_history (I := fun _ => I) hs (fun _ s a t => hI n s a t) h
  constructor
  · rintro ⟨n, t, h⟩ pre a post rfl m v hv
    rw [exec_append] at h
    obtain ⟨w, hw, hrest⟩ := Option.bind_eq_some_iff.mp h
    obtain ⟨u, hu, -⟩ := Option.bind_eq_some_iff.mp hrest
    obtain rfl := exec_unique hmono hv hw
    exact (hC v a (hinv pre m v hv)).mp ⟨n, u, hu⟩
  · intro h
    induction as using List.reverseRecOn with
    | nil => exact ⟨0, s, rfl⟩
    | append_singleton as a ih =>
      obtain ⟨hbefore, hlast⟩ := (forall_split_concat as a).mp h
      obtain ⟨m, t, ht⟩ := ih hbefore
      obtain ⟨n, u, hu⟩ := (hC t a (hinv as m t ht)).mpr (hlast m t ht)
      exact ⟨max m n, u, ends_concat hmono ht hu⟩

/-- If only the action decides whether a step ends, a run ends exactly when each of its actions is
one of those. -/
theorem exec_ends_iff_forall (hmono : FuelMono step) {C : α → Prop}
    (hC : ∀ s a, (∃ n t, step n s a = some t) ↔ C a) (s : σ) (as : List α) :
    (∃ n t, exec (step n) s as = some t) ↔ ∀ a ∈ as, C a := by
  constructor
  · rintro ⟨n, t, h⟩ a ha
    obtain ⟨pre, post, rfl⟩ := List.append_of_mem ha
    rw [exec_append] at h
    obtain ⟨v, -, h⟩ := Option.bind_eq_some_iff.mp h
    obtain ⟨u, hu, -⟩ := Option.bind_eq_some_iff.mp h
    exact (hC v a).mp ⟨n, u, hu⟩
  · intro h
    induction as using List.reverseRecOn with
    | nil => exact ⟨0, s, rfl⟩
    | append_singleton as a ih =>
      obtain ⟨m, t, ht⟩ := ih fun b hb => h b (List.mem_append_left _ hb)
      obtain ⟨n, u, hu⟩ := (hC t a).mpr (h a (by simp))
      exact ⟨max m n, u, ends_concat hmono ht hu⟩

end Runs

end FuelLoop
