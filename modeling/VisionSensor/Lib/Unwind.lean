import Mathlib.Logic.Basic

/-! Computations that end by returning or by throwing and keep their state in both cases: what
they leave unchanged on every exit, and when a bracket of two steps around them is closed. -/
namespace Unwind

universe u v

variable {ε σ α β : Type u} {γ : Type v}

/-- The state a computation ends in, whichever way it ends. -/
def after (x : EStateM ε σ α) (s : σ) : σ :=
  match x s with
  | .ok _ t => t
  | .error _ t => t

def Returns (x : EStateM ε σ α) (s : σ) : Prop := ∃ a t, x s = .ok a t

/-- Every exit of `x` leaves the view of the state as it was. -/
def Frames (view : σ → γ) (x : EStateM ε σ α) : Prop := ∀ s, view (after x s) = view s

/-- A sequence of fallible values. -/
theorem except_bind_eq_ok {x : Except ε α} {f : α → Except ε β} {b : β} :
    x >>= f = .ok b ↔ ∃ a, x = .ok a ∧ f a = .ok b := by
  cases x with
  | error e => exact iff_of_false (fun h => nomatch h) fun ⟨_, h, _⟩ => nomatch h
  | ok a =>
    constructor
    · intro h
      exact ⟨a, rfl, h⟩
    · rintro ⟨a', ha, h⟩
      obtain rfl := Except.ok.inj ha
      exact h

theorem bind_ok {x : EStateM ε σ α} {s t : σ} {a : α} (f : α → EStateM ε σ β)
    (h : x s = .ok a t) : (x >>= f) s = f a t := by
  simp only [bind, EStateM.bind, h]

theorem get_bind (f : σ → EStateM ε σ β) (s : σ) : (get >>= f) s = f s s := rfl

theorem bind_error {x : EStateM ε σ α} {s t : σ} {e : ε} (f : α → EStateM ε σ β)
    (h : x s = .error e t) : (x >>= f) s = .error e t := by
  simp only [bind, EStateM.bind, h]

/-- A sequence returns when both parts do. -/
theorem bind_eq_ok {x : EStateM ε σ α} {f : α → EStateM ε σ β} {s u : σ} {b : β} :
    (x >>= f) s = .ok b u ↔ ∃ a t, x s = .ok a t ∧ f a t = .ok b u := by
  cases h : x s with
  | ok a t =>
    rw [bind_ok f h]
    constructor
    · intro hf
      exact ⟨a, t, rfl, hf⟩
    · rintro ⟨a', t', h', hf⟩
      cases h'
      exact hf
  | error e t =>
    rw [bind_error f h]
    constructor
    · intro hf
      cases hf
    · rintro ⟨a', t', h', -⟩
      cases h'

/-- Only the first part of a sequence that ends in a value can throw. -/
theorem bind_pure_eq_error {x : EStateM ε σ α} {b : β} {s t : σ} {e : ε} :
    (x >>= fun _ => pure b) s = .error e t ↔ x s = .error e t := by
  cases h : x s with
  | ok a u =>
    rw [bind_ok _ h]
    exact iff_of_false (fun h => nomatch h) fun h => nomatch h
  | error e' u =>
    rw [bind_error _ h]
    constructor
    · intro he
      cases he
      rfl
    · intro he
      cases he
      rfl

theorem after_bind_ok {x : EStateM ε σ α} {s t : σ} {a : α} (f : α → EStateM ε σ β)
    (h : x s = .ok a t) : after (x >>= f) s = after (f a) t := by
  simp only [after, bind_ok f h]

theorem after_bind_error {x : EStateM ε σ α} {s t : σ} {e : ε} (f : α → EStateM ε σ β)
    (h : x s = .error e t) : after (x >>= f) s = t := by
  simp only [after, bind_error f h]

/-- The two ways a computation ends. -/
theorem ends (x : EStateM ε σ α) (s : σ) :
    (∃ a, x s = .ok a (after x s)) ∨ ∃ e, x s = .error e (after x s) := by
  unfold after
  cases x s with
  | ok a t => exact .inl ⟨a, rfl⟩
  | error e t => exact .inr ⟨e, rfl⟩

theorem frames_pure (view : σ → γ) (a : α) : Frames view (pure a : EStateM ε σ α) :=
  fun _ => rfl

theorem frames_modify {view : σ → γ} {f : σ → σ} (h : ∀ s, view (f s) = view s) :
    Frames view (modify f : EStateM ε σ PUnit) := h

theorem frames_bind {view : σ → γ} {x : EStateM ε σ α} {f : α → EStateM ε σ β}
    (hx : Frames view x) (hf : ∀ a, Frames view (f a)) : Frames view (x >>= f) := by
  intro s
  rcases ends x s with ⟨a, h⟩ | ⟨e, h⟩
  · rw [after_bind_ok f h, hf a, hx]
  · rw [after_bind_error f h, hx]

/-- A view the rest of a sequence leaves alone is decided by its first part. -/
theorem view_after_bind {view : σ → γ} {x : EStateM ε σ α} {f : α → EStateM ε σ β}
    (hf : ∀ a, Frames view (f a)) (s : σ) : view (after (x >>= f) s) = view (after x s) := by
  rcases ends x s with ⟨a, h⟩ | ⟨e, h⟩
  · rw [after_bind_ok f h]
    exact hf a _
  · rw [after_bind_error f h]

theorem frames_ite {view : σ → γ} {c : Prop} [Decidable c] {x y : EStateM ε σ α}
    (hx : Frames view x) (hy : Frames view y) : Frames view (if c then x else y) := by
  split
  · exact hx
  · exact hy

/-- A body between two steps that only its end undoes: the end is reached exactly when the body
returns, and on every other exit the state still shows the beginning. -/
theorem bracket_view {view : σ → γ} {x : EStateM ε σ α} {y : α → EStateM ε σ β} {s : σ}
    (hx : Frames view x) (h : ¬ Returns x s) : view (after (x >>= y) s) = view s := by
  rcases ends x s with ⟨a, ha⟩ | ⟨e, he⟩
  · exact absurd ⟨a, _, ha⟩ h
  · rw [after_bind_error y he, hx]

theorem returns_bind_iff {x : EStateM ε σ α} {f : α → EStateM ε σ β} {s : σ} :
    Returns (x >>= f) s ↔ ∃ a t, x s = .ok a t ∧ Returns (f a) t := by
  constructor
  · rintro ⟨b, u, h⟩
    obtain ⟨a, t, hx, hf⟩ := bind_eq_ok.mp h
    exact ⟨a, t, hx, b, u, hf⟩
  · rintro ⟨a, t, hx, b, u, hf⟩
    exact ⟨b, u, bind_eq_ok.mpr ⟨a, t, hx, hf⟩⟩

/-- Every exception `x` throws satisfies `P`. -/
def ThrowsOnly (P : ε → Prop) (x : EStateM ε σ α) : Prop := ∀ s e t, x s = .error e t → P e

theorem throwsOnly_pure (P : ε → Prop) (a : α) : ThrowsOnly P (pure a : EStateM ε σ α) :=
  fun _ _ _ h => nomatch h

theorem throwsOnly_throw {P : ε → Prop} {e : ε} (h : P e) :
    ThrowsOnly P (throw e : EStateM ε σ α) := by
  rintro s e' t he
  cases he
  exact h

theorem throwsOnly_bind {P : ε → Prop} {x : EStateM ε σ α} {f : α → EStateM ε σ β}
    (hx : ThrowsOnly P x) (hf : ∀ a, ThrowsOnly P (f a)) : ThrowsOnly P (x >>= f) := by
  intro s e t h
  rcases ends x s with ⟨a, ha⟩ | ⟨e', he⟩
  · rw [bind_ok f ha] at h
    exact hf a _ _ _ h
  · rw [bind_error f he] at h
    obtain ⟨rfl, -⟩ := EStateM.Result.error.inj h
    exact hx _ _ _ he

theorem throwsOnly_modify (P : ε → Prop) (g : σ → σ) :
    ThrowsOnly P (modify g : EStateM ε σ PUnit) :=
  fun _ _ _ h => nomatch h

theorem throwsOnly_get_bind {P : ε → Prop} {f : σ → EStateM ε σ β} (hf : ∀ s, ThrowsOnly P (f s)) :
    ThrowsOnly P (get >>= f) :=
  fun s e t h => hf s s e t h

theorem throwsOnly_ofExcept {P : ε → Prop} {x : Except ε α} (h : ∀ e, x = .error e → P e) :
    ThrowsOnly P (ofExcept x : EStateM ε σ α) := by
  cases x with
  | ok a => exact throwsOnly_pure P a
  | error e =>
    intro s e' t h'
    cases h'
    exact h e rfl

/-- If the one exception `x` can throw is not thrown, `x` returns. -/
theorem returns_of_throwsOnly {e : ε} {x : EStateM ε σ α} {s : σ} (hx : ThrowsOnly (· = e) x)
    (h : ∀ t, x s ≠ .error e t) : Returns x s := by
  rcases ends x s with ⟨a, ha⟩ | ⟨e', he⟩
  · exact ⟨a, _, ha⟩
  · obtain rfl := hx _ _ _ he
    exact absurd he (h _)

/-- A computation that returns does not throw, and the other way round. -/
theorem returns_iff_of_throwsOnly {e : ε} {x : EStateM ε σ α} {s : σ} (hx : ThrowsOnly (· = e) x) :
    Returns x s ↔ ∀ t, x s ≠ .error e t := by
  constructor
  · rintro ⟨a, t, h⟩ t' h'
    rw [h] at h'
    cases h'
  · exact returns_of_throwsOnly hx

theorem throwsOnly_foldlM {P : ε → Prop} {f : β → α → EStateM ε σ β}
    (hf : ∀ b a, ThrowsOnly P (f b a)) (as : List α) (b : β) : ThrowsOnly P (as.foldlM f b) := by
  induction as generalizing b with
  | nil => exact throwsOnly_pure P b
  | cons a as ih =>
    rw [List.foldlM_cons]
    exact throwsOnly_bind (hf b a) ih

theorem throwsOnly_forM {P : ε → Prop} {f : α → EStateM ε σ PUnit} (hf : ∀ a, ThrowsOnly P (f a))
    (as : List α) : ThrowsOnly P (as.forM f) := by
  induction as with
  | nil => exact throwsOnly_pure P _
  | cons a as ih => exact throwsOnly_bind (hf a) fun _ => ih

theorem frames_ofExcept (view : σ → γ) (x : Except ε α) :
    Frames view (ofExcept x : EStateM ε σ α) := by
  cases x <;> exact fun _ => rfl

theorem ofExcept_ok (a : α) : (ofExcept (.ok a : Except ε α) : EStateM ε σ α) = pure a := rfl

@[simp] theorem ofExcept_apply_ok {x : Except ε α} {s t : σ} {a : α} :
    (ofExcept x : EStateM ε σ α) s = .ok a t ↔ x = .ok a ∧ s = t := by
  cases x with
  | ok b =>
    constructor
    · intro h
      cases h
      exact ⟨rfl, rfl⟩
    · rintro ⟨h, rfl⟩
      cases h
      rfl
  | error e =>
    constructor
    · intro h
      cases h
    · rintro ⟨h, -⟩
      cases h

/-- Every exit of `x` keeps `I`. -/
def Keeps (I : σ → Prop) (x : EStateM ε σ α) : Prop := ∀ s, I s → I (after x s)

theorem keeps_pure (I : σ → Prop) (a : α) : Keeps I (pure a : EStateM ε σ α) := fun _ h => h

theorem keeps_throw (I : σ → Prop) (e : ε) : Keeps I (throw e : EStateM ε σ α) := fun _ h => h

theorem keeps_modify {I : σ → Prop} {g : σ → σ} (h : ∀ s, I s → I (g s)) :
    Keeps I (modify g : EStateM ε σ PUnit) := h

theorem keeps_ofExcept (I : σ → Prop) (x : Except ε α) :
    Keeps I (ofExcept x : EStateM ε σ α) := by
  cases x <;> exact fun _ h => h

theorem keeps_ofExcept_bind {I : σ → Prop} {x : Except ε α} {f : α → EStateM ε σ β}
    (hf : ∀ a, x = .ok a → Keeps I (f a)) : Keeps I (ofExcept x >>= f) := by
  cases x with
  | ok a => exact hf a rfl
  | error e => exact fun _ h => h

theorem keeps_bind {I : σ → Prop} {x : EStateM ε σ α} {f : α → EStateM ε σ β}
    (hx : Keeps I x) (hf : ∀ a, Keeps I (f a)) : Keeps I (x >>= f) := by
  intro s hs
  have hafter := hx s hs
  rcases ends x s with ⟨a, h⟩ | ⟨e, h⟩
  · rw [after_bind_ok f h]
    exact hf a _ hafter
  · rw [after_bind_error f h]
    exact hafter

theorem keeps_get_bind {I : σ → Prop} {f : σ → EStateM ε σ β} (hf : ∀ s, Keeps I (f s)) :
    Keeps I (get >>= f) :=
  fun s hs => hf s s hs

theorem keeps_ite {I : σ → Prop} {c : Prop} [Decidable c] {x y : EStateM ε σ α}
    (hx : Keeps I x) (hy : Keeps I y) : Keeps I (if c then x else y) := by
  split
  · exact hx
  · exact hy

theorem keeps_foldlM {I : σ → Prop} {f : β → α → EStateM ε σ β} (hf : ∀ b a, Keeps I (f b a))
    (as : List α) (b : β) : Keeps I (as.foldlM f b) := by
  induction as generalizing b with
  | nil => exact keeps_pure I b
  | cons a as ih =>
    rw [List.foldlM_cons]
    exact keeps_bind (hf b a) ih

theorem keeps_forM {I : σ → Prop} {f : α → EStateM ε σ PUnit} (hf : ∀ a, Keeps I (f a))
    (as : List α) : Keeps I (as.forM f) := by
  induction as with
  | nil => exact keeps_pure I _
  | cons a as ih => exact keeps_bind (hf a) fun _ => ih

/-- Run a computation on a component of the state. -/
def zoom {τ : Type u} (get : σ → τ) (set : τ → σ → σ) (x : EStateM ε τ α) : EStateM ε σ α :=
  fun s => match x (get s) with
    | .ok a t => .ok a (set t s)
    | .error e t => .error e (set t s)

theorem frames_zoom {τ : Type u} {get : σ → τ} {set : τ → σ → σ} {view : σ → γ}
    (h : ∀ t s, view (set t s) = view s) (x : EStateM ε τ α) : Frames view (zoom get set x) := by
  intro s
  unfold after zoom
  cases x (get s) <;> exact h _ s

/-- What a computation on a component leaves alone there. -/
theorem keeps_zoom {τ : Type u} {get : σ → τ} {set : τ → σ → σ} {I : σ → Prop} {J : τ → Prop}
    (hget : ∀ s, I s → J (get s)) (hset : ∀ s t, I s → J t → I (set t s)) {x : EStateM ε τ α}
    (hx : Keeps J x) : Keeps I (zoom get set x) := by
  intro s hs
  have hafter := hx (get s) (hget s hs)
  unfold after at hafter ⊢
  unfold zoom
  cases hrun : x (get s) with
  | ok a t =>
    rw [hrun] at hafter
    exact hset s t hs hafter
  | error e t =>
    rw [hrun] at hafter
    exact hset s t hs hafter

theorem frames_zoom_component {τ : Type u} {get : σ → τ} {set : τ → σ → σ} {view : τ → γ}
    (hget : ∀ t s, get (set t s) = t) {x : EStateM ε τ α} (hx : Frames view x) :
    Frames (fun s => view (get s)) (zoom get set x) := by
  intro s
  have hview := hx (get s)
  unfold after at hview ⊢
  unfold zoom
  cases hrun : x (get s) with
  | ok a t | error e t =>
    rw [hrun] at hview
    simp only [hget]
    exact hview

theorem zoom_error {τ : Type u} {get : σ → τ} {set : τ → σ → σ} {x : EStateM ε τ α} {s : σ} {t : τ}
    {e : ε} (h : x (get s) = .error e t) : zoom get set x s = .error e (set t s) := by
  simp only [zoom, h]

theorem zoom_ok_iff {τ : Type u} {get : σ → τ} {set : τ → σ → σ} {x : EStateM ε τ α} {s u : σ}
    {a : α} : zoom get set x s = .ok a u ↔ ∃ t, x (get s) = .ok a t ∧ set t s = u := by
  unfold zoom
  cases x (get s) with
  | ok b t =>
    constructor
    · intro h
      cases h
      exact ⟨t, rfl, rfl⟩
    · rintro ⟨t', h, rfl⟩
      cases h
      rfl
  | error e t =>
    constructor
    · intro h
      cases h
    · rintro ⟨t', h, -⟩
      cases h

@[simp] theorem returns_pure (a : α) (s : σ) : Returns (pure a : EStateM ε σ α) s := ⟨a, s, rfl⟩

@[simp] theorem returns_modify (g : σ → σ) (s : σ) :
    Returns (modify g : EStateM ε σ PUnit) s := ⟨⟨⟩, g s, rfl⟩

@[simp] theorem returns_modify_bind {g : σ → σ} {f : PUnit → EStateM ε σ β} {s : σ} :
    Returns (modify g >>= f) s ↔ Returns (f ⟨⟩) (g s) := Iff.rfl

@[simp] theorem returns_ofExcept_bind {x : Except ε α} {f : α → EStateM ε σ β} {s : σ} :
    Returns (ofExcept x >>= f) s ↔ ∃ a, x = .ok a ∧ Returns (f a) s := by
  rw [returns_bind_iff]
  constructor
  · rintro ⟨a, t, h, hf⟩
    obtain ⟨rfl, rfl⟩ := ofExcept_apply_ok.mp h
    exact ⟨a, rfl, hf⟩
  · rintro ⟨a, rfl, hf⟩
    exact ⟨a, s, rfl, hf⟩

@[simp] theorem returns_zoom {τ : Type u} {get : σ → τ} {set : τ → σ → σ} {x : EStateM ε τ α}
    {s : σ} : Returns (zoom get set x) s ↔ Returns x (get s) := by
  constructor
  · rintro ⟨a, u, h⟩
    obtain ⟨t, ht, -⟩ := zoom_ok_iff.mp h
    exact ⟨a, t, ht⟩
  · rintro ⟨a, t, h⟩
    exact ⟨a, _, zoom_ok_iff.mpr ⟨t, h, rfl⟩⟩

@[simp] theorem returns_get_bind {f : σ → EStateM ε σ β} {s : σ} :
    Returns (get >>= f) s ↔ Returns (f s) s := Iff.rfl

/-- A loop whose calls return depending on their argument alone returns when all of them do. -/
theorem returns_forM_iff {f : α → EStateM ε σ PUnit} {C : α → Prop}
    (h : ∀ a s, Returns (f a) s ↔ C a) (as : List α) (s : σ) :
    Returns (as.forM f) s ↔ ∀ a ∈ as, C a := by
  induction as generalizing s with
  | nil => exact iff_of_true (returns_pure _ s) (by simp)
  | cons a as ih =>
    show Returns (f a >>= fun _ => as.forM f) s ↔ _
    rw [returns_bind_iff, List.forall_mem_cons, ← h a s]
    constructor
    · rintro ⟨u, t, hf, hrest⟩
      exact ⟨⟨u, t, hf⟩, (ih t).mp hrest⟩
    · rintro ⟨⟨u, t, hf⟩, hrest⟩
      exact ⟨u, t, hf, (ih t).mpr hrest⟩

/-- The same for a loop with an accumulator, from a state that meets an invariant of the calls. -/
theorem returns_foldlM_iff {I : σ → Prop} {f : β → α → EStateM ε σ β} {C : α → Prop}
    (hI : ∀ b a, Keeps I (f b a)) (h : ∀ b a s, I s → (Returns (f b a) s ↔ C a)) (as : List α)
    (b : β) {s : σ} (hs : I s) : Returns (as.foldlM f b) s ↔ ∀ a ∈ as, C a := by
  induction as generalizing b s with
  | nil => exact iff_of_true (returns_pure b s) (by simp)
  | cons a as ih =>
    rw [List.foldlM_cons, returns_bind_iff, List.forall_mem_cons, ← h b a s hs]
    have hafter : ∀ {b' t}, f b a s = .ok b' t → I t := by
      intro b' t hf
      have ht := hI b a s hs
      rw [after, hf] at ht
      exact ht
    constructor
    · rintro ⟨b', t, hf, hrest⟩
      exact ⟨⟨b', t, hf⟩, (ih b' (hafter hf)).mp hrest⟩
    · rintro ⟨⟨b', t, hf⟩, hrest⟩
      exact ⟨b', t, hf, (ih b' (hafter hf)).mpr hrest⟩

/-- A pass over a list returns when its first call and the pass over the rest do. -/
theorem mapM_cons_ok {f : α → Except ε β} {a : α} {as : List α} {bs : List β} :
    (a :: as).mapM f = .ok bs ↔
      ∃ b bs', f a = .ok b ∧ as.mapM f = .ok bs' ∧ bs = b :: bs' := by
  rw [List.mapM_cons]
  cases f a with
  | error e => simp [bind, Except.bind]
  | ok b =>
    cases as.mapM f with
    | error e => simp [bind, Except.bind]
    | ok bs' => simp [bind, Except.bind, pure, Except.pure, eq_comm]

/-- It throws what the first call that fails throws. -/
theorem mapM_cons_error {f : α → Except ε β} {a : α} {as : List α} {e : ε} :
    (a :: as).mapM f = .error e ↔
      f a = .error e ∨ ∃ b, f a = .ok b ∧ as.mapM f = .error e := by
  rw [List.mapM_cons]
  cases f a with
  | error e' => simp [bind, Except.bind]
  | ok b =>
    cases as.mapM f with
    | error e' => simp [bind, Except.bind]
    | ok bs' => simp [bind, Except.bind, pure, Except.pure]

theorem mapM_error {f : α → Except ε β} {as : List α} {e : ε} (h : as.mapM f = .error e) :
    ∃ a ∈ as, f a = .error e := by
  induction as with
  | nil => cases h
  | cons a as ih =>
    rcases mapM_cons_error.mp h with ha | ⟨-, -, has⟩
    · exact ⟨a, List.mem_cons_self, ha⟩
    · obtain ⟨a', hmem, ha'⟩ := ih has
      exact ⟨a', List.mem_cons_of_mem a hmem, ha'⟩

theorem map_eq_error {x : Except ε α} {g : α → β} {e : ε} :
    x.map g = .error e ↔ x = .error e := by
  cases x <;> simp [Except.map]

theorem mapM_eq_ok_map {f : α → Except ε β} {g : α → β} {as : List α}
    (h : ∀ a ∈ as, f a = .ok (g a)) : as.mapM f = .ok (as.map g) := by
  induction as with
  | nil => rfl
  | cons a as ih =>
    have hrest := ih fun a' ha' => h a' (List.mem_cons_of_mem _ ha')
    exact mapM_cons_ok.mpr ⟨_, _, h a List.mem_cons_self, hrest, rfl⟩

end Unwind
