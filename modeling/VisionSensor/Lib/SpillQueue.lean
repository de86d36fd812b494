import Mathlib.Data.List.Perm.Basic
import VisionSensor.Lib.GuardedRun

/-! A bounded queue with an overflow store. A full queue sends what is pushed to the store; a
request for an element first moves one stored element to the back of the queue, if there is room.
Requesters that find nothing wait, and a woken one takes the front without a look at the store. -/
namespace SpillQueue

variable {α κ : Type*}

/-- `pushed` and `popped` record what has come in and gone out, in order. -/
structure State (α : Type*) where
  mem : List α := []
  disk : List α := []
  waiting : ℕ := 0
  pushed : List α := []
  popped : List α := []

/-- A request names the stored element it would move. -/
inductive Op (α : Type*) where
  | push (a : α)
  | tryPop (i : ℕ)
  | waitPop (i : ℕ)
  | wake

def push (cap : ℕ) (a : α) (s : State α) : State α :=
  if cap ≤ s.mem.length then { s with disk := s.disk ++ [a], pushed := s.pushed ++ [a] }
  else { s with mem := s.mem ++ [a], pushed := s.pushed ++ [a] }

def reload (cap i : ℕ) (s : State α) : State α :=
  if s.mem.length < cap then
    match s.disk[i]? with
    | none => s
    | some d => { s with mem := s.mem ++ [d], disk := s.disk.eraseIdx i }
  else s

def pop (s : State α) : Option (State α) :=
  match s.mem with
  | [] => none
  | a :: mem => some { s with mem := mem, popped := s.popped ++ [a] }

def step (cap : ℕ) (s : State α) : Op α → Option (State α)
  | .push a => some (push cap a s)
  | .tryPop i =>
      if s.disk = [] ∨ i < s.disk.length then
        some ((pop (reload cap i s)).getD (reload cap i s))
      else none
  | .waitPop i =>
      if s.disk = [] ∨ i < s.disk.length then
        some ((pop (reload cap i s)).getD
          { reload cap i s with waiting := (reload cap i s).waiting + 1 })
      else none
  | .wake =>
      if s.waiting = 0 then none
      else some (((pop s).map fun t => { t with waiting := t.waiting - 1 }).getD s)

/-- What has been pushed and not popped. -/
def outstanding (s : State α) : ℕ := s.mem.length + s.disk.length

/-- Nothing is lost and nothing is duplicated. -/
def Conserved (s : State α) : Prop := s.pushed.Perm (s.popped ++ s.mem ++ s.disk)

variable {cap : ℕ} {s t : State α}

/-- A reload does nothing, or moves one stored element to the back of the queue. -/
theorem reload_spec (cap i : ℕ) (s : State α) :
    reload cap i s = s ∨ ∃ d, s.mem.length < cap ∧ s.disk[i]? = some d ∧
      reload cap i s = { s with mem := s.mem ++ [d], disk := s.disk.eraseIdx i } := by
  unfold reload
  split_ifs with h
  · cases hd : s.disk[i]? with
    | none => exact .inl rfl
    | some d => exact .inr ⟨d, h, rfl, rfl⟩
  · exact .inl rfl

theorem pop_spec (h : pop s = some t) :
    ∃ a, s.mem = a :: t.mem ∧ t = { s with mem := t.mem, popped := s.popped ++ [a] } := by
  unfold pop at h
  split at h
  · cases h
  · rename_i a mem hm
    obtain rfl := Option.some.inj h
    exact ⟨a, hm, rfl⟩

/-- Every step is a push, or a reload followed by at most one removal from the front and a change
of the number of waiting requesters. -/
theorem step_cases {op : Op α} (h : step cap s op = some t) :
    (∃ a, op = .push a ∧ t = push cap a s) ∨
      ∃ u, (u = s ∨ ∃ i, (op = .tryPop i ∨ op = .waitPop i) ∧ u = reload cap i s) ∧
        ∃ w, t = { u with waiting := w } ∨ ∃ v, pop u = some v ∧ t = { v with waiting := w } := by
  have hgetD : ∀ u : State α, ∃ w, (pop u).getD u = { u with waiting := w } ∨
      ∃ v, pop u = some v ∧ (pop u).getD u = { v with waiting := w } := by
    intro u
    cases hp : pop u with
    | none => exact ⟨u.waiting, .inl rfl⟩
    | some v => exact ⟨v.waiting, .inr ⟨v, rfl, rfl⟩⟩
  cases op with
  | push a => exact .inl ⟨a, rfl, (Option.some.inj h).symm⟩
  | tryPop i =>
    simp only [step] at h
    split_ifs at h
    obtain rfl := Option.some.inj h
    exact .inr ⟨_, .inr ⟨i, .inl rfl, rfl⟩, hgetD _⟩
  | waitPop i =>
    simp only [step] at h
    split_ifs at h
    obtain rfl := Option.some.inj h
    refine .inr ⟨_, .inr ⟨i, .inr rfl, rfl⟩, ?_⟩
    cases hp : pop (reload cap i s) with
    | none => exact ⟨_, .inl rfl⟩
    | some v => exact ⟨v.waiting, .inr ⟨v, rfl, rfl⟩⟩
  | wake =>
    simp only [step] at h
    split_ifs at h
    obtain rfl := Option.some.inj h
    refine .inr ⟨s, .inl rfl, ?_⟩
    cases hp : pop s with
    | none => exact ⟨s.waiting, .inl rfl⟩
    | some v => exact ⟨_, .inr ⟨v, rfl, rfl⟩⟩

/-- An invariant of the queue that holds of pushes, reloads and removals from the front, and does
not depend on who waits, is kept by every step. -/
theorem step_invariant {I : State α → Prop} (hwait : ∀ s w, I s → I { s with waiting := w })
    (hpop : ∀ s t, I s → pop s = some t → I t) {op : Op α}
    (hpush : ∀ a, op = .push a → I (push cap a s))
    (hreload : ∀ i, op = .tryPop i ∨ op = .waitPop i → I (reload cap i s))
    (hs : I s) (h : step cap s op = some t) : I t := by
  rcases step_cases h with ⟨a, hop, rfl⟩ | ⟨u, hu, w, ht⟩
  · exact hpush a hop
  · have hI : I u := by
      rcases hu with rfl | ⟨i, hop, rfl⟩
      · exact hs
      · exact hreload i hop
    rcases ht with rfl | ⟨v, hv, rfl⟩
    · exact hwait _ _ hI
    · exact hwait _ _ (hpop _ _ hI hv)

/-- The queue never exceeds its capacity. -/
theorem bounded_step {op : Op α} (hs : s.mem.length ≤ cap) (h : step cap s op = some t) :
    t.mem.length ≤ cap := by
  refine step_invariant (I := fun s => s.mem.length ≤ cap) (fun _ _ h => h) ?_ ?_ ?_ hs h
  · intro s t hs hp
    obtain ⟨a, hm, -⟩ := pop_spec hp
    rw [hm, List.length_cons] at hs
    omega
  · intro a _
    unfold push
    split_ifs with hfull
    · exact hs
    · simp only [List.length_append, List.length_singleton]
      omega
  · intro i _
    rcases reload_spec cap i s with hr | ⟨d, hlt, -, hr⟩
    · rw [hr]; exact hs
    · rw [hr]
      simp only [List.length_append, List.length_singleton]
      omega

theorem conserved_step {op : Op α} (hs : Conserved s) (h : step cap s op = some t) :
    Conserved t := by
  refine step_invariant (I := Conserved) (fun _ _ h => h) ?_ ?_ ?_ hs h
  · intro s t hs hp
    obtain ⟨a, hm, ht⟩ := pop_spec hp
    rw [ht]
    unfold Conserved at hs ⊢
    rw [hm] at hs
    simpa using hs
  · intro a _
    unfold Conserved at hs ⊢
    unfold push
    split_ifs
    · simpa using hs.append_right [a]
    · apply (hs.append_right [a]).trans
      rw [List.append_assoc, List.append_assoc, List.append_assoc, List.append_assoc]
      have hdisk : (s.disk ++ [a]).Perm ([a] ++ s.disk) := List.perm_append_comm
      exact (hdisk.append_left s.mem).append_left _
  · intro i _
    rcases reload_spec cap i s with hr | ⟨d, -, hd, hr⟩
    · rw [hr]; exact hs
    · rw [hr]
      obtain ⟨hi, rfl⟩ := List.getElem?_eq_some_iff.mp hd
      apply hs.trans
      simp only [List.append_assoc, List.singleton_append]
      exact ((List.getElem_cons_eraseIdx_perm hi).symm.append_left s.mem).append_left _

/-- A reload moves at most one element and hands none out. -/
theorem reload_frame (cap i : ℕ) (s : State α) :
    outstanding (reload cap i s) = outstanding s ∧ (reload cap i s).popped = s.popped ∧
      (reload cap i s).waiting = s.waiting := by
  rcases reload_spec cap i s with hr | ⟨d, -, hd, hr⟩
  · rw [hr]
    exact ⟨rfl, rfl, rfl⟩
  · obtain ⟨hlt, -⟩ := List.getElem?_eq_some_iff.mp hd
    rw [hr]
    refine ⟨?_, rfl, rfl⟩
    simp only [outstanding, List.length_append, List.length_singleton,
      List.length_eraseIdx_of_lt hlt]
    omega

/-- With something outstanding, a reload that can be made leaves the queue with an element. -/
theorem reload_mem_ne_nil {i : ℕ} (hcap : 0 < cap) (hi : s.disk = [] ∨ i < s.disk.length)
    (h : 0 < outstanding s) : (reload cap i s).mem ≠ [] := by
  intro hnil
  rcases reload_spec cap i s with hr | ⟨d, -, -, hr⟩
  · -- nothing was moved, though there is room and the store has the element
    rw [hr] at hnil
    have hlen : i < s.disk.length := by
      rcases hi with hi | hi
      · simp [outstanding, hnil, hi] at h
      · exact hi
    rw [reload, if_pos (by simp [hnil, hcap]), List.getElem?_eq_getElem hlen] at hr
    have hmem := congrArg (fun s => s.mem.length) hr
    simp at hmem
  · rw [hr] at hnil
    simp at hnil

/-- While something is outstanding, a request that can be made returns an element at once. -/
theorem waitPop_returns {i : ℕ} (hcap : 0 < cap) (hi : s.disk = [] ∨ i < s.disk.length)
    (h : 0 < outstanding s) :
    ∃ t a, step cap s (.waitPop i) = some t ∧ t.popped = s.popped ++ [a] ∧
      t.waiting = s.waiting ∧ outstanding t + 1 = outstanding s := by
  obtain ⟨a, mem, hm⟩ := List.exists_cons_of_ne_nil (reload_mem_ne_nil hcap hi h)
  obtain ⟨hout, hpopped, hwaiting⟩ := reload_frame cap i s
  refine ⟨{ reload cap i s with mem := mem, popped := (reload cap i s).popped ++ [a] }, a,
    by simp [step, hi, pop, hm], by rw [hpopped], hwaiting, ?_⟩
  rw [← hout]
  simp only [outstanding, hm, List.length_cons]
  omega

/-- With nothing outstanding, a requester waits. -/
theorem waitPop_waits {i : ℕ} (h : outstanding s = 0) (hstep : step cap s (.waitPop i) = some t) :
    t = { s with waiting := s.waiting + 1 } := by
  have hmem : s.mem = [] := List.eq_nil_of_length_eq_zero (by unfold outstanding at h; omega)
  have hdisk : s.disk = [] := List.eq_nil_of_length_eq_zero (by unfold outstanding at h; omega)
  have hreload : reload cap i s = s := by
    unfold reload
    rw [hdisk]
    simp
  have hnone : pop s = none := by
    unfold pop
    rw [hmem]
  simp only [step, hreload, hnone, Option.getD_none] at hstep
  split_ifs at hstep
  exact (Option.some.inj hstep).symm

/-- A woken requester takes the front if there is one. -/
theorem wake_spec (hstep : step cap s .wake = some t) :
    s.waiting ≠ 0 ∧ (s.mem = [] ∧ t = s ∨
      ∃ a, t.popped = s.popped ++ [a] ∧ t.waiting + 1 = s.waiting ∧
        outstanding t + 1 = outstanding s) := by
  simp only [step] at hstep
  split_ifs at hstep with hwaiting
  refine ⟨hwaiting, ?_⟩
  obtain rfl := Option.some.inj hstep
  cases hp : pop s with
  | none =>
    refine .inl ⟨?_, rfl⟩
    unfold pop at hp
    split at hp
    · assumption
    · cases hp
  | some u =>
    obtain ⟨a, hm, hu⟩ := pop_spec hp
    refine .inr ⟨a, ?_, ?_, ?_⟩
    · rw [hu]
      rfl
    · rw [hu]
      exact Nat.sub_add_cancel (Nat.pos_of_ne_zero hwaiting)
    · rw [hu]
      simp only [outstanding, hm, Option.map_some, Option.getD_some, List.length_cons]
      omega

section Order

variable [DecidableEq κ] (cls : α → κ)

/-- The elements of a class, in order. -/
def ofClass (k : κ) (l : List α) : List α := l.filter fun a => cls a = k

/-- In every class, what has been pushed is what has been popped, then the queue, then the
store. -/
def Ordered (s : State α) : Prop :=
  ∀ k, ofClass cls k s.pushed =
    ofClass cls k s.popped ++ ofClass cls k s.mem ++ ofClass cls k s.disk

/-- Nothing enters the queue past a stored element of its class, and the oldest stored element is
the one moved. -/
def KeepsOrder (cap : ℕ) (s : State α) : Op α → Prop
  | .push a => s.mem.length < cap → ∀ d ∈ s.disk, cls d ≠ cls a
  | .tryPop i => i = 0
  | .waitPop i => i = 0
  | .wake => True

variable {cls}

theorem ordered_step {op : Op α} (hs : Ordered cls s) (hop : KeepsOrder cls cap s op)
    (h : step cap s op = some t) : Ordered cls t := by
  have hzero : ∀ i, op = .tryPop i ∨ op = .waitPop i → i = 0 := by
    rintro i (rfl | rfl) <;> exact hop
  refine step_invariant (I := Ordered cls) (fun _ _ h => h) ?_ ?_ ?_ hs h
  · intro s t hs hp k
    obtain ⟨a, hm, ht⟩ := pop_spec hp
    have hfront : ofClass cls k s.mem = ofClass cls k [a] ++ ofClass cls k t.mem := by
      rw [hm]
      exact List.filter_append [a] t.mem
    rw [ht, hs k, hfront]
    simp only [ofClass, List.filter_append, List.append_assoc]
  · rintro a rfl k
    unfold push
    split_ifs with hfull
    · have := hs k
      simp only [ofClass, List.filter_append] at this ⊢
      rw [this, List.append_assoc]
    · have := hs k
      simp only [ofClass, List.filter_append] at this ⊢
      rw [this]
      by_cases hk : cls a = k
      · -- no stored element is of the class
        have hnone : s.disk.filter (fun d => cls d = k) = [] := by
          rw [List.filter_eq_nil_iff]
          intro d hd
          simpa [← hk] using hop (by omega) d hd
        rw [hnone]
        simp
      · simp [hk]
  · intro i hi k
    obtain rfl := hzero i hi
    rcases reload_spec cap 0 s with hr | ⟨d, -, hd, hr⟩
    · rw [hr]; exact hs k
    · rw [hr, hs k]
      cases hdisk : s.disk with
      | nil => simp [hdisk] at hd
      | cons e disk =>
        obtain rfl : e = d := by simpa [hdisk] using hd
        have hfront : ofClass cls k (e :: disk) = ofClass cls k [e] ++ ofClass cls k disk :=
          List.filter_append [e] disk
        rw [hfront]
        simp only [ofClass, List.eraseIdx_cons_zero, List.filter_append, List.append_assoc]

/-- In each class, elements leave in the order in which they came. -/
theorem Ordered.popped_first (h : Ordered cls s) (k : κ) :
    ofClass cls k s.popped <+: ofClass cls k s.pushed :=
  ⟨_, by rw [h k, List.append_assoc]⟩

end Order
end SpillQueue
