import Mathlib.Data.List.Perm.Basic
import Mathlib.Data.List.Nodup
import VisionSensor.Spot.TimerThread

/-! When an overstay message reports an overstay. `notifyExpiration` asks for neither the error
code of its wait nor the visit it was armed for, so everything depends on which handlers find
the spot occupied. -/
namespace VisionSensor.TimerThread
open GuardedRun
namespace Machine

def isOver (p : Pushed) : Bool :=
  p.data.mRequestCode == HttpReqType.HTTP_REQ_UPDATE_OVER.code

/-- The message was pushed because the timer expired that was armed by the `enter` whose
occupancy was still current. -/
def Genuine (p : Pushed) : Prop :=
  ∃ c ∈ p.cause, c.2 = some c.1.arm ∧ c.1.ec = .success

instance : DecidablePred Genuine := fun p =>
  inferInstanceAs (Decidable (∃ c ∈ p.cause, c.2 = some c.1.arm ∧ c.1.ec = .success))

/-- The `enter`s for which an overstay has been pushed, once for every such message. -/
def overArms (log : List Pushed) : List ℕ :=
  (log.filter isOver).filterMap fun p => p.cause.map fun c => c.1.arm

/-- Every overstay message pushed is genuine, and there is at most one for each `enter`. -/
def OverstaysGenuine (m : Machine) : Prop :=
  (∀ p ∈ m.log, isOver p = true → Genuine p) ∧ (overArms m.log).Nodup

instance : DecidablePred OverstaysGenuine := fun m =>
  inferInstanceAs (Decidable ((∀ p ∈ m.log, isOver p = true → Genuine p) ∧
    (overArms m.log).Nodup))

/-- The timer thread starts no handler on an occupied spot unless its wait has expired and
belongs to the current occupancy, and the main thread neither begins nor ends an occupancy
while a `notifyExpiration` that has found the spot occupied is under way. -/
def Orderly (m : Machine) : Action → Prop
  | .startHandler i => ∀ h ∈ m.handlers[i]?, m.spot.mOccupied = true →
      h.ec = .success ∧ m.current = some h.arm
  | .main => m.running ≠ none →
      ∀ stmt ∈ m.main.head?, stmt.changesOccupancy m.statics m.spot = false
  | _ => True

instance (m : Machine) : DecidablePred m.Orderly
  | .startHandler i => inferInstanceAs (Decidable (∀ h ∈ m.handlers[i]?,
      m.spot.mOccupied = true → h.ec = .success ∧ m.current = some h.arm))
  | .main => inferInstanceAs (Decidable (m.running ≠ none →
      ∀ stmt ∈ m.main.head?, stmt.changesOccupancy m.statics m.spot = false))
  | .call _ | .expire | .handler _ => .isTrue trivial

/-- The waits by the `enter` that arms them: still to be armed, pending, queued, running or
reported. -/
def arms (m : Machine) : List ℕ :=
  List.replicate (m.main.count .asyncWait) m.entries ++ m.waits ++
    m.handlers.map Handler.arm ++ m.running.toList.map (fun r => r.1.arm) ++ overArms m.log

structure Inv (m : Machine) : Prop where
  running : ∀ h pos, m.running = some (h, pos) → h.ec = .success ∧ m.current = some h.arm
  genuine : ∀ p ∈ m.log, isOver p = true → Genuine p
  plain : ∀ data, Stmt.push data ∈ m.main → isOver { data } = false
  once : m.arms.Nodup
  bound : ∀ k ∈ m.arms, k ≤ m.entries

@[simp] theorem overArms_append (l l' : List Pushed) :
    overArms (l ++ l') = overArms l ++ overArms l' := by
  simp [overArms]

@[simp] theorem overArms_plain (data : ParkingUpdateMessage) : overArms [{ data }] = [] := by
  unfold overArms
  rw [List.filter_singleton]
  cases isOver { data } <;> rfl

/-- An overstay message pushed by a handler counts once for its wait. -/
theorem count_overArms_cause (data : ParkingUpdateMessage) (h : Handler) (cur : Option ℕ)
    (k : ℕ) : (overArms [⟨data, some (h, cur)⟩]).count k ≤ [h.arm].count k := by
  unfold overArms
  rw [List.filter_singleton]
  cases isOver ⟨data, some (h, cur)⟩ <;> simp

theorem complete_arms (m : Machine) (ec : WaitResult) : (m.complete ec).arms.Perm m.arms := by
  rw [List.perm_iff_count]
  intro k
  simp only [arms, complete, List.map_append, List.map_map, Function.comp_def, List.map_id',
    List.count_append, List.count_nil]
  omega

/-- A statement of the main thread moves a wait from one place to the next. -/
theorem stepMain_arms {m t : Machine} (h : m.stepMain = some t) :
    t.arms.Perm m.arms ∧ t.entries = m.entries ∧ t.running = m.running := by
  unfold stepMain at h
  split at h
  · cases h
  · rename_i stmt rest hm
    obtain rfl := Option.some.inj h
    cases stmt with
    | asyncWait =>
      refine ⟨?_, rfl, rfl⟩
      rw [List.perm_iff_count]
      intro k
      simp only [arms, effect, hm, List.count_cons_self, List.count_append, List.count_replicate,
        List.count_singleton]
      split_ifs <;> omega
    | expiresFromNow | cancel =>
      refine ⟨?_, rfl, rfl⟩
      have hc := complete_arms m .aborted
      simpa [arms, effect, complete, hm] using hc
    | push data => exact ⟨by simp [arms, effect, hm], rfl, rfl⟩
    | update b =>
      simp only [effect]
      split_ifs <;> exact ⟨by simp [arms, hm], rfl, rfl⟩
    | setOccupied | setTimeLimit | setEntryTime | clearOccupied | clearOverstayed |
      clearVehicle | resetCounter => exact ⟨by simp [arms, effect, hm], rfl, rfl⟩

/-- The number of waits a call arms. -/
def numWaits : Call → ℕ
  | .enter .. => 1
  | _ => 0

/-- A call starts with none of its waits armed and pushes no overstay message. -/
theorem body_spec {c : Call} {s : ParkingSpot} {body : List Stmt} (h : c.body s = some body) :
    (∀ data, Stmt.push data ∈ body → isOver { data } = false) ∧
      body.count .asyncWait = numWaits c := by
  cases c with
  | update b | reset =>
    obtain rfl := Option.some.inj h
    exact ⟨by simp, rfl⟩
  | exit img time =>
    obtain rfl := Option.some.inj h
    refine ⟨?_, rfl⟩
    intro data hd
    obtain rfl : data = _ := by simpa using hd
    rfl
  | enter env img ROI time PN =>
    obtain ⟨crop, -, rfl⟩ := Option.map_eq_some_iff.mp h
    generalize (if s.isSensor && env.check_res PN then
      some (env.entVehicle PN (env.to_iso_string time)) else none) = limit
    constructor
    · intro data hd
      obtain rfl : data = _ := by cases limit <;> simpa [startTimerBody] using hd
      rfl
    · cases limit <;> rfl

theorem stepCall_spec {m t : Machine} {c : Call} (h : m.stepCall c = some t) :
    (t.arms = m.arms ∧ t.entries = m.entries ∨
        t.arms = (m.entries + 1) :: m.arms ∧ t.entries = m.entries + 1) ∧
      (∀ data, Stmt.push data ∈ t.main → isOver { data } = false) ∧
      t.running = m.running ∧ t.current = m.current ∧ t.log = m.log := by
  unfold stepCall at h
  split_ifs at h with hm
  obtain ⟨body, hb, rfl⟩ := Option.map_eq_some_iff.mp h
  obtain ⟨hpush, hcount⟩ := body_spec hb
  cases c with
  | enter => exact ⟨.inr ⟨by simp [arms, hm, hcount, numWaits], rfl⟩, hpush, rfl, rfl, rfl⟩
  | update | exit | reset =>
    exact ⟨.inl ⟨by simp [arms, hm, hcount, numWaits], rfl⟩, hpush, rfl, rfl, rfl⟩

/-- A statement that neither begins nor ends an occupancy leaves the current one current, and
whatever it pushes was in the call. -/
theorem stepMain_spec {m t : Machine} (h : m.stepMain = some t) :
    ∃ stmt ∈ m.main.head?, t.main = m.main.tail ∧
      t.log = m.log ++ stmt.pushes.map (fun data => ⟨data, none⟩) ∧
      (stmt.changesOccupancy m.statics m.spot = false → t.current = m.current) := by
  unfold stepMain at h
  split at h
  · cases h
  · rename_i stmt rest hm
    obtain rfl := Option.some.inj h
    refine ⟨stmt, by simp [hm], by simp [hm], ?_, ?_⟩
    · cases stmt <;> simp only [effect, complete, Stmt.pushes, List.map_nil, List.append_nil,
        List.map_cons]
      split_ifs <;> rfl
    · intro hc
      cases stmt with
      | update b =>
        simp only [effect]
        split_ifs with hu
        · exact absurd hu (by simpa [Stmt.changesOccupancy] using hc)
        · rfl
      | setOccupied | clearOccupied => cases hc
      | _ => rfl

theorem stepStart_spec {m t : Machine} {i : ℕ} (h : m.stepStart i = some t) :
    ∃ hd, m.handlers[i]? = some hd ∧ m.running = none ∧
      t = { m with handlers := m.handlers.eraseIdx i,
                   running := if m.spot.mOccupied then some (hd, .tested) else none } := by
  unfold stepStart at h
  by_cases hr : m.running = none
  · rw [if_pos hr] at h
    obtain ⟨hd, hi, ht⟩ := Option.map_eq_some_iff.mp h
    exact ⟨hd, hi, hr, ht.symm⟩
  · rw [if_neg hr] at h
    cases h

theorem stepStart_arms {m t : Machine} {i : ℕ} (h : m.stepStart i = some t) (k : ℕ) :
    t.arms.count k ≤ m.arms.count k := by
  obtain ⟨hd, hi, hr, rfl⟩ := stepStart_spec h
  obtain ⟨hlt, rfl⟩ := List.getElem?_eq_some_iff.mp hi
  have hp : (m.handlers[i].arm :: (m.handlers.eraseIdx i).map Handler.arm).count k
      = (m.handlers.map Handler.arm).count k := by
    have := (List.getElem_cons_eraseIdx_perm hlt).map Handler.arm
    simpa using this.count_eq k
  simp only [arms, hr, List.count_append, List.count_cons] at hp ⊢
  cases m.spot.mOccupied <;>
    simp only [reduceIte, Bool.false_eq_true, Option.toList_some, Option.toList_none, List.map_cons,
      List.map_nil, List.count_cons, List.count_nil] <;> omega

theorem stepHandler_arms {m t : Machine} {readAt : Ptime → Mat}
    (h : m.stepHandler readAt = some t) (k : ℕ) : t.arms.count k ≤ m.arms.count k := by
  obtain ⟨⟨hd, pos⟩, hr, rfl⟩ := Option.map_eq_some_iff.mp h
  cases pos with
  | tested | built => simp [arms, hr]
  | marked data =>
    have hc := count_overArms_cause data hd m.current k
    simp only [arms, hr, overArms_append, List.count_append, Option.toList_some, List.map_cons,
      List.map_nil, Option.toList_none, List.count_nil]
    omega

private theorem inv_main {m t : Machine} (hi : m.Inv) (hc : m.Orderly .main)
    (h : m.stepMain = some t) : t.Inv := by
  obtain ⟨stmt, hstmt, hmain, hlog, hcur⟩ := stepMain_spec h
  obtain ⟨harms, hent, hrun⟩ := stepMain_arms h
  have hmem : stmt ∈ m.main := List.mem_of_mem_head? hstmt
  refine ⟨?_, ?_, ?_, harms.nodup_iff.mpr hi.once, ?_⟩
  · intro hd pos hr
    rw [hrun] at hr
    rw [hcur (hc (by simp [hr]) stmt hstmt)]
    exact hi.running hd pos hr
  · intro p hp hover
    rw [hlog, List.mem_append, List.mem_map] at hp
    rcases hp with hp | ⟨data, hd, rfl⟩
    · exact hi.genuine p hp hover
    · cases stmt with
      | push d =>
        obtain rfl : data = d := by simpa [Stmt.pushes] using hd
        rw [hi.plain data hmem] at hover
        cases hover
      | _ => cases hd
  · intro data hd
    rw [hmain] at hd
    exact hi.plain data (List.mem_of_mem_tail hd)
  · intro k hk
    rw [hent]
    exact hi.bound k (harms.mem_iff.mp hk)

private theorem inv_call {m t : Machine} {c : Call} (hi : m.Inv) (h : m.stepCall c = some t) :
    t.Inv := by
  obtain ⟨harms, hplain, hrun, hcur, hlog⟩ := stepCall_spec h
  have hrunning : ∀ hd pos, t.running = some (hd, pos) →
      hd.ec = .success ∧ t.current = some hd.arm := by
    rw [hrun, hcur]
    exact hi.running
  have hgenuine : ∀ p ∈ t.log, isOver p = true → Genuine p := by
    rw [hlog]
    exact hi.genuine
  rcases harms with ⟨harms, hent⟩ | ⟨harms, hent⟩
  · exact ⟨hrunning, hgenuine, hplain, harms ▸ hi.once, by rw [harms, hent]; exact hi.bound⟩
  · -- the wait of a new `enter` is numbered above all earlier ones
    refine ⟨hrunning, hgenuine, hplain, ?_, ?_⟩
    · rw [harms, List.nodup_cons]
      exact ⟨fun hk => by have := hi.bound _ hk; omega, hi.once⟩
    · intro k hk
      rw [harms, List.mem_cons] at hk
      rcases hk with rfl | hk
      · omega
      · have := hi.bound k hk
        omega

private theorem once_of_le {m t : Machine} (hi : m.Inv) (hent : t.entries = m.entries)
    (h : ∀ k, t.arms.count k ≤ m.arms.count k) : t.arms.Nodup ∧ ∀ k ∈ t.arms, k ≤ t.entries := by
  constructor
  · rw [List.nodup_iff_count_le_one]
    exact fun k => (h k).trans (List.nodup_iff_count_le_one.mp hi.once k)
  · intro k hk
    rw [hent]
    exact hi.bound k (List.count_pos_iff.mp ((List.count_pos_iff.mpr hk).trans_le (h k)))

private theorem inv_expire {m t : Machine} (hi : m.Inv) (h : m.stepExpire = some t) : t.Inv := by
  unfold stepExpire at h
  split_ifs at h
  obtain rfl := Option.some.inj h
  obtain ⟨honce, hbound⟩ := once_of_le hi (t := m.complete .success) rfl
    fun k => (complete_arms m .success).count_eq k |>.le
  exact ⟨hi.running, hi.genuine, hi.plain, honce, hbound⟩

private theorem inv_start {m t : Machine} {i : ℕ} (hi : m.Inv) (hc : m.Orderly (.startHandler i))
    (h : m.stepStart i = some t) : t.Inv := by
  obtain ⟨hd, hget, -, ht⟩ := stepStart_spec h
  obtain ⟨honce, hbound⟩ := once_of_le hi (by rw [ht]) (stepStart_arms h)
  subst ht
  refine ⟨?_, hi.genuine, hi.plain, honce, hbound⟩
  intro hd' pos hr
  by_cases hocc : m.spot.mOccupied = true
  · simp only [if_pos hocc, Option.some.injEq, Prod.mk.injEq] at hr
    obtain ⟨rfl, -⟩ := hr
    exact hc hd hget hocc
  · simp [hocc] at hr

private theorem inv_handler {m t : Machine} {readAt : Ptime → Mat} (hi : m.Inv)
    (h : m.stepHandler readAt = some t) : t.Inv := by
  have harms := stepHandler_arms h
  obtain ⟨⟨hd, pos⟩, hr, rfl⟩ := Option.map_eq_some_iff.mp h
  obtain ⟨hec, hcur⟩ := hi.running hd pos hr
  cases pos with
  | tested | built =>
    obtain ⟨honce, hbound⟩ := once_of_le hi (by rfl) harms
    refine ⟨?_, hi.genuine, hi.plain, honce, hbound⟩
    intro hd' pos' hr'
    obtain ⟨rfl, -⟩ := Prod.mk.inj (Option.some.inj hr')
    exact ⟨hec, hcur⟩
  | marked data =>
    obtain ⟨honce, hbound⟩ := once_of_le hi (by rfl) harms
    refine ⟨by simp, ?_, hi.plain, honce, hbound⟩
    intro p hp hover
    rcases List.mem_append.mp hp with hp | hp
    · exact hi.genuine p hp hover
    · obtain rfl := List.mem_singleton.mp hp
      exact ⟨_, rfl, hcur, hec⟩

theorem inv_step {m t : Machine} {a : Action} (hi : m.Inv) (hc : m.Orderly a)
    (h : m.step a = some t) : t.Inv := by
  cases a with
  | call c => exact inv_call hi h
  | main => exact inv_main hi hc h
  | expire => exact inv_expire hi h
  | startHandler i => exact inv_start hi hc h
  | handler readAt => exact inv_handler hi h

/-- A new parking spot, with nothing queued. -/
def init (spot : ParkingSpot) (statics : Thresholds) : Machine := { spot, statics }

theorem inv_init (spot : ParkingSpot) (statics : Thresholds) : (init spot statics).Inv where
  running := by simp [init]
  genuine := by simp [init]
  plain := by simp [init]
  once := by simp [init, arms, overArms]
  bound := by simp [init, arms, overArms]

theorem Inv.overstaysGenuine {m : Machine} (hi : m.Inv) : m.OverstaysGenuine :=
  ⟨hi.genuine, (List.nodup_append.mp hi.once).2.1⟩

/-- A visit: two detections, then the statements of `enter`. -/
def visit : List Action :=
  [.call (.update true), .main, .call (.update true), .main,
    .call (.enter ⟨fun _ => false, fun _ _ => 0, fun _ => []⟩ (.mk 2 2 [[0, 0], [0, 0]]) ⟨0, 0, 2, 2⟩
      (some 0) "P"), .main, .main, .main, .main, .main]

/-- A visit whose timer expires. -/
def expiredVisit : List Action :=
  visit ++ [.expire, .startHandler 0, .handler fun _ => Mat.none, .handler fun _ => Mat.none,
    .handler fun _ => Mat.none]

/-- A visit and the first statement of `reset`, the timer thread going ahead of the second. -/
def resetVisit : List Action :=
  visit ++ [.call .reset, .main, .startHandler 0, .handler fun _ => Mat.none,
    .handler fun _ => Mat.none, .handler fun _ => Mat.none]

/-- In every interleaving whose steps are orderly, every overstay message pushed means a genuine
overstay, and there is at most one for each `enter`. -/
theorem overstaysGenuine_of_orderly (spot : ParkingSpot) (statics : Thresholds)
    {as : List Action} (hok : ∀ m a, Takes step (init spot statics) as m a → m.Orderly a)
    {m : Machine} (hm : Visits step (init spot statics) as m) : m.OverstaysGenuine :=
  (guarded_invariant (fun _ _ _ hi hc h => inv_step hi hc h) (inv_init spot statics) hok
    hm).overstaysGenuine

/-- Two detections, the `enter` of the visit, its deadline, and the handler running to its end:
the orderly case. -/
theorem overstaysGenuine_after_deadline :
    ∃ m ∈ exec step (init (ParkingSpot.new false 1 "A1" 60 ⟨0, 0, 2, 2⟩ 1) {}) expiredVisit,
      overArms m.log = [1] ∧ m.OverstaysGenuine := by
  obtain ⟨m, hm, hover⟩ : ∃ m ∈ exec step (init (ParkingSpot.new false 1 "A1" 60 ⟨0, 0, 2, 2⟩ 1)
      {}) expiredVisit, overArms m.log = [1] := by decide
  exact ⟨m, hm, hover, overstaysGenuine_of_orderly _ _
    (fun _ _ h => takes_of_checkTakes (C := Orderly) (by decide) h) (visits_of_exec hm)⟩

/-- `reset` cancels the timer while the spot is still occupied. The cancelled handler, started
before `mOccupied` is cleared, pushes an overstay message though no time has passed. -/
theorem reset_overstays :
    ∃ m ∈ exec step (init (ParkingSpot.new false 1 "A1" 60 ⟨0, 0, 2, 2⟩ 1) {}) resetVisit,
      ¬ m.OverstaysGenuine := by
  decide

/-- A handler started against this order and left alone pushes an overstay message that is not
genuine. -/
theorem not_genuine_of_not_orderly {m : Machine} {i : ℕ} {h : Handler} (readAt : Ptime → Mat)
    (hrun : m.running = none) (hget : m.handlers[i]? = some h) (hc : ¬ m.Orderly (.startHandler i)) :
    ∃ t, exec step m [.startHandler i, .handler readAt, .handler readAt, .handler readAt] = some t ∧
      ∃ p ∈ t.log, isOver p = true ∧ ¬ Genuine p := by
  have hocc : m.spot.mOccupied = true := by
    by_contra hn
    exact hc fun _ _ ho => absurd ho hn
  have hstale : ¬ (h.ec = .success ∧ m.current = some h.arm) := by
    intro hg
    refine hc fun h' hh' _ => ?_
    obtain rfl := Option.some.inj (hget.symm.trans hh')
    exact hg
  let time := m.spot.mEntryTime.addSeconds m.spot.mTimeLimit
  let data := (m.spot.overstayed (readAt time) time).2
  refine ⟨{ m with spot := { m.spot with mOverstayed := true },
                   handlers := m.handlers.eraseIdx i,
                   log := m.log ++ [⟨data, some (h, m.current)⟩] }, ?_, ⟨data, some (h, m.current)⟩,
    by simp, rfl, ?_⟩
  · simp [step, stepStart, hrun, hget, hocc, stepHandler, data, time]
  · rintro ⟨c, hcause, hcur, hec⟩
    obtain rfl := Option.some.inj hcause
    exact hstale ⟨hec, hcur⟩

end Machine
end VisionSensor.TimerThread
