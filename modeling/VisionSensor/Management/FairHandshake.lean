import VisionSensor.Lib.FairTurns
import VisionSensor.Management.Handshake

/-! Whether an update request is answered. As long as the main thread has not gone to sleep after
the notification, the two threads answer every request however their turns fall; afterwards they
answer none. -/
namespace VisionSensor.Handshake
open GuardedRun FairTurns

/-- The positions of the management mode. -/
def MainAt.inHandshake : MainAt → Bool
  | .lockEntrance | .lockExit | .unlockEntrance | .notifySender | .waitReceiver | .waiting
  | .notified | .unlockExit => true
  | _ => false

/-- The positions between a `lock` of `MutexEntrace` and its `unlock`. -/
def MainAt.inEntrance : MainAt → Bool
  | .lockExit | .unlockEntrance => true
  | _ => false

def ListenerAt.inEntrance : ListenerAt → Bool
  | .setMode | .waitSender | .unlockEntrance => true
  | _ => false

/-- The positions between a `lock` of `MutexExit` and its `unlock` or wait. -/
def MainAt.inExit : MainAt → Bool
  | .unlockEntrance | .notifySender | .waitReceiver | .unlockExit => true
  | _ => false

/-- The positions between the two assignments of `ManagementMode`. -/
def ListenerAt.inMode : ListenerAt → Bool
  | .waitSender | .waiting | .notified | .unlockEntrance | .updating => true
  | _ => false

theorem inMode_cases {l : ListenerAt} (h : l.inMode = true) :
    l = .waitSender ∨ l = .waiting ∨ Released l := by
  cases l <;> simp_all [ListenerAt.inMode, Released, InInterval]

@[simp] theorem ListenerAt.inEntrance_notify (l : ListenerAt) :
    l.notify.inEntrance = l.inEntrance := by
  cases l <;> rfl

@[simp] theorem MainAt.inEntrance_notify (m : MainAt) : m.notify.inEntrance = m.inEntrance := by
  cases m <;> rfl

@[simp] theorem MainAt.inExit_notify (m : MainAt) : m.notify.inExit = m.inExit := by
  cases m <;> rfl

theorem MainAt.inHandshake_of_inEntrance {m : MainAt} (h : m.inHandshake = false) :
    m.inEntrance = false ∧ m.inExit = false := by
  cases m <;> first | exact ⟨rfl, rfl⟩ | cases h

/-- The keys and the frames move the main thread outside the management mode only. -/
theorem stepStop_frame {s t : State} (h : stepStop s = some t) :
    ∃ m, t = { s with main := m } ∧ s.main.inHandshake = false ∧ m.inHandshake = false := by
  unfold stepStop at h
  split at h
  · exact ⟨.stopped, (Option.some.inj h).symm, by simp [*, MainAt.inHandshake], rfl⟩
  · exact ⟨.stopped, (Option.some.inj h).symm, by simp [*, MainAt.inHandshake], rfl⟩
  · exact ⟨.loop, (Option.some.inj h).symm, by simp [*, MainAt.inHandshake], rfl⟩
  · cases h

theorem stepInit_frame {s t : State} (h : stepInit s = some t) :
    ∃ m, t = { s with main := m } ∧ s.main.inHandshake = false ∧ m.inHandshake = false := by
  unfold stepInit at h
  split at h
  · exact ⟨_, (Option.some.inj h).symm, by simp [*, MainAt.inHandshake], rfl⟩
  · exact ⟨_, (Option.some.inj h).symm, by simp [*, MainAt.inHandshake], rfl⟩
  · cases h

/-- Each mutex is held by the thread whose position says so. -/
structure Owned (s : State) : Prop where
  entranceMain : s.MutexEntrace = some .main ↔ s.main.inEntrance = true
  entranceListener : s.MutexEntrace = some .listener ↔ s.listener.inEntrance = true
  exitMain : s.MutexExit = some .main ↔ s.main.inExit = true
  exitListener : s.MutexExit ≠ some .listener

theorem Owned.frame {s : State} (hs : Owned s) {m : MainAt} (hm : s.main.inHandshake = false)
    (hm' : m.inHandshake = false) : Owned { s with main := m } := by
  obtain ⟨he, hx⟩ := MainAt.inHandshake_of_inEntrance hm
  obtain ⟨he', hx'⟩ := MainAt.inHandshake_of_inEntrance hm'
  constructor
  · exact hs.entranceMain.trans (by rw [he, he'])
  · exact hs.entranceListener
  · exact hs.exitMain.trans (by rw [hx, hx'])
  · exact hs.exitListener

theorem stepMain_owned {s t : State} (hs : Owned s) (h : stepMain s = some t) : Owned t := by
  obtain ⟨m, l, mode, e, x⟩ := s
  obtain ⟨hm, hl, hx, hn⟩ := hs
  cases m with
  | lockEntrance | lockExit | notified =>
    simp only [stepMain, Option.ite_none_right_eq_some, Option.some.injEq] at h
    obtain ⟨hfree, rfl⟩ := h
    constructor <;> simp_all [MainAt.inEntrance, MainAt.inExit]
  | waiting | stopped => simp [stepMain] at h
  | unlockEntrance | notifySender | waitReceiver | unlockExit | drawParkingStatus | drawn
    | updated =>
    simp only [stepMain, Option.some.injEq] at h
    subst h
    constructor <;> simp_all [MainAt.inEntrance, MainAt.inExit]
  | loop =>
    simp only [stepMain, Option.some.injEq] at h
    subst h
    constructor <;> cases mode <;> simp_all [MainAt.inEntrance, MainAt.inExit]
  | updateSpots init =>
    cases init <;>
      (simp only [stepMain, Option.some.injEq] at h
       subst h
       constructor <;> simp_all [MainAt.inEntrance, MainAt.inExit])

theorem stepListener_owned {s t : State} (hs : Owned s) (h : stepListener s = some t) :
    Owned t := by
  obtain ⟨m, l, mode, e, x⟩ := s
  obtain ⟨hm, hl, hx, hn⟩ := hs
  cases l with
  | lockEntrance | notified =>
    simp only [stepListener, Option.ite_none_right_eq_some, Option.some.injEq] at h
    obtain ⟨hfree, rfl⟩ := h
    constructor <;> simp_all [ListenerAt.inEntrance]
  | idle | waiting => simp [stepListener] at h
  | setMode | waitSender | unlockEntrance | updating | notifyReceiver =>
    simp only [stepListener, Option.some.injEq] at h
    subst h
    constructor <;> simp_all [ListenerAt.inEntrance]

theorem step_owned {s t : State} {a : Action} (hs : Owned s) (h : step s a = some t) :
    Owned t := by
  cases a with
  | main => exact stepMain_owned hs h
  | listener => exact stepListener_owned hs h
  | mainStop =>
    obtain ⟨m, rfl, hm, hm'⟩ := stepStop_frame h
    exact hs.frame hm hm'
  | mainInit =>
    obtain ⟨m, rfl, hm, hm'⟩ := stepInit_frame h
    exact hs.frame hm hm'
  | request | fail =>
    simp only [step, Option.ite_none_right_eq_some, Option.some.injEq] at h
    obtain ⟨hl, rfl⟩ := h
    refine ⟨hs.entranceMain, ?_, hs.exitMain, hs.exitListener⟩
    exact hs.entranceListener.trans (by rw [hl]; exact Iff.rfl)

/-- The main thread sleeps on `ReceiverCV` or is about to, and the notification has been or
will never be given. -/
def Lost (s : State) : Prop :=
  (s.main = .waitReceiver ∨ s.main = .waiting) ∧ ¬ Released s.listener

theorem step_lost {s t : State} {a : Action} (hs : Lost s) (h : step s a = some t) : Lost t := by
  obtain ⟨hm, hr⟩ := hs
  have hwaits : s.main ≠ .notifySender := by
    rcases hm with hm | hm <;> rw [hm] <;> decide
  cases a with
  | main =>
    obtain ⟨h1, _⟩ | ⟨_, hmt, hl⟩ | ⟨_, h2, h3, _⟩ := stepMain_cases h
    · exact (hwaits h1).elim
    · exact ⟨.inr hmt, hl ▸ hr⟩
    · exact (hm.elim h2 h3).elim
  | mainStop =>
    obtain ⟨h2, h3, _⟩ := stepStop_cases h
    exact (hm.elim h2 h3).elim
  | mainInit =>
    obtain ⟨h2, h3, _⟩ := stepInit_cases h
    exact (hm.elim h2 h3).elim
  | listener =>
    obtain ⟨hl, _⟩ | ⟨hmt, _, _, _, hrt⟩ := stepListener_cases h
    · exact absurd (by simp [hl, Released, InInterval]) hr
    · exact ⟨by rw [hmt]; exact hm, fun hk => hr (hrt.mp hk)⟩
  | request =>
    simp only [step, Option.ite_none_right_eq_some, Option.some.injEq] at h
    obtain ⟨_, rfl⟩ := h
    exact ⟨hm, by simp [Released, InInterval]⟩
  | fail =>
    simp only [step, Option.ite_none_right_eq_some, Option.some.injEq] at h
    obtain ⟨hl, _⟩ := h
    exact absurd (by simp [hl, Released, InInterval]) hr

/-- The flag tells where the listener is, and the main thread enters the management mode only for
a listener that waits for it. -/
structure Answering (s : State) : Prop where
  mode : s.ManagementMode = s.listener.inMode
  entered : s.main = .lockEntrance → s.listener = .waitSender ∨ s.listener = .waiting
  called : s.main = .lockExit ∨ s.main = .unlockEntrance ∨ s.main = .notifySender →
    s.listener = .waiting

theorem Answering.frame {s : State} (hs : Answering s) {m : MainAt} (hm : m.inHandshake = false) :
    Answering { s with main := m } := by
  refine ⟨hs.mode, ?_, ?_⟩
  · rintro rfl
    cases hm
  · rintro (rfl | rfl | rfl) <;> cases hm

theorem stepMain_answering {s t : State} (ho : Owned s) (hsus : Suspended s) (hs : Answering s)
    (h : stepMain s = some t) : Answering t := by
  obtain ⟨m, l, mode, e, x⟩ := s
  obtain ⟨hmode, hentered, hcalled⟩ := hs
  cases m with
  | loop =>
    simp only [stepMain, Option.some.injEq] at h
    subst h
    cases mode with
    | false => exact ⟨hmode, by simp, by simp⟩
    | true =>
      refine ⟨hmode, fun _ => ?_, by simp⟩
      -- the main thread waits for every request it has answered
      rcases inMode_cases hmode.symm with hl | hl | hr
      · exact .inl hl
      · exact .inr hl
      · exact ((hsus hr).elim (fun h => by cases h) fun h => by cases h)
  | lockEntrance =>
    simp only [stepMain, Option.ite_none_right_eq_some, Option.some.injEq] at h
    obtain ⟨hfree, rfl⟩ := h
    refine ⟨hmode, by simp, fun _ => (hentered rfl).resolve_left ?_⟩
    rintro rfl
    have howner := ho.entranceListener.mpr rfl
    rw [hfree] at howner
    cases howner
  | lockExit | notified =>
    simp only [stepMain, Option.ite_none_right_eq_some, Option.some.injEq] at h
    obtain ⟨hfree, rfl⟩ := h
    constructor <;> simp_all
  | notifySender =>
    simp only [stepMain, Option.some.injEq] at h
    subst h
    obtain rfl := hcalled (.inr (.inr rfl))
    exact ⟨hmode, by simp, by simp⟩
  | waiting | stopped => simp [stepMain] at h
  | unlockEntrance | waitReceiver | unlockExit | drawParkingStatus | drawn | updated =>
    simp only [stepMain, Option.some.injEq] at h
    subst h
    constructor <;> simp_all
  | updateSpots init =>
    cases init <;>
      (simp only [stepMain, Option.some.injEq] at h
       subst h
       exact ⟨hmode, by simp, by simp⟩)

theorem Answering.listener {s t : State} (hs : Answering s) (hmain : t.main = s.main)
    (hmode : t.ManagementMode = t.listener.inMode) (hl : s.listener ≠ .waiting)
    (hw : s.listener = .waitSender → t.listener = .waiting) : Answering t := by
  refine ⟨hmode, fun hm => .inr ?_, fun hm => ?_⟩
  · exact hw ((hs.entered (hmain ▸ hm)).resolve_right hl)
  · exact absurd (hs.called (hmain ▸ hm)) hl

theorem stepListener_answering {s t : State} (hsus : Suspended s) (hs : Answering s)
    (h : stepListener s = some t) : Lost t ∨ Answering t := by
  obtain ⟨m, l, mode, e, x⟩ := s
  have hmode := hs.mode
  cases l with
  | idle | waiting => simp [stepListener] at h
  | lockEntrance | notified =>
    simp only [stepListener, Option.ite_none_right_eq_some, Option.some.injEq] at h
    obtain ⟨hfree, rfl⟩ := h
    exact .inr (hs.listener rfl hmode (by simp) (by simp))
  | setMode | updating =>
    simp only [stepListener, Option.some.injEq] at h
    subst h
    exact .inr (hs.listener rfl rfl (by simp) (by simp))
  | waitSender | unlockEntrance =>
    simp only [stepListener, Option.some.injEq] at h
    subst h
    exact .inr (hs.listener rfl hmode (by simp) (by simp))
  | notifyReceiver =>
    simp only [stepListener, Option.some.injEq] at h
    subst h
    rcases hsus (.inr (.inr (.inr rfl))) with hm | hm
    · -- nobody waits for this notification
      obtain rfl : m = .waitReceiver := hm
      exact .inl ⟨.inl rfl, by simp [Released, InInterval]⟩
    · obtain rfl : m = .waiting := hm
      exact .inr ⟨hmode, by simp [MainAt.notify], by simp [MainAt.notify]⟩

theorem step_answering {s t : State} {a : Action} (ho : Owned s) (hsus : Suspended s)
    (hs : Answering s) (h : step s a = some t) : Lost t ∨ Answering t := by
  cases a with
  | main => exact .inr (stepMain_answering ho hsus hs h)
  | listener => exact stepListener_answering hsus hs h
  | mainStop =>
    obtain ⟨m, rfl, -, hm⟩ := stepStop_frame h
    exact .inr (hs.frame hm)
  | mainInit =>
    obtain ⟨m, rfl, -, hm⟩ := stepInit_frame h
    exact .inr (hs.frame hm)
  | request =>
    simp only [step, Option.ite_none_right_eq_some, Option.some.injEq] at h
    obtain ⟨hl, rfl⟩ := h
    refine .inr (hs.listener rfl ?_ (by simp [hl]) (by simp [hl]))
    exact hs.mode.trans (by rw [hl]; rfl)
  | fail =>
    simp only [step, Option.ite_none_right_eq_some, Option.some.injEq] at h
    obtain ⟨hl, rfl⟩ := h
    exact .inl ⟨hsus (.inr (.inr (.inl hl))), by simp [Released, InInterval]⟩

/-- What holds of every state the two threads come to. -/
structure Reached (s : State) : Prop where
  owned : Owned s
  suspended : Suspended s
  answering : Lost s ∨ Answering s

theorem step_reached {s t : State} {a : Action} (hs : Reached s) (h : step s a = some t) :
    Reached t := by
  refine ⟨step_owned hs.owned h, step_suspended hs.suspended h, ?_⟩
  rcases hs.answering with hlost | hans
  · exact .inl (step_lost hlost h)
  · exact step_answering hs.owned hs.suspended hans h

theorem reached {as : List Action} {s : State} (hs : Visits step {} as s) : Reached s := by
  refine invariant (fun _ _ _ => step_reached) ⟨?_, ?_, .inr ?_⟩ hs
  · exact ⟨by decide, by decide, by decide, by decide⟩
  · exact fun h => absurd h (by decide)
  · exact ⟨rfl, by decide, by decide⟩

/-- The main thread has left `run`, or is in the loop of `initParkingSpots`, which a key ends. -/
def MainAt.away : MainAt → Bool
  | .stopped | .drawParkingStatus true | .drawn true | .updateSpots true => true
  | _ => false

/-- The listener has taken on a request that the main thread has not answered. -/
def ListenerAt.asks : ListenerAt → Bool
  | .lockEntrance | .setMode | .waitSender | .waiting => true
  | _ => false

/-- The statements of the main thread up to its notification. -/
def MainAt.untilNotified : MainAt → ℕ
  | .drawParkingStatus _ => 9
  | .drawn _ => 8
  | .updateSpots _ | .notified => 7
  | .updated | .unlockExit => 6
  | .loop => 5
  | .lockEntrance => 4
  | .lockExit => 3
  | .unlockEntrance => 2
  | .notifySender => 1
  | .waitReceiver | .waiting | .stopped => 0

theorem MainAt.untilNotified_le (m : MainAt) : m.untilNotified ≤ 9 := by
  cases m <;> simp [untilNotified]

/-- The statements up to the return of `suspendMainThread`. -/
def untilAnswered (s : State) : ℕ :=
  match s.listener with
  | .lockEntrance => 14
  | .setMode => 13
  | .waitSender => 12
  | .waiting => s.main.untilNotified + 2
  | .notified => 2
  | .unlockEntrance => 1
  | _ => 0

/-- A request on its way to the answer. -/
structure Asked (s : State) : Prop where
  owned : Owned s
  suspended : Suspended s
  answering : Answering s
  inTime : ¬ Lost s
  near : s.main.away = false
  asks : s.listener.asks = true ∨ s.listener = .notified ∨ s.listener = .unlockEntrance

theorem Asked.reached {s : State} (hs : Asked s) : Reached s :=
  ⟨hs.owned, hs.suspended, .inr hs.answering⟩

/-- Nobody holds `MutexEntrace` where neither thread's position says so. -/
theorem Owned.entranceFree {s : State} (hs : Owned s) (hm : s.main.inEntrance = false)
    (hl : s.listener.inEntrance = false) : s.MutexEntrace = none := by
  cases he : s.MutexEntrace with
  | none => rfl
  | some owner =>
    cases owner with
    | main => simp [hs.entranceMain.mp he] at hm
    | listener => simp [hs.entranceListener.mp he] at hl

/-- Until it waits, and once it has been notified, nothing blocks the listener. -/
theorem Asked.stepListener_busy {s : State} (hs : Asked s) (hl : s.listener ≠ .waiting) :
    ∃ t, stepListener s = some t ∧ (t.listener = .updating ∨
      untilAnswered t < untilAnswered s ∧ (t.listener.asks = true ∨
        t.listener = .notified ∨ t.listener = .unlockEntrance)) := by
  obtain ⟨m, l, mode, e, x⟩ := s
  have hasks := hs.asks
  cases l with
  | waiting => exact absurd rfl hl
  | idle | updating | notifyReceiver => simp [ListenerAt.asks] at hasks
  | unlockEntrance => exact ⟨_, rfl, .inl rfl⟩
  | setMode => exact ⟨_, rfl, .inr ⟨Nat.le_refl _, .inl rfl⟩⟩
  | waitSender =>
    have hm := m.untilNotified_le
    exact ⟨_, rfl, .inr ⟨show m.untilNotified + 2 < 12 by omega, .inl rfl⟩⟩
  | lockEntrance =>
    have hm : m.inEntrance = false := by
      have hcalled := hs.answering.called
      cases m <;> simp_all [MainAt.inEntrance]
    obtain rfl : e = none := hs.owned.entranceFree hm rfl
    exact ⟨_, rfl, .inr ⟨Nat.le_refl _, .inl rfl⟩⟩
  | notified =>
    have hm : m.inEntrance = false := by
      obtain rfl | rfl : m = .waitReceiver ∨ m = .waiting := hs.suspended (.inl rfl) <;> rfl
    obtain rfl : e = none := hs.owned.entranceFree hm rfl
    exact ⟨_, rfl, .inr ⟨Nat.le_refl _, .inr (.inr rfl)⟩⟩

/-- Only the notification leads to the wait, and only the keys lead away. -/
theorem stepMain_position {s t : State} (h : stepMain s = some t) :
    (t.main = .waitReceiver → s.main = .notifySender) ∧
      (s.main.away = false → t.main.away = false) := by
  obtain ⟨m, l, mode, e, x⟩ := s
  cases m with
  | waiting | stopped => simp [stepMain] at h
  | notifySender =>
    simp only [stepMain, Option.some.injEq] at h
    subst h
    exact ⟨fun _ => rfl, fun _ => rfl⟩
  | lockEntrance | lockExit | notified =>
    simp only [stepMain, Option.ite_none_right_eq_some, Option.some.injEq] at h
    obtain ⟨_, rfl⟩ := h
    exact ⟨by simp, fun _ => rfl⟩
  | unlockEntrance | waitReceiver | unlockExit | updated =>
    simp only [stepMain, Option.some.injEq] at h
    subst h
    exact ⟨by simp, fun _ => rfl⟩
  | loop =>
    simp only [stepMain, Option.some.injEq] at h
    subst h
    cases mode <;> exact ⟨by simp, fun _ => rfl⟩
  | drawParkingStatus init | drawn init | updateSpots init =>
    cases init <;>
      (simp only [stepMain, Option.some.injEq] at h
       subst h
       exact ⟨by simp, by simp [MainAt.away]⟩)

/-- The main thread waits for a request after it has answered it, so never for one in vain. -/
theorem Asked.stepMain_inTime {s t : State} (hs : Asked s) (h : stepMain s = some t) :
    ¬ Lost t := by
  rintro ⟨hm, hr⟩
  obtain ⟨hcall, _, hl⟩ | ⟨hwait, _, hl⟩ | ⟨hcall, _, _, hnot, _⟩ := stepMain_cases h
  · rw [hs.answering.called (.inr (.inr hcall))] at hl
    exact hr (.inl hl)
  · exact hs.inTime ⟨.inl hwait, hl ▸ hr⟩
  · exact hcall ((stepMain_position h).1 (hm.resolve_right hnot))

theorem Asked.stepListener_inTime {s t : State} (hs : Asked s) (h : stepListener s = some t) :
    ¬ Lost t ∧ t.main = s.main := by
  obtain ⟨hl, _⟩ | ⟨hm, _, _, _, hr⟩ := stepListener_cases h
  · have hasks := hs.asks
    simp [hl, ListenerAt.asks] at hasks
  · exact ⟨fun hlost => hs.inTime ⟨hm ▸ hlost.1, fun hk => hlost.2 (hr.mpr hk)⟩, hm⟩

/-- The main thread moves the listener only by the notification. -/
theorem stepMain_listener {s t : State} (h : stepMain s = some t) :
    t.listener = s.listener ∨ t.listener = s.listener.notify := by
  obtain ⟨_, _, hl⟩ | ⟨_, _, hl⟩ | ⟨_, _, _, _, hl⟩ := stepMain_cases h
  · exact .inr hl
  · exact .inl hl
  · exact .inl hl

theorem Asked.main {s t : State} (hs : Asked s) (h : stepMain s = some t) : Asked t := by
  have ht := step_reached (a := .main) hs.reached h
  refine ⟨ht.owned, ht.suspended, ht.answering.resolve_left (hs.stepMain_inTime h),
    hs.stepMain_inTime h, (stepMain_position h).2 hs.near, ?_⟩
  have hasks := hs.asks
  rcases stepMain_listener h with hl | hl <;> rw [hl]
  · exact hasks
  · cases hsl : s.listener <;> simp_all [ListenerAt.notify, ListenerAt.asks]

/-- The answer: the listener carries out the update, and the main thread is not at work. -/
def Answered (s : State) : Prop := s.listener = .updating ∧ ¬ InFrame s.main

theorem not_inFrame_of_released {s : State} (hsus : Suspended s) (hr : Released s.listener) :
    ¬ InFrame s.main := by
  rintro (⟨init, hm⟩ | ⟨init, hm⟩) <;> rcases hsus hr with h | h <;> rw [hm] at h <;> cases h

theorem Asked.listener {s t : State} (hs : Asked s) (h : stepListener s = some t) :
    Answered t ∨ Asked t ∧ untilAnswered t < untilAnswered s := by
  have ht := step_reached (a := .listener) hs.reached h
  obtain ⟨hlost, hm⟩ := hs.stepListener_inTime h
  have hl : s.listener ≠ .waiting := by
    intro hl
    simp [stepListener, hl] at h
  obtain ⟨u, hu, hwhere⟩ := hs.stepListener_busy hl
  obtain rfl : u = t := Option.some.inj (hu.symm.trans h)
  rcases hwhere with hupd | ⟨hlt, hasks⟩
  · exact .inl ⟨hupd, not_inFrame_of_released ht.suspended (.inr (.inr (.inl hupd)))⟩
  · exact .inr ⟨⟨ht.owned, ht.suspended, ht.answering.resolve_left hlost, hlost,
      hm ▸ hs.near, hasks⟩, hlt⟩

end VisionSensor.Handshake
