import VisionSensor.Lib.GuardedRun

/-! The handshake by which a management update suspends the main thread: `MainInterface::run`
and `TCPSocketListener::update` over the two mutexes, the two condition variables and the flag
of `MutualConditionVariable`. One action is one lock, unlock, wait, notification or access to
the flag; a wait releases its mutex in the same step and has to lock it again once notified. -/
namespace VisionSensor.Handshake
open GuardedRun

inductive Thread where
  | main | listener
  deriving DecidableEq, Repr

/-- Where the main thread is in the loop of `run`. The argument of the frame positions tells
whether they belong to `initParkingSpots`. -/
inductive MainAt where
  | loop
  | lockEntrance
  | lockExit
  | unlockEntrance
  | notifySender
  | waitReceiver
  | waiting
  | notified
  | unlockExit
  | drawParkingStatus (init : Bool)
  | drawn (init : Bool)
  | updateSpots (init : Bool)
  | updated
  | stopped
  deriving DecidableEq, Repr

/-- Where the listener thread is. `updating` begins when `suspendMainThread` has returned;
`notifyReceiver` is the last statement of `resumeMainThread` and of the update. -/
inductive ListenerAt where
  | idle
  | lockEntrance
  | setMode
  | waitSender
  | waiting
  | notified
  | unlockEntrance
  | updating
  | notifyReceiver
  deriving DecidableEq, Repr

structure State where
  main : MainAt := .loop
  listener : ListenerAt := .idle
  ManagementMode : Bool := false
  MutexEntrace : Option Thread := none
  MutexExit : Option Thread := none
  deriving DecidableEq, Repr

/-- `main` and `listener` let that thread execute its next statement. `mainStop` ends the loop
the main thread is in (no frame, an empty frame, the escape key), `mainInit` is the
initialisation key, `request` the arrival of an update request, and `fail` an exception
between `suspendMainThread` and `resumeMainThread`. -/
inductive Action where
  | main | mainStop | mainInit | listener | request | fail
  deriving DecidableEq, Repr

/-- `notify_all` on `SenderCV`. -/
def ListenerAt.notify : ListenerAt → ListenerAt
  | .waiting => .notified
  | l => l

/-- `notify_all` on `ReceiverCV`. -/
def MainAt.notify : MainAt → MainAt
  | .waiting => .notified
  | m => m

def stepMain (s : State) : Option State :=
  match s.main with
  | .loop => some { s with main := if s.ManagementMode then .lockEntrance else .drawParkingStatus false }
  | .lockEntrance =>
      if s.MutexEntrace = none then some { s with MutexEntrace := some .main, main := .lockExit }
      else none
  | .lockExit =>
      if s.MutexExit = none then some { s with MutexExit := some .main, main := .unlockEntrance }
      else none
  | .unlockEntrance => some { s with MutexEntrace := none, main := .notifySender }
  | .notifySender => some { s with listener := s.listener.notify, main := .waitReceiver }
  | .waitReceiver => some { s with MutexExit := none, main := .waiting }
  | .waiting => none
  | .notified =>
      if s.MutexExit = none then some { s with MutexExit := some .main, main := .unlockExit }
      else none
  | .unlockExit => some { s with MutexExit := none, main := .loop }
  | .drawParkingStatus init => some { s with main := .drawn init }
  | .drawn init => some { s with main := .updateSpots init }
  | .updateSpots true => some { s with main := .drawParkingStatus true }
  | .updateSpots false => some { s with main := .updated }
  | .updated => some { s with main := .loop }
  | .stopped => none

def stepStop (s : State) : Option State :=
  match s.main with
  | .loop => some { s with main := .stopped }
  | .updated => some { s with main := .stopped }
  | .drawn true => some { s with main := .loop }
  | _ => none

def stepInit (s : State) : Option State :=
  match s.main with
  | .updated => some { s with main := .drawParkingStatus true }
  | .drawn true => some { s with main := .drawParkingStatus true }
  | _ => none

def stepListener (s : State) : Option State :=
  match s.listener with
  | .idle => none
  | .lockEntrance =>
      if s.MutexEntrace = none then some { s with MutexEntrace := some .listener, listener := .setMode }
      else none
  | .setMode => some { s with ManagementMode := true, listener := .waitSender }
  | .waitSender => some { s with MutexEntrace := none, listener := .waiting }
  | .waiting => none
  | .notified =>
      if s.MutexEntrace = none then
        some { s with MutexEntrace := some .listener, listener := .unlockEntrance }
      else none
  | .unlockEntrance => some { s with MutexEntrace := none, listener := .updating }
  | .updating => some { s with ManagementMode := false, listener := .notifyReceiver }
  | .notifyReceiver => some { s with main := s.main.notify, listener := .idle }

def step (s : State) : Action → Option State
  | .main => stepMain s
  | .mainStop => stepStop s
  | .mainInit => stepInit s
  | .listener => stepListener s
  | .request => if s.listener = .idle then some { s with listener := .lockEntrance } else none
  | .fail => if s.listener = .updating then some { s with listener := .idle } else none

/-- The listener is between the return of `suspendMainThread` and the notification in
`resumeMainThread`. -/
def InInterval (l : ListenerAt) : Prop := l = .updating ∨ l = .notifyReceiver

/-- The main thread has answered the request the listener is serving. -/
def Released (l : ListenerAt) : Prop := l = .notified ∨ l = .unlockEntrance ∨ InInterval l

/-- The main thread is at work on a frame. -/
def InFrame (m : MainAt) : Prop :=
  (∃ init, m = .drawParkingStatus init) ∨ ∃ init, m = .updateSpots init

instance : DecidablePred InInterval := fun l => by unfold InInterval; infer_instance

instance : DecidablePred Released := fun l => by unfold Released; infer_instance

/-- What a statement of the main thread does to the handshake. -/
theorem stepMain_cases {s t : State} (h : stepMain s = some t) :
    (s.main = .notifySender ∧ t.main = .waitReceiver ∧ t.listener = s.listener.notify) ∨
      (s.main = .waitReceiver ∧ t.main = .waiting ∧ t.listener = s.listener) ∨
      (s.main ≠ .notifySender ∧ s.main ≠ .waitReceiver ∧ s.main ≠ .waiting ∧
        t.main ≠ .waiting ∧ t.listener = s.listener) := by
  cases hm : s.main with
  | notifySender =>
    simp only [stepMain, hm, Option.some.injEq] at h
    subst h
    exact .inl ⟨rfl, rfl, rfl⟩
  | waitReceiver =>
    simp only [stepMain, hm, Option.some.injEq] at h
    subst h
    exact .inr (.inl ⟨rfl, rfl, rfl⟩)
  | waiting | stopped => simp [stepMain, hm] at h
  | loop =>
    simp only [stepMain, hm, Option.some.injEq] at h
    subst h
    refine .inr (.inr ⟨by simp, by simp, by simp, ?_, rfl⟩)
    dsimp only
    split_ifs <;> simp
  | lockEntrance | lockExit | notified =>
    simp only [stepMain, hm, Option.ite_none_right_eq_some, Option.some.injEq] at h
    obtain ⟨_, rfl⟩ := h
    exact .inr (.inr ⟨by simp, by simp, by simp, by simp, rfl⟩)
  | unlockEntrance | unlockExit | drawParkingStatus | drawn | updated =>
    simp only [stepMain, hm, Option.some.injEq] at h
    subst h
    exact .inr (.inr ⟨by simp, by simp, by simp, by simp, rfl⟩)
  | updateSpots init =>
    cases init <;>
      (simp only [stepMain, hm, Option.some.injEq] at h
       subst h
       exact .inr (.inr ⟨by simp, by simp, by simp, by simp, rfl⟩))

/-- Leaving the loop or starting the initialisation does not touch the handshake. -/
theorem stepStop_cases {s t : State} (h : stepStop s = some t) :
    s.main ≠ .waitReceiver ∧ s.main ≠ .waiting ∧ t.main ≠ .waiting ∧ t.listener = s.listener := by
  unfold stepStop at h
  split at h <;> simp_all <;> (subst h; simp)

theorem stepInit_cases {s t : State} (h : stepInit s = some t) :
    s.main ≠ .waitReceiver ∧ s.main ≠ .waiting ∧ t.main ≠ .waiting ∧ t.listener = s.listener := by
  unfold stepInit at h
  split at h <;> simp_all <;> (subst h; simp)

/-- What a statement of the listener does to the handshake. -/
theorem stepListener_cases {s t : State} (h : stepListener s = some t) :
    (s.listener = .notifyReceiver ∧ t.main = s.main.notify ∧ t.listener = .idle) ∨
      (t.main = s.main ∧ s.listener ≠ .notifyReceiver ∧ s.listener ≠ .waiting ∧
        (InInterval s.listener → InInterval t.listener) ∧
        (Released t.listener ↔ Released s.listener)) := by
  cases hl : s.listener with
  | idle | waiting => simp [stepListener, hl] at h
  | notifyReceiver =>
    simp only [stepListener, hl, Option.some.injEq] at h
    subst h
    exact .inl ⟨rfl, rfl, rfl⟩
  | lockEntrance | notified =>
    simp only [stepListener, hl, Option.ite_none_right_eq_some, Option.some.injEq] at h
    obtain ⟨_, rfl⟩ := h
    exact .inr ⟨rfl, by simp, by simp, by simp [InInterval], by simp [Released, InInterval]⟩
  | setMode | waitSender | unlockEntrance | updating =>
    simp only [stepListener, hl, Option.some.injEq] at h
    subst h
    exact .inr ⟨rfl, by simp, by simp, by simp [InInterval], by simp [Released, InInterval]⟩

/-- While the listener carries out an update the main thread is on its way into the wait on
`ReceiverCV`, or in it. -/
def Suspended (s : State) : Prop :=
  Released s.listener → s.main = .waitReceiver ∨ s.main = .waiting

theorem step_suspended {s t : State} {a : Action} (hs : Suspended s) (h : step s a = some t) :
    Suspended t := by
  intro ht
  cases a with
  | main =>
    obtain ⟨_, hm, _⟩ | ⟨_, hm, _⟩ | ⟨_, h2, h3, _, hl⟩ := stepMain_cases h
    · exact .inl hm
    · exact .inr hm
    · rw [hl] at ht
      exact ((hs ht).elim h2 h3).elim
  | mainStop =>
    obtain ⟨h2, h3, _, hl⟩ := stepStop_cases h
    exact ((hs (hl ▸ ht)).elim h2 h3).elim
  | mainInit =>
    obtain ⟨h2, h3, _, hl⟩ := stepInit_cases h
    exact ((hs (hl ▸ ht)).elim h2 h3).elim
  | listener =>
    obtain ⟨_, _, hl⟩ | ⟨hm, _, _, _, hr⟩ := stepListener_cases h
    · rw [hl] at ht
      exact absurd ht (by decide)
    · rw [hm]
      exact hs (hr.mp ht)
  | request =>
    simp only [step, Option.ite_none_right_eq_some, Option.some.injEq] at h
    obtain ⟨_, rfl⟩ := h
    exact absurd ht (by simp [Released, InInterval])
  | fail =>
    simp only [step, Option.ite_none_right_eq_some, Option.some.injEq] at h
    obtain ⟨_, rfl⟩ := h
    exact absurd ht (by simp [Released, InInterval])

/-- However many updates are requested, and whether they fail or not: from the return of
`suspendMainThread` to the end of the update the main thread is not at work on a frame. -/
theorem update_excludes_frame (as : List Action) (s : State) (hs : Visits step {} as s)
    (hl : InInterval s.listener) : ¬ InFrame s.main := by
  have hsus : Suspended s :=
    invariant (fun _ _ _ => step_suspended) (fun h => absurd h (by decide)) hs
  rintro (⟨init, hm⟩ | ⟨init, hm⟩) <;>
    rcases hsus (.inr (.inr hl)) with h | h <;> rw [hm] at h <;> cases h

/-- Two requests, each served in the middle of the frames the main thread works on. -/
theorem update_excludes_frame_second :
    let round := [Action.main, .main, .request, .listener, .main, .main, .listener, .listener,
      .main, .main, .main, .main, .main, .main, .listener, .listener]
    ∃ s, exec step {} (round ++ [.main, .listener, .listener, .main, .main] ++ round) = some s ∧
      InInterval s.listener ∧ ¬ InFrame s.main := by
  intro round
  let s : State := ⟨.waitReceiver, .updating, true, none, some .main⟩
  have hs : exec step {} (round ++ [.main, .listener, .listener, .main, .main] ++ round) =
      some s := by decide
  exact ⟨s, hs, by decide, update_excludes_frame _ s (visits_of_exec hs) (by decide)⟩

/-- The main thread sleeps on `ReceiverCV`, not notified, and the listener is not in `K`. -/
def StrandedOutside (K : ListenerAt → Prop) (s : State) : Prop :=
  s.main = .waiting ∧ ¬ K s.listener

/-- If this step is the call of `ReceiverCV.wait`, the listener is in `K`. -/
def WaitsIn (K : ListenerAt → Prop) (s : State) (a : Action) : Prop :=
  a = .main → s.main = .waitReceiver → K s.listener

instance (K : ListenerAt → Prop) [DecidablePred K] (s : State) (a : Action) :
    Decidable (WaitsIn K s a) := by
  unfold WaitsIn; infer_instance

/-- An interval of the listener that, failures apart, only the notification of the main
thread ends. -/
structure EndsWithNotify (K : ListenerAt → Prop) : Prop where
  idle : ¬ K .idle
  stays {s t : State} : stepListener s = some t → s.listener ≠ .notifyReceiver →
    K s.listener → K t.listener

theorem inInterval_endsWithNotify : EndsWithNotify InInterval where
  idle := by decide
  stays h hl hk := by
    obtain ⟨h1, _⟩ | ⟨_, _, _, hin, _⟩ := stepListener_cases h
    · exact (hl h1).elim
    · exact hin hk

theorem released_endsWithNotify : EndsWithNotify Released where
  idle := by decide
  stays h hl hk := by
    obtain ⟨h1, _⟩ | ⟨_, _, _, _, hr⟩ := stepListener_cases h
    · exact (hl h1).elim
    · exact hr.mpr hk

/-- A main thread that is not stranded becomes so only by waiting at the wrong moment. -/
theorem step_stranded_iff {K : ListenerAt → Prop} (hK : EndsWithNotify K) {s t : State}
    {a : Action} (hs : ¬ StrandedOutside K s) (ha : a ≠ .fail) (h : step s a = some t) :
    ¬ StrandedOutside K t ↔ WaitsIn K s a := by
  cases a with
  | main =>
    obtain ⟨h1, hm, _⟩ | ⟨h1, hm, hl⟩ | ⟨_, h2, _, hm, _⟩ := stepMain_cases h
    · exact iff_of_true (fun hst => by simp [hst.1] at hm) fun _ hw => by simp [h1] at hw
    · simp [StrandedOutside, WaitsIn, h1, hm, hl]
    · exact iff_of_true (fun hst => hm hst.1) fun _ hw => (h2 hw).elim
  | mainStop =>
    exact iff_of_true (fun hst => (stepStop_cases h).2.2.1 hst.1) fun hw => by cases hw
  | mainInit =>
    exact iff_of_true (fun hst => (stepInit_cases h).2.2.1 hst.1) fun hw => by cases hw
  | listener =>
    refine iff_of_true (fun hst => ?_) fun hw => by cases hw
    obtain ⟨_, hm, _⟩ | ⟨hm, hl, _⟩ := stepListener_cases h
    · have hwait := hst.1
      rw [hm] at hwait
      cases hsm : s.main <;> simp [MainAt.notify, hsm] at hwait
    · have hk : K s.listener := by
        by_contra hk
        exact hs ⟨hm ▸ hst.1, hk⟩
      exact hst.2 (hK.stays h hl hk)
  | request =>
    refine iff_of_true (fun hst => ?_) fun hw => by cases hw
    simp only [step, Option.ite_none_right_eq_some, Option.some.injEq] at h
    obtain ⟨hl, rfl⟩ := h
    exact hs ⟨hst.1, hl ▸ hK.idle⟩
  | fail => exact (ha rfl).elim

theorem stranded_run_iff {K : ListenerAt → Prop} (hK : EndsWithNotify K) {as : List Action}
    (has : ∀ a ∈ as, a ≠ .fail) :
    (∀ s, Visits step {} as s → ¬ StrandedOutside K s) ↔
      ∀ s a, Takes step {} as s a → WaitsIn K s a := by
  have hstart : ¬ StrandedOutside K {} := fun h => by cases h.1
  refine visits_iff_takes (J := fun _ => True) (fun _ _ _ _ _ _ => trivial) ?_ trivial hstart has
  exact fun _ _ _ _ hs ha h => step_stranded_iff hK hs ha h

/-- In a run of successful updates the main thread never sleeps on `ReceiverCV` without a
notification pending and with the listener outside the interval, exactly if it never calls the
wait with the listener outside the interval. -/
theorem no_lost_wakeup_iff (as : List Action) (has : ∀ a ∈ as, a ≠ .fail) :
    (∀ s, Visits step {} as s → ¬ (s.main = .waiting ∧ ¬ InInterval s.listener)) ↔
      ∀ s a, Takes step {} as s a → WaitsIn InInterval s a :=
  stranded_run_iff inInterval_endsWithNotify has

/-- Here the listener returns from `suspendMainThread`, the main thread goes to sleep, and
the update ends: the condition holds at every step. -/
theorem no_lost_wakeup_in_turn :
    let as := [Action.request, .listener, .listener, .listener, .main, .main, .main, .main,
      .main, .listener, .listener, .main, .listener]
    ∃ s, exec step {} as = some s ∧ ¬ (s.main = .waiting ∧ ¬ InInterval s.listener) := by
  intro as
  let s : State := ⟨.waiting, .notifyReceiver, false, none, none⟩
  have hs : exec step {} as = some s := by decide
  refine ⟨s, hs, (no_lost_wakeup_iff as (by decide)).mpr ?_ s (visits_of_exec hs)⟩
  exact fun s a h => takes_of_checkTakes (by decide) h

/-- The listener notifies `ReceiverCV` after the main thread has answered and before it
waits: `resumeMainThread` does not take the mutex under which the main thread waits. -/
theorem lost_wakeup :
    let as := [Action.request, .listener, .listener, .listener, .main, .main, .main, .main,
      .main, .listener, .listener, .listener, .listener, .main]
    (∀ a ∈ as, a ≠ .fail) ∧ ∃ s, Visits step {} as s ∧ s.main = .waiting ∧
      s.listener = .idle ∧ s.ManagementMode = false ∧ ¬ InInterval s.listener := by
  intro as
  have hs : exec step {} as = some ⟨.waiting, .idle, false, none, none⟩ := by decide
  exact ⟨by decide, _, visits_of_exec hs, rfl, rfl, rfl, by decide⟩

/-- Counted from the moment the main thread has answered, the same holds of the wait: a wait
before the listener's notification is always woken. -/
theorem no_lost_wakeup_released_iff (as : List Action) (has : ∀ a ∈ as, a ≠ .fail) :
    (∀ s, Visits step {} as s → ¬ StrandedOutside Released s) ↔
      ∀ s a, Takes step {} as s a → WaitsIn Released s a :=
  stranded_run_iff released_endsWithNotify has

theorem step_strandedOutside_released {s t : State} {a : Action}
    (hs : StrandedOutside Released s) (h : step s a = some t) :
    StrandedOutside Released t := by
  obtain ⟨hm, hr⟩ := hs
  cases a with
  | main => simp [step, stepMain, hm] at h
  | mainStop => simp [step, stepStop, hm] at h
  | mainInit => simp [step, stepInit, hm] at h
  | listener =>
    obtain ⟨hl, _⟩ | ⟨hmt, _, _, _, hrt⟩ := stepListener_cases h
    · exact absurd (by simp [hl, Released, InInterval]) hr
    · exact ⟨hmt.trans hm, fun hk => hr (hrt.mp hk)⟩
  | request =>
    simp only [step, Option.ite_none_right_eq_some, Option.some.injEq] at h
    obtain ⟨_, rfl⟩ := h
    exact ⟨hm, by simp [Released, InInterval]⟩
  | fail =>
    simp only [step, Option.ite_none_right_eq_some, Option.some.injEq] at h
    obtain ⟨hl, _⟩ := h
    exact absurd (by simp [hl, Released, InInterval]) hr

/-- A lost wake-up is final: the main thread never runs again, and no later request is ever
answered. -/
theorem stranded_forever {s t : State} {as : List Action} (hs : StrandedOutside Released s)
    (ht : Visits step s as t) : t.main = .waiting ∧ ¬ Released t.listener :=
  invariant (fun _ _ _ => step_strandedOutside_released) hs ht

end VisionSensor.Handshake
