import VisionSensor.Spot.Overstay

/-! The time of an overstay message, against the entry time and the duration of its visit. A ledger
beside the two threads notes what `enter` was given and what it gave to `expires_from_now`;
`notifyExpiration` computes the time again from `mEntryTime` and from `mTimeLimit`, in seconds. -/
namespace VisionSensor.TimerThread
open GuardedRun

/-- Whether a statement calls `expires_from_now`. -/
def Stmt.isArming : Stmt → Bool
  | expiresFromNow _ => true
  | _ => false

/-- The seconds a statement gives to `expires_from_now`. -/
def duration (s : ParkingSpot) (res_timeLimit : Option ℤ) : ℤ :=
  res_timeLimit.elim s.mTimeLimit fun n => 60 * n

theorem mParkingTimer_expiresFromNow (st : Thresholds) (s : ParkingSpot) (res_timeLimit : Option ℤ) :
    (Stmt.apply st s (.expiresFromNow res_timeLimit)).mParkingTimer =
      some (duration s res_timeLimit) := by
  cases res_timeLimit <;> rfl

/-- `entryTimes` and `timers` have an entry for every `enter`: its entry time, and the argument of
`startTimer` with the seconds it makes of it. `entered` is the `enter` that wrote `mEntryTime` last,
`armedSince` holds those that armed a timer and left their limit in `mTimeLimit`, with no other
since. `reads` are the times given to `readAt`. -/
structure Ledger where
  machine : Machine
  entryTimes : List Ptime := []
  timers : List (Option ℤ × ℤ) := []
  entered : Option ℕ := none
  armedSince : List ℕ := []
  reads : List (Handler × Ptime) := []

/-- A step of one of the threads, or an update of the spot by the listener. -/
inductive Event where
  | thread (a : Action)
  | updateAttributes (spotName : String) (timeLimit : ℤ) (roi : Rect) (policy : ParkingSpotPolicy)

namespace Ledger

/-- The time `notifyExpiration` computes. -/
def time (L : Ledger) : Ptime := L.machine.spot.mEntryTime.addSeconds L.machine.spot.mTimeLimit

/-- The `enter`s whose limit a new one leaves in place. -/
def keeping (L : Ledger) (timeLimit : ℤ) : List ℕ :=
  if timeLimit = L.machine.spot.mTimeLimit then L.armedSince else []

/-- What is noted when the main thread runs a statement. -/
def noteStmt (L : Ledger) : Stmt → Ledger
  | .expiresFromNow none =>
      { L with
        timers := L.timers ++ [(none, duration L.machine.spot none)]
        armedSince := L.armedSince ++ [L.machine.entries] }
  | .expiresFromNow (some n) =>
      { L with timers := L.timers ++ [(some n, duration L.machine.spot (some n))] }
  | .setTimeLimit n => { L with armedSince := L.keeping n ++ [L.machine.entries] }
  | .setEntryTime _ => { L with entered := some L.machine.entries }
  | _ => L

/-- What is noted before a step of a thread. -/
def note (L : Ledger) : Action → Ledger
  | .call (.enter _ _ _ entryTime _) => { L with entryTimes := L.entryTimes ++ [entryTime] }
  | .main => L.machine.main.head?.elim L L.noteStmt
  | .handler _ =>
      match L.machine.running with
      | some (h, .tested) => { L with reads := L.reads ++ [(h, L.time)] }
      | _ => L
  | _ => L

def step (L : Ledger) : Event → Option Ledger
  | .thread a => (L.machine.step a).map fun m => { L.note a with machine := m }
  | .updateAttributes spotName timeLimit roi policy =>
      let spot := (L.machine.spot.updateAttributes spotName timeLimit roi policy).1
      some { L with
        machine := { L.machine with spot }
        armedSince := L.keeping spot.mTimeLimit }

/-- A new parking spot, with nothing queued and nothing noted. -/
def init (spot : ParkingSpot) (statics : Thresholds) : Ledger :=
  { machine := Machine.init spot statics }

/-- The entry time of an `enter` and the duration it gave to `expires_from_now`. -/
def due (L : Ledger) (k : ℕ) : Option Ptime :=
  L.entryTimes[k - 1]?.bind fun entryTime =>
    L.timers[k - 1]?.map fun timer => entryTime.addSeconds timer.2

/-- Every overstay message of an expired timer carries the time due for the `enter` that armed it,
and `readAt` is given that time. -/
def OverstayTimes (L : Ledger) : Prop :=
  (∀ p ∈ L.machine.log, ∀ c ∈ p.cause, c.1.ec = .success →
    L.due c.1.arm = some p.data.mEventTime) ∧
  ∀ r ∈ L.reads, r.1.ec = .success → L.due r.1.arm = some r.2

instance : DecidablePred OverstayTimes := fun L =>
  inferInstanceAs (Decidable ((∀ p ∈ L.machine.log, ∀ c ∈ p.cause, c.1.ec = .success →
    L.due c.1.arm = some p.data.mEventTime) ∧
    ∀ r ∈ L.reads, r.1.ec = .success → L.due r.1.arm = some r.2))

/-- The handler that computes its time in a step. -/
def computing (L : Ledger) : Event → Option Handler
  | .thread (.handler _) =>
      match L.machine.running with
      | some (h, .tested) => some h
      | _ => none
  | _ => none

/-- When the time of an expired timer is computed, entry time and limit on the spot are those of the
`enter` that armed it. -/
def InPlace (L : Ledger) (e : Event) : Prop :=
  ∀ h ∈ L.computing e, h.ec = .success → L.entered = some h.arm ∧ h.arm ∈ L.armedSince

instance (L : Ledger) : DecidablePred L.InPlace := fun e =>
  inferInstanceAs (Decidable (∀ h ∈ L.computing e, h.ec = .success →
    L.entered = some h.arm ∧ h.arm ∈ L.armedSince))

/-- That `enter` had no reservation of any minutes. Without a date as its entry time the minutes do
not matter. -/
def Unreserved (L : Ledger) (e : Event) : Prop :=
  ∀ h ∈ L.computing e, h.ec = .success → ∀ timer ∈ L.timers[h.arm - 1]?,
    timer.1.getD 0 = 0 ∨ L.machine.spot.mEntryTime = none

/-- The statements set no limit but that of the last reservation armed, `armed` before them. -/
def Prepared : Option ℤ → List Stmt → Prop
  | _, [] => True
  | _, .expiresFromNow res_timeLimit :: rest => Prepared res_timeLimit rest
  | armed, .setTimeLimit n :: rest =>
      armed = some n ∧ rest.countP Stmt.isArming = 0 ∧ Prepared armed rest
  | armed, _ :: rest => Prepared armed rest

/-- What the ledger knows of the main thread and of the fields a time is computed from. -/
structure Booked (L : Ledger) : Prop where
  entered_all : L.entryTimes.length = L.machine.entries
  armed_all : L.timers.length + L.machine.main.countP Stmt.isArming = L.machine.entries
  arming_once : L.machine.main.countP Stmt.isArming ≤ 1
  entry_next : ∀ t, Stmt.setEntryTime t ∈ L.machine.main → L.entryTimes.getLast? = some t
  limit_next : Prepared (L.timers.getLast?.bind Prod.fst) L.machine.main
  minutes : ∀ timer ∈ L.timers, ∀ n ∈ timer.1, timer.2 = 60 * n
  entry : ∀ k ∈ L.entered, L.entryTimes[k - 1]? = some L.machine.spot.mEntryTime
  limit : ∀ k ∈ L.armedSince, ∃ timer, L.timers[k - 1]? = some timer ∧
    L.machine.spot.mTimeLimit = timer.1.getD timer.2

/-- Every time computed so far has been given to `readAt`. -/
structure Known (L : Ledger) : Prop where
  pushed : ∀ p ∈ L.machine.log, ∀ c ∈ p.cause, (c.1, p.data.mEventTime) ∈ L.reads
  built : ∀ h data, L.machine.running = some (h, .built data) ∨
    L.machine.running = some (h, .marked data) → (h, data.mEventTime) ∈ L.reads

theorem getElem?_of_shorter {α : Type*} {l l' : List α} {i : ℕ} {a : α} (h : l <+: l')
    (ha : l[i]? = some a) : l'[i]? = some a := by
  obtain ⟨r, rfl⟩ := h
  rw [List.getElem?_append_left (List.getElem?_eq_some_iff.mp ha).1, ha]

theorem due_append {L L' : Ledger} {k : ℕ} {time : Ptime} (h : L.due k = some time)
    (htimes : L.entryTimes <+: L'.entryTimes) (htimers : L.timers <+: L'.timers) :
    L'.due k = some time := by
  unfold due at h ⊢
  obtain ⟨entryTime, hentry, h⟩ := Option.bind_eq_some_iff.mp h
  obtain ⟨timer, htimer, rfl⟩ := Option.map_eq_some_iff.mp h
  rw [getElem?_of_shorter htimes hentry, Option.bind_some, getElem?_of_shorter htimers htimer,
    Option.map_some]

/-- Where entry time and limit are those of the `enter`, the code computes the time that is due
exactly if there is no reservation of any minutes. -/
theorem Booked.due_eq_iff {L : Ledger} {k : ℕ} (h : L.Booked) (hentered : L.entered = some k)
    (harmed : k ∈ L.armedSince) :
    L.due k = some L.time ↔
      ∀ timer ∈ L.timers[k - 1]?, timer.1.getD 0 = 0 ∨ L.machine.spot.mEntryTime = none := by
  obtain ⟨⟨reserved, seconds⟩, htimer, hlimit⟩ := h.limit k harmed
  have hminutes := h.minutes _ (List.mem_of_getElem? htimer)
  unfold due time
  rw [h.entry k hentered, htimer, Option.bind_some, Option.map_some, hlimit]
  cases L.machine.spot.mEntryTime with
  | none => simp [Ptime.addSeconds]
  | some t =>
    cases reserved with
    | none => simp [Ptime.addSeconds]
    | some n =>
      have hn : seconds = 60 * n := hminutes n rfl
      simp only [Ptime.addSeconds, Option.map_some, Option.some.injEq, Option.getD_some,
        Option.mem_def, forall_eq', reduceCtorEq, or_false]
      omega

theorem update_fields (st : Thresholds) (s : ParkingSpot) (b : Bool) :
    (s.update st b).1.mEntryTime = s.mEntryTime ∧ (s.update st b).1.mTimeLimit = s.mTimeLimit := by
  unfold ParkingSpot.update
  split_ifs <;> exact ⟨rfl, rfl⟩

/-- The entry of the last of the `enter`s. -/
theorem getElem?_last {α : Type*} {l : List α} {n : ℕ} {a : α} (hlen : l.length = n)
    (h : l.getLast? = some a) : l[n - 1]? = some a := by
  rw [← h, List.getLast?_eq_getElem?, hlen]

/-- A statement the ledger has nothing to note of. -/
theorem Booked.rest {L : Ledger} {m : Machine} {stmt : Stmt} (h : L.Booked)
    (hmain : L.machine.main = stmt :: m.main) (hentries : m.entries = L.machine.entries)
    (hstmt : stmt.isArming = false)
    (hprepared : ∀ armed, Prepared armed (stmt :: m.main) → Prepared armed m.main)
    (hentry : m.spot.mEntryTime = L.machine.spot.mEntryTime)
    (hlimit : m.spot.mTimeLimit = L.machine.spot.mTimeLimit) : { L with machine := m }.Booked := by
  have hcount : L.machine.main.countP Stmt.isArming = m.main.countP Stmt.isArming := by
    rw [hmain, List.countP_cons_of_neg (by simp [hstmt])]
  refine ⟨?_, ?_, ?_, ?_, ?_, h.minutes, ?_, ?_⟩
  · rw [hentries]
    exact h.entered_all
  · rw [hentries, ← hcount]
    exact h.armed_all
  · rw [← hcount]
    exact h.arming_once
  · exact fun t ht => h.entry_next t (hmain ▸ List.mem_cons_of_mem _ ht)
  · exact hprepared _ (hmain ▸ h.limit_next)
  · rw [hentry]
    exact h.entry
  · rw [hlimit]
    exact h.limit

/-- What `expires_from_now` leaves: no other call of it, and the new timer for the last `enter`. -/
theorem Booked.arming {L : Ledger} {m : Machine} {res_timeLimit : Option ℤ} (h : L.Booked)
    (hmain : L.machine.main = .expiresFromNow res_timeLimit :: m.main) :
    m.main.countP Stmt.isArming = 0 ∧ L.timers.length + 1 = L.machine.entries := by
  have honce := h.arming_once
  have hall := h.armed_all
  rw [hmain, List.countP_cons_of_pos rfl] at honce hall
  omega

/-- `expires_from_now` on either path. -/
theorem Booked.expiresFromNow {L : Ledger} {m : Machine} {res_timeLimit : Option ℤ}
    (h : L.Booked) (hmain : L.machine.main = .expiresFromNow res_timeLimit :: m.main)
    (hentries : m.entries = L.machine.entries)
    (hentry : m.spot.mEntryTime = L.machine.spot.mEntryTime)
    (hlimit : m.spot.mTimeLimit = L.machine.spot.mTimeLimit) :
    { L.noteStmt (.expiresFromNow res_timeLimit) with machine := m }.Booked := by
  obtain ⟨hnone, hnext⟩ := h.arming hmain
  have hprepared : Prepared res_timeLimit m.main := by
    have hnext := h.limit_next
    rw [hmain] at hnext
    exact hnext
  have hold : ∀ k ∈ L.armedSince, ∀ timer : Option ℤ × ℤ, ∃ timer',
      (L.timers ++ [timer])[k - 1]? = some timer' ∧
        m.spot.mTimeLimit = timer'.1.getD timer'.2 := by
    intro k hk timer
    obtain ⟨timer', htimer', hkept⟩ := h.limit k hk
    exact ⟨timer', getElem?_of_shorter (List.prefix_append _ _) htimer', hlimit ▸ hkept⟩
  have hminutes : ∀ timer ∈ L.timers ++ [(res_timeLimit, duration L.machine.spot res_timeLimit)],
      ∀ n ∈ timer.1, timer.2 = 60 * n := by
    intro timer htimer n hn
    rcases List.mem_append.mp htimer with htimer | htimer
    · exact h.minutes timer htimer n hn
    · obtain rfl := List.mem_singleton.mp htimer
      obtain rfl : res_timeLimit = some n := hn
      rfl
  have htimes : ∀ t, Stmt.setEntryTime t ∈ m.main → L.entryTimes.getLast? = some t :=
    fun t ht => h.entry_next t (hmain ▸ List.mem_cons_of_mem _ ht)
  have hall : (L.timers ++ [(res_timeLimit, duration L.machine.spot res_timeLimit)]).length +
      m.main.countP Stmt.isArming = m.entries := by
    rw [List.length_append, List.length_singleton, hnone, hentries]
    exact hnext
  cases res_timeLimit with
  | none =>
    refine ⟨hentries ▸ h.entered_all, hall, by simp [hnone], htimes, ?_, hminutes, ?_, ?_⟩
    · simpa [noteStmt] using hprepared
    · rw [hentry]
      exact h.entry
    · intro k hk
      rcases List.mem_append.mp hk with hk | hk
      · exact hold k hk _
      · obtain rfl := List.mem_singleton.mp hk
        refine ⟨(none, L.machine.spot.mTimeLimit), ?_, hlimit⟩
        exact getElem?_last (by rw [← hentries, ← hall, hnone]; rfl) (by simp [noteStmt, duration])
  | some n =>
    refine ⟨hentries ▸ h.entered_all, hall, by simp [hnone], htimes, ?_, hminutes, ?_, ?_⟩
    · simpa [noteStmt] using hprepared
    · rw [hentry]
      exact h.entry
    · exact fun k hk => hold k hk _

theorem Booked.setTimeLimit {L : Ledger} {m : Machine} {n : ℤ} (h : L.Booked)
    (hmain : L.machine.main = .setTimeLimit n :: m.main)
    (hentries : m.entries = L.machine.entries)
    (hentry : m.spot.mEntryTime = L.machine.spot.mEntryTime) (hlimit : m.spot.mTimeLimit = n) :
    { L.noteStmt (.setTimeLimit n) with machine := m }.Booked := by
  have hprepared := h.limit_next
  rw [hmain] at hprepared
  obtain ⟨harmed, hnone, hrest⟩ := hprepared
  have hall := h.armed_all
  rw [hmain, List.countP_cons_of_neg (by simp [Stmt.isArming]), hnone] at hall
  refine ⟨hentries ▸ h.entered_all, ?_, by simp [hnone], ?_, hrest, h.minutes, ?_, ?_⟩
  · rw [hentries, hnone]
    exact hall
  · exact fun t ht => h.entry_next t (hmain ▸ List.mem_cons_of_mem _ ht)
  · rw [hentry]
    exact h.entry
  · intro k hk
    rcases List.mem_append.mp hk with hk | hk
    · unfold keeping at hk
      split_ifs at hk with hsame
      · obtain ⟨timer, htimer, hkept⟩ := h.limit k hk
        exact ⟨timer, htimer, by rw [hlimit, hsame, hkept]⟩
      · cases hk
    · obtain rfl := List.mem_singleton.mp hk
      obtain ⟨⟨reserved, seconds⟩, hlast, rfl⟩ := Option.bind_eq_some_iff.mp harmed
      exact ⟨_, getElem?_last hall hlast, hlimit⟩

/-- The main thread runs a statement. -/
theorem Booked.stmt {L : Ledger} {m : Machine} {stmt : Stmt} {st : Thresholds} (h : L.Booked)
    (hmain : L.machine.main = stmt :: m.main) (hentries : m.entries = L.machine.entries)
    (hspot : m.spot = stmt.apply st L.machine.spot) :
    { L.noteStmt stmt with machine := m }.Booked := by
  cases stmt with
  | expiresFromNow res_timeLimit =>
    cases res_timeLimit <;>
      exact h.expiresFromNow hmain hentries (by rw [hspot]; rfl) (by rw [hspot]; rfl)
  | setTimeLimit n => exact h.setTimeLimit hmain hentries (by rw [hspot]; rfl) (by rw [hspot]; rfl)
  | setEntryTime t =>
    have hlimit : m.spot.mTimeLimit = L.machine.spot.mTimeLimit := by rw [hspot]; rfl
    have hcount : L.machine.main.countP Stmt.isArming = m.main.countP Stmt.isArming := by
      rw [hmain, List.countP_cons_of_neg (by simp [Stmt.isArming])]
    refine ⟨hentries ▸ h.entered_all, ?_, hcount ▸ h.arming_once, ?_, ?_, h.minutes, ?_, ?_⟩
    · rw [hentries, ← hcount]
      exact h.armed_all
    · exact fun t ht => h.entry_next t (hmain ▸ List.mem_cons_of_mem _ ht)
    · have hprepared := h.limit_next
      rw [hmain] at hprepared
      exact hprepared
    · rintro k hk
      obtain rfl := Option.mem_some_iff.mp hk
      rw [hspot]
      exact getElem?_last h.entered_all (h.entry_next t (hmain ▸ List.mem_cons_self))
    · rw [hlimit]
      exact h.limit
  | update b =>
    obtain ⟨hentry, hlimit⟩ := update_fields st L.machine.spot b
    exact h.rest hmain hentries rfl (fun _ hp => hp) (by rw [hspot]; exact hentry)
      (by rw [hspot]; exact hlimit)
  | setOccupied | asyncWait | push | clearOccupied | clearOverstayed | clearVehicle | cancel |
    resetCounter =>
    exact h.rest hmain hentries rfl (fun _ hp => hp) (by rw [hspot]; rfl) (by rw [hspot]; rfl)

/-- A call begins with an entry time to write, a timer to arm and at most one limit to set. -/
theorem body_prepared {c : Call} {s : ParkingSpot} {body : List Stmt} (h : c.body s = some body) :
    (∀ armed, Prepared armed body) ∧ body.countP Stmt.isArming = Machine.numWaits c ∧
      ∀ t, Stmt.setEntryTime t ∈ body → ∃ env img ROI PN, c = .enter env img ROI t PN := by
  cases c with
  | update b | reset =>
    obtain rfl := Option.some.inj h
    exact ⟨fun _ => trivial, rfl, by simp⟩
  | exit img time =>
    obtain rfl := Option.some.inj h
    exact ⟨fun _ => trivial, rfl, by simp⟩
  | enter env img ROI time PN =>
    obtain ⟨crop, -, rfl⟩ := Option.map_eq_some_iff.mp h
    generalize (if s.isSensor && env.check_res PN then
      some (env.entVehicle PN (env.to_iso_string time)) else none) = limit
    cases limit with
    | none =>
      refine ⟨fun _ => trivial, rfl, fun t ht => ?_⟩
      obtain rfl : t = time := by simpa [startTimerBody] using ht
      exact ⟨env, img, ROI, PN, rfl⟩
    | some n =>
      refine ⟨fun _ => ⟨rfl, rfl, trivial⟩, rfl, fun t ht => ?_⟩
      obtain rfl : t = time := by simpa [startTimerBody] using ht
      exact ⟨env, img, ROI, PN, rfl⟩

theorem Booked.call {L : Ledger} {m : Machine} {c : Call} (h : L.Booked)
    (hm : L.machine.stepCall c = some m) : { L.note (.call c) with machine := m }.Booked := by
  unfold Machine.stepCall at hm
  split_ifs at hm with hidle
  obtain ⟨body, hbody, rfl⟩ := Option.map_eq_some_iff.mp hm
  obtain ⟨hprepared, hcount, htimes⟩ := body_prepared hbody
  have hall := h.armed_all
  rw [hidle, List.countP_nil] at hall
  cases c with
  | enter env img ROI time PN =>
    refine ⟨?_, ?_, hcount.le, ?_, hprepared _, h.minutes, ?_, h.limit⟩
    · simp [note, h.entered_all]
    · simp only [note, hcount, Machine.numWaits]
      omega
    · intro t ht
      obtain ⟨_, _, _, _, hc⟩ := htimes t ht
      injection hc with _ _ _ htime
      simp [note, htime]
    · exact fun k hk => getElem?_of_shorter (List.prefix_append _ _) (h.entry k hk)
  | update | exit | reset =>
    refine ⟨h.entered_all, ?_, by simp [hcount, Machine.numWaits], ?_, hprepared _, h.minutes,
      h.entry, h.limit⟩
    · simp only [note, hcount, Machine.numWaits]
      exact hall
    · intro t ht
      obtain ⟨_, _, _, _, hc⟩ := htimes t ht
      cases hc

/-- A step that leaves alone all the ledger is about, or only the limits it drops. -/
theorem Booked.frame {L L' : Ledger} (h : L.Booked) (hmain : L'.machine.main = L.machine.main)
    (hentries : L'.machine.entries = L.machine.entries)
    (hentry : L'.machine.spot.mEntryTime = L.machine.spot.mEntryTime)
    (htimes : L'.entryTimes = L.entryTimes) (htimers : L'.timers = L.timers)
    (hentered : L'.entered = L.entered)
    (hlimit : ∀ k ∈ L'.armedSince, k ∈ L.armedSince ∧
      L'.machine.spot.mTimeLimit = L.machine.spot.mTimeLimit) : L'.Booked := by
  refine ⟨?_, ?_, hmain ▸ h.arming_once, ?_, ?_, htimers ▸ h.minutes, ?_, ?_⟩
  · rw [htimes, hentries]
    exact h.entered_all
  · rw [htimers, hmain, hentries]
    exact h.armed_all
  · rw [hmain, htimes]
    exact h.entry_next
  · rw [hmain, htimers]
    exact h.limit_next
  · rw [hentered, htimes, hentry]
    exact h.entry
  · intro k hk
    obtain ⟨hold, hsame⟩ := hlimit k hk
    rw [htimers, hsame]
    exact h.limit k hold

theorem step_thread {L L' : Ledger} {a : Action} (h : L.step (.thread a) = some L') :
    ∃ m, L.machine.step a = some m ∧ L' = { L.note a with machine := m } := by
  obtain ⟨m, hm, rfl⟩ := Option.map_eq_some_iff.mp h
  exact ⟨m, hm, rfl⟩

theorem stepMain_stmt {m t : Machine} (h : m.stepMain = some t) : ∃ stmt,
    m.main = stmt :: t.main ∧ t.spot = stmt.apply m.statics m.spot := by
  unfold Machine.stepMain at h
  split at h
  · cases h
  · rename_i stmt rest hm
    obtain rfl := Option.some.inj h
    exact ⟨stmt, hm, rfl⟩

/-- What is noted before a step of the timer thread. -/
theorem note_handler (L : Ledger) (readAt : Ptime → Mat) : ∃ reads,
    L.note (.handler readAt) = { L with reads := reads } := by
  simp only [note]
  split <;> exact ⟨_, rfl⟩

theorem Booked.step {L L' : Ledger} {e : Event} (h : L.Booked) (he : L.step e = some L') :
    L'.Booked := by
  cases e with
  | updateAttributes spotName timeLimit roi policy =>
    obtain rfl := Option.some.inj he
    refine h.frame rfl rfl ?_ rfl rfl rfl fun k hk => ?_
    · show (L.machine.spot.updateAttributes _ _ _ _).1.mEntryTime = _
      unfold ParkingSpot.updateAttributes
      split_ifs <;> rfl
    · simp only [keeping] at hk
      split_ifs at hk with hsame
      · exact ⟨hk, hsame⟩
      · cases hk
  | thread a =>
    obtain ⟨m, hm, rfl⟩ := step_thread he
    cases a with
    | call c => exact h.call hm
    | main =>
      obtain ⟨stmt, hmain, hspot⟩ := stepMain_stmt hm
      have hnote : L.note .main = L.noteStmt stmt := by simp [note, hmain]
      rw [hnote]
      exact h.stmt hmain (Machine.stepMain_arms hm).2.1 hspot
    | expire =>
      simp only [Machine.step, Machine.stepExpire] at hm
      split_ifs at hm
      obtain rfl := Option.some.inj hm
      exact h.frame rfl rfl rfl rfl rfl rfl fun k hk => ⟨hk, rfl⟩
    | startHandler i =>
      obtain ⟨hd, -, -, rfl⟩ := Machine.stepStart_spec hm
      exact h.frame rfl rfl rfl rfl rfl rfl fun k hk => ⟨hk, rfl⟩
    | handler readAt =>
      obtain ⟨reads, hreads⟩ := L.note_handler readAt
      obtain ⟨⟨hd, pos⟩, hrun, rfl⟩ := Option.map_eq_some_iff.mp hm
      rw [hreads]
      cases pos <;> exact h.frame rfl rfl rfl rfl rfl rfl fun k hk => ⟨hk, rfl⟩

/-- Every time that was due stays due. -/
theorem note_prefix (L : Ledger) (a : Action) :
    L.entryTimes <+: (L.note a).entryTimes ∧ L.timers <+: (L.note a).timers := by
  unfold note
  split
  · exact ⟨List.prefix_append _ _, List.prefix_rfl⟩
  · cases hmain : L.machine.main.head? with
    | none => exact ⟨List.prefix_rfl, List.prefix_rfl⟩
    | some stmt =>
      simp only [Option.elim_some]
      unfold noteStmt
      split
      · exact ⟨List.prefix_rfl, List.prefix_append _ _⟩
      · exact ⟨List.prefix_rfl, List.prefix_append _ _⟩
      all_goals exact ⟨List.prefix_rfl, List.prefix_rfl⟩
  · split <;> exact ⟨List.prefix_rfl, List.prefix_rfl⟩
  · exact ⟨List.prefix_rfl, List.prefix_rfl⟩

/-- What a step gives to `readAt`. -/
theorem step_reads {L L' : Ledger} {e : Event} (he : L.step e = some L') :
    L'.reads = L.reads ++ ((L.computing e).map fun h => (h, L.time)).toList := by
  cases e with
  | updateAttributes =>
    obtain rfl := Option.some.inj he
    simp [computing]
  | thread a =>
    obtain ⟨m, -, rfl⟩ := step_thread he
    cases a with
    | call c => cases c <;> simp [note, computing]
    | main =>
      simp only [note, computing, Option.map_none, Option.toList_none, List.append_nil]
      cases L.machine.main.head? with
      | none => rfl
      | some stmt =>
        rw [Option.elim_some]
        unfold noteStmt
        split <;> rfl
    | expire | startHandler => simp [note, computing]
    | handler readAt =>
      simp only [note, computing]
      split <;> simp

/-- A step that pushes nothing a handler has built, and builds nothing. -/
theorem Known.frame {L L' : Ledger} (h : L.Known) (hreads : ∀ r ∈ L.reads, r ∈ L'.reads)
    (hlog : ∀ p ∈ L'.machine.log, p ∈ L.machine.log ∨ p.cause = none)
    (hrun : L'.machine.running = L.machine.running ∨
      ∀ r ∈ L'.machine.running, r.2 = .tested) : L'.Known := by
  refine ⟨fun p hp c hc => ?_, fun hd data hat => ?_⟩
  · rcases hlog p hp with hold | hnone
    · exact hreads _ (h.pushed p hold c hc)
    · rw [hnone] at hc
      cases hc
  · rcases hrun with hsame | htested
    · exact hreads _ (h.built hd data (hsame ▸ hat))
    · rcases hat with hat | hat <;> cases htested _ hat

/-- The time of a message is read when the message is built. -/
theorem Known.handler {L L' : Ledger} {readAt : Ptime → Mat} (h : L.Known)
    (he : L.step (.thread (.handler readAt)) = some L') : L'.Known := by
  have hnew := step_reads he
  have hreads : ∀ r ∈ L.reads, r ∈ L'.reads := fun r hr => by
    rw [hnew]
    exact List.mem_append_left _ hr
  obtain ⟨m, hm, rfl⟩ := step_thread he
  obtain ⟨⟨hd, pos⟩, hrun, rfl⟩ := Option.map_eq_some_iff.mp hm
  cases pos with
  | tested =>
    refine ⟨fun p hp c hc => hreads _ (h.pushed p hp c hc), fun hd' data hat => ?_⟩
    rcases hat with hat | hat
    · obtain ⟨rfl, hdata⟩ := Prod.mk.inj (Option.some.inj hat)
      obtain rfl := HandlerAt.built.inj hdata
      rw [hnew]
      simp only [computing, hrun]
      exact List.mem_append_right _ (List.mem_singleton_self _)
    · cases hat
  | built data =>
    refine ⟨fun p hp c hc => hreads _ (h.pushed p hp c hc), fun hd' data' hat => ?_⟩
    rcases hat with hat | hat
    · cases hat
    · obtain ⟨rfl, hdata⟩ := Prod.mk.inj (Option.some.inj hat)
      obtain rfl := HandlerAt.marked.inj hdata
      exact hreads _ (h.built hd data (.inl hrun))
  | marked data =>
    refine ⟨fun p hp c hc => ?_, fun hd' data' hat => ?_⟩
    · rcases List.mem_append.mp hp with hp | hp
      · exact hreads _ (h.pushed p hp c hc)
      · obtain rfl := List.mem_singleton.mp hp
        obtain rfl := Option.some.inj hc
        exact hreads _ (h.built hd data (.inr hrun))
    · rcases hat with hat | hat <;> cases hat

theorem Known.step {L L' : Ledger} {e : Event} (h : L.Known) (he : L.step e = some L') :
    L'.Known := by
  have hreads : ∀ r ∈ L.reads, r ∈ L'.reads := fun r hr => by
    rw [step_reads he]
    exact List.mem_append_left _ hr
  cases e with
  | updateAttributes =>
    obtain rfl := Option.some.inj he
    exact h.frame hreads (fun _ hp => .inl hp) (.inl rfl)
  | thread a =>
    cases a with
    | handler readAt => exact h.handler he
    | call c =>
      obtain ⟨m, hm, rfl⟩ := step_thread he
      obtain ⟨-, -, hrun, -, hlog⟩ := Machine.stepCall_spec hm
      exact h.frame hreads (fun p hp => .inl (hlog ▸ hp)) (.inl hrun)
    | main =>
      obtain ⟨m, hm, rfl⟩ := step_thread he
      obtain ⟨stmt, -, -, hlog, -⟩ := Machine.stepMain_spec hm
      refine h.frame hreads (fun p hp => ?_) (.inl (Machine.stepMain_arms hm).2.2)
      rw [hlog, List.mem_append, List.mem_map] at hp
      rcases hp with hp | ⟨data, -, rfl⟩
      · exact .inl hp
      · exact .inr rfl
    | expire =>
      obtain ⟨m, hm, rfl⟩ := step_thread he
      simp only [Machine.step, Machine.stepExpire] at hm
      split_ifs at hm
      obtain rfl := Option.some.inj hm
      exact h.frame hreads (fun _ hp => .inl hp) (.inl rfl)
    | startHandler i =>
      obtain ⟨m, hm, rfl⟩ := step_thread he
      obtain ⟨hd, -, -, rfl⟩ := Machine.stepStart_spec hm
      refine h.frame hreads (fun _ hp => .inl hp) (.inr fun r hr => ?_)
      cases hocc : L.machine.spot.mOccupied with
      | false => simp [hocc] at hr
      | true =>
        obtain rfl : (hd, HandlerAt.tested) = r := by simpa [hocc] using hr
        rfl

/-- The messages carry only times that were given to `readAt`. -/
theorem Known.overstayTimes_iff {L : Ledger} (h : L.Known) :
    L.OverstayTimes ↔ ∀ r ∈ L.reads, r.1.ec = .success → L.due r.1.arm = some r.2 :=
  ⟨fun ht => ht.2, fun ht => ⟨fun p hp c hc => ht _ (h.pushed p hp c hc), ht⟩⟩

/-- Where nothing is computed all times stay due, and where a time is computed none that was due
changes. -/
theorem step_due {L L' : Ledger} {e : Event} (he : L.step e = some L') :
    L.entryTimes <+: L'.entryTimes ∧ L.timers <+: L'.timers ∧
      ∀ h ∈ L.computing e, ∀ k, L'.due k = L.due k := by
  cases e with
  | updateAttributes =>
    obtain rfl := Option.some.inj he
    exact ⟨List.prefix_rfl, List.prefix_rfl, fun _ _ _ => rfl⟩
  | thread a =>
    obtain ⟨m, -, rfl⟩ := step_thread he
    refine ⟨(L.note_prefix a).1, (L.note_prefix a).2, fun h hh k => ?_⟩
    cases a with
    | handler readAt =>
      obtain ⟨reads, hreads⟩ := L.note_handler readAt
      rw [hreads]
      rfl
    | call | main | expire | startHandler => cases hh

/-- From times that are due a step leads to such exactly if the time it computes for an expired
timer is due. -/
theorem Known.step_iff {L L' : Ledger} {e : Event} (h : L.Known) (ht : L.OverstayTimes)
    (he : L.step e = some L') : L'.OverstayTimes ↔
      ∀ hd ∈ L.computing e, hd.ec = .success → L.due hd.arm = some L.time := by
  obtain ⟨htimes, htimers, hsame⟩ := step_due he
  rw [(h.step he).overstayTimes_iff, step_reads he, List.forall_mem_append]
  constructor
  · rintro ⟨-, hnew⟩ hd hhd hec
    rw [← hsame hd hhd]
    exact hnew (hd, L.time) (by rw [Option.mem_def.mp hhd]; exact List.mem_singleton_self _) hec
  · intro hdue
    refine ⟨fun r hr hec => due_append (ht.2 r hr hec) htimes htimers, fun r hr hec => ?_⟩
    obtain ⟨hd, hhd, rfl⟩ := Option.map_eq_some_iff.mp (Option.mem_toList.mp hr)
    rw [hsame hd hhd]
    exact hdue hd hhd hec

theorem booked_init (spot : ParkingSpot) (statics : Thresholds) : (init spot statics).Booked where
  entered_all := rfl
  armed_all := rfl
  arming_once := Nat.zero_le _
  entry_next := by simp [init, Machine.init]
  limit_next := trivial
  minutes := by simp [init]
  entry := by simp [init]
  limit := by simp [init]

theorem known_init (spot : ParkingSpot) (statics : Thresholds) : (init spot statics).Known where
  pushed := by simp [init, Machine.init]
  built := by simp [init, Machine.init]

/-- In place, exactly the times of unreserved visits are due. -/
theorem Booked.due_iff_unreserved {L : Ledger} {e : Event} (h : L.Booked) (hok : L.InPlace e) :
    (∀ hd ∈ L.computing e, hd.ec = .success → L.due hd.arm = some L.time) ↔ L.Unreserved e := by
  refine forall₃_congr fun hd hhd hec => ?_
  obtain ⟨hentered, harmed⟩ := hok hd hhd hec
  exact h.due_eq_iff hentered harmed

/-- A visit whose timer expires: two detections, the statements of `enter`, the handler. -/
def expiredStay (env : EntryServices) (statements : ℕ) : List Event :=
  List.map Event.thread ([.call (.update true), .main, .call (.update true), .main,
    .call (.enter env (.mk 2 2 [[0, 0], [0, 0]]) ⟨0, 0, 2, 2⟩ (some 0) "P")] ++
    List.replicate statements .main ++ [.expire, .startHandler 0, .handler fun _ => Mat.none,
      .handler fun _ => Mat.none, .handler fun _ => Mat.none])

/-- In every interleaving where entry time and limit are in place whenever the time of an expired
timer is computed, the messages and the reads are at the times due exactly if none of these timers
was armed for a reservation. -/
theorem overstayTimes_iff_unreserved (spot : ParkingSpot) (statics : Thresholds)
    {es : List Event} (hok : ∀ L e, Takes step (init spot statics) es L e → L.InPlace e) :
    (∀ L, Visits step (init spot statics) es L → L.OverstayTimes) ↔
      ∀ L e, Takes step (init spot statics) es L e → L.Unreserved e := by
  have hkept : ∀ L e L', L.Booked ∧ L.Known → step L e = some L' → L'.Booked ∧ L'.Known :=
    fun L e L' hi he => ⟨hi.1.step he, hi.2.step he⟩
  have hinv : ∀ L, Visits step (init spot statics) es L → L.Booked ∧ L.Known :=
    fun L hL => invariant hkept ⟨booked_init spot statics, known_init spot statics⟩ hL
  constructor
  · intro h L e hL
    obtain ⟨L', he, hL'⟩ := visits_of_takes hL
    obtain ⟨hbooked, hknown⟩ := hinv L (visits_before hL)
    rw [← hbooked.due_iff_unreserved (hok L e hL)]
    exact (hknown.step_iff (h L (visits_before hL)) he).mp (h L' hL')
  · intro h L hL
    refine (guarded_invariant (I := fun L => (L.Booked ∧ L.Known) ∧ L.OverstayTimes)
      (C := fun L e => L.InPlace e ∧ L.Unreserved e) ?_ ⟨⟨booked_init spot statics,
        known_init spot statics⟩, by simp [OverstayTimes, init, Machine.init]⟩
      (fun L e hL => ⟨hok L e hL, h L e hL⟩) hL).2
    rintro L e L' ⟨hi, htimes⟩ ⟨hplace, hplain⟩ he
    refine ⟨hkept L e L' hi he, (hi.2.step_iff htimes he).mpr ?_⟩
    exact (hi.1.due_iff_unreserved hplace).mpr hplain

theorem overstayTimes_iff_unreserved_minute :
    (∀ L, Visits step (init (ParkingSpot.new false 1 "A1" 60 ⟨0, 0, 2, 2⟩ 1) {})
        (expiredStay ⟨fun _ => false, fun _ _ => 0, fun _ => []⟩ 5) L → L.OverstayTimes) ↔
      ∀ L e, Takes step (init (ParkingSpot.new false 1 "A1" 60 ⟨0, 0, 2, 2⟩ 1) {})
        (expiredStay ⟨fun _ => false, fun _ _ => 0, fun _ => []⟩ 5) L e → L.Unreserved e :=
  overstayTimes_iff_unreserved _ _ fun _ _ h => takes_of_checkTakes (C := InPlace) (by decide) h

/-- A reservation of five minutes on a reservation sensor: the timer is armed for 300 seconds, and
the message says five. -/
theorem not_overstayTimes_reserved :
    ∃ L ∈ exec step (init (ParkingSpot.new true 1 "A1" 60 ⟨0, 0, 2, 2⟩ 1) {})
      (expiredStay ⟨fun _ => true, fun _ _ => 5, fun _ => []⟩ 6),
      L.due 1 = some (some 300) ∧ L.reads.map Prod.snd = [some 5] ∧ ¬ L.OverstayTimes := by
  decide

end Ledger
end VisionSensor.TimerThread
