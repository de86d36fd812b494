import VisionSensor.Spot.Observation

/-! The entries and exits a spot reports alternate, and the last of them agrees with its
occupancy flag, whatever happens to its thresholds, attributes and timer meanwhile. -/
namespace VisionSensor
namespace SpotState
open GuardedRun

/-- Frames, management updates and expiry handlers: no reset and no debug exit key. -/
def FrameOp : SpotOp → Prop
  | .debugExit _ _ | .reset => False
  | _ => True

/-- The entries and exits among the requests pushed. -/
def enterExit (requests : List ℤ) : List ℤ :=
  requests.filter fun r =>
    r == HttpReqType.HTTP_REQ_UPDATE_ENTER.code || r == HttpReqType.HTTP_REQ_UPDATE_EXIT.code

/-- The first `n` requests of entry, exit, entry, exit, and so on. -/
def visitRequests (n : ℕ) : List ℤ :=
  (List.range n).map fun i => (changeRequest (i % 2 == 0)).code

/-- A list of requests alternates strictly and starts with an entry. -/
def Alternates (l : List ℤ) : Prop := l = visitRequests l.length

@[simp] theorem visitRequests_length (n : ℕ) : (visitRequests n).length = n := by
  simp [visitRequests]

theorem visitRequests_succ (n : ℕ) :
    visitRequests (n + 1) = visitRequests n ++ [(changeRequest (n % 2 == 0)).code] := by
  simp [visitRequests, List.range_succ]

theorem alternates_visitRequests (n : ℕ) : Alternates (visitRequests n) := by
  simp [Alternates]

theorem visitRequests_getLast? (n : ℕ) :
    (visitRequests n).getLast? = some HttpReqType.HTTP_REQ_UPDATE_ENTER.code ↔ n % 2 = 1 := by
  cases n with
  | zero => simp [visitRequests]
  | succ n =>
    rw [visitRequests_succ, List.getLast?_concat]
    rcases Nat.mod_two_eq_zero_or_one n with h | h
    · simp [h, changeRequest, Nat.succ_mod_two_eq_one_iff.mpr h]
    · simp [h, changeRequest, HttpReqType.code, Nat.succ_mod_two_eq_zero_iff.mpr h]

@[simp] theorem enterExit_append (l m : List ℤ) :
    enterExit (l ++ m) = enterExit l ++ enterExit m := List.filter_append ..

@[simp] theorem enterExit_change (b : Bool) :
    enterExit [(changeRequest b).code] = [(changeRequest b).code] := by
  cases b <;> rfl

@[simp] theorem enterExit_over : enterExit [HttpReqType.HTTP_REQ_UPDATE_OVER.code] = [] := rfl

/-- So far `n` entries and exits have been pushed in turn, and the parity of `n` is the
occupancy flag. -/
def InStep (s : SpotState) : Prop :=
  ∃ n, enterExit s.requests = visitRequests n ∧ s.spot.mOccupied = (n % 2 == 1)

/-- A step that leaves the flag and pushes no entry or exit keeps the count. -/
theorem InStep.congr {s t : SpotState} (h : s.InStep)
    (hreq : enterExit t.requests = enterExit s.requests)
    (hocc : t.spot.mOccupied = s.spot.mOccupied) : t.InStep := by
  obtain ⟨n, hn, ho⟩ := h
  exact ⟨n, hreq.trans hn, hocc.trans ho⟩

theorem observe_inStep {env : EntryServices} {b : Bool} {frame : Mat} {now : Ptime}
    {s t : SpotState} (hs : s.InStep) (h : s.observe env b frame now = some t) : t.InStep := by
  obtain ⟨_, _, hreq⟩ := observe_spec h
  by_cases hocc : s.spot.mOccupied = t.spot.mOccupied
  · exact hs.congr (by simp [hreq, hocc]) hocc.symm
  · obtain ⟨n, hn, ho⟩ := hs
    -- the flag has changed, so it is now the parity of one message more
    have hflag : t.spot.mOccupied = (n % 2 == 0) := by
      rcases Nat.mod_two_eq_zero_or_one n with hp | hp <;> simp_all
    refine ⟨n + 1, ?_, ?_⟩
    · rw [hreq, if_neg hocc, enterExit_append, enterExit_change, hn, visitRequests_succ, hflag]
    · rw [hflag]
      rcases Nat.mod_two_eq_zero_or_one n with hp | hp <;> simp [hp, Nat.add_mod]

theorem step_inStep {s t : SpotState} {op : SpotOp} (hs : s.InStep) (hop : FrameOp op)
    (h : step s op = some t) : t.InStep := by
  cases op with
  | observe env b frame now => exact observe_inStep hs h
  | debugExit | reset => exact hop.elim
  | updateAttributes name limit roi policy =>
    obtain rfl := Option.some.inj h
    exact hs.congr rfl (congrArg Debouncer.flag (ParkingSpot.updateAttributes_debouncer ..))
  | setPositiveThreshold | setNegativeThreshold =>
    obtain rfl := Option.some.inj h
    exact hs.congr rfl rfl
  | notifyExpiration readAt =>
    obtain rfl := Option.some.inj h
    refine hs.congr ?_ (congrArg Debouncer.flag (notifyExpiration_debouncer readAt s))
    rw [notifyExpiration_requests]
    split_ifs <;> simp

/-- In every state of every run of frames, management updates and expiry handlers the
entries and exits pushed alternate, beginning with an entry, and the last of them is an entry
exactly when the spot is occupied. -/
theorem enter_exit_alternate (isReservation_sensor : Bool) (id : ℤ) (spotName : String)
    (length : ℤ) (roi : Rect) (policy : ParkingSpotPolicy) (ops : List SpotOp)
    (hops : ∀ op ∈ ops, FrameOp op) (s : SpotState)
    (hs : Visits step (fresh isReservation_sensor id spotName length roi policy) ops s) :
    Alternates (enterExit s.requests) ∧
      ((enterExit s.requests).getLast? = some HttpReqType.HTTP_REQ_UPDATE_ENTER.code ↔
        s.spot.isOccupied = true) := by
  obtain ⟨n, hn, ho⟩ : s.InStep :=
    invariant_of_actions (fun _ _ _ => step_inStep) ⟨0, rfl, rfl⟩ hops hs
  rw [hn, visitRequests_getLast?]
  exact ⟨alternates_visitRequests n, by simp [ParkingSpot.isOccupied, ho]⟩

/-- A visit of three detections and four misses at the built-in thresholds. -/
theorem enter_exit_alternate_visit :
    let env : EntryServices := ⟨fun _ => false, fun _ _ => 0, fun _ => []⟩
    let ops := List.replicate 3 (SpotOp.observe env true ⟨1, 1, [[0]]⟩ (some 7)) ++
      SpotOp.notifyExpiration (fun _ => Mat.none) ::
        List.replicate 4 (SpotOp.observe env false ⟨1, 1, [[0]]⟩ (some 9))
    ∃ s, exec step (fresh false 1 "A1" 60 ⟨0, 0, 1, 1⟩ 1) ops = some s ∧
      enterExit s.requests = [1, 2] ∧ Alternates (enterExit s.requests) := by
  intro env ops
  have hreq : (exec step (fresh false 1 "A1" 60 ⟨0, 0, 1, 1⟩ 1) ops).map
      (fun s => enterExit s.requests) = some [1, 2] := rfl
  obtain ⟨s, hs, hl⟩ := Option.map_eq_some_iff.mp hreq
  refine ⟨s, hs, hl, ?_⟩
  refine (enter_exit_alternate false 1 "A1" 60 ⟨0, 0, 1, 1⟩ 1 ops ?_ s (visits_of_exec hs)).1
  intro op hop
  simp only [ops, List.mem_append, List.mem_cons, List.mem_replicate] at hop
  obtain ⟨_, rfl⟩ | rfl | ⟨_, rfl⟩ := hop <;> trivial

end SpotState
end VisionSensor
