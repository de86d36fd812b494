import VisionSensor.Lib.GuardedRun
import VisionSensor.Management.SpotManager

/-! The time limit of a spot over its visits. One member is the configured limit and the limit of
the visit under way; a reserved visit overwrites it. -/
namespace VisionSensor
open GuardedRun

/-- A spot, and the limit it was constructed with or last successfully updated to. -/
structure Configured where
  spot : ParkingSpot
  limit : ℤ

/-- The member functions a visit, a frame or a management update calls. -/
inductive SpotCall where
  | enter (env : EntryServices) (entryImage : Mat) (ROI : Rect) (entryTime : Ptime) (PN : String)
  | exit (exitImage : Mat) (exitTime : Ptime)
  | overstayed (expiredImage : Mat) (exprTime : Ptime)
  | notifyExpiration (readAt : Ptime → Mat)
  | update (st : Thresholds) (occupied : Bool)
  | reset
  | updateAttributes (spotName : String) (timeLimit : ℤ) (roi : Rect) (policy : ParkingSpotPolicy)

namespace Configured

/-- The constructor. -/
def new (isReservation_sensor : Bool) (id : ℤ) (spotName : String) (length : ℤ) (roi : Rect)
    (policy : ParkingSpotPolicy) : Configured :=
  ⟨ParkingSpot.new isReservation_sensor id spotName length roi policy, length⟩

/-- One call. When `enter` throws, it does so before it touches the spot. -/
def step (c : Configured) : SpotCall → Option Configured
  | .enter env entryImage ROI entryTime PN =>
      some { c with
        spot := ((c.spot.enter env entryImage ROI entryTime PN).map Prod.fst).getD c.spot }
  | .exit exitImage exitTime => some { c with spot := (c.spot.exit exitImage exitTime).1 }
  | .overstayed expiredImage exprTime =>
      some { c with spot := (c.spot.overstayed expiredImage exprTime).1 }
  | .notifyExpiration readAt => some { c with spot := (c.spot.notifyExpiration readAt).1 }
  | .update st occupied => some { c with spot := (c.spot.update st occupied).1 }
  | .reset => some { c with spot := c.spot.reset }
  | .updateAttributes spotName timeLimit roi policy =>
      let res := c.spot.updateAttributes spotName timeLimit roi policy
      some ⟨res.1, if res.2 then timeLimit else c.limit⟩

/-- The visitor has a reservation the sensor asks for. -/
def Reserved (env : EntryServices) (s : ParkingSpot) (PN : String) : Prop :=
  s.isSensor = true ∧ env.check_res PN = true

/-- The spot has its configured limit: it times a visitor without a reservation with it, and
`toPTree` saves it. -/
structure KeepsLimit (c : Configured) : Prop where
  limit : c.spot.mTimeLimit = c.limit
  timed : ∀ env entryImage ROI entryTime PN spot data,
    c.spot.enter env entryImage ROI entryTime PN = some (spot, data) →
      ¬ Reserved env c.spot PN → spot.mParkingTimer = some c.limit
  saved : (SpotManager.spotTree c.spot).2.find "timeLimit" =
    some (PTree.leaf (PTree.intData c.limit))

/-- A reserved visit that gets through is given the limit in force by the reservation table. -/
def ReservesTheLimit (c : Configured) : SpotCall → Prop
  | .enter env entryImage ROI entryTime PN =>
      ParkingSpot.entryCrop entryImage ROI ≠ none → Reserved env c.spot PN →
        env.entVehicle PN (env.to_iso_string entryTime) = c.spot.mTimeLimit
  | _ => True

instance (env : EntryServices) (s : ParkingSpot) (PN : String) : Decidable (Reserved env s PN) :=
  inferInstanceAs (Decidable (_ ∧ _))

instance (c : Configured) (call : SpotCall) : Decidable (c.ReservesTheLimit call) :=
  match call with
  | .enter .. => inferInstanceAs (Decidable (_ → _ → _))
  | .exit .. | .overstayed .. | .notifyExpiration .. | .update .. | .reset
  | .updateAttributes .. => .isTrue trivial

theorem enter_timeLimit {env : EntryServices} {s s' : ParkingSpot} {entryImage : Mat} {ROI : Rect}
    {entryTime : Ptime} {PN : String} {data : ParkingUpdateMessage}
    (h : s.enter env entryImage ROI entryTime PN = some (s', data)) :
    (Reserved env s PN → s'.mTimeLimit = env.entVehicle PN (env.to_iso_string entryTime)) ∧
      (¬ Reserved env s PN →
        s'.mTimeLimit = s.mTimeLimit ∧ s'.mParkingTimer = some s.mTimeLimit) := by
  obtain ⟨crop, _, h⟩ := Option.map_eq_some_iff.mp h
  obtain ⟨rfl, -⟩ := Prod.mk.inj h
  unfold Reserved ParkingSpot.isSensor
  cases hsensor : s.isReservation_sensor with
  | false => simp [ParkingSpot.startTimer]
  | true =>
    cases hres : env.check_res PN with
    | false => simp [ParkingSpot.startTimer]
    | true => simp [ParkingSpot.startTimerFor]

theorem keepsLimit_iff {c : Configured} : c.KeepsLimit ↔ c.spot.mTimeLimit = c.limit := by
  constructor
  · intro h
    exact h.limit
  · intro h
    refine ⟨h, ?_, ?_⟩
    · intro env entryImage ROI entryTime PN spot data henter hres
      rw [← h]
      exact ((enter_timeLimit henter).2 hres).2
    · rw [← h]
      rfl

theorem enter_keepsLimit_iff {c : Configured} (hc : c.KeepsLimit) (env : EntryServices)
    (entryImage : Mat) (ROI : Rect) (entryTime : Ptime) (PN : String) {c' : Configured}
    (h : c.step (.enter env entryImage ROI entryTime PN) = some c') :
    c'.KeepsLimit ↔ c.ReservesTheLimit (.enter env entryImage ROI entryTime PN) := by
  have hlimit := hc.limit
  obtain rfl := Option.some.inj h
  rw [keepsLimit_iff]
  simp only [ReservesTheLimit]
  cases henter : c.spot.enter env entryImage ROI entryTime PN with
  | none =>
    have hcrop : ParkingSpot.entryCrop entryImage ROI = none := Option.map_eq_none_iff.mp henter
    exact iff_of_true hlimit fun hthrough => absurd hcrop hthrough
  | some res =>
    obtain ⟨s', data⟩ := res
    obtain ⟨hreserved, hfree⟩ := enter_timeLimit henter
    have hcrop : ParkingSpot.entryCrop entryImage ROI ≠ none := by
      intro hnone
      rw [ParkingSpot.enter, hnone] at henter
      cases henter
    show s'.mTimeLimit = c.limit ↔ _
    by_cases hres : Reserved env c.spot PN
    · rw [hreserved hres, ← hlimit]
      exact ⟨fun h _ _ => h, fun h => h hcrop hres⟩
    · rw [(hfree hres).1]
      exact iff_of_true hlimit fun _ h => absurd h hres

@[simp] theorem update_mTimeLimit (st : Thresholds) (s : ParkingSpot) (b : Bool) :
    (s.update st b).1.mTimeLimit = s.mTimeLimit := by
  unfold ParkingSpot.update
  split_ifs <;> rfl

@[simp] theorem notifyExpiration_mTimeLimit (readAt : Ptime → Mat) (s : ParkingSpot) :
    (s.notifyExpiration readAt).1.mTimeLimit = s.mTimeLimit := by
  unfold ParkingSpot.notifyExpiration
  split_ifs <;> rfl

theorem updateAttributes_mTimeLimit (s : ParkingSpot) (spotName : String) (timeLimit : ℤ)
    (roi : Rect) (policy : ParkingSpotPolicy) :
    (s.updateAttributes spotName timeLimit roi policy).1.mTimeLimit =
      if (s.updateAttributes spotName timeLimit roi policy).2 then timeLimit else s.mTimeLimit := by
  unfold ParkingSpot.updateAttributes
  cases s.mOccupied && !s.mOverstayed <;> rfl

/-- Only a reserved visit can part the two limits. -/
theorem step_keepsLimit_iff {c c' : Configured} {call : SpotCall} (hc : c.KeepsLimit)
    (h : c.step call = some c') : c'.KeepsLimit ↔ c.ReservesTheLimit call := by
  have hlimit := hc.limit
  have hkeeps : c'.spot.mTimeLimit = c.spot.mTimeLimit → c'.limit = c.limit →
      c.ReservesTheLimit call → (c'.KeepsLimit ↔ c.ReservesTheLimit call) := by
    intro hspot hghost hcall
    apply iff_of_true _ hcall
    rw [keepsLimit_iff, hspot, hghost]
    exact hlimit
  cases call with
  | enter env entryImage ROI entryTime PN => exact enter_keepsLimit_iff hc _ _ _ _ _ h
  | exit | overstayed | reset =>
    obtain rfl := Option.some.inj h
    exact hkeeps rfl rfl trivial
  | notifyExpiration readAt =>
    obtain rfl := Option.some.inj h
    exact hkeeps (notifyExpiration_mTimeLimit readAt c.spot) rfl trivial
  | update st occupied =>
    obtain rfl := Option.some.inj h
    exact hkeeps (update_mTimeLimit st c.spot occupied) rfl trivial
  | updateAttributes spotName timeLimit roi policy =>
    obtain rfl := Option.some.inj h
    apply iff_of_true _ trivial
    rw [keepsLimit_iff, ← hlimit]
    exact updateAttributes_mTimeLimit c.spot spotName timeLimit roi policy

/-- A spot keeps its configured limit through a run exactly when every reserved visit of it is
given that limit. -/
theorem keepsLimit_run_iff (isReservation_sensor : Bool) (id : ℤ) (spotName : String) (length : ℤ)
    (roi : Rect) (policy : ParkingSpotPolicy) (calls : List SpotCall) :
    (∀ c, Visits step (new isReservation_sensor id spotName length roi policy) calls c →
        c.KeepsLimit) ↔
      ∀ c call, Takes step (new isReservation_sensor id spotName length roi policy) calls c call →
        c.ReservesTheLimit call := by
  apply visits_iff_takes (J := fun _ => True) (G := fun _ => True)
  · intro _ _ _ _ _ _
    trivial
  · intro c call c' _ hc _ h
    exact step_keepsLimit_iff hc h
  · trivial
  · exact keepsLimit_iff.mpr rfl
  · intro _ _
    trivial

/-- A reservation sensor whose table gives every visitor `limit` minutes. -/
def reservedFor (limit : ℤ) : EntryServices := ⟨fun _ => true, fun _ _ => limit, fun _ => []⟩

/-- A visit with a reservation, the end of it, and a visit without one. -/
def twoVisits (limit : ℤ) : List SpotCall :=
  [.enter (reservedFor limit) Mat.none Rect.zero (some 0) "12", .exit Mat.none (some 60),
    .enter { reservedFor limit with check_res := fun _ => false } Mat.none Rect.zero (some 90) "34"]

theorem keepsLimit_run_two_visits :
    ∃ c, Visits step (new true 1 "A1" 5 Rect.zero 0) (twoVisits 5) c ∧ c.KeepsLimit ∧
      c.spot.mOccupied = true := by
  have hvisit : Visits step (new true 1 "A1" 5 Rect.zero 0) (twoVisits 5) _ := visits_of_exec rfl
  refine ⟨_, hvisit, (keepsLimit_run_iff true 1 "A1" 5 Rect.zero 0 (twoVisits 5)).mpr ?_ _ hvisit,
    rfl⟩
  intro c call
  exact takes_of_checkTakes (by decide)

/-- A reservation for two minutes on a spot configured for five: the visitor after it, without a
reservation, is timed with two, and two is saved. -/
theorem reservation_changes_limit :
    ∃ c, Visits step (new true 1 "A1" 5 Rect.zero 0) (twoVisits 2) c ∧ c.limit = 5 ∧
      c.spot.mParkingTimer = some 2 ∧
      (SpotManager.spotTree c.spot).2.find "timeLimit" = some (PTree.leaf (PTree.intData 2)) ∧
      ¬ c.KeepsLimit := by
  refine ⟨_, visits_of_exec rfl, rfl, rfl, rfl, fun h => ?_⟩
  exact absurd h.limit (by decide)

end Configured
end VisionSensor
