import VisionSensor.Queue.MessageQueue

/-! The order in which the messages of one parking spot leave the queue, when the folder is listed
oldest file first. A message that finds room overtakes everything on disk. -/
namespace VisionSensor.MessageQueue
open GuardedRun

/-- The folder is listed in the order in which its files were written. -/
def OldestFirst (q : MessageQueue) : Action → Prop
  | .try_pop listing => listing = q.folder
  | .wait_and_pop listing => listing = q.folder
  | _ => True

instance (q : MessageQueue) : DecidablePred q.OldestFirst
  | .try_pop listing => inferInstanceAs (Decidable (listing = q.folder))
  | .wait_and_pop listing => inferInstanceAs (Decidable (listing = q.folder))
  | .push _ | .wake => .isTrue trivial

/-- A push is of a valid message. If it is saved, no message on disk shares its key; if it enters
the queue, no message of its spot is on disk. -/
def InTurn (io : Storage) (q : MessageQueue) : Action → Prop
  | .push data => data.Valid io ∧
      (mMaxSize ≤ q.mQueue.length → data.key ∉ diskKeys io q.folder) ∧
      (q.mQueue.length < mMaxSize → ∀ k ∈ diskKeys io q.folder, k.spot ≠ data.mSpotID)
  | _ => True

/-- The keys of the messages of a spot, in order. -/
def ofSpot (spotID : ℤ) (l : List ParkingUpdateMessage) : List ParkingUpdateMessage.Key :=
  (l.filter fun m => m.mSpotID = spotID).map ParkingUpdateMessage.key

/-- The messages of every spot have been popped in the order in which they were pushed. -/
def PoppedInOrder (q : MessageQueue) : Prop :=
  ∀ spotID, ofSpot spotID q.popped <+: ofSpot spotID q.pushed

theorem ofClass_map_key (spotID : ℤ) (l : List ParkingUpdateMessage) :
    SpillQueue.ofClass ParkingUpdateMessage.Key.spot spotID (l.map ParkingUpdateMessage.key) =
      ofSpot spotID l := by
  unfold SpillQueue.ofClass ofSpot
  rw [List.filter_map]
  rfl

variable {io : Storage}

theorem InTurn.distinct {q : MessageQueue} {a : Action} (h : InTurn io q a) : Distinct io q a := by
  cases a with
  | push data => exact ⟨h.1, h.2.1⟩
  | _ => trivial

theorem firstListed_self (folder : List File) : firstListed folder folder = 0 := by
  cases folder with
  | nil => rfl
  | cons f folder => exact List.idxOf_cons_self

/-- In turn and oldest first, a call keeps the order of the abstract queue. -/
theorem keepsOrder_absOp {q : MessageQueue} {a : Action} (hold : OldestFirst q a)
    (h : InTurn io q a) :
    SpillQueue.KeepsOrder ParkingUpdateMessage.Key.spot mMaxSize (q.abs io) (q.absOp a) := by
  cases a with
  | push data =>
    intro hroom
    exact h.2.2 (by simpa [abs] using hroom)
  | try_pop listing | wait_and_pop listing =>
    obtain rfl : listing = q.folder := hold
    exact firstListed_self q.folder
  | wake => trivial

theorem ordered_init (io : Storage) :
    SpillQueue.Ordered ParkingUpdateMessage.Key.spot (abs io {}) := fun _ => rfl

/-- In every run whose messages come in turn, the messages of each spot are popped in the order in
which they were pushed. -/
theorem poppedInOrder_of_inTurn (hio : io.Works) {as : List Action}
    (hold : ∀ q a, Takes (step io) {} as q a → OldestFirst q a)
    (hok : ∀ q a, Takes (step io) {} as q a → InTurn io q a) {q : MessageQueue}
    (hq : Visits (step io) {} as q) : q.PoppedInOrder := by
  have hinv : q.Inv io ∧ SpillQueue.Ordered ParkingUpdateMessage.Key.spot (q.abs io) := by
    refine guarded_invariant (I := fun q => q.Inv io ∧
      SpillQueue.Ordered ParkingUpdateMessage.Key.spot (q.abs io))
      (C := fun q a => OldestFirst q a ∧ InTurn io q a) ?_ ⟨?_, ordered_init io⟩
      (fun q a h => ⟨hold q a h, hok q a h⟩) hq
    · rintro q a t ⟨hi, hord⟩ ⟨ho, hturn⟩ h
      obtain ⟨ht, habs⟩ := step_sim hio hi hturn.distinct h
      exact ⟨ht, SpillQueue.ordered_step hord (keepsOrder_absOp ho hturn) habs⟩
    · exact ⟨⟨[], rfl, by simp, by simp⟩, rfl⟩
  intro spotID
  rw [← ofClass_map_key, ← ofClass_map_key]
  exact hinv.2.popped_first spotID

/-- An entry and an exit that meet no other message. -/
theorem poppedInOrder_of_inTurn_visit :
    ∃ q, exec (step epochDisk) {} [.push (epochMessage .HTTP_REQ_UPDATE_ENTER 1),
        .push (epochMessage .HTTP_REQ_UPDATE_EXIT 1), .wait_and_pop []] = some q ∧
      q.PoppedInOrder := by
  obtain ⟨q, hq, hshort⟩ : ∃ q ∈ exec (step epochDisk) {}
      [.push (epochMessage .HTTP_REQ_UPDATE_ENTER 1),
        .push (epochMessage .HTTP_REQ_UPDATE_EXIT 1), .wait_and_pop []],
      q.folder = [] := by decide +kernel
  refine ⟨q, hq, poppedInOrder_of_inTurn epochDisk_works ?_ ?_ (visits_of_exec hq)⟩
  · exact fun _ _ h => takes_of_checkTakes (C := OldestFirst) (by decide +kernel) h
  · intro u a h
    have hempty : u.folder = [] :=
      takes_of_checkTakes (C := fun u _ => u.folder = []) (by decide +kernel) h
    have ha := takes_mem h
    simp only [List.mem_cons, List.not_mem_nil, or_false] at ha
    have hdisk : diskKeys epochDisk u.folder = [] := by rw [hempty]; rfl
    rcases ha with rfl | rfl | rfl
    · exact ⟨epochMessage_valid _ (by decide), fun _ => by simp [hdisk], fun _ => by simp [hdisk]⟩
    · exact ⟨epochMessage_valid _ (by decide), fun _ => by simp [hdisk], fun _ => by simp [hdisk]⟩
    · trivial

/-- Ten messages of another spot, the entry of spot 1, which goes to disk, and one request. The
exit of spot 1 then finds room in the queue, and the entry is loaded behind it. -/
def overtaking : List Action :=
  let entry := epochMessage .HTTP_REQ_UPDATE_ENTER 1
  let entryFile := entry.toFile epochDisk
  List.replicate 10 (.push (epochMessage .HTTP_REQ_UPDATE_ENTER 2)) ++
    [.push entry, .wait_and_pop [entryFile], .push (epochMessage .HTTP_REQ_UPDATE_EXIT 1),
      .wait_and_pop [entryFile], .wait_and_pop [entryFile]] ++
    List.replicate 8 (.wait_and_pop [])

theorem exit_overtakes_entry :
    (∀ q a, Takes (step epochDisk) {} overtaking q a → OldestFirst q a) ∧
      ∃ q, Visits (step epochDisk) {} overtaking q ∧ ¬ q.PoppedInOrder := by
  constructor
  · exact fun _ _ h => takes_of_checkTakes (C := OldestFirst) (by decide +kernel) h
  · obtain ⟨q, hq, hpopped, hpushed⟩ : ∃ q ∈ exec (step epochDisk) {} overtaking,
        ofSpot 1 q.popped = [(epochMessage .HTTP_REQ_UPDATE_EXIT 1).key] ∧
        ofSpot 1 q.pushed = [(epochMessage .HTTP_REQ_UPDATE_ENTER 1).key,
          (epochMessage .HTTP_REQ_UPDATE_EXIT 1).key] := by decide +kernel
    refine ⟨q, visits_of_exec hq, fun h => ?_⟩
    have hfirst := h 1
    rw [hpopped, hpushed] at hfirst
    exact absurd hfirst (by decide)

end VisionSensor.MessageQueue
