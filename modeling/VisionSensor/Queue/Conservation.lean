import VisionSensor.Queue.MessageQueue

/-! What the message queue guarantees as long as the disk works and the messages on it differ: it
stays within its bound, it counts its files, it loses and duplicates nothing, and what is
outstanding can be taken out without waiting. -/
namespace VisionSensor.MessageQueue
open GuardedRun

/-- Whatever order the folder is listed in, the next `n` calls of `wait_and_pop` each return a
message without waiting. -/
def Drains (io : Storage) : ℕ → MessageQueue → Prop
  | 0, _ => True
  | n + 1, q => ∀ listing : List File, listing.Perm q.folder →
      ∃ t k, step io q (.wait_and_pop listing) = some t ∧
        t.popped.map ParkingUpdateMessage.key = q.popped.map ParkingUpdateMessage.key ++ [k] ∧
        t.waiting = q.waiting ∧ Drains io n t

/-- The messages handed in are those handed out, those in the queue and those on disk. -/
structure Accounted (io : Storage) (q : MessageQueue) : Prop where
  bounded : q.mQueue.length ≤ mMaxSize
  counted : q.mNumStoredData = q.folder.length
  loadable : (diskKeys io q.folder).length = q.folder.length
  conserved : (q.pushed.map ParkingUpdateMessage.key).Perm
    (q.popped.map ParkingUpdateMessage.key ++ q.mQueue.map ParkingUpdateMessage.key ++
      diskKeys io q.folder)
  drains : Drains io (q.mQueue.length + q.folder.length) q

variable {io : Storage}

theorem length_diskKeys (hio : io.Works) {q : MessageQueue} (hi : q.Inv io) :
    (diskKeys io q.folder).length = q.folder.length := by
  obtain ⟨ms, hfolder, hms, -⟩ := hi.files
  rw [hfolder, diskKeys_map hio hms, List.length_map, List.length_map]

theorem outstanding_abs (hio : io.Works) {q : MessageQueue} (hi : q.Inv io) :
    SpillQueue.outstanding (q.abs io) = q.mQueue.length + q.folder.length := by
  simp only [SpillQueue.outstanding, abs, List.length_map, length_diskKeys hio hi]

theorem drains_of_inv (hio : io.Works) {q : MessageQueue} (hi : q.Inv io) {n : ℕ}
    (hn : n ≤ q.mQueue.length + q.folder.length) : Drains io n q := by
  induction n generalizing q with
  | zero => trivial
  | succ n ih =>
    intro listing hl
    obtain ⟨t, ht⟩ := Option.isSome_iff_exists.mp
      (step_isSome hio (a := .wait_and_pop listing) hi hl)
    obtain ⟨htinv, habs⟩ := step_sim hio (a := .wait_and_pop listing) hi trivial ht
    have hpos : 0 < SpillQueue.outstanding (q.abs io) := by
      rw [outstanding_abs hio hi]
      omega
    obtain ⟨u, k, hu, hpopped, hwaiting, hout⟩ := SpillQueue.waitPop_returns
      (show 0 < mMaxSize by decide) (firstListed_lt hio hi hl) hpos
    obtain rfl := Option.some.inj (habs.symm.trans hu)
    rw [outstanding_abs hio hi, outstanding_abs hio htinv] at hout
    exact ⟨t, k, ht, hpopped, hwaiting, ih htinv (by omega)⟩

theorem inv_init (io : Storage) : ({} : MessageQueue).Inv io :=
  ⟨⟨[], rfl, by simp, by simp⟩, rfl⟩

theorem conserved_init (io : Storage) : SpillQueue.Conserved (abs io {}) := List.Perm.nil

/-- In every run whose messages on disk differ, the queue accounts for every message. -/
theorem accounted_of_distinct (hio : io.Works) {as : List Action}
    (hok : ∀ q a, Takes (step io) {} as q a → Distinct io q a) {q : MessageQueue}
    (hq : Visits (step io) {} as q) : q.Accounted io := by
  have hinv : q.Inv io ∧ (q.abs io).mem.length ≤ mMaxSize ∧
      SpillQueue.Conserved (q.abs io) := by
    refine guarded_invariant (I := fun q => q.Inv io ∧ (q.abs io).mem.length ≤ mMaxSize ∧
      SpillQueue.Conserved (q.abs io)) (C := Distinct io) ?_
      ⟨inv_init io, Nat.zero_le _, conserved_init io⟩ hok hq
    rintro q a t ⟨hi, hb, hc⟩ hd h
    obtain ⟨ht, habs⟩ := step_sim hio hi hd h
    exact ⟨ht, SpillQueue.bounded_step hb habs, SpillQueue.conserved_step hc habs⟩
  obtain ⟨hi, hb, hc⟩ := hinv
  exact ⟨by simpa [abs] using hb, hi.counted, length_diskKeys hio hi, hc,
    drains_of_inv hio hi (Nat.le_refl _)⟩

/-- Eleven pushes, the last of them to disk. -/
theorem accounted_of_distinct_overflow :
    ∃ q, exec (step epochDisk) {} (List.replicate 11 (.push (epochMessage .HTTP_REQ_UPDATE_ENTER 1)))
      = some q ∧ q.folder.length = 1 ∧ q.Accounted epochDisk := by
  obtain ⟨q, hq, hlen⟩ : ∃ q ∈ exec (step epochDisk) {}
      (List.replicate 11 (.push (epochMessage .HTTP_REQ_UPDATE_ENTER 1))),
      q.folder.length = 1 := by decide +kernel
  refine ⟨q, hq, hlen, accounted_of_distinct epochDisk_works ?_ (visits_of_exec hq)⟩
  intro u a h
  have hempty : u.folder = [] :=
    takes_of_checkTakes (C := fun u _ => u.folder = []) (by decide +kernel) h
  obtain rfl := (List.mem_replicate.mp (takes_mem h)).2
  exact ⟨epochMessage_valid _ (by decide), fun _ => by simp [hempty, diskKeys]⟩

end VisionSensor.MessageQueue
