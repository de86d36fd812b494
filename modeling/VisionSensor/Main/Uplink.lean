import VisionSensor.Queue.Conservation
import VisionSensor.Upload.Delivery

/-! From the threads that report parking events to the server: the message queue and the uploader
thread behind it, over any interleaving and any network. -/
namespace VisionSensor
open GuardedRun ServerNetworkHandler

/-- The queue, and the uploader thread with the message it holds and its log. -/
structure Uplink where
  queue : MessageQueue := {}
  uploader : Uploader := ⟨[], []⟩

namespace MessageQueue

variable {io : Storage} {q t : MessageQueue} {listing : List File} {a : Action}

theorem loadStoredData_popped (h : q.loadStoredData io listing = .ok t) : t.popped = q.popped := by
  unfold loadStoredData at h
  split_ifs at h
  · split at h
    · cases h
    · rw [← Except.ok.inj h]
    · rw [← Except.ok.inj h]
  · rw [← Except.ok.inj h]

theorem takeFront_popped (h : q.takeFront = some t) : q.popped <+: t.popped := by
  unfold takeFront at h
  split at h
  · cases h
  · rw [← Option.some.inj h]
    exact List.prefix_append _ _

theorem getD_popped {d : MessageQueue} (hd : d.popped = q.popped) :
    q.popped <+: (q.takeFront.getD d).popped := by
  cases hfront : q.takeFront with
  | none => exact hd ▸ List.prefix_rfl
  | some t => exact takeFront_popped hfront

/-- A push into an empty queue stays in the queue. -/
theorem push_mQueue_ne_nil (io : Storage) (data : ParkingUpdateMessage) (q : MessageQueue) :
    (q.push io data).mQueue ≠ [] := by
  unfold push
  split_ifs with hfull
  · exact List.ne_nil_of_length_pos (Nat.lt_of_lt_of_le (by decide) hfull)
  · exact List.append_ne_nil_of_right_ne_nil _ (List.cons_ne_nil _ _)

theorem pop_popped {d : MessageQueue → MessageQueue} (hd : ∀ u, (d u).popped = u.popped)
    (h : ((q.loadStoredData io listing).map fun u => u.takeFront.getD (d u)).toOption = some t) :
    q.popped <+: t.popped := by
  cases hload : q.loadStoredData io listing with
  | error e =>
    rw [hload] at h
    cases h
  | ok u =>
    rw [hload] at h
    obtain rfl := Option.some.inj h
    rw [← loadStoredData_popped hload]
    exact getD_popped (hd u)

/-- What has been handed out stays handed out. -/
theorem step_popped (h : step io q a = some t) : q.popped <+: t.popped := by
  cases a with
  | push data =>
    obtain rfl := Option.some.inj h
    unfold push
    split_ifs <;> exact List.prefix_rfl
  | try_pop listing =>
    simp only [step] at h
    split_ifs at h
    exact pop_popped (d := id) (fun _ => rfl) h
  | wait_and_pop listing =>
    simp only [step] at h
    split_ifs at h
    exact pop_popped (d := fun u => { u with waiting := u.waiting + 1 }) (fun _ => rfl) h
  | wake =>
    simp only [step] at h
    split_ifs at h
    obtain rfl := Option.some.inj h
    unfold wake
    cases hfront : q.takeFront with
    | none => exact List.prefix_rfl
    | some u =>
      have hprefix := takeFront_popped hfront
      exact hprefix

/-- Every message that is in the queue or has left it has a picture. -/
def Pictured (q : MessageQueue) : Prop := ∀ m ∈ q.popped ++ q.mQueue, m.mFrame.empty = false

theorem Pictured.front (hq : q.Pictured) {d : MessageQueue} (hd : d.Pictured) :
    (q.takeFront.getD d).Pictured := by
  unfold takeFront
  split
  · exact hd
  · rename_i data rest hqueue
    intro m hm
    simp only [Option.getD_some, List.append_assoc, List.singleton_append] at hm
    exact hq m (by rw [hqueue]; exact hm)

theorem Pictured.load (hq : q.Pictured) (h : q.loadStoredData io listing = .ok t) :
    t.Pictured := by
  intro m hm
  rw [loadStoredData_popped h] at hm
  rcases List.mem_append.mp hm with hm | hm
  · exact hq m (List.mem_append_left _ hm)
  · rcases (serves_loadStoredData h).queued m hm with hm | hm
    · exact hq m (List.mem_append_right _ hm)
    · exact hm

theorem Pictured.pop {d : MessageQueue → MessageQueue} (hd : ∀ u, u.Pictured → (d u).Pictured)
    (hq : q.Pictured)
    (h : ((q.loadStoredData io listing).map fun u => u.takeFront.getD (d u)).toOption = some t) :
    t.Pictured := by
  cases hload : q.loadStoredData io listing with
  | error e =>
    rw [hload] at h
    cases h
  | ok u =>
    rw [hload] at h
    obtain rfl := Option.some.inj h
    exact (hq.load hload).front (hd u (hq.load hload))

theorem Pictured.step (hq : q.Pictured)
    (hpush : ∀ data, a = .push data → data.mFrame.empty = false)
    (h : step io q a = some t) : t.Pictured := by
  cases a with
  | push data =>
    obtain rfl := Option.some.inj h
    unfold push
    split_ifs
    · exact hq
    · intro m hm
      simp only [List.mem_append, List.mem_singleton] at hm
      rcases hm with hm | hm | rfl
      · exact hq m (List.mem_append_left _ hm)
      · exact hq m (List.mem_append_right _ hm)
      · exact hpush m rfl
  | try_pop listing =>
    simp only [MessageQueue.step] at h
    split_ifs at h
    exact hq.pop (d := id) (fun _ hu => hu) h
  | wait_and_pop listing =>
    simp only [MessageQueue.step] at h
    split_ifs at h
    exact hq.pop (d := fun u => { u with waiting := u.waiting + 1 }) (fun _ hu => hu) h
  | wake =>
    simp only [MessageQueue.step] at h
    split_ifs at h
    obtain rfl := Option.some.inj h
    unfold wake
    cases hfront : q.takeFront with
    | none => exact hq
    | some u =>
      have hu := hq.front hq
      rw [hfront] at hu
      exact hu

end MessageQueue

namespace Uplink

inductive Action where
  | push (data : ParkingUpdateMessage)
  | pop (listing : List File)
  | wake
  | upload

/-- The uploader takes what a call of the queue has handed out. -/
def take (s : Uplink) (q : MessageQueue) : Uplink where
  queue := q
  uploader :=
    { s.uploader with pending := (q.popped.drop s.queue.popped.length).map .parkingUpdate }

/-- One step of the threads. The loop of `run` asks for a message when it holds none, and repeats
`upload` while it holds one. -/
def step (io : Storage) (imencode : Mat → Option (List UInt8)) (sendHTTP : SendHTTP)
    (h : ServerNetworkHandler) (s : Uplink) : Action → Option Uplink
  | .push data => some { s with queue := s.queue.push io data }
  | .pop listing =>
      if s.uploader.pending.isEmpty ∧ s.queue.waiting = 0 then
        (MessageQueue.step io s.queue (.wait_and_pop listing)).map s.take
      else none
  | .wake =>
      if s.uploader.pending.isEmpty then (MessageQueue.step io s.queue .wake).map s.take else none
  | .upload => (tick io imencode sendHTTP h s.uploader).map fun u => { s with uploader := u }

/-- Every message is acknowledged, in the hands of the uploader, in the queue or on disk. -/
structure Sound (io : Storage) (imencode : Mat → Option (List UInt8)) (h : ServerNetworkHandler)
    (s : Uplink) : Prop where
  inv : s.queue.Inv io
  conserved : SpillQueue.Conserved (s.queue.abs io)
  progress : Progress io imencode h (s.queue.popped.map .parkingUpdate) s.uploader
  holdsOne : s.uploader.pending.length ≤ 1
  waits : s.queue.waiting ≠ 0 → s.queue.waiting = 1 ∧ s.uploader.pending = [] ∧
    (s.queue.mQueue = [] → s.queue.folder = [])

/-- The messages that the uploader holds, that are in the queue and that are on disk, with the
number of steps of the uploader they need. -/
def work (s : Uplink) : ℕ :=
  s.uploader.pending.length + 2 * (s.queue.mQueue.length + s.queue.folder.length)

variable {io : Storage} {imencode : Mat → Option (List UInt8)} {sendHTTP : SendHTTP}
  {h : ServerNetworkHandler} {s t : Uplink}

/-- With nothing in hand, what is handed out is all there is to send. -/
theorem progress_take (new : List IMessageData) {messages : List IMessageData}
    {log : List Attempt} (hp : Progress io imencode h messages ⟨[], log⟩) :
    Progress io imencode h (messages ++ new) ⟨new, log⟩ := by
  obtain ⟨done, log', n, hsplit, hdone, hlog⟩ := hp
  have hnone : failures io imencode h [] n = [] := rfl
  have hnew : failures io imencode h new 0 = [] := by
    unfold failures
    split <;> rfl
  refine ⟨done, log', 0, by rw [hsplit, List.append_nil], hdone, ?_⟩
  rw [hnew, ← hnone]
  exact hlog

theorem Sound.take_progress (hs : s.Sound io imencode h) (hpending : s.uploader.pending = [])
    {q : MessageQueue} (hq : s.queue.popped <+: q.popped) :
    Progress io imencode h (q.popped.map .parkingUpdate) (s.take q).uploader := by
  obtain ⟨new, hnew⟩ := hq
  have hp := hs.progress
  rw [show s.uploader = ⟨[], s.uploader.log⟩ by rw [← hpending]] at hp
  have htake := progress_take (new.map .parkingUpdate) hp
  rw [← List.map_append, hnew] at htake
  unfold take
  rw [← hnew, List.drop_left]
  rw [hnew]
  exact htake

theorem Sound.push (hio : io.Works) (hs : s.Sound io imencode h) {data : ParkingUpdateMessage}
    (hd : MessageQueue.Distinct io s.queue (.push data)) :
    Sound io imencode h { s with queue := s.queue.push io data } := by
  obtain ⟨hinv, habs⟩ := MessageQueue.step_sim hio hs.inv hd
    (rfl : MessageQueue.step io s.queue (.push data) = some (s.queue.push io data))
  have hpopped : (s.queue.push io data).popped = s.queue.popped := by
    unfold MessageQueue.push
    split_ifs <;> rfl
  have hwaiting : (s.queue.push io data).waiting = s.queue.waiting := by
    unfold MessageQueue.push
    split_ifs <;> rfl
  refine ⟨hinv, SpillQueue.conserved_step hs.conserved habs, ?_, hs.holdsOne, fun hw => ?_⟩
  · show Progress io imencode h ((s.queue.push io data).popped.map .parkingUpdate) s.uploader
    rw [hpopped]
    exact hs.progress
  · rw [hwaiting] at hw ⊢
    obtain ⟨hone, hpending, -⟩ := hs.waits hw
    refine ⟨hone, hpending, fun hempty => ?_⟩
    exact absurd hempty (MessageQueue.push_mQueue_ne_nil io data s.queue)

/-- A call of the queue that hands out at most one message. -/
theorem Sound.call (hio : io.Works) (hs : s.Sound io imencode h) {a : MessageQueue.Action}
    {q : MessageQueue} (hd : MessageQueue.Distinct io s.queue a)
    (hpending : s.uploader.pending = []) (hq : MessageQueue.step io s.queue a = some q)
    (hone : q.popped.length ≤ s.queue.popped.length + 1)
    (hwaits : q.waiting ≠ 0 → q.waiting = 1 ∧ q.popped.length = s.queue.popped.length ∧
      (q.mQueue = [] → q.folder = [])) :
    (s.take q).Sound io imencode h := by
  obtain ⟨hinv, habs⟩ := MessageQueue.step_sim hio hs.inv hd hq
  have hlength : (s.take q).uploader.pending.length = q.popped.length - s.queue.popped.length := by
    simp only [take, List.length_map, List.length_drop]
  refine ⟨hinv, SpillQueue.conserved_step hs.conserved habs, ?_, ?_, fun hw => ?_⟩
  · exact hs.take_progress hpending (MessageQueue.step_popped hq)
  · omega
  · obtain ⟨hwaiting, hnothing, hempty⟩ := hwaits hw
    exact ⟨hwaiting, List.eq_nil_of_length_eq_zero (by omega), hempty⟩

/-- What the uploader's request for a message does: it gets one if one is outstanding, and waits
otherwise. -/
theorem pop_spec (hio : io.Works) {q t : MessageQueue} {listing : List File} (hinv : q.Inv io)
    (hq : MessageQueue.step io q (.wait_and_pop listing) = some t) :
    (0 < q.mQueue.length + q.folder.length ∧ t.popped.length = q.popped.length + 1 ∧
        t.waiting = q.waiting ∧ t.mQueue.length + t.folder.length + 1 =
          q.mQueue.length + q.folder.length) ∨
      (q.mQueue.length + q.folder.length = 0 ∧ t.popped.length = q.popped.length ∧
        t.waiting = q.waiting + 1 ∧ t.mQueue.length + t.folder.length = 0) := by
  obtain ⟨htinv, habs⟩ := MessageQueue.step_sim hio (a := .wait_and_pop listing) hinv trivial hq
  have hlisting : listing.Perm q.folder := by
    simp only [MessageQueue.step] at hq
    split_ifs at hq with hperm
    exact hperm
  have houtq := MessageQueue.outstanding_abs hio hinv
  have houtt := MessageQueue.outstanding_abs hio htinv
  rcases Nat.eq_zero_or_pos (q.mQueue.length + q.folder.length) with hzero | hpos
  · right
    have hwaits := SpillQueue.waitPop_waits (by rw [houtq, hzero]) habs
    have hpopped := congrArg (fun u => u.popped.length) hwaits
    have hwaiting := congrArg SpillQueue.State.waiting hwaits
    have hout := congrArg SpillQueue.outstanding hwaits
    refine ⟨hzero, by simpa [MessageQueue.abs] using hpopped, hwaiting, ?_⟩
    rw [houtt] at hout
    rw [hout]
    exact houtq.trans hzero
  · left
    obtain ⟨u, k, hu, hpopped, hwaiting, hout⟩ := SpillQueue.waitPop_returns
      (show 0 < mMaxSize by decide) (MessageQueue.firstListed_lt hio hinv hlisting)
      (by rw [houtq]; exact hpos)
    obtain rfl := Option.some.inj (habs.symm.trans hu)
    have hlength := congrArg List.length hpopped
    rw [houtq, houtt] at hout
    exact ⟨hpos, by simpa [MessageQueue.abs] using hlength, hwaiting, hout⟩

theorem wake_spec (hio : io.Works) {q t : MessageQueue} (hinv : q.Inv io)
    (hq : MessageQueue.step io q .wake = some t) :
    q.waiting ≠ 0 ∧ ((q.mQueue = [] ∧ t.popped.length = q.popped.length ∧
        t.waiting = q.waiting ∧ t = q) ∨
      (t.popped.length = q.popped.length + 1 ∧ t.waiting + 1 = q.waiting ∧
        t.mQueue.length + t.folder.length + 1 = q.mQueue.length + q.folder.length)) := by
  obtain ⟨htinv, habs⟩ := MessageQueue.step_sim hio (a := .wake) hinv trivial hq
  obtain ⟨hwaiting, hcases⟩ := SpillQueue.wake_spec habs
  refine ⟨hwaiting, ?_⟩
  rcases hcases with ⟨hmem, -⟩ | ⟨k, hpopped, hless, hout⟩
  · left
    have hempty : q.mQueue = [] := List.map_eq_nil_iff.mp hmem
    have hsame : t = q := by
      have hfront : q.takeFront = none := by
        unfold MessageQueue.takeFront
        rw [hempty]
      simp only [MessageQueue.step] at hq
      split_ifs at hq
      rw [← Option.some.inj hq, MessageQueue.wake, hfront]
      rfl
    exact ⟨hempty, by rw [hsame], by rw [hsame], hsame⟩
  · right
    have hlength := congrArg List.length hpopped
    rw [MessageQueue.outstanding_abs hio hinv, MessageQueue.outstanding_abs hio htinv] at hout
    exact ⟨by simpa [MessageQueue.abs] using hlength, hless, hout⟩

theorem Sound.step (hio : io.Works) (hs : s.Sound io imencode h) {a : Action}
    (hd : ∀ data, a = .push data → MessageQueue.Distinct io s.queue (.push data))
    (ht : step io imencode sendHTTP h s a = some t) : t.Sound io imencode h := by
  cases a with
  | push data =>
    obtain rfl := Option.some.inj ht
    exact hs.push hio (hd data rfl)
  | pop listing =>
    simp only [Uplink.step] at ht
    split_ifs at ht with hfree
    obtain ⟨q, hq, rfl⟩ := Option.map_eq_some_iff.mp ht
    have hpending : s.uploader.pending = [] := List.isEmpty_iff.mp hfree.1
    rcases pop_spec hio hs.inv hq with ⟨-, hpopped, hwaiting, -⟩ | ⟨-, hpopped, hwaiting, hout⟩
    · refine hs.call hio (a := .wait_and_pop listing) trivial hpending hq (by omega) fun hw => ?_
      omega
    · refine hs.call hio (a := .wait_and_pop listing) trivial hpending hq (by omega) fun _ => ?_
      exact ⟨by omega, hpopped, fun _ => List.eq_nil_of_length_eq_zero (by omega)⟩
  | wake =>
    simp only [Uplink.step] at ht
    split_ifs at ht with hfree
    obtain ⟨q, hq, rfl⟩ := Option.map_eq_some_iff.mp ht
    have hpending : s.uploader.pending = [] := List.isEmpty_iff.mp hfree
    obtain ⟨hw, hcases⟩ := wake_spec hio hs.inv hq
    obtain ⟨hone, -, hempty⟩ := hs.waits hw
    rcases hcases with ⟨-, hpopped, hwaiting, rfl⟩ | ⟨hpopped, hwaiting, -⟩
    · exact hs.call hio (a := .wake) trivial hpending hq (by omega) fun _ => ⟨hone, rfl, hempty⟩
    · exact hs.call hio (a := .wake) trivial hpending hq (by omega) fun hw' => by omega
  | upload =>
    obtain ⟨u, hu, rfl⟩ := Option.map_eq_some_iff.mp ht
    refine ⟨hs.inv, hs.conserved, hs.progress.tick hu, ?_, fun hw => ?_⟩
    · unfold tick at hu
      have hone := hs.holdsOne
      split at hu
      · cases hu
      · rename_i data rest hpending
        rw [hpending] at hone
        obtain ⟨⟨answer, log⟩, -, rfl⟩ := Option.map_eq_some_iff.mp hu
        dsimp only
        split_ifs
        · exact Nat.le_of_succ_le hone
        · exact hone
    · obtain ⟨-, hpending, -⟩ := hs.waits hw
      rw [tick, hpending] at hu
      cases hu

theorem Sound.accounts (hs : s.Sound io imencode h) : ∃ done held : List ParkingUpdateMessage,
    s.queue.popped = done ++ held ∧ s.uploader.pending = held.map .parkingUpdate ∧
      (s.queue.pushed.map ParkingUpdateMessage.key).Perm (done.map ParkingUpdateMessage.key ++
        held.map ParkingUpdateMessage.key ++ s.queue.mQueue.map ParkingUpdateMessage.key ++
        MessageQueue.diskKeys io s.queue.folder) ∧
      (acknowledged s.uploader.log).map some =
        done.map fun m => h.requestOf io imencode (.parkingUpdate m) := by
  obtain ⟨sent, log, n, hsplit, hsent, hlog⟩ := hs.progress
  obtain ⟨done, held, hpopped, rfl, hheld⟩ := List.map_eq_append_iff.mp hsplit
  refine ⟨done, held, hpopped, hheld.symm, ?_, ?_⟩
  · have hconserved := hs.conserved
    simp only [SpillQueue.Conserved, MessageQueue.abs, hpopped, List.map_append] at hconserved
    exact hconserved
  · rw [hlog, acknowledged_append, acknowledged_failures, List.append_nil, hsent.acknowledged,
      List.map_map]
    rfl

theorem sound_init : Sound io imencode h {} := by
  refine ⟨MessageQueue.inv_init io, MessageQueue.conserved_init io, ?_, Nat.zero_le _, ?_⟩
  · exact ⟨[], [], 0, rfl, .nil, rfl⟩
  · exact fun hw => absurd rfl hw

/-- Over any interleaving of the threads and any network, every message that has been pushed is
acknowledged, in the hands of the uploader, in the queue or on disk, and it is only one of these;
and what the server has acknowledged are the requests of the first, once each. -/
theorem delivers_once (hio : io.Works) {as : List Action}
    (hdistinct : ∀ t data, Takes (Uplink.step io imencode sendHTTP h) {} as t (.push data) →
      MessageQueue.Distinct io t.queue (.push data))
    (hs : Visits (Uplink.step io imencode sendHTTP h) {} as s) :
    ∃ done held : List ParkingUpdateMessage,
      s.uploader.pending = held.map .parkingUpdate ∧ held.length ≤ 1 ∧
      (s.queue.pushed.map ParkingUpdateMessage.key).Perm (done.map ParkingUpdateMessage.key ++
        held.map ParkingUpdateMessage.key ++ s.queue.mQueue.map ParkingUpdateMessage.key ++
        MessageQueue.diskKeys io s.queue.folder) ∧
      (acknowledged s.uploader.log).map some =
        done.map fun m => h.requestOf io imencode (.parkingUpdate m) := by
  have hsound : s.Sound io imencode h := guarded_invariant
    (C := fun t a => ∀ data, a = .push data → MessageQueue.Distinct io t.queue (.push data))
    (fun t a u ht hd hu => ht.step hio hd hu) sound_init
    (fun t a ha data hdata => hdistinct t data (by rw [← hdata]; exact ha)) hs
  obtain ⟨done, held, -, hheld, hperm, hack⟩ := hsound.accounts
  have hone := hsound.holdsOne
  rw [hheld, List.length_map] at hone
  exact ⟨done, held, hheld, hone, hperm, hack⟩

/-- A spot reports an entry and an exit, and the server is out of reach at the first call. -/
def entryExit : List Action :=
  [.push (MessageQueue.epochMessage .HTTP_REQ_UPDATE_ENTER 1),
    .push (MessageQueue.epochMessage .HTTP_REQ_UPDATE_EXIT 1), .pop [], .upload, .upload]

theorem delivers_once_entryExit :
    ∃ s, exec (Uplink.step MessageQueue.epochDisk ParkingUpdateMessage.jpegHead
        (fun n _ _ _ => n != 0) shippedHandler) {} entryExit = some s ∧
      s.uploader.log.length = 2 ∧ s.queue.mQueue.length = 1 ∧
      ∃ done : List ParkingUpdateMessage, (acknowledged s.uploader.log).map some =
        done.map fun m => shippedHandler.requestOf MessageQueue.epochDisk
          ParkingUpdateMessage.jpegHead (.parkingUpdate m) := by
  obtain ⟨s, hs, hlog, hqueue⟩ : ∃ s ∈ exec (Uplink.step MessageQueue.epochDisk
      ParkingUpdateMessage.jpegHead (fun n _ _ _ => n != 0) shippedHandler) {} entryExit,
      s.uploader.log.length = 2 ∧ s.queue.mQueue.length = 1 := by decide +kernel
  have hdistinct : ∀ t data, Takes (Uplink.step MessageQueue.epochDisk
      ParkingUpdateMessage.jpegHead (fun n _ _ _ => n != 0) shippedHandler) {} entryExit t
        (.push data) → MessageQueue.Distinct MessageQueue.epochDisk t.queue (.push data) := by
    intro t data ht
    have hempty : t.queue.folder = [] :=
      takes_of_checkTakes (C := fun t _ => t.queue.folder = []) (by decide +kernel) ht
    have hvalid : data.Valid MessageQueue.epochDisk := by
      have hmem := takes_mem ht
      simp only [entryExit, List.mem_cons, Action.push.injEq, reduceCtorEq, List.not_mem_nil,
        or_false] at hmem
      rcases hmem with rfl | rfl
      · exact MessageQueue.epochMessage_valid _ (by decide)
      · exact MessageQueue.epochMessage_valid _ (by decide)
    exact ⟨hvalid, fun _ => by simp [hempty, MessageQueue.diskKeys]⟩
  obtain ⟨done, -, -, -, -, hack⟩ := delivers_once MessageQueue.epochDisk_works hdistinct
    (visits_of_exec hs)
  exact ⟨s, hs, hlog, hqueue, done, hack⟩

/-- A message whose request code has a destination. -/
def Addressed (h : ServerNetworkHandler) (code : ℤ) : Prop :=
  InInt code ∧ 0 ≤ code ∧ (h.mServerDestinations.lookup code).isSome

/-- Everything that has been pushed is acknowledged, once. -/
def AllAcknowledged (io : Storage) (imencode : Mat → Option (List UInt8)) (h : ServerNetworkHandler)
    (s : Uplink) : Prop :=
  ∃ done : List ParkingUpdateMessage,
    (s.queue.pushed.map ParkingUpdateMessage.key).Perm (done.map ParkingUpdateMessage.key) ∧
      (acknowledged s.uploader.log).map some =
        done.map fun m => h.requestOf io imencode (.parkingUpdate m)

/-- The steps of the uploader thread. -/
def Action.OfUploader : Action → Prop
  | .push _ => False
  | _ => True

/-- Whatever the uploader thread does, it can go on for `n` steps, and then everything is
acknowledged. -/
def Delivering (io : Storage) (imencode : Mat → Option (List UInt8)) (sendHTTP : SendHTTP)
    (h : ServerNetworkHandler) : ℕ → Uplink → Prop
  | 0, s => AllAcknowledged io imencode h s
  | n + 1, s =>
      (∃ a, a.OfUploader ∧ (Uplink.step io imencode sendHTTP h s a).isSome) ∧
        ∀ a t, a.OfUploader → Uplink.step io imencode sendHTTP h s a = some t →
          Delivering io imencode sendHTTP h n t

/-- Nothing stands in the way of what the uploader has to send. -/
structure Ready (io : Storage) (imencode : Mat → Option (List UInt8)) (sendHTTP : SendHTTP)
    (h : ServerNetworkHandler) (s : Uplink) : Prop where
  sound : s.Sound io imencode h
  pictured : s.queue.Pictured
  addressed : ∀ m ∈ s.queue.pushed, Addressed h m.mRequestCode

/-- The network answers every call from now on. -/
def Answers (sendHTTP : SendHTTP) (s : Uplink) : Prop :=
  ∀ n, s.uploader.log.length ≤ n → ∀ method json path, sendHTTP n method json path = true

theorem requestOf_isSome (hencode : ∀ image, image.empty = false → (imencode image).isSome)
    {m : ParkingUpdateMessage} (himage : m.mFrame.empty = false) (hm : Addressed h m.mRequestCode) :
    (h.requestOf io imencode (.parkingUpdate m)).isSome := by
  obtain ⟨hint, hpos, hdest⟩ := hm
  obtain ⟨dest, hdest⟩ := Option.isSome_iff_exists.mp hdest
  obtain ⟨root, hroot⟩ := Option.isSome_iff_exists.mp
    ((@IMessageData.toPTree_isSome_iff io imencode (.parkingUpdate m)).mpr
      ⟨hencode _ himage, fun hcrop => hencode _ hcrop⟩)
  have hcode : root.getIntD ["httpRequest"] (-1) = m.mRequestCode :=
    (getIntD_httpRequest hroot).trans (if_pos hint)
  simp only [requestOf, hroot, Option.bind_eq_bind, Option.bind_some, hcode, hdest,
    if_neg (Int.not_lt.mpr hpos)]
  rfl

/-- What the uploader holds can be sent. -/
theorem Ready.held (hs : s.Ready io imencode sendHTTP h)
    (hencode : ∀ image, image.empty = false → (imencode image).isSome) {data : IMessageData}
    (hdata : data ∈ s.uploader.pending) : (h.requestOf io imencode data).isSome := by
  obtain ⟨done, held, hpopped, hheld, hperm, -⟩ := hs.sound.accounts
  rw [hheld] at hdata
  obtain ⟨m, hm, rfl⟩ := List.mem_map.mp hdata
  have himage : m.mFrame.empty = false :=
    hs.pictured m (List.mem_append_left _ (hpopped ▸ List.mem_append_right _ hm))
  have hkey : m.key ∈ s.queue.pushed.map ParkingUpdateMessage.key := by
    rw [hperm.mem_iff]
    simp only [List.mem_append]
    exact .inl (.inl (.inr (List.mem_map_of_mem hm)))
  obtain ⟨m', hm', hsame⟩ := List.mem_map.mp hkey
  have hcode : m'.mRequestCode = m.mRequestCode := congrArg ParkingUpdateMessage.Key.code hsame
  exact requestOf_isSome hencode himage (hcode ▸ hs.addressed m' hm')

theorem Ready.call (hs : s.Ready io imencode sendHTTP h) {a : MessageQueue.Action}
    {q : MessageQueue} (ha : ∀ data, a ≠ .push data) (hq : MessageQueue.step io s.queue a = some q)
    (hsound : (s.take q).Sound io imencode h) : (s.take q).Ready io imencode sendHTTP h := by
  have hserves := MessageQueue.serves_step ha hq
  refine ⟨hsound, hs.pictured.step (fun data hdata => absurd hdata (ha data)) hq, ?_⟩
  exact fun m hm => hs.addressed m (hserves.pushed ▸ hm)

theorem Ready.step (hio : io.Works) (hs : s.Ready io imencode sendHTTP h) {a : Action}
    (hpush : ∀ data, a = .push data →
      MessageQueue.Distinct io s.queue (.push data) ∧ Addressed h data.mRequestCode)
    (ht : Uplink.step io imencode sendHTTP h s a = some t) : t.Ready io imencode sendHTTP h := by
  have hsound : t.Sound io imencode h :=
    hs.sound.step hio (fun data hdata => (hpush data hdata).1) ht
  cases a with
  | push data =>
    obtain ⟨hdistinct, haddressed⟩ := hpush data rfl
    obtain rfl := Option.some.inj ht
    refine ⟨hsound, ?_, fun m hm => ?_⟩
    · refine hs.pictured.step (a := .push data) (fun data' hdata' => ?_) rfl
      obtain rfl := MessageQueue.Action.push.inj hdata'
      exact hdistinct.1.image
    · have hpushed : (s.queue.push io data).pushed = s.queue.pushed ++ [data] := by
        unfold MessageQueue.push
        split_ifs <;> rfl
      rcases List.mem_append.mp (hpushed ▸ hm) with hm | hm
      · exact hs.addressed m hm
      · obtain rfl := List.mem_singleton.mp hm
        exact haddressed
  | pop listing =>
    simp only [Uplink.step] at ht
    split_ifs at ht
    obtain ⟨q, hq, rfl⟩ := Option.map_eq_some_iff.mp ht
    exact hs.call (a := .wait_and_pop listing) (fun _ hdata => by cases hdata) hq hsound
  | wake =>
    simp only [Uplink.step] at ht
    split_ifs at ht
    obtain ⟨q, hq, rfl⟩ := Option.map_eq_some_iff.mp ht
    exact hs.call (a := .wake) (fun _ hdata => by cases hdata) hq hsound
  | upload =>
    obtain ⟨u, -, rfl⟩ := Option.map_eq_some_iff.mp ht
    exact ⟨hsound, hs.pictured, hs.addressed⟩

/-- A call of `upload` the network answers takes the message out of hand. -/
theorem tick_answered (hanswers : Answers sendHTTP s) {data : IMessageData}
    {rest : List IMessageData} (hpending : s.uploader.pending = data :: rest)
    (hdata : (h.requestOf io imencode data).isSome) :
    ∃ u, tick io imencode sendHTTP h s.uploader = some u ∧ u.pending = rest ∧
      s.uploader.log.length ≤ u.log.length := by
  obtain ⟨r, hr⟩ := Option.isSome_iff_exists.mp hdata
  obtain ⟨answer, log, hup⟩ : ∃ answer log,
      uploadLogged io imencode sendHTTP h data s.uploader.log = some (answer, log) := by
    obtain ⟨root, hroot, hr⟩ := Option.bind_eq_some_iff.mp hr
    simp only [uploadLogged, hroot, Option.bind_eq_bind, Option.bind_some]
    split_ifs
    · exact ⟨_, _, rfl⟩
    · split
      · exact ⟨_, _, rfl⟩
      · exact ⟨_, _, rfl⟩
  rcases uploadLogged_cases hup with ⟨hnone, -, -⟩ | ⟨r', -, rfl, hanswer⟩
  · rw [hr] at hnone
    cases hnone
  · rw [hanswers _ (Nat.le_refl _)] at hanswer
    refine ⟨⟨rest, s.uploader.log ++ [(r', answer)]⟩, ?_, rfl, by simp⟩
    simp only [tick, hpending, hup, hanswer, Option.map_some, if_true]

/-- A step of the uploader does a part of the work. -/
theorem step_work (hio : io.Works)
    (hencode : ∀ image, image.empty = false → (imencode image).isSome)
    (hs : s.Ready io imencode sendHTTP h) (hanswers : Answers sendHTTP s) (hwork : 0 < s.work)
    {a : Action} (ha : a.OfUploader) (ht : Uplink.step io imencode sendHTTP h s a = some t) :
    t.work + 1 = s.work ∧ s.uploader.log.length ≤ t.uploader.log.length := by
  cases a with
  | push data => exact ha.elim
  | pop listing =>
    simp only [Uplink.step] at ht
    split_ifs at ht with hfree
    obtain ⟨q, hq, rfl⟩ := Option.map_eq_some_iff.mp ht
    have hpending : s.uploader.pending = [] := List.isEmpty_iff.mp hfree.1
    refine ⟨?_, Nat.le_refl _⟩
    simp only [work, hpending, List.length_nil] at hwork
    simp only [work, take, hpending, List.length_map, List.length_drop, List.length_nil]
    rcases pop_spec hio hs.sound.inv hq with ⟨-, hpopped, -, hout⟩ | ⟨hzero, -⟩
    · omega
    · omega
  | wake =>
    simp only [Uplink.step] at ht
    split_ifs at ht with hfree
    obtain ⟨q, hq, rfl⟩ := Option.map_eq_some_iff.mp ht
    have hpending : s.uploader.pending = [] := List.isEmpty_iff.mp hfree
    refine ⟨?_, Nat.le_refl _⟩
    simp only [work, hpending, List.length_nil] at hwork
    simp only [work, take, hpending, List.length_map, List.length_drop, List.length_nil]
    obtain ⟨hw, hcases⟩ := wake_spec hio hs.sound.inv hq
    obtain ⟨-, -, hempty⟩ := hs.sound.waits hw
    rcases hcases with ⟨hqueue, -⟩ | ⟨hpopped, -, hout⟩
    · rw [hqueue, hempty hqueue] at hwork
      exact absurd hwork (by simp)
    · omega
  | upload =>
    obtain ⟨u, hu, rfl⟩ := Option.map_eq_some_iff.mp ht
    cases hpending : s.uploader.pending with
    | nil =>
      rw [tick, hpending] at hu
      cases hu
    | cons data rest =>
      obtain ⟨v, hv, hrest, hlog⟩ := tick_answered hanswers hpending
        (hs.held hencode (hpending ▸ List.mem_cons_self))
      obtain rfl := Option.some.inj (hu.symm.trans hv)
      refine ⟨?_, hlog⟩
      simp only [work, hrest, hpending, List.length_cons]
      omega

/-- While there is work, the uploader can do it. -/
theorem step_uploader (hio : io.Works)
    (hencode : ∀ image, image.empty = false → (imencode image).isSome)
    (hs : s.Ready io imencode sendHTTP h) (hanswers : Answers sendHTTP s) :
    ∃ a : Action, a.OfUploader ∧ (Uplink.step io imencode sendHTTP h s a).isSome := by
  cases hpending : s.uploader.pending with
  | nil =>
    by_cases hw : s.queue.waiting = 0
    · refine ⟨.pop s.queue.folder, trivial, ?_⟩
      have hcall := MessageQueue.step_isSome hio (a := .wait_and_pop s.queue.folder) hs.sound.inv
        (List.Perm.refl _)
      simpa [Uplink.step, hpending, hw] using hcall
    · refine ⟨.wake, trivial, ?_⟩
      have hcall := MessageQueue.step_isSome hio (a := .wake) hs.sound.inv hw
      simpa [Uplink.step, hpending] using hcall
  | cons data rest =>
    obtain ⟨u, hu, -, -⟩ := tick_answered hanswers hpending
      (hs.held hencode (hpending ▸ List.mem_cons_self))
    exact ⟨.upload, trivial, by simp [Uplink.step, hu]⟩

theorem Ready.delivering (hio : io.Works)
    (hencode : ∀ image, image.empty = false → (imencode image).isSome)
    (hs : s.Ready io imencode sendHTTP h) (hanswers : Answers sendHTTP s) {n : ℕ}
    (hn : s.work = n) : Delivering io imencode sendHTTP h n s := by
  induction n generalizing s with
  | zero =>
    obtain ⟨done, held, -, hheld, hperm, hack⟩ := hs.sound.accounts
    unfold work at hn
    have hnone : held = [] := by
      have hlength := congrArg List.length hheld
      rw [List.length_map] at hlength
      exact List.eq_nil_of_length_eq_zero (by omega)
    have hqueue : s.queue.mQueue = [] := List.eq_nil_of_length_eq_zero (by omega)
    have hfolder : s.queue.folder = [] := List.eq_nil_of_length_eq_zero (by omega)
    refine ⟨done, ?_, hack⟩
    simpa [hnone, hqueue, hfolder, MessageQueue.diskKeys] using hperm
  | succ n ih =>
    refine ⟨step_uploader hio hencode hs hanswers, fun a t ha ht => ?_⟩
    obtain ⟨hwork, hlog⟩ := step_work hio hencode hs hanswers (by omega) ha ht
    have hready := hs.step hio (fun data hdata => (hdata ▸ ha : Action.OfUploader (.push data)).elim)
      ht
    refine ih hready (fun k hk => hanswers k (Nat.le_trans hlog hk)) (by omega)

/-- From every state of such a run in which the network answers from then on, the uploader does not
get stuck, and after one step for the message it holds and two for each of the others everything
that has been pushed is acknowledged, once. -/
theorem delivers_all (hio : io.Works)
    (hencode : ∀ image, image.empty = false → (imencode image).isSome) {as : List Action}
    (hpush : ∀ t data, Takes (Uplink.step io imencode sendHTTP h) {} as t (.push data) →
      MessageQueue.Distinct io t.queue (.push data) ∧ Addressed h data.mRequestCode)
    (hs : Visits (Uplink.step io imencode sendHTTP h) {} as s) (hanswers : Answers sendHTTP s) :
    Delivering io imencode sendHTTP h s.work s := by
  have hinit : Ready io imencode sendHTTP h {} :=
    ⟨sound_init, (fun _ hm => nomatch hm), fun _ hm => nomatch hm⟩
  have hready : s.Ready io imencode sendHTTP h := guarded_invariant
    (C := fun t a => ∀ data, a = .push data →
      MessageQueue.Distinct io t.queue (.push data) ∧ Addressed h data.mRequestCode)
    (fun t a u ht hd hu => ht.step hio hd hu) hinit
    (fun t a ha data hdata => hpush t data (by rw [← hdata]; exact ha)) hs
  exact hready.delivering hio hencode hanswers rfl

/-- Eleven messages, the last of them on disk. -/
theorem delivers_all_overflow :
    ∃ s, exec (Uplink.step MessageQueue.epochDisk ParkingUpdateMessage.jpegHead
        (fun _ _ _ _ => true) shippedHandler) {}
          (List.replicate 11 (.push (MessageQueue.epochMessage .HTTP_REQ_UPDATE_ENTER 1))) = some s ∧
      s.queue.folder.length = 1 ∧ Delivering MessageQueue.epochDisk ParkingUpdateMessage.jpegHead
        (fun _ _ _ _ => true) shippedHandler 22 s := by
  obtain ⟨s, hs, hfolder, hwork⟩ : ∃ s ∈ exec (Uplink.step MessageQueue.epochDisk
      ParkingUpdateMessage.jpegHead (fun _ _ _ _ => true) shippedHandler) {}
        (List.replicate 11 (.push (MessageQueue.epochMessage .HTTP_REQ_UPDATE_ENTER 1))),
      s.queue.folder.length = 1 ∧ s.work = 22 := by decide +kernel
  refine ⟨s, hs, hfolder, hwork ▸ delivers_all MessageQueue.epochDisk_works
    ParkingUpdateMessage.jpegHead_isSome (fun t data ht => ?_) (visits_of_exec hs)
    fun _ _ _ _ _ => rfl⟩
  have hempty : t.queue.folder = [] :=
    takes_of_checkTakes (C := fun t _ => t.queue.folder = []) (by decide +kernel) ht
  obtain rfl := Action.push.inj (List.mem_replicate.mp (takes_mem ht)).2
  refine ⟨⟨MessageQueue.epochMessage_valid _ (by decide), fun _ => ?_⟩, by decide, by decide, rfl⟩
  simp [hempty, MessageQueue.diskKeys]

end Uplink
end VisionSensor
