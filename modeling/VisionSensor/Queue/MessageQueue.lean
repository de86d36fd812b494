import Mathlib.Data.List.InsertIdx
import Mathlib.Data.List.Nodup
import VisionSensor.Lib.SpillQueue
import VisionSensor.Queue.Message

/-! `MessageQueue` with its storage folder, each call of it one step under `mMutex`. A call of
`wait_and_pop` that finds nothing leaves a waiter behind, which looks at the queue again whenever
it is woken. The files stand in the order in which they were written; the order in which the
folder is listed comes with each call. The queue is shown to be a bounded queue with an overflow
store. -/
namespace VisionSensor

/-- `pushed` and `popped` record the messages handed in and out. -/
structure MessageQueue where
  mQueue : List ParkingUpdateMessage := []
  mNumStoredData : ℤ := 0
  folder : List File := []
  waiting : ℕ := 0
  pushed : List ParkingUpdateMessage := []
  popped : List ParkingUpdateMessage := []

def mMaxSize : ℕ := 10

/-- `utils::loadMessage` over the files listed, with the folder it leaves; `none` is the answer
false. -/
def loadMessage (io : Storage) (folder : List File) :
    List File → Except LoadError (Option (ParkingUpdateMessage × List File))
  | [] => .ok none
  | f :: listing =>
      if extension f.name = ".png".toList then
        match ParkingUpdateMessage.load io f with
        | .error e => .error e
        | .ok none => loadMessage io folder listing
        | .ok (some data) =>
            if io.remove f.name then .ok (some (data, folder.eraseP fun g => g.name == f.name))
            else .ok none
      else loadMessage io folder listing

namespace MessageQueue

def push (io : Storage) (data : ParkingUpdateMessage) (q : MessageQueue) : MessageQueue :=
  if q.mQueue.length ≥ mMaxSize then
    let (folder, saved) := data.save io q.folder
    { q with folder := folder, pushed := q.pushed ++ [data],
             mNumStoredData := if saved then q.mNumStoredData + 1 else q.mNumStoredData }
  else { q with mQueue := q.mQueue ++ [data], pushed := q.pushed ++ [data] }

def loadStoredData (io : Storage) (listing : List File) (q : MessageQueue) :
    Except LoadError MessageQueue :=
  if q.mQueue.length < mMaxSize ∧ q.mNumStoredData > 0 then
    match loadMessage io q.folder listing with
    | .error e => .error e
    | .ok none => .ok q
    | .ok (some (storedData, folder)) =>
        .ok { q with mQueue := q.mQueue ++ [storedData], folder := folder,
                     mNumStoredData := q.mNumStoredData - 1 }
  else .ok q

/-- Moving the front out of the queue; `none` when there is none. -/
def takeFront (q : MessageQueue) : Option MessageQueue :=
  match q.mQueue with
  | [] => none
  | data :: rest => some { q with mQueue := rest, popped := q.popped ++ [data] }

def try_pop (io : Storage) (listing : List File) (q : MessageQueue) :
    Except LoadError MessageQueue :=
  (q.loadStoredData io listing).map fun q => q.takeFront.getD q

/-- `wait_and_pop` up to its return or its first wait. -/
def wait_and_pop (io : Storage) (listing : List File) (q : MessageQueue) :
    Except LoadError MessageQueue :=
  (q.loadStoredData io listing).map fun q =>
    q.takeFront.getD { q with waiting := q.waiting + 1 }

/-- A waiter is woken: it takes the front, or waits again. -/
def wake (q : MessageQueue) : MessageQueue :=
  (q.takeFront.map fun q => { q with waiting := q.waiting - 1 }).getD q

inductive Action where
  | push (data : ParkingUpdateMessage)
  | try_pop (listing : List File)
  | wait_and_pop (listing : List File)
  | wake

/-- One call. A listing holds the files of the folder, in any order; a call that throws is no
step. -/
def step (io : Storage) (q : MessageQueue) : Action → Option MessageQueue
  | .push data => some (q.push io data)
  | .try_pop listing => if listing.Perm q.folder then (q.try_pop io listing).toOption else none
  | .wait_and_pop listing =>
      if listing.Perm q.folder then (q.wait_and_pop io listing).toOption else none
  | .wake => if q.waiting = 0 then none else some q.wake

/-- A message loaded from the folder has a picture. -/
theorem load_picture {io : Storage} {f : File} {m : ParkingUpdateMessage}
    (h : ParkingUpdateMessage.load io f = .ok (some m)) : m.mFrame.empty = false := by
  unfold ParkingUpdateMessage.load at h
  split at h
  · simp only at h
    split at h
    · cases h
    · rename_i hpicture
      split at h
      · cases h
      · split at h
        · cases h
        · split at h
          · cases h
          · obtain rfl := Option.some.inj (Except.ok.inj h)
            exact Bool.eq_false_iff.mpr hpicture
  · cases h

theorem loadMessage_picture {io : Storage} {folder listing folder' : List File}
    {m : ParkingUpdateMessage} (h : loadMessage io folder listing = .ok (some (m, folder'))) :
    m.mFrame.empty = false := by
  induction listing with
  | nil => cases h
  | cons f listing ih =>
    unfold loadMessage at h
    split at h
    · split at h
      · cases h
      · exact ih h
      · rename_i data hload
        split at h
        · obtain ⟨rfl, -⟩ := Prod.mk.inj (Option.some.inj (Except.ok.inj h))
          exact load_picture hload
        · cases h
    · exact ih h

/-- What the uploader's calls do to the queue: nothing is pushed, and what is new in the queue has
been loaded. -/
structure Serves (q q' : MessageQueue) : Prop where
  pushed : q'.pushed = q.pushed
  queued : ∀ m ∈ q'.mQueue, m ∈ q.mQueue ∨ m.mFrame.empty = false

theorem serves_loadStoredData {io : Storage} {listing : List File} {q q' : MessageQueue}
    (h : q.loadStoredData io listing = .ok q') : Serves q q' := by
  unfold loadStoredData at h
  split_ifs at h
  · split at h
    · cases h
    · obtain rfl := Except.ok.inj h
      exact ⟨rfl, fun m hm => .inl hm⟩
    · rename_i data folder hload
      obtain rfl := Except.ok.inj h
      refine ⟨rfl, fun m hm => ?_⟩
      rcases List.mem_append.mp hm with hm | hm
      · exact .inl hm
      · obtain rfl := List.mem_singleton.mp hm
        exact .inr (loadMessage_picture hload)
  · obtain rfl := Except.ok.inj h
    exact ⟨rfl, fun m hm => .inl hm⟩

theorem serves_takeFront {q q' : MessageQueue} (h : q.takeFront = some q') : Serves q q' := by
  unfold takeFront at h
  split at h
  · cases h
  · rename_i data rest hq
    obtain rfl := Option.some.inj h
    exact ⟨rfl, fun m hm => .inl (hq ▸ List.mem_cons_of_mem data hm)⟩

theorem Serves.trans {q q' q'' : MessageQueue} (h : Serves q q') (h' : Serves q' q'') :
    Serves q q'' := by
  refine ⟨h'.pushed.trans h.pushed, fun m hm => ?_⟩
  rcases h'.queued m hm with hm | hm
  · exact h.queued m hm
  · exact .inr hm

theorem serves_front {q d : MessageQueue} (h : Serves q d) : Serves q (q.takeFront.getD d) := by
  cases hfront : q.takeFront with
  | none => exact h
  | some q' => exact serves_takeFront hfront

/-- Loading from the folder, then taking the front or doing `d` without one. -/
theorem serves_pop {io : Storage} {listing : List File} {q q' : MessageQueue}
    {d : MessageQueue → MessageQueue} (hd : ∀ u, Serves u (d u))
    (h : ((q.loadStoredData io listing).map fun u => u.takeFront.getD (d u)).toOption = some q') :
    Serves q q' := by
  cases hload : q.loadStoredData io listing with
  | error e =>
    rw [hload] at h
    cases h
  | ok u =>
    rw [hload] at h
    obtain rfl := Option.some.inj h
    exact (serves_loadStoredData hload).trans (serves_front (hd u))

/-- Every call but a push serves the uploader. -/
theorem serves_step {io : Storage} {q q' : MessageQueue} {call : Action}
    (hcall : ∀ data, call ≠ .push data) (h : step io q call = some q') : Serves q q' := by
  cases call with
  | push data => exact absurd rfl (hcall data)
  | try_pop listing =>
    simp only [step] at h
    split_ifs at h
    exact serves_pop (fun u => ⟨rfl, fun m hm => .inl hm⟩) h
  | wait_and_pop listing =>
    simp only [step] at h
    split_ifs at h
    exact serves_pop (d := fun u => { u with waiting := u.waiting + 1 })
      (fun u => ⟨rfl, fun m hm => .inl hm⟩) h
  | wake =>
    simp only [step] at h
    split_ifs at h
    obtain rfl := Option.some.inj h
    unfold wake
    cases hfront : q.takeFront with
    | none => exact ⟨rfl, fun m hm => .inl hm⟩
    | some v => exact ⟨(serves_takeFront hfront).pushed, (serves_takeFront hfront).queued⟩

/-- The messages in the folder. -/
def diskKeys (io : Storage) (folder : List File) : List ParkingUpdateMessage.Key :=
  folder.filterMap fun f =>
    match ParkingUpdateMessage.load io f with
    | .ok (some m) => some m.key
    | _ => none

/-- The queue and the folder as a bounded queue of keys with an overflow store. -/
def abs (io : Storage) (q : MessageQueue) : SpillQueue.State ParkingUpdateMessage.Key where
  mem := q.mQueue.map ParkingUpdateMessage.key
  disk := diskKeys io q.folder
  waiting := q.waiting
  pushed := q.pushed.map ParkingUpdateMessage.key
  popped := q.popped.map ParkingUpdateMessage.key

/-- The position of the file a listing puts first. -/
def firstListed (folder : List File) : List File → ℕ
  | [] => 0
  | f :: _ => folder.idxOf f

def absOp (q : MessageQueue) : Action → SpillQueue.Op ParkingUpdateMessage.Key
  | .push data => .push data.key
  | .try_pop listing => .tryPop (firstListed q.folder listing)
  | .wait_and_pop listing => .waitPop (firstListed q.folder listing)
  | .wake => .wake

/-- The folder holds the files of valid messages with different keys, and `mNumStoredData` counts
them. -/
structure Inv (io : Storage) (q : MessageQueue) : Prop where
  files : ∃ ms : List ParkingUpdateMessage, q.folder = ms.map (ParkingUpdateMessage.toFile io) ∧
    (∀ m ∈ ms, m.Valid io) ∧ (ms.map ParkingUpdateMessage.key).Nodup
  counted : q.mNumStoredData = q.folder.length

/-- A push is of a valid message, and one that is saved shares its key with no message on
disk. -/
def Distinct (io : Storage) (q : MessageQueue) : Action → Prop
  | .push data => data.Valid io ∧ (mMaxSize ≤ q.mQueue.length → data.key ∉ diskKeys io q.folder)
  | _ => True

variable {io : Storage}

theorem diskKeys_map (hio : io.Works) {ms : List ParkingUpdateMessage}
    (h : ∀ m ∈ ms, m.Valid io) :
    diskKeys io (ms.map (ParkingUpdateMessage.toFile io)) = ms.map ParkingUpdateMessage.key := by
  induction ms with
  | nil => rfl
  | cons m ms ih =>
    have hm := ParkingUpdateMessage.load_toFile hio (h m List.mem_cons_self)
    have hrest := ih fun n hn => h n (List.mem_cons_of_mem _ hn)
    simp only [diskKeys] at hrest ⊢
    simp [hm, hrest]

/-- Saving a message whose key is not on disk appends its file. -/
theorem save_eq (hio : io.Works) {m : ParkingUpdateMessage} (hm : m.Valid io)
    {ms : List ParkingUpdateMessage} (hms : ∀ m ∈ ms, m.Valid io)
    (hnew : m.key ∉ ms.map ParkingUpdateMessage.key) :
    m.save io (ms.map (ParkingUpdateMessage.toFile io)) =
      (ms.map (ParkingUpdateMessage.toFile io) ++ [m.toFile io], true) := by
  have hnone : ((ms.map (ParkingUpdateMessage.toFile io)).any
      fun f => f.name == m.constructFilename io) = false := by
    rw [List.any_eq_false]
    intro f hf hname
    obtain ⟨n, hn, rfl⟩ := List.mem_map.mp hf
    have hkey := ParkingUpdateMessage.key_eq_of_name_eq (hms n hn) hm (beq_iff_eq.mp hname)
    exact hnew (List.mem_map.mpr ⟨n, hn, hkey⟩)
  simp [ParkingUpdateMessage.save, hio.checkFolder, hio.imwrite _ _ hm.no_slash hm.image, hnone]

theorem eraseP_congr {α : Type*} {p p' : α → Bool} {l : List α} (h : ∀ a ∈ l, p a = p' a) :
    l.eraseP p = l.eraseP p' := by
  induction l with
  | nil => rfl
  | cons a l ih =>
    rw [List.eraseP_cons, List.eraseP_cons, h a List.mem_cons_self,
      ih fun b hb => h b (List.mem_cons_of_mem _ hb)]

/-- Removing by name the file at a position removes that file. -/
theorem eraseP_name {ms : List ParkingUpdateMessage} (hms : ∀ m ∈ ms, m.Valid io)
    (hnodup : (ms.map ParkingUpdateMessage.key).Nodup) {m : ParkingUpdateMessage} (hm : m ∈ ms) :
    (ms.map (ParkingUpdateMessage.toFile io)).eraseP (fun g => g.name == (m.toFile io).name) =
      (ms.map (ParkingUpdateMessage.toFile io)).eraseIdx
        ((ms.map (ParkingUpdateMessage.toFile io)).idxOf (m.toFile io)) := by
  have hsame : ∀ g ∈ ms.map (ParkingUpdateMessage.toFile io),
      (g.name == (m.toFile io).name) = (g == m.toFile io) := by
    intro g hg
    obtain ⟨n, hn, rfl⟩ := List.mem_map.mp hg
    rw [Bool.eq_iff_iff, beq_iff_eq, beq_iff_eq]
    refine ⟨fun hname => ?_, fun h => by rw [h]⟩
    have hkey := ParkingUpdateMessage.key_eq_of_name_eq (hms n hn) (hms m hm) hname
    rw [List.inj_on_of_nodup_map hnodup hn hm hkey]
  rw [eraseP_congr hsame, ← List.erase_eq_eraseP', List.erase_eq_eraseIdx_of_idxOf rfl]

/-- The file listed first is loaded and removed. -/
theorem loadMessage_first (hio : io.Works) {ms : List ParkingUpdateMessage}
    (hms : ∀ m ∈ ms, m.Valid io) (hnodup : (ms.map ParkingUpdateMessage.key).Nodup)
    {m : ParkingUpdateMessage} (hm : m ∈ ms) (listing : List File) :
    loadMessage io (ms.map (ParkingUpdateMessage.toFile io)) (m.toFile io :: listing) =
      .ok (some (m.reloaded io, (ms.map (ParkingUpdateMessage.toFile io)).eraseIdx
        ((ms.map (ParkingUpdateMessage.toFile io)).idxOf (m.toFile io)))) := by
  have hext : extension (m.toFile io).name = ".png".toList :=
    ParkingUpdateMessage.extension_constructFilename io m
  rw [loadMessage, if_pos hext, ParkingUpdateMessage.load_toFile hio (hms m hm)]
  simp only [hio.remove, reduceIte, eraseP_name hms hnodup hm]

/-- The position of a file is the position of its message's key. -/
theorem key_idxOf {ms : List ParkingUpdateMessage} (hms : ∀ m ∈ ms, m.Valid io)
    {m : ParkingUpdateMessage} (hm : m ∈ ms) :
    (ms.map ParkingUpdateMessage.key)[(ms.map (ParkingUpdateMessage.toFile io)).idxOf
      (m.toFile io)]? = some m.key := by
  have hfile : m.toFile io ∈ ms.map (ParkingUpdateMessage.toFile io) := List.mem_map_of_mem hm
  have hget := List.getElem?_eq_getElem (List.idxOf_lt_length_of_mem hfile)
  rw [List.getElem_idxOf, List.getElem?_map, Option.map_eq_some_iff] at hget
  obtain ⟨n, hn, hname⟩ := hget
  rw [List.getElem?_map, hn, Option.map_some, ParkingUpdateMessage.key_eq_of_name_eq
    (hms n (List.mem_of_getElem? hn)) (hms m hm) (congrArg File.name hname)]

/-- Loading from the folder moves the file listed first to the back of the queue. -/
theorem loadStoredData_sim (hio : io.Works) {q : MessageQueue} (hi : q.Inv io)
    {listing : List File} (hl : listing.Perm q.folder) :
    ∃ q', q.loadStoredData io listing = .ok q' ∧ q'.Inv io ∧
      q'.abs io = SpillQueue.reload mMaxSize (firstListed q.folder listing) (q.abs io) := by
  obtain ⟨ms, hfolder, hvalid, hnodup⟩ := hi.files
  have hdisk : diskKeys io q.folder = ms.map ParkingUpdateMessage.key := by
    rw [hfolder, diskKeys_map hio hvalid]
  unfold loadStoredData SpillQueue.reload
  by_cases hroom : q.mQueue.length < mMaxSize
  · cases listing with
    | nil =>
      have hnil : q.folder = [] := hl.nil_eq.symm
      have hzero : q.mNumStoredData = 0 := by rw [hi.counted, hnil]; rfl
      refine ⟨q, by simp [hzero], hi, ?_⟩
      simp [abs, hnil, diskKeys]
    | cons f listing =>
      have hf : f ∈ q.folder := hl.mem_iff.mp List.mem_cons_self
      have hcount : q.mNumStoredData > 0 := by
        rw [hi.counted]
        exact_mod_cast List.length_pos_of_mem hf
      obtain ⟨m, hm, rfl⟩ := List.mem_map.mp (hfolder ▸ hf)
      have hload := loadMessage_first hio hvalid hnodup hm listing
      have hkey := key_idxOf hvalid hm
      rw [← hfolder] at hload hkey
      set i := q.folder.idxOf (m.toFile io) with hidx
      have hlt : i < q.folder.length := List.idxOf_lt_length_of_mem hf
      have hvalid' : ∀ n ∈ ms.eraseIdx i, n.Valid io := fun n hn =>
        hvalid n (List.mem_of_mem_eraseIdx hn)
      refine ⟨_, by rw [if_pos ⟨hroom, hcount⟩, hload], ⟨⟨ms.eraseIdx i, ?_, hvalid', ?_⟩, ?_⟩, ?_⟩
      · rw [← List.eraseIdx_map, ← hfolder]
      · rw [← List.eraseIdx_map]
        exact hnodup.sublist (List.eraseIdx_sublist _ _)
      · simp only [hi.counted, List.length_eraseIdx_of_lt hlt]
        omega
      · simp only [abs, firstListed, ← hidx, List.length_map, if_pos hroom, hdisk, hkey]
        rw [hfolder, List.eraseIdx_map, diskKeys_map hio hvalid', ← List.eraseIdx_map]
        simp
  · refine ⟨q, by simp [hroom], hi, ?_⟩
    simp [abs, hroom]

theorem takeFront_sim (io : Storage) (q : MessageQueue) :
    (q.takeFront).map (abs io) = SpillQueue.pop (q.abs io) := by
  unfold takeFront SpillQueue.pop abs
  cases q.mQueue <;> simp

theorem inv_takeFront {q t : MessageQueue} (hi : q.Inv io) (h : q.takeFront = some t) :
    t.Inv io := by
  unfold takeFront at h
  split at h
  · cases h
  · obtain rfl := Option.some.inj h
    exact ⟨hi.files, hi.counted⟩

/-- A message goes to the back of the queue or, when the queue is full, to the end of the
folder. -/
theorem push_sim (hio : io.Works) {q : MessageQueue} (hi : q.Inv io)
    {data : ParkingUpdateMessage} (hd : Distinct io q (.push data)) :
    (q.push io data).Inv io ∧
      (q.push io data).abs io = SpillQueue.push mMaxSize data.key (q.abs io) := by
  obtain ⟨hvalid, hnew⟩ := hd
  unfold push SpillQueue.push
  by_cases hfull : mMaxSize ≤ q.mQueue.length
  · obtain ⟨ms, hfolder, hms, hnodup⟩ := hi.files
    have hdisk : diskKeys io q.folder = ms.map ParkingUpdateMessage.key := by
      rw [hfolder, diskKeys_map hio hms]
    have hkey : data.key ∉ ms.map ParkingUpdateMessage.key := hdisk ▸ hnew hfull
    have hms' : ∀ m ∈ ms ++ [data], m.Valid io := by
      simpa [or_imp, forall_and] using ⟨hms, hvalid⟩
    have hsave : data.save io q.folder = ((ms ++ [data]).map (ParkingUpdateMessage.toFile io),
        true) := by
      rw [hfolder, save_eq hio hvalid hms hkey]
      simp
    simp only [ge_iff_le, hfull, if_true, hsave, abs, List.length_map]
    refine ⟨⟨⟨ms ++ [data], rfl, hms', ?_⟩, ?_⟩, ?_⟩
    · rw [List.map_append, List.map_singleton, List.nodup_append]
      exact ⟨hnodup, by simp, by simpa using fun m hm h => hkey (List.mem_map.mpr ⟨m, hm, h⟩)⟩
    · rw [hi.counted, hfolder]
      simp
    · rw [diskKeys_map hio hms', hdisk]
      simp
  · simp only [ge_iff_le, hfull, if_false, abs, List.length_map]
    exact ⟨⟨hi.files, hi.counted⟩, by simp⟩

/-- A listing names a file whenever there is one. -/
theorem firstListed_lt (hio : io.Works) {q : MessageQueue} (hi : q.Inv io) {listing : List File}
    (hl : listing.Perm q.folder) : (q.abs io).disk = [] ∨
      firstListed q.folder listing < (q.abs io).disk.length := by
  obtain ⟨ms, hfolder, hms, -⟩ := hi.files
  have hdisk : (q.abs io).disk = ms.map ParkingUpdateMessage.key := by
    simp only [abs, hfolder, diskKeys_map hio hms]
  cases listing with
  | nil =>
    have hnil : q.folder = [] := hl.nil_eq.symm
    exact .inl (by simp [abs, hnil, diskKeys])
  | cons f listing =>
    have hf : f ∈ q.folder := hl.mem_iff.mp List.mem_cons_self
    right
    have := List.idxOf_lt_length_of_mem hf
    rw [hdisk, List.length_map]
    rw [hfolder, List.length_map] at this
    simpa only [firstListed, hfolder] using this

theorem abs_getD (o : Option MessageQueue) (q : MessageQueue) :
    (o.getD q).abs io = (o.map (abs io)).getD (q.abs io) := by
  cases o <;> rfl

theorem inv_getD {q d : MessageQueue} (hi : q.Inv io) (hd : d.Inv io) :
    (q.takeFront.getD d).Inv io := by
  cases h : q.takeFront with
  | none => exact hd
  | some t => exact inv_takeFront hi h

/-- Every call is a step of the bounded queue with an overflow store. -/
theorem step_sim (hio : io.Works) {q t : MessageQueue} {a : Action} (hi : q.Inv io)
    (hd : Distinct io q a) (h : step io q a = some t) :
    t.Inv io ∧ SpillQueue.step mMaxSize (q.abs io) (q.absOp a) = some (t.abs io) := by
  cases a with
  | push data =>
    obtain rfl := Option.some.inj h
    obtain ⟨hinv, habs⟩ := push_sim hio hi hd
    exact ⟨hinv, by rw [habs]; rfl⟩
  | try_pop listing =>
    simp only [step] at h
    split_ifs at h with hl
    obtain ⟨u, hu, huinv, huabs⟩ := loadStoredData_sim hio hi hl
    rw [try_pop, hu] at h
    obtain rfl := Option.some.inj h
    refine ⟨inv_getD huinv huinv, ?_⟩
    rw [absOp, SpillQueue.step, if_pos (firstListed_lt hio hi hl), ← huabs, abs_getD,
      takeFront_sim]
  | wait_and_pop listing =>
    simp only [step] at h
    split_ifs at h with hl
    obtain ⟨u, hu, huinv, huabs⟩ := loadStoredData_sim hio hi hl
    rw [wait_and_pop, hu] at h
    obtain rfl := Option.some.inj h
    refine ⟨inv_getD huinv ⟨huinv.files, huinv.counted⟩, ?_⟩
    rw [absOp, SpillQueue.step, if_pos (firstListed_lt hio hi hl), ← huabs, abs_getD,
      takeFront_sim]
    rfl
  | wake =>
    simp only [step] at h
    split_ifs at h with hw
    obtain rfl := Option.some.inj h
    constructor
    · unfold wake
      cases hf : q.takeFront with
      | none => exact hi
      | some u =>
        have hu := inv_takeFront hi hf
        exact ⟨hu.files, hu.counted⟩
    · have hwait : (q.abs io).waiting ≠ 0 := hw
      rw [absOp, SpillQueue.step, if_neg hwait, ← takeFront_sim, wake, abs_getD]
      cases q.takeFront <;> rfl

/-- A call that can be made: a listing holds the files of the folder, and only a waiter is
woken. -/
def Enabled (q : MessageQueue) : Action → Prop
  | .push _ => True
  | .try_pop listing => listing.Perm q.folder
  | .wait_and_pop listing => listing.Perm q.folder
  | .wake => q.waiting ≠ 0

/-- No call throws. -/
theorem step_isSome (hio : io.Works) {q : MessageQueue} {a : Action} (hi : q.Inv io)
    (ha : q.Enabled a) : (step io q a).isSome := by
  cases a with
  | push data => rfl
  | try_pop listing =>
    obtain ⟨u, hu, -⟩ := loadStoredData_sim hio hi ha
    have hl : listing.Perm q.folder := ha
    rw [step, if_pos hl, try_pop, hu]
    rfl
  | wait_and_pop listing =>
    obtain ⟨u, hu, -⟩ := loadStoredData_sim hio hi ha
    have hl : listing.Perm q.folder := ha
    rw [step, if_pos hl, wait_and_pop, hu]
    rfl
  | wake =>
    have hw : q.waiting ≠ 0 := ha
    simp only [step, if_neg hw, Option.isSome_some]

/-- A disk on which everything succeeds, in the first second of 1970. -/
def epochDisk : Storage where
  to_iso_string t := if t = some 0 then "19700101T000000".toList else "not-a-date-time".toList
  from_iso_string cs := if cs = "19700101T000000".toList then some (some 0) else none
  checkFolder := true
  imwrite _ _ := true
  imread image := image
  remove _ := true

theorem epochDisk_works : epochDisk.Works :=
  ⟨rfl, fun _ _ _ _ => rfl, fun _ h => h, fun _ => rfl⟩

def epochMessage (request : HttpReqType) (spotID : ℤ) : ParkingUpdateMessage :=
  ParkingUpdateMessage.ofFrame request.code spotID ⟨1, 1, [[0]]⟩ (some 0)

theorem epochMessage_valid (request : HttpReqType) {spotID : ℤ} (h : InInt spotID) :
    (epochMessage request spotID).Valid epochDisk where
  time := (by decide : epochDisk.from_iso_string (epochDisk.to_iso_string (some 0)) = some (some 0))
  timeChars := (by simp : ∀ c ∈ "19700101T000000".toList, c ≠ '_' ∧ c ≠ '/')
  code := (by decide : ∀ r ∈ [HttpReqType.HTTP_REQ_SYNC_GENERAL, .HTTP_REQ_UPDATE_ENTER,
    .HTTP_REQ_UPDATE_EXIT, .HTTP_REQ_UPDATE_OVER], InInt r.code) request (by cases request <;> simp)
  spot := h
  plate := (by simp : ∀ c ∈ "null".toList, c ≠ '_' ∧ c ≠ '/')
  image := rfl

end MessageQueue
end VisionSensor
