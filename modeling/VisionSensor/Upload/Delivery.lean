import VisionSensor.Lib.KeyedTable
import VisionSensor.Upload.HttpResponse

/-! Whole runs of the uploader, with a log of what it has sent. A message is sent again until the
answer is a success, and only then does the next one have its turn. -/
namespace VisionSensor
open FuelLoop GuardedRun Unwind

/-- What one call of `sendHTTP` is given. -/
structure UploadRequest where
  method : String
  json : PTree
  path : String

/-- One call of `sendHTTP` and its answer. -/
abbrev Attempt := UploadRequest × Bool

namespace ServerNetworkHandler

/-- `upload` with a log of the calls of `sendHTTP` in place of their number. -/
def uploadLogged (io : Storage) (imencode : Mat → Option (List UInt8)) (sendHTTP : SendHTTP)
    (h : ServerNetworkHandler) (data : IMessageData) (log : List Attempt) :
    Option (Bool × List Attempt) := do
  let root ← data.toPTree io imencode
  let request := root.getIntD ["httpRequest"] (-1)
  let root := root.erase "httpRequest"
  if request < 0 then return (false, log)
  else
    match h.mServerDestinations.lookup request with
    | none => return (false, log)
    | some dest =>
        let root := root.put ["timeZone"] h.TimeZone
        let answer := sendHTTP log.length dest.HTTPRequestMethod root dest.TargetPath
        return (answer, log ++ [(⟨dest.HTTPRequestMethod, root, dest.TargetPath⟩, answer)])

/-- What `upload` sends for a message, if anything. -/
def requestOf (io : Storage) (imencode : Mat → Option (List UInt8)) (h : ServerNetworkHandler)
    (data : IMessageData) : Option UploadRequest := do
  let root ← data.toPTree io imencode
  let request := root.getIntD ["httpRequest"] (-1)
  if request < 0 then none
  else
    let dest ← h.mServerDestinations.lookup request
    return ⟨dest.HTTPRequestMethod, (root.erase "httpRequest").put ["timeZone"] h.TimeZone,
      dest.TargetPath⟩

/-- The thread between two calls of `upload`: the messages it has not got rid of, the first of
which it holds, and its log. -/
structure Uploader where
  pending : List IMessageData
  log : List Attempt := []

/-- One call of `upload` in `run`; `none` when the thread waits for a message or an exception ends
it. -/
def tick (io : Storage) (imencode : Mat → Option (List UInt8)) (sendHTTP : SendHTTP)
    (h : ServerNetworkHandler) (u : Uploader) : Option Uploader :=
  match u.pending with
  | [] => none
  | data :: rest =>
      (uploadLogged io imencode sendHTTP h data u.log).map fun (answer, log) =>
        if answer then ⟨rest, log⟩ else ⟨data :: rest, log⟩

/-- The thread after `n` calls of `upload`. -/
def ticks (io : Storage) (imencode : Mat → Option (List UInt8)) (sendHTTP : SendHTTP)
    (h : ServerNetworkHandler) : ℕ → Uploader → Option Uploader
  | 0, u => some u
  | n + 1, u => (tick io imencode sendHTTP h u).bind (ticks io imencode sendHTTP h n)

/-- The log of messages that have all been delivered: for each of them some calls that failed, and
then one that succeeded. -/
inductive Delivers (io : Storage) (imencode : Mat → Option (List UInt8))
    (h : ServerNetworkHandler) : List IMessageData → List Attempt → Prop
  | nil : Delivers io imencode h [] []
  | concat {done : List IMessageData} {log : List Attempt} {data : IMessageData}
      {r : UploadRequest} (n : ℕ) (hdone : Delivers io imencode h done log)
      (hr : h.requestOf io imencode data = some r) :
      Delivers io imencode h (done ++ [data]) (log ++ List.replicate n (r, false) ++ [(r, true)])

/-- The calls that have failed for the message in hand. -/
def failures (io : Storage) (imencode : Mat → Option (List UInt8)) (h : ServerNetworkHandler)
    (pending : List IMessageData) (n : ℕ) : List Attempt :=
  match pending.head?.bind (h.requestOf io imencode) with
  | none => []
  | some r => List.replicate n (r, false)

/-- The log is that of the messages that are not pending any more, and of the one in hand. -/
def Progress (io : Storage) (imencode : Mat → Option (List UInt8)) (h : ServerNetworkHandler)
    (messages : List IMessageData) (u : Uploader) : Prop :=
  ∃ done log n, messages = done ++ u.pending ∧ Delivers io imencode h done log ∧
    u.log = log ++ failures io imencode h u.pending n

variable {io : Storage} {imencode : Mat → Option (List UInt8)} {sendHTTP : SendHTTP}
  {h : ServerNetworkHandler} {data : IMessageData} {messages : List IMessageData}
  {u v : Uploader} {log log' : List Attempt}

/-- The log is as long as the number of calls, and the answers are the same. -/
theorem uploadLogged_upload (io : Storage) (imencode : Mat → Option (List UInt8))
    (sendHTTP : SendHTTP) (h : ServerNetworkHandler) (data : IMessageData) (log : List Attempt) :
    (uploadLogged io imencode sendHTTP h data log).map (fun q => (q.1, q.2.length)) =
      upload io imencode sendHTTP h data log.length := by
  cases ht : data.toPTree io imencode with
  | none => simp [uploadLogged, upload, ht]
  | some root =>
    simp only [uploadLogged, upload, ht, Option.bind_eq_bind, Option.bind_some]
    split_ifs with hneg
    · rfl
    · cases h.mServerDestinations.lookup (root.getIntD ["httpRequest"] (-1)) with
      | none => rfl
      | some dest => simp

theorem upload_of_logged {answer : Bool}
    (hup : uploadLogged io imencode sendHTTP h data log = some (answer, log')) :
    upload io imencode sendHTTP h data log.length = some (answer, log'.length) := by
  rw [← uploadLogged_upload, hup, Option.map_some]

theorem logged_of_upload {answer : Bool} {calls : ℕ}
    (hup : upload io imencode sendHTTP h data log.length = some (answer, calls)) :
    ∃ log', uploadLogged io imencode sendHTTP h data log = some (answer, log') ∧
      log'.length = calls := by
  rw [← uploadLogged_upload] at hup
  obtain ⟨⟨answer', log'⟩, hlog', heq⟩ := Option.map_eq_some_iff.mp hup
  obtain ⟨rfl, rfl⟩ := Prod.mk.inj heq
  exact ⟨log', hlog', rfl⟩

theorem ticks_add (m n : ℕ) (u : Uploader) : ticks io imencode sendHTTP h (m + n) u =
    (ticks io imencode sendHTTP h m u).bind (ticks io imencode sendHTTP h n) := by
  induction m generalizing u with
  | zero => rw [Nat.zero_add, ticks, Option.bind_some]
  | succ m ih =>
    rw [Nat.succ_add, ticks, ticks, Option.bind_assoc]
    exact Option.bind_congr fun v _ => ih v

/-- The loop of `run` at one message, as calls of `upload` one by one. -/
theorem handle_ticks {fuel calls : ℕ}
    (hdone : handle io imencode sendHTTP h fuel log.length data = some calls)
    (rest : List IMessageData) :
    ∃ n log', ticks io imencode sendHTTP h n ⟨data :: rest, log⟩ = some ⟨rest, log'⟩ ∧
      log'.length = calls := by
  induction fuel generalizing log with
  | zero => cases hdone
  | succ fuel ih =>
    cases hup : upload io imencode sendHTTP h data log.length with
    | none =>
      rw [handle, loop_inr (by rw [attempt, hup])] at hdone
      cases hdone
    | some q =>
      obtain ⟨answer, calls₁⟩ := q
      obtain ⟨log₁, hlog₁, rfl⟩ := logged_of_upload hup
      cases answer with
      | true =>
        rw [handle, loop_inr (by rw [attempt, hup])] at hdone
        obtain rfl := Option.some.inj hdone
        refine ⟨1, log₁, ?_, rfl⟩
        simp only [ticks, tick, hlog₁]
        rfl
      | false =>
        rw [handle, loop_inl (by rw [attempt, hup])] at hdone
        obtain ⟨n, log', hticks, hlen⟩ := ih hdone
        refine ⟨n + 1, log', ?_, hlen⟩
        simp only [ticks, tick, hlog₁]
        exact hticks

/-- `run` has got rid of all messages after the calls that the thread makes one by one. -/
theorem run_iff_ticks {calls : ℕ} :
    (∃ fuel, exec (handle io imencode sendHTTP h fuel) log.length messages = some calls) ↔
      ∃ n log', ticks io imencode sendHTTP h n ⟨messages, log⟩ = some ⟨[], log'⟩ ∧
        log'.length = calls := by
  constructor
  · rintro ⟨fuel, hrun⟩
    induction messages generalizing log with
    | nil =>
      obtain rfl := Option.some.inj hrun
      exact ⟨0, log, rfl, rfl⟩
    | cons data rest ih =>
      obtain ⟨calls₁, hdone, hrest⟩ := Option.bind_eq_some_iff.mp hrun
      obtain ⟨m, log₁, hfirst, rfl⟩ := handle_ticks hdone rest
      obtain ⟨n, log', hticks, hlen⟩ := ih hrest
      refine ⟨m + n, log', ?_, hlen⟩
      rw [ticks_add, hfirst, Option.bind_some, hticks]
  · rintro ⟨n, log', hticks, rfl⟩
    induction n generalizing log messages with
    | zero =>
      obtain ⟨rfl, rfl⟩ := Uploader.mk.inj (Option.some.inj hticks)
      exact ⟨0, rfl⟩
    | succ n ih =>
      obtain ⟨v, htick, hticks⟩ := Option.bind_eq_some_iff.mp hticks
      cases messages with
      | nil => cases htick
      | cons data rest =>
        obtain ⟨⟨answer, log₁⟩, hup, rfl⟩ := Option.map_eq_some_iff.mp htick
        have hupload := upload_of_logged hup
        cases answer with
        | true =>
          obtain ⟨fuel, hrest⟩ := ih hticks
          have hone : handle io imencode sendHTTP h (fuel + 1) log.length data =
              some log₁.length := by
            rw [handle, loop_inr (by rw [attempt, hupload])]
            rfl
          refine ⟨fuel + 1, ?_⟩
          rw [exec_cons, hone, Option.bind_some]
          exact exec_mono handle_mono (Nat.le_succ fuel) hrest
        | false =>
          obtain ⟨fuel, hrun⟩ := ih hticks
          obtain ⟨calls₁, hdone, hrest⟩ := Option.bind_eq_some_iff.mp hrun
          have hmore : handle io imencode sendHTTP h (fuel + 1) log.length data =
              some calls₁ := by
            rw [handle, loop_inl (by rw [attempt, hupload])]
            exact hdone
          refine ⟨fuel + 1, ?_⟩
          rw [exec_cons, hmore, Option.bind_some]
          exact exec_mono handle_mono (Nat.le_succ fuel) hrest

/-- A call adds at most one attempt to the log, and that with the request of the message. -/
theorem uploadLogged_cases {answer : Bool}
    (hup : uploadLogged io imencode sendHTTP h data log = some (answer, log')) :
    (h.requestOf io imencode data = none ∧ answer = false ∧ log' = log) ∨
      ∃ r, h.requestOf io imencode data = some r ∧ log' = log ++ [(r, answer)] ∧
        answer = sendHTTP log.length r.method r.json r.path := by
  obtain ⟨root, ht, hup⟩ := Option.bind_eq_some_iff.mp hup
  unfold requestOf
  simp only [ht, Option.bind_eq_bind, Option.bind_some]
  dsimp only at hup
  split_ifs at hup ⊢ with hneg
  · obtain ⟨rfl, rfl⟩ := Prod.mk.inj (Option.some.inj hup)
    exact .inl ⟨rfl, rfl, rfl⟩
  · cases hdest : h.mServerDestinations.lookup (root.getIntD ["httpRequest"] (-1)) with
    | none =>
      rw [hdest] at hup
      obtain ⟨rfl, rfl⟩ := Prod.mk.inj (Option.some.inj hup)
      exact .inl ⟨rfl, rfl, rfl⟩
    | some dest =>
      rw [hdest] at hup
      obtain ⟨rfl, rfl⟩ := Prod.mk.inj (Option.some.inj hup)
      exact .inr ⟨_, rfl, rfl, rfl⟩

/-- One call of `upload` keeps to the order. -/
theorem Progress.tick (hp : Progress io imencode h messages u)
    (hv : tick io imencode sendHTTP h u = some v) : Progress io imencode h messages v := by
  obtain ⟨done, log, n, hsplit, hdone, hlog⟩ := hp
  cases hpending : u.pending with
  | nil =>
    rw [ServerNetworkHandler.tick, hpending] at hv
    cases hv
  | cons data rest =>
    rw [ServerNetworkHandler.tick, hpending] at hv
    obtain ⟨⟨answer, log'⟩, hup, rfl⟩ := Option.map_eq_some_iff.mp hv
    rw [hpending] at hsplit hlog
    rcases uploadLogged_cases hup with ⟨hnone, rfl, rfl⟩ | ⟨r, hr, rfl, -⟩
    · exact ⟨done, log, n, hsplit, hdone, hlog⟩
    · have hfailures : ∀ k, failures io imencode h (data :: rest) k =
          List.replicate k (r, false) := by
        intro k
        simp [failures, hr]
      rw [hfailures] at hlog
      cases answer with
      | true =>
        -- the message is delivered, and nothing has failed yet for the next one
        refine ⟨done ++ [data], _, 0, by simp [hsplit], hdone.concat n hr, ?_⟩
        have hnext : failures io imencode h rest 0 = [] := by
          unfold failures
          split <;> rfl
        simp [hlog, hnext]
      | false =>
        refine ⟨done, log, n + 1, hsplit, hdone, ?_⟩
        simp [hlog, hfailures, List.replicate_succ']

theorem ticks_progress {n : ℕ} (hp : Progress io imencode h messages u)
    (hv : ticks io imencode sendHTTP h n u = some v) : Progress io imencode h messages v := by
  induction n generalizing u with
  | zero =>
    obtain rfl := Option.some.inj hv
    exact hp
  | succ n ih =>
    obtain ⟨w, hw, hv⟩ := Option.bind_eq_some_iff.mp hv
    exact ih (hp.tick hw) hv

/-- Every answer in the log is the one `sendHTTP` gave to that call. -/
def Answered (sendHTTP : SendHTTP) (log : List Attempt) : Prop :=
  ∀ i a, log[i]? = some a → a.2 = sendHTTP i a.1.method a.1.json a.1.path

theorem Answered.concat (hlog : Answered sendHTTP log) {r : UploadRequest} :
    Answered sendHTTP (log ++ [(r, sendHTTP log.length r.method r.json r.path)]) := by
  intro i a hi
  rcases Nat.lt_trichotomy i log.length with hless | rfl | hmore
  · rw [List.getElem?_append_left hless] at hi
    exact hlog i a hi
  · rw [List.getElem?_concat_length] at hi
    obtain rfl := Option.some.inj hi
    rfl
  · rw [List.getElem?_eq_none (by simp; omega)] at hi
    cases hi

theorem Answered.tick (hu : Answered sendHTTP u.log)
    (hv : tick io imencode sendHTTP h u = some v) : Answered sendHTTP v.log := by
  unfold ServerNetworkHandler.tick at hv
  split at hv
  · cases hv
  · obtain ⟨⟨answer, log'⟩, hup, rfl⟩ := Option.map_eq_some_iff.mp hv
    have hlog' : Answered sendHTTP log' := by
      rcases uploadLogged_cases hup with ⟨-, -, rfl⟩ | ⟨r, -, rfl, rfl⟩
      · exact hu
      · exact hu.concat
    dsimp only
    split_ifs <;> exact hlog'

theorem ticks_answered {n : ℕ} (hu : Answered sendHTTP u.log)
    (hv : ticks io imencode sendHTTP h n u = some v) : Answered sendHTTP v.log := by
  induction n generalizing u with
  | zero =>
    obtain rfl := Option.some.inj hv
    exact hu
  | succ n ih =>
    obtain ⟨w, hw, hv⟩ := Option.bind_eq_some_iff.mp hv
    exact ih (hu.tick hw) hv

/-- The calls that succeeded. -/
def acknowledged (log : List Attempt) : List UploadRequest := (log.filter (·.2)).map Prod.fst

theorem acknowledged_failed (r : UploadRequest) (n : ℕ) :
    acknowledged (List.replicate n (r, false)) = [] := by
  rw [acknowledged, List.map_eq_nil_iff, List.filter_eq_nil_iff]
  intro a ha
  rw [(List.mem_replicate.mp ha).2]
  exact Bool.false_ne_true

theorem acknowledged_append (log log' : List Attempt) :
    acknowledged (log ++ log') = acknowledged log ++ acknowledged log' := by
  simp [acknowledged]

/-- Each delivered message has been acknowledged once, in the order of the queue. -/
theorem Delivers.acknowledged {done : List IMessageData} (hd : Delivers io imencode h done log) :
    (acknowledged log).map some = done.map (h.requestOf io imencode) := by
  induction hd with
  | nil => rfl
  | concat n hdone hr ih =>
    rw [acknowledged_append, acknowledged_append, acknowledged_failed, List.append_nil,
      List.map_append, List.map_append, ih, List.map_singleton, hr]
    rfl

theorem acknowledged_failures (pending : List IMessageData) (n : ℕ) :
    acknowledged (failures io imencode h pending n) = [] := by
  unfold failures
  split
  · rfl
  · exact acknowledged_failed _ n

/-- Everything in the log is a request of some message. -/
theorem Delivers.mem {done : List IMessageData} (hd : Delivers io imencode h done log) {a : Attempt}
    (ha : a ∈ log) : ∃ data, h.requestOf io imencode data = some a.1 := by
  induction hd with
  | nil => cases ha
  | concat n hdone hr ih =>
    simp only [List.mem_append, List.mem_singleton] at ha
    rcases ha with (ha | ha) | rfl
    · exact ih ha
    · rw [(List.mem_replicate.mp ha).2]
      exact ⟨_, hr⟩
    · exact ⟨_, hr⟩

theorem mem_failures {pending : List IMessageData} {n : ℕ} {a : Attempt}
    (ha : a ∈ failures io imencode h pending n) :
    ∃ data, h.requestOf io imencode data = some a.1 := by
  unfold failures at ha
  split at ha
  · cases ha
  · rename_i r hr
    obtain ⟨data, -, hdata⟩ := Option.bind_eq_some_iff.mp hr
    rw [(List.mem_replicate.mp ha).2]
    exact ⟨data, hdata⟩

/-- A request goes where the table says. -/
theorem requestOf_destination {r : UploadRequest} (hr : h.requestOf io imencode data = some r) :
    ∃ d ∈ h.mServerDestinations, r.method = d.2.HTTPRequestMethod ∧ r.path = d.2.TargetPath := by
  obtain ⟨root, -, hr⟩ := Option.bind_eq_some_iff.mp hr
  dsimp only at hr
  split_ifs at hr
  obtain ⟨dest, hdest, hr⟩ := Option.bind_eq_some_iff.mp hr
  obtain rfl := Option.some.inj hr
  exact ⟨_, KeyedTable.mem_of_lookup hdest, rfl, rfl⟩

/-- The text of a call; `write_json` is the text of a tree. -/
def text (SensorID : String) (write_json : PTree → String) (h : ServerNetworkHandler)
    (r : UploadRequest) : String :=
  h.makeHTTPMessage SensorID r.method r.path (write_json r.json)

/-- `sendHTTP` over a network that makes a connection out of each call and its text. -/
def overNetwork (SensorID : String) (write_json : PTree → String) (h : ServerNetworkHandler)
    (net : ℕ → String → Connection) : SendHTTP :=
  fun calls method json path =>
    (net calls (h.text SensorID write_json ⟨method, json, path⟩)).sendHTTP

/-- After any number of calls, over any network: the messages that are not pending have been sent
one after the other, each until it was acknowledged and never again; the server reads each call as
the request of its message, and an acknowledgement is the success of that very connection. -/
theorem ticks_served {SensorID : String} {write_json : PTree → String}
    {net : ℕ → String → Connection} {n : ℕ}
    (hframed : ∀ d ∈ h.mServerDestinations,
      Framed h SensorID d.2.HTTPRequestMethod d.2.TargetPath)
    (hrun : ticks io imencode (h.overNetwork SensorID write_json net) h n ⟨messages, []⟩ = some u) :
    ∃ done log k, messages = done ++ u.pending ∧ Delivers io imencode h done log ∧
      u.log = log ++ failures io imencode h u.pending k ∧
      (acknowledged u.log).map some = done.map (h.requestOf io imencode) ∧
      (∀ a ∈ u.log, HttpRequest.read (h.text SensorID write_json a.1).toList =
        some (h.request SensorID a.1.method a.1.path (write_json a.1.json), [])) ∧
      ∀ i a, u.log[i]? = some a → a.2 = (net i (h.text SensorID write_json a.1)).sendHTTP := by
  have hstart : Progress io imencode h messages ⟨messages, []⟩ := by
    refine ⟨[], [], 0, rfl, .nil, ?_⟩
    unfold failures
    split <;> rfl
  obtain ⟨done, log, k, hsplit, hdone, hlog⟩ := ticks_progress hstart hrun
  have hempty : Answered (h.overNetwork SensorID write_json net) [] := by
    intro i a hi
    cases hi
  refine ⟨done, log, k, hsplit, hdone, hlog, ?_, fun a ha => ?_, ticks_answered hempty hrun⟩
  · rw [hlog, acknowledged_append, acknowledged_failures, List.append_nil, hdone.acknowledged]
  · rw [hlog, List.mem_append] at ha
    obtain ⟨data, hdata⟩ : ∃ data, h.requestOf io imencode data = some a.1 :=
      ha.elim hdone.mem mem_failures
    obtain ⟨d, hd, hmethod, hpath⟩ := requestOf_destination hdata
    have hread := read_makeHTTPMessage (hframed d hd) (write_json a.1.json) []
    rw [List.append_nil, ← hmethod, ← hpath] at hread
    exact hread

/-- The server cannot be reached at first, and then accepts what it gets. -/
def recovering (calls : ℕ) (_ : String) : Connection :=
  if calls = 0 then { connected := false, chunks := [] } else Connection.accepting

theorem shippedHandler_framed : ∀ d ∈ shippedHandler.mServerDestinations,
    Framed shippedHandler "sensor" d.2.HTTPRequestMethod d.2.TargetPath := by
  intro d hd
  simp only [shippedHandler, List.mem_cons, List.not_mem_nil, or_false] at hd
  rcases hd with rfl | rfl | rfl | rfl
  all_goals exact ⟨by decide, by decide, by decide, by decide, by decide, by decide⟩

/-- An entry that goes out at the second attempt. -/
def secondAttempt : Option Uploader :=
  ticks MessageQueue.epochDisk ParkingUpdateMessage.jpegHead
    (shippedHandler.overNetwork "sensor" (fun _ => "{}") recovering) shippedHandler 2
    ⟨[.parkingUpdate ParkingUpdateMessage.entryMessage], []⟩

theorem ticks_served_entry : ∃ u, secondAttempt = some u ∧ u.log.length = 2 ∧
    (acknowledged u.log).map some =
      [.parkingUpdate ParkingUpdateMessage.entryMessage].map
        (shippedHandler.requestOf MessageQueue.epochDisk ParkingUpdateMessage.jpegHead) := by
  obtain ⟨u, hrun⟩ : ∃ u, secondAttempt = some u := ⟨_, rfl⟩
  have hpending : secondAttempt.map Uploader.pending = some [] := rfl
  have hlength : secondAttempt.map (fun u => u.log.length) = some 2 := rfl
  rw [hrun, Option.map_some, Option.some.injEq] at hpending hlength
  obtain ⟨done, log, k, hsplit, -, -, hack, -⟩ := ticks_served shippedHandler_framed hrun
  rw [hpending, List.append_nil] at hsplit
  rw [hsplit]
  exact ⟨u, hrun, hlength, hack⟩

end ServerNetworkHandler
end VisionSensor
