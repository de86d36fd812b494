import VisionSensor.Lib.ChunkedStream
import VisionSensor.Management.PropertyTree

/-! `TCPSocketListener::session` over the pieces in which the bytes of a client arrive, from the
first turn of its loop on. Whatever one `read_some` returns is taken for one request. -/
namespace VisionSensor.Session
open ChunkedStream

/-- The codes `RequestTranslator` knows. -/
inductive Request where
  | REQ_DISCONNECT | REQ_UPDATE | REQ_STREAMING
  deriving DecidableEq, Repr

def RequestTranslator : List (String × Request) :=
  [("disconnect", .REQ_DISCONNECT), ("streaming", .REQ_STREAMING), ("update", .REQ_UPDATE)]

/-- `parseRequestCode`; `none` is the code -1. -/
def parseRequestCode (node : PTree) : Except Fault (Option Request) :=
  (node.getString "request").map fun request => RequestTranslator.lookup request

/-- What a session does with the bytes: it dispatches a request, and the handler of the request
reads bytes of its own. -/
inductive Event where
  | request (json : PTree)
  | received (bytes : List UInt8)

/-- What the session goes by besides the bytes: the JSON parser, and whether the handler goes on
after the events so far. Otherwise it throws, which ends the session. -/
structure SessionEnv where
  read_json : List UInt8 → Option PTree
  proceeds : List Event → Bool

/-- The size of `data`. -/
def MaxBufSize : ℕ := 4096

/-- The text `ss << buffer` takes: `data` up to its first zero byte. The buffer is cleared before
the read; when the read fills it without a zero byte, the text goes beyond its end. -/
def cString (data : List UInt8) : Option (List UInt8) :=
  if 0 ∈ data ∨ data.length < MaxBufSize then some (data.takeWhile (· ≠ 0)) else none

/-- The read a handler makes: `sendImageFrame` takes what arrives as the acknowledgement of the
size, `update` the announced number of bytes, converted to a `size_t`. `none` is an exception, or
that the handler reads nothing. -/
def handlerRead (request : Request) (json : PTree) (chunks : List (List UInt8)) :
    Option (List UInt8 × List (List UInt8)) :=
  match request with
  | .REQ_STREAMING => some (readSome 64 chunks)
  | .REQ_UPDATE =>
      match json.getInt "length" with
      | .error _ => none
      | .ok n => readExactly (n % 2 ^ 64).toNat chunks
  | .REQ_DISCONNECT => none

/-- The handling of one request: its events, and what is still to arrive if the loop goes on. -/
def handle (env : SessionEnv) (log : List Event) (request : Request) (json : PTree)
    (chunks : List (List UInt8)) : List Event × Option (List (List UInt8)) :=
  if env.proceeds (log ++ [.request json]) then
    match handlerRead request json chunks with
    | none => ([.request json], none)
    | some (bytes, rest) =>
        ([.request json, .received bytes],
          if env.proceeds (log ++ [.request json, .received bytes]) then some rest else none)
  else ([.request json], none)

theorem handlerRead_weight {request : Request} {json : PTree} {chunks rest : List (List UInt8)}
    {bytes : List UInt8} (h : handlerRead request json chunks = some (bytes, rest)) :
    weight rest ≤ weight chunks := by
  unfold handlerRead at h
  split at h
  · obtain ⟨-, rfl⟩ := Prod.mk.inj (Option.some.inj h)
    exact skip_weight chunks _
  · split at h
    · cases h
    · exact readExactly_weight h
  · cases h

theorem handle_weight {env : SessionEnv} {log : List Event} {request : Request} {json : PTree}
    {chunks rest : List (List UInt8)} (h : (handle env log request json chunks).2 = some rest) :
    weight rest ≤ weight chunks := by
  unfold handle at h
  split_ifs at h
  · split at h
    · cases h
    · rename_i hread
      simp only [Option.ite_none_right_eq_some] at h
      obtain ⟨-, h⟩ := h
      obtain rfl := Option.some.inj h
      exact handlerRead_weight hread

/-- One turn of the loop: the events, and what is still to arrive if there is another turn. `none`
is a text that goes beyond the end of the buffer. An unknown request is passed over. -/
def turn (env : SessionEnv) (log : List Event) (chunks : List (List UInt8)) :
    Option (List Event × Option (List (List UInt8))) :=
  (cString (readSome MaxBufSize chunks).1).map fun buffer =>
    match env.read_json buffer with
    | none => ([], none)
    | some json =>
        match parseRequestCode json with
        | .error _ => ([], none)
        | .ok none => ([], some (readSome MaxBufSize chunks).2)
        | .ok (some request) => handle env log request json (readSome MaxBufSize chunks).2

theorem turn_weight {env : SessionEnv} {log events : List Event} {chunk : List UInt8}
    {chunks rest : List (List UInt8)} (h : turn env log (chunk :: chunks) = some (events, some rest)) :
    weight rest < weight (chunk :: chunks) := by
  have hread := readSome_weight (show 0 < MaxBufSize by decide) chunk chunks
  obtain ⟨buffer, -, h⟩ := Option.map_eq_some_iff.mp h
  split at h
  · cases h
  · split at h
    · cases h
    · obtain rfl := Option.some.inj (Prod.mk.inj h).2
      exact hread
    · exact Nat.lt_of_le_of_lt (handle_weight (congrArg Prod.snd h)) hread

/-- The loop of `session`, after the events `log`. The client closes the connection when its bytes
have arrived. -/
def session (env : SessionEnv) (log : List Event) : List (List UInt8) → Option (List Event)
  | [] => some []
  | chunk :: chunks =>
      match _h : turn env log (chunk :: chunks) with
      | none => none
      | some (events, none) => some events
      | some (events, some rest) => (session env (log ++ events) rest).map (events ++ ·)
termination_by chunks => weight chunks
decreasing_by exact turn_weight _h

section Turn

variable {env : SessionEnv} {log events : List Event} {chunk : List UInt8}
  {chunks rest : List (List UInt8)}

/-- A known request is handled with what arrives after it. -/
theorem turn_request {buffer : List UInt8} {json : PTree} {request : Request}
    (hbuffer : cString (readSome MaxBufSize chunks).1 = some buffer)
    (hjson : env.read_json buffer = some json)
    (hrequest : parseRequestCode json = .ok (some request)) :
    turn env log chunks = some (handle env log request json (readSome MaxBufSize chunks).2) := by
  simp only [turn, hbuffer, hjson, hrequest, Option.map_some]

/-- Otherwise nothing is dispatched in this turn. -/
theorem turn_no_json {buffer : List UInt8}
    (hbuffer : cString (readSome MaxBufSize chunks).1 = some buffer)
    (hjson : env.read_json buffer = none) : turn env log chunks = some ([], none) := by
  simp only [turn, hbuffer, hjson, Option.map_some]

theorem turn_undefined (hbuffer : cString (readSome MaxBufSize chunks).1 = none) :
    turn env log chunks = none := by
  simp only [turn, hbuffer, Option.map_none]

@[simp] theorem session_nil : session env log [] = some [] := by rw [session]

theorem session_last (h : turn env log (chunk :: chunks) = some (events, none)) :
    session env log (chunk :: chunks) = some events := by
  rw [session]
  split <;> simp_all

theorem session_next (h : turn env log (chunk :: chunks) = some (events, some rest)) :
    session env log (chunk :: chunks) = (session env (log ++ events) rest).map (events ++ ·) := by
  rw [session]
  split <;> simp_all

theorem session_undefined (h : turn env log (chunk :: chunks) = none) :
    session env log (chunk :: chunks) = none := by
  rw [session]
  split <;> simp_all

/-- The events of a session are those of its first turn and of the session after it. -/
theorem session_cons {next : Option (List (List UInt8))} {res : List Event}
    (hturn : turn env log (chunk :: chunks) = some (events, next))
    (h : session env log (chunk :: chunks) = some res) :
    ∃ tail, res = events ++ tail ∧
      (∀ rest, next = some rest → session env (log ++ events) rest = some tail) ∧
      (next = none → tail = []) := by
  cases next with
  | none =>
    rw [session_last hturn] at h
    exact ⟨[], by simpa using h.symm, by simp, fun _ => rfl⟩
  | some rest =>
    rw [session_next hturn] at h
    obtain ⟨tail, htail, rfl⟩ := Option.map_eq_some_iff.mp h
    refine ⟨tail, rfl, ?_, by simp⟩
    rintro _ ⟨⟩
    exact htail

end Turn

end VisionSensor.Session
