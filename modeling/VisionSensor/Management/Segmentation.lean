import Mathlib.Data.List.DropRight
import VisionSensor.Management.Session

/-! What a session makes of a sequence of requests when TCP cuts their bytes into pieces: it
dispatches the requests that were sent when every one of them is read by itself. -/
namespace VisionSensor.Session
open ChunkedStream

/-- The white space of JSON. -/
def isBlank (b : UInt8) : Bool := b == 32 || b == 9 || b == 10 || b == 13

def Blank (bytes : List UInt8) : Prop := ∀ b ∈ bytes, isBlank b = true

instance : DecidablePred Blank := fun bytes =>
  List.decidableBAll (fun b => isBlank b = true) bytes

/-- What `read_json` does with objects: white space around one is skipped, there is none in white
space, and anything else behind one is refused. -/
structure JsonReader (read_json : List UInt8 → Option PTree) : Prop where
  blank : ∀ b object s, Blank b → Blank s → object.head? = some 123 →
    read_json (b ++ (object ++ s)) = read_json object
  empty : ∀ b, Blank b → read_json b = none
  ends : ∀ object s, object.head? = some 123 → (read_json object).isSome →
    (read_json (object ++ s)).isSome → Blank s

/-- A request as a client sends it: a JSON object, possibly between white space, and the bytes that
are meant for its handler. These are the payload of an update, and the acknowledgement with which
the client answers the size of an image, if it sends one. -/
structure Message where
  lead : List UInt8
  object : List UInt8
  trail : List UInt8
  json : PTree
  request : Request
  trailer : List UInt8

namespace Message

def text (m : Message) : List UInt8 := m.lead ++ (m.object ++ m.trail)

structure WellFormed (read_json : List UInt8 → Option PTree) (m : Message) : Prop where
  lead : Blank m.lead
  trail : Blank m.trail
  begins : m.object.head? = some 123
  ends : m.object.getLast? = some 125
  noNul : 0 ∉ m.object
  short : m.text.length < MaxBufSize
  parsed : read_json m.object = some m.json
  known : parseRequestCode m.json = .ok (some m.request)
  announced : m.request = .REQ_UPDATE → m.json.getInt "length" = .ok m.trailer.length
  closing : m.request = .REQ_DISCONNECT → m.trailer = []

/-- The piece holds the object and white space, and leaves a zero at the end of the buffer. -/
def IsRead (m : Message) (chunk : List UInt8) : Prop :=
  (∃ b s, Blank b ∧ Blank s ∧ chunk = b ++ (m.object ++ s)) ∧ chunk.length < MaxBufSize

/-- The read of the handler finds the bytes meant for it. -/
def Follows (m : Message) (chunks : List (List UInt8)) : Prop :=
  match m.request with
  | .REQ_STREAMING => (chunks.headD []).take 64 = m.trailer
  | .REQ_UPDATE => m.trailer <+: chunks.flatten
  | .REQ_DISCONNECT => False

end Message

/-- The bytes of the messages. -/
def stream (msgs : List Message) : List UInt8 := msgs.flatMap fun m => m.text ++ m.trailer

/-- The pieces are not empty and hold the bytes. -/
structure IsCut (chunks : List (List UInt8)) (bytes : List UInt8) : Prop where
  flatten : chunks.flatten = bytes
  nonempty : ∀ chunk ∈ chunks, chunk ≠ []

/-- The events of a message, and whether the session goes on after it. -/
def served (env : SessionEnv) (log : List Event) (m : Message) : List Event × Bool :=
  if m.request ≠ .REQ_DISCONNECT ∧ env.proceeds (log ++ [.request m.json]) then
    ([.request m.json, .received m.trailer],
      env.proceeds (log ++ [.request m.json, .received m.trailer]))
  else ([.request m.json], false)

/-- The requests that were sent, each with the bytes meant for its handler, up to the one that ends
the session. -/
def requested (env : SessionEnv) (log : List Event) : List Message → List Event
  | [] => []
  | m :: msgs =>
      (served env log m).1 ++
        if (served env log m).2 then requested env (log ++ (served env log m).1) msgs else []

/-- The session dispatches the requests that were sent. -/
def Dispatches (env : SessionEnv) (msgs : List Message) (chunks : List (List UInt8)) : Prop :=
  session env [] chunks = some (requested env [] msgs)

/-- As long as the session goes on, the piece that arrives for a message holds its object alone, and
what arrives next is for its handler. After the last message nothing but white space arrives. -/
def SeparateAfter (env : SessionEnv) (log : List Event) :
    List Message → List (List UInt8) → Prop
  | [], chunks => Blank (chunks.headD []) ∧ (chunks.headD []).length < MaxBufSize
  | m :: msgs, chunks =>
      m.IsRead (chunks.headD []) ∧
        (m.request ≠ .REQ_DISCONNECT → env.proceeds (log ++ [.request m.json]) →
          m.Follows chunks.tail ∧
            ((served env log m).2 → SeparateAfter env (log ++ (served env log m).1) msgs
              (skip chunks.tail m.trailer.length)))

def Separate (env : SessionEnv) (msgs : List Message) (chunks : List (List UInt8)) : Prop :=
  SeparateAfter env [] msgs chunks

theorem not_blank_zero : isBlank 0 = false := by decide

theorem Blank.noNul {bytes : List UInt8} (h : Blank bytes) : 0 ∉ bytes := by
  intro hmem
  have hzero := h 0 hmem
  rw [not_blank_zero] at hzero
  cases hzero

/-- A text that begins with an object's brace still does with more behind it. -/
theorem begins_append {object : List UInt8} (h : object.head? = some 123) (s : List UInt8) :
    (object ++ s).head? = some 123 := by
  rw [List.head?_append, h]
  rfl

theorem dropWhile_object {object : List UInt8} (h : object.head? = some 123) :
    object.dropWhile isBlank = object := by
  obtain ⟨tail, rfl⟩ := List.head?_eq_some_iff.mp h
  have hbrace : isBlank 123 = false := by decide
  exact List.dropWhile_cons_of_neg (by rw [hbrace]; decide)

theorem cString_eq {data : List UInt8} (h : 0 ∉ data) (hlen : data.length < MaxBufSize) :
    cString data = some data := by
  unfold cString
  rw [if_pos (.inr hlen), List.takeWhile_eq_self_iff.mpr]
  intro b hb
  simpa using fun hzero : b = 0 => h (hzero ▸ hb)

theorem cString_some {data buffer : List UInt8} (h : 0 ∉ data) (hs : cString data = some buffer) :
    buffer = data ∧ data.length < MaxBufSize := by
  have hlen : data.length < MaxBufSize := by
    unfold cString at hs
    split_ifs at hs with hcond
    exact hcond.resolve_left h
  rw [cString_eq h hlen] at hs
  exact ⟨(Option.some.inj hs).symm, hlen⟩

theorem readExactly_eq_some {n : ℕ} {chunks rest : List (List UInt8)} {bytes : List UInt8}
    (hn : bytes.length = n) :
    readExactly n chunks = some (bytes, rest) ↔
      bytes <+: chunks.flatten ∧ rest = skip chunks n := by
  subst hn
  unfold readExactly
  rw [List.prefix_iff_eq_take]
  constructor
  · intro h
    split_ifs at h
    obtain ⟨htake, rfl⟩ := Prod.mk.inj (Option.some.inj h)
    exact ⟨htake.symm, rfl⟩
  · rintro ⟨htake, rfl⟩
    have hlen := congrArg List.length htake
    rw [List.length_take] at hlen
    rw [if_pos (by omega), ← htake]

/-- The handler reads the bytes meant for it exactly when they are what arrives next. -/
theorem handlerRead_iff {read_json : List UInt8 → Option PTree} {m : Message}
    (hm : m.WellFormed read_json) {chunks rest : List (List UInt8)} :
    handlerRead m.request m.json chunks = some (m.trailer, rest) ↔
      m.Follows chunks ∧ rest = skip chunks m.trailer.length := by
  unfold handlerRead Message.Follows
  cases hreq : m.request with
  | REQ_DISCONNECT => simp
  | REQ_STREAMING =>
    show some (readSome 64 chunks) = _ ↔ _
    have hlen := length_readSome 64 chunks
    unfold readSome at hlen ⊢
    rw [Option.some.injEq, Prod.mk.injEq]
    apply and_congr_right
    intro htake
    rw [htake] at hlen
    rw [hlen, eq_comm]
  | REQ_UPDATE =>
    have hannounced := hm.announced hreq
    have hlen : ((m.trailer.length : ℤ) % 2 ^ 64).toNat = m.trailer.length := by
      have hint := PTree.getInt_inInt hannounced
      unfold InInt at hint
      omega
    simp only [hannounced, hlen]
    exact readExactly_eq_some rfl

theorem Message.Follows.append_skip {m : Message} {chunks : List (List UInt8)}
    (h : m.Follows chunks) :
    m.trailer ++ (skip chunks m.trailer.length).flatten = chunks.flatten := by
  have hprefix : m.trailer <+: chunks.flatten := by
    unfold Message.Follows at h
    split at h
    · rw [← h]
      exact ⟨_, readSome_append 64 chunks⟩
    · exact h
    · exact h.elim
  rw [flatten_skip, List.prefix_iff_eq_append.mp hprefix]

/-- A piece that holds one object is dispatched as it. -/
theorem turn_of_isRead {env : SessionEnv} (hjson : JsonReader env.read_json) {m : Message}
    (hm : m.WellFormed env.read_json) (log : List Event) {chunk : List UInt8}
    {chunks : List (List UInt8)} (hread : m.IsRead chunk) (hne : ∀ c ∈ chunks, c ≠ []) :
    turn env log (chunk :: chunks) = some (handle env log m.request m.json chunks) := by
  obtain ⟨⟨b, s, hb, hs, rfl⟩, hlen⟩ := hread
  have hnul : 0 ∉ b ++ (m.object ++ s) := by
    simp only [List.mem_append, not_or]
    exact ⟨hb.noNul, hm.noNul, hs.noNul⟩
  have hfirst := readSome_cons (Nat.le_of_lt hlen) hne
  have hbuffer : cString (readSome MaxBufSize ((b ++ (m.object ++ s)) :: chunks)).1 =
      some (b ++ (m.object ++ s)) := by
    rw [hfirst]
    exact cString_eq hnul hlen
  have hparsed : env.read_json (b ++ (m.object ++ s)) = some m.json := by
    rw [hjson.blank b m.object s hb hs hm.begins, hm.parsed]
  rw [turn_request hbuffer hparsed hm.known, hfirst]

/-- A handler that finds the bytes meant for it serves the message. -/
theorem handle_of_follows {env : SessionEnv} {m : Message} (hm : m.WellFormed env.read_json)
    {log : List Event} {chunks : List (List UInt8)}
    (h : m.request ≠ .REQ_DISCONNECT → env.proceeds (log ++ [.request m.json]) →
      m.Follows chunks) :
    handle env log m.request m.json chunks = ((served env log m).1,
      if (served env log m).2 then some (skip chunks m.trailer.length) else none) := by
  unfold handle served
  by_cases hproceeds : env.proceeds (log ++ [.request m.json])
  · rw [if_pos hproceeds]
    by_cases hreq : m.request = .REQ_DISCONNECT
    · simp [handlerRead, hreq]
    · have hread := (handlerRead_iff hm).mpr ⟨h hreq hproceeds, rfl⟩
      rw [hread, if_pos ⟨hreq, hproceeds⟩]
  · rw [if_neg hproceeds, if_neg fun hserved => hproceeds hserved.2]
    rfl

theorem Message.WellFormed.object_ne_nil {read_json : List UInt8 → Option PTree} {m : Message}
    (hm : m.WellFormed read_json) : m.object ≠ [] := by
  intro hnil
  have hbegins := hm.begins
  rw [hnil] at hbegins
  cases hbegins

theorem not_isRead_nil {read_json : List UInt8 → Option PTree} {m : Message}
    (hm : m.WellFormed read_json) : ¬ m.IsRead [] := by
  rintro ⟨⟨b, s, -, -, hnil⟩, -⟩
  have hrest := (List.append_eq_nil_iff.mp hnil.symm).2
  exact hm.object_ne_nil (List.append_eq_nil_iff.mp hrest).1

/-- White space alone is no message, and ends the session. -/
theorem session_of_blank {env : SessionEnv} (hjson : JsonReader env.read_json) {log : List Event}
    {chunks : List (List UInt8)} (hne : ∀ c ∈ chunks, c ≠ [])
    (h : SeparateAfter env log [] chunks) : session env log chunks = some [] := by
  obtain ⟨hblank, hlen⟩ := h
  cases chunks with
  | nil => exact session_nil
  | cons chunk chunks =>
    rw [List.headD_cons] at hblank hlen
    have hfirst := readSome_cons (Nat.le_of_lt hlen) fun c hc => hne c (List.mem_cons_of_mem _ hc)
    apply session_last
    exact turn_no_json (by rw [hfirst]; exact cString_eq hblank.noNul hlen)
      (hjson.empty chunk hblank)

/-- Messages that are read one by one are dispatched, whatever bytes are meant for their handlers. -/
theorem session_of_separate {env : SessionEnv} (hjson : JsonReader env.read_json)
    {msgs : List Message} (hmsgs : ∀ m ∈ msgs, m.WellFormed env.read_json) {log : List Event}
    {chunks : List (List UInt8)} (hne : ∀ c ∈ chunks, c ≠ [])
    (h : SeparateAfter env log msgs chunks) :
    session env log chunks = some (requested env log msgs) := by
  induction msgs generalizing log chunks with
  | nil => exact session_of_blank hjson hne h
  | cons m msgs ih =>
    obtain ⟨hread, hrest⟩ := h
    have hm := hmsgs m List.mem_cons_self
    cases chunks with
    | nil => exact absurd hread (not_isRead_nil hm)
    | cons chunk chunks =>
      rw [List.headD_cons] at hread
      rw [List.tail_cons] at hrest
      have hne' : ∀ c ∈ chunks, c ≠ [] := fun c hc => hne c (List.mem_cons_of_mem _ hc)
      have hturn := turn_of_isRead hjson hm log hread hne'
      rw [handle_of_follows hm fun hreq hproceeds => (hrest hreq hproceeds).1] at hturn
      rw [requested]
      cases hserved : (served env log m).2 with
      | false =>
        rw [hserved] at hturn
        rw [session_last hturn]
        simp
      | true =>
        rw [hserved] at hturn
        have hgoes : m.request ≠ .REQ_DISCONNECT ∧ env.proceeds (log ++ [.request m.json]) := by
          by_contra hends
          rw [served, if_neg hends] at hserved
          cases hserved
        have hafter := (hrest hgoes.1 hgoes.2).2 hserved
        have hsession := ih (fun m' hm' => hmsgs m' (List.mem_cons_of_mem m hm'))
          (skip_nonempty hne' _) hafter
        rw [session_next hturn, hsession]
        rfl

/-- A text of the stream that can be read, where an object is what comes next, is that object and
white space. -/
theorem object_read {read_json : List UInt8 → Option PTree} (hjson : JsonReader read_json)
    {m : Message} (hm : m.WellFormed read_json) {c b rest w : List UInt8} (hb : Blank b)
    (hc : (read_json c).isSome) (h : c ++ rest = b ++ (m.object ++ w)) :
    ∃ s, Blank s ∧ c = b ++ (m.object ++ s) ∧ s ++ rest = w := by
  have hnotBlank : ¬ Blank c := by
    intro hblank
    rw [hjson.empty c hblank] at hc
    cases hc
  rcases List.append_eq_append_iff.mp h with ⟨a, hcut, -⟩ | ⟨a, rfl, hrest⟩
  · -- the text ends within the white space
    exact absurd (fun x hx => hb x (hcut ▸ List.mem_append_left a hx)) hnotBlank
  rcases List.append_eq_append_iff.mp hrest with ⟨s, rfl, rfl⟩ | ⟨s, hcut, rfl⟩
  · -- it holds the object
    have hbegins := begins_append hm.begins s
    have hlong : (read_json (m.object ++ s)).isSome := by
      rw [← hjson.blank b (m.object ++ s) [] hb (by simp [Blank]) hbegins, List.append_nil]
      exact hc
    exact ⟨s, hjson.ends m.object s hm.begins (by rw [hm.parsed]; rfl) hlong, rfl, rfl⟩
  · -- it ends within the object
    have ha : a ≠ [] := by
      rintro rfl
      exact hnotBlank (by simpa using hb)
    have hbegins : a.head? = some 123 := by
      rw [← hm.begins, hcut, List.head?_append_of_ne_nil _ ha]
    have hshort : (read_json a).isSome := by
      rw [← hjson.blank b a [] hb (by simp [Blank]) hbegins, List.append_nil]
      exact hc
    have hblank : Blank s := by
      apply hjson.ends a s hbegins hshort
      rw [← hcut, hm.parsed]
      rfl
    have hs : s = [] := by
      by_contra hne
      have hlast := hm.ends
      rw [hcut, List.getLast?_append_of_ne_nil _ hne] at hlast
      have hbrace := hblank 125 (List.mem_of_getLast? hlast)
      revert hbrace
      decide
    subst hs
    rw [List.append_nil] at hcut
    exact ⟨[], by simp [Blank], by rw [hcut, List.append_nil], rfl⟩

theorem buffer_eq {chunk buffer : List UInt8} {chunks : List (List UInt8)} (hnul : 0 ∉ chunk)
    (h : cString (readSome MaxBufSize (chunk :: chunks)).1 = some buffer) :
    buffer = chunk ∧ chunk.length < MaxBufSize := by
  have htake : (readSome MaxBufSize (chunk :: chunks)).1 = chunk.take MaxBufSize := rfl
  rw [htake] at h
  obtain ⟨hbuffer, hlen⟩ := cString_some (fun hmem => hnul (List.mem_of_mem_take hmem)) h
  have hshort : chunk.length < MaxBufSize := by
    rw [List.length_take] at hlen
    omega
  rw [List.take_of_length_le (Nat.le_of_lt hshort)] at hbuffer
  exact ⟨hbuffer, hshort⟩

/-- Where a message comes next, a turn dispatches nothing, or it has read the message. -/
theorem turn_reads {env : SessionEnv} (hjson : JsonReader env.read_json) {m : Message}
    (hm : m.WellFormed env.read_json) {log events : List Event} {chunk w : List UInt8}
    {chunks : List (List UInt8)} {next : Option (List (List UInt8))} (hne : ∀ c ∈ chunks, c ≠ [])
    (hnul : 0 ∉ chunk) (hpos : (chunk ++ chunks.flatten).dropWhile isBlank = m.object ++ w)
    (h : turn env log (chunk :: chunks) = some (events, next)) :
    (events = [] ∧ next = none) ∨ (m.IsRead chunk ∧ (∃ s, Blank s ∧ s ++ chunks.flatten = w) ∧
      handle env log m.request m.json chunks = (events, next)) := by
  cases hbuffer : cString (readSome MaxBufSize (chunk :: chunks)).1 with
  | none =>
    rw [turn_undefined hbuffer] at h
    cases h
  | some buffer =>
    obtain ⟨rfl, hlen⟩ := buffer_eq hnul hbuffer
    cases hparsed : env.read_json buffer with
    | none =>
      rw [turn_no_json hbuffer hparsed] at h
      obtain ⟨rfl, rfl⟩ := Prod.mk.inj (Option.some.inj h)
      exact .inl ⟨rfl, rfl⟩
    | some json =>
      have hsplit : buffer ++ chunks.flatten =
          (buffer ++ chunks.flatten).takeWhile isBlank ++ (m.object ++ w) := by
        rw [← hpos, List.takeWhile_append_dropWhile]
      have hblank : Blank ((buffer ++ chunks.flatten).takeWhile isBlank) :=
        fun _ hx => List.mem_takeWhile_imp hx
      obtain ⟨s, hs, hchunk, hw⟩ := object_read hjson hm hblank (by rw [hparsed]; rfl) hsplit
      have hread : m.IsRead buffer := ⟨⟨_, s, hblank, hs, hchunk⟩, hlen⟩
      rw [turn_of_isRead hjson hm log hread hne] at h
      exact .inr ⟨hread, ⟨s, hs, hw⟩, Option.some.inj h⟩

theorem stream_noNul {read_json : List UInt8 → Option PTree} {msgs : List Message}
    (hmsgs : ∀ m ∈ msgs, m.WellFormed read_json) (htrailer : ∀ m ∈ msgs, 0 ∉ m.trailer) :
    0 ∉ stream msgs := by
  intro hmem
  obtain ⟨m, hm, hzero⟩ := List.mem_flatMap.mp hmem
  have hwf := hmsgs m hm
  simp only [Message.text, List.mem_append] at hzero
  rcases hzero with (hzero | hzero | hzero) | hzero
  · exact hwf.lead.noNul hzero
  · exact hwf.noNul hzero
  · exact hwf.trail.noNul hzero
  · exact htrailer m hm hzero

theorem position_noNul {read_json : List UInt8 → Option PTree} {msgs : List Message}
    (hmsgs : ∀ m ∈ msgs, m.WellFormed read_json) (htrailer : ∀ m ∈ msgs, 0 ∉ m.trailer)
    {bytes : List UInt8} (hpos : bytes.dropWhile isBlank = (stream msgs).dropWhile isBlank) :
    0 ∉ bytes := by
  rw [← List.takeWhile_append_dropWhile (l := bytes), hpos, List.mem_append, not_or]
  constructor
  · exact Blank.noNul fun _ hx => List.mem_takeWhile_imp hx
  · exact fun hmem => stream_noNul hmsgs htrailer ((List.dropWhile_sublist _).subset hmem)

/-- Up to white space the stream begins with the object of its first message. -/
theorem stream_cons {read_json : List UInt8 → Option PTree} {m : Message}
    (hm : m.WellFormed read_json) (msgs : List Message) :
    (stream (m :: msgs)).dropWhile isBlank =
      m.object ++ (m.trail ++ (m.trailer ++ stream msgs)) := by
  have hbytes : stream (m :: msgs) =
      m.lead ++ (m.object ++ (m.trail ++ (m.trailer ++ stream msgs))) := by
    simp [stream, Message.text, List.append_assoc]
  rw [hbytes, List.dropWhile_append_of_pos hm.lead, dropWhile_object (begins_append hm.begins _)]

theorem requested_ne_nil (env : SessionEnv) (log : List Event) (m : Message) (msgs : List Message) :
    requested env log (m :: msgs) ≠ [] := by
  rw [requested, served]
  split_ifs <;> simp

theorem served_goes {env : SessionEnv} {log : List Event} {m : Message}
    (h : m.request ≠ .REQ_DISCONNECT ∧ env.proceeds (log ++ [.request m.json])) :
    served env log m = ([.request m.json, .received m.trailer],
      env.proceeds (log ++ [Event.request m.json, .received m.trailer])) := if_pos h

/-- What the handler has read in a session with the right events. -/
theorem handler_reads {env : SessionEnv} {m : Message} (hm : m.WellFormed env.read_json)
    {msgs : List Message} {log events tail : List Event} {chunks : List (List UInt8)}
    {next : Option (List (List UInt8))}
    (hgoes : m.request ≠ .REQ_DISCONNECT ∧ env.proceeds (log ++ [.request m.json]))
    (hhandle : handle env log m.request m.json chunks = (events, next))
    (hnone : next = none → tail = [])
    (hres : requested env log (m :: msgs) = events ++ tail) :
    m.Follows chunks ∧ events = [.request m.json, .received m.trailer] ∧
      (env.proceeds (log ++ [.request m.json, .received m.trailer]) →
        next = some (skip chunks m.trailer.length)) := by
  rw [requested, served_goes hgoes] at hres
  rw [handle, if_pos hgoes.2] at hhandle
  cases hread : handlerRead m.request m.json chunks with
  | none =>
    rw [hread] at hhandle
    obtain ⟨rfl, rfl⟩ := Prod.mk.inj hhandle
    rw [hnone rfl] at hres
    simp at hres
  | some taken =>
    obtain ⟨bytes, rest⟩ := taken
    rw [hread] at hhandle
    obtain ⟨rfl, rfl⟩ := Prod.mk.inj hhandle
    have hbytes : m.trailer = bytes := by
      simp only [List.cons_append, List.cons.injEq, Event.received.injEq] at hres
      exact hres.2.1
    subst hbytes
    obtain ⟨hfollows, rfl⟩ := (handlerRead_iff hm).mp hread
    exact ⟨hfollows, rfl, fun hproceeds => if_pos hproceeds⟩

/-- Where only white space comes, a session that is defined has read it whole. -/
theorem separate_of_blank {env : SessionEnv} {log events : List Event}
    {chunks : List (List UInt8)} (hpos : chunks.flatten.dropWhile isBlank = [])
    (h : session env log chunks = some events) : SeparateAfter env log [] chunks := by
  cases chunks with
  | nil => exact ⟨by simp [Blank], by decide⟩
  | cons chunk chunks =>
    have hflat : Blank (chunk ++ chunks.flatten) := List.dropWhile_eq_nil_iff.mp hpos
    have hblank : Blank chunk := fun x hx => hflat x (List.mem_append_left _ hx)
    refine ⟨hblank, ?_⟩
    cases hbuffer : cString (readSome MaxBufSize (chunk :: chunks)).1 with
    | none =>
      rw [session_undefined (turn_undefined hbuffer)] at h
      cases h
    | some buffer => exact (buffer_eq hblank.noNul hbuffer).2

/-- Without a zero byte among the bytes meant for handlers, a session that dispatches what was sent
has read the messages one by one. The next message is always the first thing to come, up to white
space. -/
theorem separate_of_session {env : SessionEnv} (hjson : JsonReader env.read_json)
    {msgs : List Message} (hmsgs : ∀ m ∈ msgs, m.WellFormed env.read_json)
    (htrailer : ∀ m ∈ msgs, 0 ∉ m.trailer) {log : List Event} {chunks : List (List UInt8)}
    (hne : ∀ c ∈ chunks, c ≠ [])
    (hpos : chunks.flatten.dropWhile isBlank = (stream msgs).dropWhile isBlank)
    (h : session env log chunks = some (requested env log msgs)) :
    SeparateAfter env log msgs chunks := by
  induction msgs generalizing log chunks with
  | nil => exact separate_of_blank hpos h
  | cons m msgs ih =>
    have hm := hmsgs m List.mem_cons_self
    have hnul := position_noNul hmsgs htrailer hpos
    rw [stream_cons hm] at hpos
    cases chunks with
    | nil => exact absurd (List.append_eq_nil_iff.mp hpos.symm).1 hm.object_ne_nil
    | cons chunk chunks =>
      have hne' : ∀ c ∈ chunks, c ≠ [] := fun c hc => hne c (List.mem_cons_of_mem _ hc)
      have hchunk : 0 ∉ chunk := fun hmem => hnul (List.mem_append_left _ hmem)
      cases hturn : turn env log (chunk :: chunks) with
      | none =>
        rw [session_undefined hturn] at h
        cases h
      | some result =>
        obtain ⟨events, next⟩ := result
        obtain ⟨tail, hres, hnext, hnone⟩ := session_cons hturn h
        rcases turn_reads hjson hm hne' hchunk hpos hturn with
          ⟨rfl, hend⟩ | ⟨hread, ⟨s, hs, hrest⟩, hhandle⟩
        · rw [hnone hend] at hres
          exact absurd hres (requested_ne_nil env log m msgs)
        · refine ⟨hread, fun hreq hproceeds => ?_⟩
          obtain ⟨hfollows, rfl, hgoesOn⟩ :=
            handler_reads hm ⟨hreq, hproceeds⟩ hhandle hnone hres
          refine ⟨hfollows, fun hserved => ?_⟩
          rw [requested, if_pos hserved] at hres
          rw [served_goes ⟨hreq, hproceeds⟩] at hserved hres ⊢
          obtain rfl := List.append_cancel_left hres
          apply ih (fun m' hm' => hmsgs m' (List.mem_cons_of_mem m hm'))
            (fun m' hm' => htrailer m' (List.mem_cons_of_mem m hm')) (skip_nonempty hne' _)
          · rw [← hfollows.append_skip] at hrest
            exact dropWhile_shift hs hm.trail hrest
          · exact hnext _ (hgoesOn hserved)

/-- Requests that are read one by one are dispatched as they were sent, with what their handlers
read. Where no zero byte is meant for a handler, no other way of cutting the stream has that
effect. -/
theorem dispatches_iff_separate {env : SessionEnv} (hjson : JsonReader env.read_json)
    {msgs : List Message} (hmsgs : ∀ m ∈ msgs, m.WellFormed env.read_json)
    {chunks : List (List UInt8)} (hcut : IsCut chunks (stream msgs)) :
    (Separate env msgs chunks → Dispatches env msgs chunks) ∧
      ((∀ m ∈ msgs, 0 ∉ m.trailer) → Dispatches env msgs chunks → Separate env msgs chunks) := by
  constructor
  · intro h
    exact session_of_separate hjson hmsgs hcut.nonempty h
  · intro htrailer h
    exact separate_of_session hjson hmsgs htrailer hcut.nonempty (by rw [hcut.flatten]) h

section Example

def trim (bytes : List UInt8) : List UInt8 := (bytes.dropWhile isBlank).rdropWhile isBlank

/-- A parser of the given objects. -/
def objectReader (objects : List (List UInt8 × PTree)) (bytes : List UInt8) : Option PTree :=
  (objects.find? fun e => e.1 = trim bytes).map Prod.snd

theorem objectReader_isSome {objects : List (List UInt8 × PTree)} {bytes : List UInt8} :
    (objectReader objects bytes).isSome ↔ trim bytes ∈ objects.map Prod.fst := by
  rw [objectReader, Option.isSome_map, List.find?_isSome, List.mem_map]
  simp

theorem trim_blank {b : List UInt8} (hb : Blank b) : trim b = [] := by
  rw [trim, List.dropWhile_eq_nil_iff.mpr hb]
  rfl

theorem trim_object {b object s : List UInt8} (hb : Blank b) (hs : Blank s)
    (h : object.head? = some 123) : trim (b ++ (object ++ s)) = trim object := by
  unfold trim
  rw [List.dropWhile_append_of_pos hb, dropWhile_object (begins_append h s), dropWhile_object h]
  unfold List.rdropWhile
  rw [List.reverse_append, List.dropWhile_append_of_pos fun x hx => hs x (List.mem_reverse.mp hx)]

/-- A text that begins with an object's brace is what is left of it and white space. -/
theorem trim_append {object : List UInt8} (h : object.head? = some 123) :
    ∃ s, Blank s ∧ object = trim object ++ s := by
  refine ⟨object.rtakeWhile isBlank, fun x hx => List.mem_rtakeWhile_imp hx, ?_⟩
  unfold trim
  rw [dropWhile_object h]
  exact (List.rdropWhile_append_rtakeWhile).symm

/-- Such a parser behaves as it should if no object is the beginning of another. -/
theorem objectReader_reads {objects : List (List UInt8 × PTree)}
    (hnil : [] ∉ objects.map Prod.fst)
    (hfree : ∀ k ∈ objects.map Prod.fst, ∀ k' ∈ objects.map Prod.fst, k <+: k' → k = k') :
    JsonReader (objectReader objects) where
  blank b object s hb hs h := by rw [objectReader, trim_object hb hs h, objectReader]
  empty b hb := by
    rw [← Option.not_isSome_iff_eq_none, objectReader_isSome, trim_blank hb]
    exact hnil
  ends object s h hshort hlong := by
    have hbegins := begins_append h s
    obtain ⟨s₁, -, hobject⟩ := trim_append h
    obtain ⟨s₂, hs₂, hwhole⟩ := trim_append hbegins
    have hk := objectReader_isSome.mp hshort
    have hk' := objectReader_isSome.mp hlong
    have hsame : trim object = trim (object ++ s) := by
      have hstart : trim object <+: object ++ s :=
        ⟨s₁ ++ s, by rw [← List.append_assoc, ← hobject]⟩
      have hstart' : trim (object ++ s) <+: object ++ s := ⟨s₂, hwhole.symm⟩
      rcases List.prefix_or_prefix_of_prefix hstart hstart' with hle | hle
      · exact hfree _ hk _ hk' hle
      · exact (hfree _ hk' _ hk hle).symm
    have hrest : trim object ++ (s₁ ++ s) = trim object ++ s₂ := by
      rw [← List.append_assoc, ← hobject, hsame]
      exact hwhole
    intro x hx
    exact hs₂ x (List.append_cancel_left hrest ▸ List.mem_append_right s₁ hx)

/-- An ASCII text. -/
def ascii (text : String) : List UInt8 := text.toList.map fun c => UInt8.ofNat c.toNat

def updateText : List UInt8 := ascii "\x7b\"request\":\"update\",\"length\":2\x7d"

def updateTree : PTree := PTree.mk "" [("request", .leaf "update"), ("length", .leaf "2")]

def disconnectText : List UInt8 := ascii "\x7b\"request\":\"disconnect\"\x7d"

def disconnectTree : PTree := PTree.mk "" [("request", .leaf "disconnect")]

def exampleEnv : SessionEnv where
  read_json := objectReader [(updateText, updateTree), (disconnectText, disconnectTree)]
  proceeds := fun _ => true

/-- An update with the payload of two bytes that is an empty object. -/
def updateMessage : Message := ⟨[], updateText, [], updateTree, .REQ_UPDATE, [123, 125]⟩

def disconnectMessage : Message := ⟨[], disconnectText, [10], disconnectTree, .REQ_DISCONNECT, []⟩

theorem exampleEnv_reads : JsonReader exampleEnv.read_json :=
  objectReader_reads (by decide) (by decide)

theorem example_wellFormed :
    ∀ m ∈ [updateMessage, disconnectMessage], m.WellFormed exampleEnv.read_json := by
  intro m hm
  rcases List.mem_pair.mp hm with rfl | rfl
  · exact ⟨by decide, by decide, by decide, by decide, by decide, by decide, rfl, rfl,
      fun _ => rfl, by decide⟩
  · exact ⟨by decide, by decide, by decide, by decide, by decide, by decide, rfl, rfl,
      by decide, by decide⟩

/-- The payload arrives in two pieces, each request in one. -/
theorem dispatches_split_payload :
    Dispatches exampleEnv [updateMessage, disconnectMessage]
      [updateText, [123], [125], disconnectText ++ [10]] := by
  have hcut : IsCut [updateText, [123], [125], disconnectText ++ [10]]
      (stream [updateMessage, disconnectMessage]) := ⟨by decide, by decide⟩
  apply (dispatches_iff_separate exampleEnv_reads example_wellFormed hcut).1
  refine ⟨⟨⟨[], [], by decide, by decide, by decide⟩, by decide⟩, fun _ _ => ⟨?_, fun _ => ?_⟩⟩
  · exact ⟨disconnectText ++ [10], rfl⟩
  · exact ⟨⟨⟨[], [10], by decide, by decide, by decide⟩, by decide⟩, fun hreq => absurd rfl hreq⟩

theorem session_no_json {env : SessionEnv} {log : List Event} {chunk : List UInt8}
    {chunks : List (List UInt8)} (hne : ∀ c ∈ chunks, c ≠ []) (hnul : 0 ∉ chunk)
    (hlen : chunk.length < MaxBufSize) (h : env.read_json chunk = none) :
    session env log (chunk :: chunks) = some [] := by
  apply session_last
  apply turn_no_json _ h
  rw [readSome_cons (Nat.le_of_lt hlen) hne]
  exact cString_eq hnul hlen

/-- One update request, whose text arrives in two pieces, or in one piece with its payload: the
session closes without dispatching it. -/
theorem cut_text_dispatches_nothing :
    IsCut [updateText.take 9, updateText.drop 9, [123, 125]] (stream [updateMessage]) ∧
      IsCut [updateText ++ [123, 125]] (stream [updateMessage]) ∧
      session exampleEnv [] [updateText.take 9, updateText.drop 9, [123, 125]] = some [] ∧
      session exampleEnv [] [updateText ++ [123, 125]] = some [] ∧
      ¬ Dispatches exampleEnv [updateMessage] [updateText.take 9, updateText.drop 9, [123, 125]] ∧
      ¬ Dispatches exampleEnv [updateMessage] [updateText ++ [123, 125]] := by
  have hsplit : session exampleEnv [] [updateText.take 9, updateText.drop 9, [123, 125]] =
      some [] := session_no_json (by decide) (by decide) (by decide) rfl
  have hmerged : session exampleEnv [] [updateText ++ [123, 125]] = some [] :=
    session_no_json (by decide) (by decide) (by decide) rfl
  have hnone : ∀ chunks, session exampleEnv [] chunks = some [] →
      ¬ Dispatches exampleEnv [updateMessage] chunks := by
    intro chunks hempty h
    rw [Dispatches, hempty] at h
    exact requested_ne_nil _ _ _ _ (Option.some.inj h).symm
  exact ⟨⟨by decide, by decide⟩, ⟨by decide, by decide⟩, hsplit, hmerged, hnone _ hsplit,
    hnone _ hmerged⟩

end Example

end VisionSensor.Session
