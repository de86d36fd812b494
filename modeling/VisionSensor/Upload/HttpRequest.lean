import VisionSensor.Lib.MarkedText
import VisionSensor.Upload.ServerNetworkHandler

/-! The text of an HTTP request: what `makeHTTPMessage` and `sendHTTP` write, and what a server that
cuts the text into a start line, header fields and contents reads from it. -/
namespace VisionSensor
open MarkedText

/-- The end of a line. -/
def crlf : List Char := ['\r', '\n']

/-- A request as its receiver sees it. -/
structure HttpRequest where
  method : List Char
  target : List Char
  version : List Char
  fields : List (List Char × List Char)
  contents : List Char
  deriving DecidableEq, Repr

namespace HttpRequest

/-- The start line: three parts with a space between them. -/
def readStart (line : List Char) : Option (List Char × List Char × List Char) :=
  (cut [' '] line).bind fun (method, line) =>
    (cut [' '] line).map fun (target, version) => (method, target, version)

def contentLength (fields : List (List Char × List Char)) : Option ℕ :=
  (fields.lookup "Content-Length".toList).bind fun value =>
    (readInt value).map fun (n, _) => n.toNat

/-- Reads one request; as many symbols as the length announces belong to its contents. -/
def read (text : List Char) : Option (HttpRequest × List Char) := do
  let (lines, rest) ← readBlock crlf (text.length + 1) text
  let start ← lines.head?
  let (method, target, version) ← readStart start
  let fields ← lines.tail.mapM (cut [':', ' '])
  let n ← contentLength fields
  if rest.length < n then none
  else some (⟨method, target, version, fields, rest.take n⟩, rest.drop n)

def startLine (method target : List Char) : List Char :=
  method ++ [' '] ++ (target ++ [' '] ++ "HTTP/1.1".toList)

def fieldLine (field : List Char × List Char) : List Char := field.1 ++ [':', ' '] ++ field.2

variable {text line method target version rest : List Char} {lines : List (List Char)}
  {fields : List (List Char × List Char)}

theorem startLine_unmarked_iff :
    ¬ crlf <:+: startLine method target ↔ ¬ crlf <:+: method ∧ ¬ crlf <:+: target := by
  have hspace : ' ' ∉ crlf := by decide
  have hversion : ¬ crlf <:+: "HTTP/1.1".toList := by decide
  rw [startLine, List.append_assoc, List.singleton_append, infix_separated hspace,
    List.append_assoc, List.singleton_append, infix_separated hspace]
  simp only [hversion, or_false, not_or]

theorem fieldLine_unmarked_iff {f : List Char × List Char} :
    ¬ crlf <:+: fieldLine f ↔ ¬ crlf <:+: f.1 ++ [':'] ∧ ¬ crlf <:+: f.2 := by
  have hline : fieldLine f = f.1 ++ [':'] ++ ' ' :: f.2 := by simp [fieldLine]
  rw [hline, infix_separated (by decide), not_or]

theorem readStart_eq_some (h : readStart line = some (method, target, version)) :
    ' ' ∉ method ∧ ' ' ∉ target ∧ method ++ [' '] ++ (target ++ [' '] ++ version) = line := by
  obtain ⟨⟨m, l⟩, hm, h⟩ := Option.bind_eq_some_iff.mp h
  obtain ⟨⟨t, v⟩, ht, heq⟩ := Option.map_eq_some_iff.mp h
  simp only [Prod.mk.injEq] at heq
  obtain ⟨rfl, rfl, rfl⟩ := heq
  have hspace : [' '] ≠ [] := List.cons_ne_nil _ _
  refine ⟨fun hmem => ?_, fun hmem => ?_, ?_⟩
  · exact cut_fst_unmarked hspace hm ((List.singleton_infix_iff _ _).mpr hmem)
  · exact cut_fst_unmarked hspace ht ((List.singleton_infix_iff _ _).mpr hmem)
  · rw [cut_append_eq ht, cut_append_eq hm]

theorem readStart_startLine (hmethod : ' ' ∉ method) (htarget : ' ' ∉ target) :
    readStart (startLine method target) = some (method, target, "HTTP/1.1".toList) := by
  have htail := cut_single htarget "HTTP/1.1".toList
  simp only [readStart, startLine, cut_single hmethod, Option.bind_some, htail, Option.map_some]

/-- The fields of a header are parts of its lines. -/
theorem mapM_cut_eq_some (h : lines.mapM (cut [':', ' ']) = some fields) :
    ∀ f ∈ fields, fieldLine f ∈ lines := by
  induction lines generalizing fields with
  | nil =>
    obtain rfl := Option.some.inj h
    simp
  | cons line lines ih =>
    rw [List.mapM_cons] at h
    obtain ⟨f, hf, h⟩ := Option.bind_eq_some_iff.mp h
    obtain ⟨fs, hfs, h⟩ := Option.bind_eq_some_iff.mp h
    obtain rfl := Option.some.inj h
    rintro g (_ | ⟨_, hg⟩)
    · rw [fieldLine, cut_append_eq hf]
      exact List.mem_cons_self
    · exact List.mem_cons_of_mem _ (ih hfs g hg)

theorem mapM_cut_fieldLine (h : ∀ f ∈ fields, ¬ [':', ' '] <:+: f.1) :
    (fields.map fieldLine).mapM (cut [':', ' ']) = some fields := by
  induction fields with
  | nil => rfl
  | cons f fields ih =>
    obtain ⟨hf, hfields⟩ := List.forall_mem_cons.mp h
    rw [List.map_cons, List.mapM_cons, fieldLine, cut_pair (by decide) hf, ih hfields]
    rfl

/-- What is read has no line end inside a line. -/
theorem unmarked_of_read {r : HttpRequest} (h : read text = some (r, rest)) :
    (' ' ∉ r.method ∧ ' ' ∉ r.target) ∧ ¬ crlf <:+: r.method ∧ ¬ crlf <:+: r.target ∧
      ∀ f ∈ r.fields, ¬ crlf <:+: f.2 := by
  obtain ⟨⟨lines, after⟩, hlines, h⟩ := Option.bind_eq_some_iff.mp h
  obtain ⟨start, hstart, h⟩ := Option.bind_eq_some_iff.mp h
  obtain ⟨⟨method, target, version⟩, hparts, h⟩ := Option.bind_eq_some_iff.mp h
  obtain ⟨fields, hfields, h⟩ := Option.bind_eq_some_iff.mp h
  obtain ⟨n, -, h⟩ := Option.bind_eq_some_iff.mp h
  split_ifs at h
  obtain ⟨rfl, -⟩ := Prod.mk.inj (Option.some.inj h)
  have hunmarked := readBlock_unmarked (List.cons_ne_nil _ _) hlines
  obtain ⟨hmethod, htarget, hline⟩ := readStart_eq_some hparts
  have hfirst := hunmarked start (List.mem_of_head? hstart)
  rw [← hline] at hfirst
  refine ⟨⟨hmethod, htarget⟩, fun hin => hfirst ?_, fun hin => hfirst ?_, fun f hf hin => ?_⟩
  · exact hin.trans ⟨[], [' '] ++ (target ++ [' '] ++ version), by simp⟩
  · exact hin.trans ⟨method ++ [' '], [' '] ++ version, by simp⟩
  · refine hunmarked _ (List.mem_of_mem_tail (mapM_cut_eq_some hfields f hf)) (hin.trans ?_)
    exact (List.suffix_append (f.1 ++ [':', ' ']) f.2).isInfix

end HttpRequest

namespace ServerNetworkHandler
open HttpRequest

/-- `makeHTTPMessage`, with the sensor ID of `mSensorInfo`; `sendHTTP` forms the same text. A
`String` is a sequence of bytes. -/
def makeHTTPMessage (h : ServerNetworkHandler) (SensorID method targetAddr contents : String) :
    String :=
  method ++ " " ++ targetAddr ++ " HTTP/1.1\r\n" ++
  "Host: " ++ h.mServerAddr ++ "\r\n" ++
  "User-Agent: C/1.0\r\n" ++
  "Content-Type: application/json; charset=utf-8 \r\n" ++
  "Accept: */*\r\n" ++
  "Content-Length: " ++ String.ofList (to_string contents.length) ++ "\r\n" ++
  "sensorid: " ++ SensorID ++ "\r\n" ++
  "Connection: close\r\n\r\n" ++
  contents

/-- The request the message stands for. -/
def request (h : ServerNetworkHandler) (SensorID method targetAddr contents : String) :
    HttpRequest where
  method := method.toList
  target := targetAddr.toList
  version := "HTTP/1.1".toList
  fields := [("Host".toList, h.mServerAddr.toList), ("User-Agent".toList, "C/1.0".toList),
    ("Content-Type".toList, "application/json; charset=utf-8 ".toList),
    ("Accept".toList, "*/*".toList), ("Content-Length".toList, to_string contents.length),
    ("sensorid".toList, SensorID.toList), ("Connection".toList, "close".toList)]
  contents := contents.toList

/-- No part that the message takes from outside ends a line or splits the start line. -/
structure Framed (h : ServerNetworkHandler) (SensorID method targetAddr : String) : Prop where
  method_word : ' ' ∉ method.toList
  target_word : ' ' ∉ targetAddr.toList
  method : ¬ crlf <:+: method.toList
  target : ¬ crlf <:+: targetAddr.toList
  address : ¬ crlf <:+: h.mServerAddr.toList
  sensor : ¬ crlf <:+: SensorID.toList

variable {h : ServerNetworkHandler} {SensorID method targetAddr : String}

/-- The lines of the message. -/
def requestLines (h : ServerNetworkHandler) (SensorID method targetAddr contents : String) :
    List (List Char) :=
  startLine method.toList targetAddr.toList ::
    (h.request SensorID method targetAddr contents).fields.map fieldLine

/-- The message is a block of lines with the contents behind it. -/
theorem makeHTTPMessage_eq_writeBlock (h : ServerNetworkHandler)
    (SensorID method targetAddr contents : String) :
    (h.makeHTTPMessage SensorID method targetAddr contents).toList =
      writeBlock crlf (h.requestLines SensorID method targetAddr contents) ++ contents.toList := by
  have hversion : " HTTP/1.1\r\n".toList = [' '] ++ ("HTTP/1.1".toList ++ crlf) := rfl
  have hhost : "Host: ".toList = "Host".toList ++ [':', ' '] := rfl
  have hagent : "User-Agent: C/1.0\r\n".toList =
    "User-Agent".toList ++ ([':', ' '] ++ ("C/1.0".toList ++ crlf)) := rfl
  have htype : "Content-Type: application/json; charset=utf-8 \r\n".toList =
    "Content-Type".toList ++
      ([':', ' '] ++ ("application/json; charset=utf-8 ".toList ++ crlf)) := rfl
  have haccept : "Accept: */*\r\n".toList =
    "Accept".toList ++ ([':', ' '] ++ ("*/*".toList ++ crlf)) := rfl
  have hlength : "Content-Length: ".toList = "Content-Length".toList ++ [':', ' '] := rfl
  have hsensor : "sensorid: ".toList = "sensorid".toList ++ [':', ' '] := rfl
  have hclose : "Connection: close\r\n\r\n".toList =
    "Connection".toList ++ ([':', ' '] ++ ("close".toList ++ (crlf ++ crlf))) := rfl
  have hspace : " ".toList = [' '] := rfl
  have hend : "\r\n".toList = crlf := rfl
  unfold makeHTTPMessage requestLines request writeBlock startLine
  simp only [fieldLine, String.toList_append, String.toList_ofList, List.map_cons, List.map_nil,
    List.flatMap_cons, List.flatMap_nil, List.append_assoc, List.nil_append, hversion, hhost,
    hagent, htype, haccept, hlength, hsensor, hclose, hspace, hend]

theorem to_string_unmarked (n : ℤ) : ¬ crlf <:+: to_string n := by
  intro h
  have hmem : '\r' ∈ to_string n := h.mem List.mem_cons_self
  rcases isDigit_of_mem_to_string hmem with hdigit | hminus
  · revert hdigit
    decide
  · revert hminus
    decide

/-- No field name and no field value ends a line. -/
theorem request_fields_unmarked (hf : Framed h SensorID method targetAddr) (contents : String) :
    ∀ f ∈ (h.request SensorID method targetAddr contents).fields,
      ¬ crlf <:+: f.1 ++ [':'] ∧ ¬ crlf <:+: f.2 := by
  simp only [request, List.forall_mem_cons]
  exact ⟨⟨by decide, hf.address⟩, ⟨by decide, by decide⟩, ⟨by decide, by decide⟩,
    ⟨by decide, by decide⟩, ⟨by decide, to_string_unmarked _⟩, ⟨by decide, hf.sensor⟩,
    ⟨by decide, by decide⟩, by simp⟩

theorem requestLines_spec (hf : Framed h SensorID method targetAddr) (contents : String) :
    ∀ line ∈ h.requestLines SensorID method targetAddr contents,
      line ≠ [] ∧ ¬ crlf <:+: line := by
  intro line hline
  rcases List.mem_cons.mp hline with rfl | hline
  · exact ⟨by simp [startLine], startLine_unmarked_iff.mpr ⟨hf.method, hf.target⟩⟩
  obtain ⟨f, hfield, rfl⟩ := List.mem_map.mp hline
  exact ⟨by simp [fieldLine],
    fieldLine_unmarked_iff.mpr (request_fields_unmarked hf contents f hfield)⟩

theorem contentLength_request (h : ServerNetworkHandler) (SensorID method targetAddr : String)
    (contents : String) :
    contentLength (h.request SensorID method targetAddr contents).fields =
      some contents.toList.length := by
  have hlookup : (h.request SensorID method targetAddr contents).fields.lookup
      "Content-Length".toList = some (to_string contents.length) := rfl
  have hread := readInt_to_string contents.length [] (by simp)
  rw [List.append_nil] at hread
  rw [contentLength, hlookup, Option.bind_some, hread, Option.map_some, String.length_toList]
  simp

theorem read_makeHTTPMessage (hf : Framed h SensorID method targetAddr) (contents : String)
    (rest : List Char) :
    read ((h.makeHTTPMessage SensorID method targetAddr contents).toList ++ rest) =
      some (h.request SensorID method targetAddr contents, rest) := by
  have hfields : ((h.request SensorID method targetAddr contents).fields.map fieldLine).mapM
      (cut [':', ' ']) = some (h.request SensorID method targetAddr contents).fields := by
    apply mapM_cut_fieldLine
    simp only [request, List.forall_mem_cons]
    exact ⟨by decide, by decide, by decide, by decide, by decide, by decide, by decide, by simp⟩
  have hlength : ¬ (contents.toList ++ rest).length < contents.toList.length := by simp
  have hlines : readBlock crlf (((h.makeHTTPMessage SensorID method targetAddr contents).toList ++
      rest).length + 1) ((h.makeHTTPMessage SensorID method targetAddr contents).toList ++ rest) =
        some (h.requestLines SensorID method targetAddr contents, contents.toList ++ rest) := by
    have hle := @length_le_writeBlock _ crlf (by decide)
      (h.requestLines SensorID method targetAddr contents)
    rw [makeHTTPMessage_eq_writeBlock, List.append_assoc]
    apply readBlock_writeBlock (by decide) (requestLines_spec hf contents)
    simp only [List.length_append]
    omega
  have hstart := readStart_startLine hf.method_word hf.target_word
  have hn := contentLength_request h SensorID method targetAddr contents
  rw [HttpRequest.read, hlines]
  simp only [Option.bind_eq_bind, Option.bind_some, requestLines, List.head?_cons, List.tail_cons]
  rw [hstart, Option.bind_some, hfields, Option.bind_some, hn, Option.bind_some, if_neg hlength,
    List.take_left, List.drop_left]
  rfl

/-- A server reads the message as the request it stands for, and leaves what follows it, exactly
when the parts taken from outside keep to their places. -/
theorem read_makeHTTPMessage_iff (h : ServerNetworkHandler)
    (SensorID method targetAddr contents : String) (rest : List Char) :
    read ((h.makeHTTPMessage SensorID method targetAddr contents).toList ++ rest) =
        some (h.request SensorID method targetAddr contents, rest) ↔
      Framed h SensorID method targetAddr := by
  constructor
  · intro hread
    obtain ⟨⟨hmethod, htarget⟩, hm, ht, hfields⟩ := unmarked_of_read hread
    exact ⟨hmethod, htarget, hm, ht, hfields ("Host".toList, h.mServerAddr.toList) (.head _),
      hfields ("sensorid".toList, SensorID.toList)
        (.tail _ (.tail _ (.tail _ (.tail _ (.tail _ (.head _))))))⟩
  · exact fun hf => read_makeHTTPMessage hf contents rest

end ServerNetworkHandler
end VisionSensor
