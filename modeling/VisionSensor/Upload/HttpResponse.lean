import VisionSensor.Upload.HttpRequest

/-! The answer of `sendHTTP`: the response is read from the connection in the pieces it arrives in,
and its status line is taken apart by the operators of a stream. -/
namespace VisionSensor
open MarkedText

/-- `std::istream` over a buffer, with the bits that make it fail. -/
structure IStream where
  buffer : List Char
  eofbit : Bool := false
  failbit : Bool := false
  deriving DecidableEq, Repr

namespace IStream

def good (s : IStream) : Bool := !s.eofbit && !s.failbit

/-- `>>` into a `std::string`. -/
def readWord (s : IStream) : List Char × IStream :=
  if !s.good then ([], { s with failbit := true })
  else
    let text := s.buffer.dropWhile isSpace
    if text = [] then ([], ⟨[], true, true⟩)
    else
      let rest := text.dropWhile (!isSpace ·)
      (text.takeWhile (!isSpace ·), ⟨rest, rest.isEmpty, false⟩)

/-- `>>` into an `unsigned int`: a minus is taken modulo 2^32, and a number that is too long is
read to its end and fails. -/
def readUnsigned (s : IStream) : ℕ × IStream :=
  if !s.good then (0, { s with failbit := true })
  else
    match readInt s.buffer with
    | none =>
        let rest := (readSign (s.buffer.dropWhile isSpace)).2
        (0, ⟨rest, rest.isEmpty, true⟩)
    | some (n, rest) =>
        if n.natAbs < 2 ^ 32 then ((n % 2 ^ 32).toNat, ⟨rest, rest.isEmpty, false⟩)
        else (2 ^ 32 - 1, ⟨rest, rest.isEmpty, true⟩)

/-- `std::getline`. -/
def getline (s : IStream) : List Char × IStream :=
  if !s.good then ([], { s with failbit := true })
  else
    let line := s.buffer.takeWhile (· != '\n')
    match s.buffer.dropWhile (· != '\n') with
    | [] => (line, ⟨[], true, line.isEmpty⟩)
    | _ :: rest => (line, ⟨rest, false, false⟩)

end IStream

/-- One connection to the server: whether it is made and takes the request, the pieces in which
the response arrives, and whether the server closes it. -/
structure Connection where
  connected : Bool := true
  written : Bool := true
  chunks : List (List Char)
  closed : Bool := true

namespace Connection

/-- `sendHTTP` once the request is written; `none` when it throws. What it does with the header and
the contents of the response is printing. -/
def respond (c : Connection) : Option Bool := do
  let (buffer, chunks) ← readUntil crlf [] c.chunks
  let (http_version, s) := (IStream.mk buffer false false).readWord
  let (status_code, s) := s.readUnsigned
  let (_, s) := s.getline
  if s.failbit || http_version.take 5 != "HTTP/".toList then return false
  else if status_code ≠ 200 then return false
  else
    let _ ← readUntil (crlf ++ crlf) s.buffer chunks
    if c.closed then return true else none

/-- `sendHTTP`; every exception is caught. -/
def sendHTTP (c : Connection) : Bool := c.connected && c.written && c.respond.getD false

/-- The first word of a status line. -/
def versionWord (line : List Char) : List Char := (line.dropWhile isSpace).takeWhile (!isSpace ·)

/-- What follows the first word. -/
def afterVersion (line : List Char) : List Char := (line.dropWhile isSpace).dropWhile (!isSpace ·)

/-- The line has two words and does not go on behind a line feed. -/
structure StatusLine (line : List Char) : Prop where
  one_line : '\n' ∉ line
  two_words : ∃ c ∈ afterVersion line, isSpace c = false

/-- The number behind the version is 200 as an `unsigned int`. -/
def SaysOk (line : List Char) : Prop :=
  ∃ n rest, readInt (afterVersion line) = some (n, rest) ∧ n.natAbs < 2 ^ 32 ∧ n % 2 ^ 32 = 200

end Connection

section Words

variable {p : Char → Bool} {l r : List Char}

/-- What follows a text does not matter to a scan that stops inside it. -/
theorem dropWhile_append_of_ne (h : l.dropWhile p ≠ []) :
    (l ++ r).dropWhile p = l.dropWhile p ++ r := by
  rw [List.dropWhile_append, if_neg (by simpa using h)]

/-- A symbol at which the scan stops, wherever it stands. -/
theorem span_stop {c : Char} (hc : p c = false) :
    (l ++ c :: r).takeWhile p = l.takeWhile p ∧
      (l ++ c :: r).dropWhile p = l.dropWhile p ++ c :: r := by
  induction l with
  | nil => simp [hc]
  | cons x l ih =>
    cases hx : p x with
    | true => simp [hx, ih]
    | false => simp [hx]

theorem readSign_append (h : l ≠ []) :
    readSign (l ++ r) = ((readSign l).1, (readSign l).2 ++ r) := by
  cases l with
  | nil => exact absurd rfl h
  | cons c l =>
    by_cases hminus : c = '-'
    · subst hminus
      rfl
    by_cases hplus : c = '+'
    · subst hplus
      rfl
    unfold readSign
    split <;> simp_all

/-- A number that begins inside a text is read the same when a character that is no digit follows
the text. -/
theorem readInt_append (h : l.dropWhile isSpace ≠ []) {c : Char} (hc : c.isDigit = false) :
    readInt (l ++ c :: r) = (readInt l).map fun q => (q.1, q.2 ++ c :: r) := by
  have hdrop : (l ++ c :: r).dropWhile isSpace = l.dropWhile isSpace ++ c :: r :=
    dropWhile_append_of_ne h
  obtain ⟨htake, hrest⟩ := @span_stop Char.isDigit (readSign (l.dropWhile isSpace)).2 r c hc
  simp only [readInt, hdrop, readSign_append h, htake, hrest]
  split_ifs <;> rfl

/-- Nothing new is left behind a number. -/
theorem mem_of_readInt {n : ℤ} {c : Char} (h : readInt l = some (n, r)) (hc : c ∈ r) : c ∈ l := by
  simp only [readInt] at h
  split_ifs at h
  all_goals
    obtain ⟨-, rfl⟩ := Prod.mk.inj (Option.some.inj h)
    have hsign : ∀ cs : List Char, (readSign cs).2 <:+ cs := by
      intro cs
      unfold readSign
      split <;> simp
    exact (((List.dropWhile_suffix _).trans (hsign _)).trans (List.dropWhile_suffix _)).mem hc

end Words

namespace IStream

variable {line more : List Char}

theorem readWord_line (htwo : ∃ c ∈ Connection.afterVersion line, isSpace c = false) :
    readWord ⟨line ++ '\r' :: more, false, false⟩ =
      (Connection.versionWord line,
        ⟨Connection.afterVersion line ++ '\r' :: more, false, false⟩) := by
  obtain ⟨c, hmem, -⟩ := htwo
  have hne : line.dropWhile isSpace ≠ [] := by
    intro hnil
    rw [Connection.afterVersion, hnil] at hmem
    cases hmem
  have hdrop : (line ++ '\r' :: more).dropWhile isSpace =
      line.dropWhile isSpace ++ '\r' :: more := dropWhile_append_of_ne hne
  obtain ⟨htake, hrest⟩ := @span_stop (!isSpace ·) (line.dropWhile isSpace) more '\r' rfl
  simp [readWord, good, hdrop, htake, hrest, Connection.versionWord, Connection.afterVersion]

theorem readInt_line (htwo : ∃ c ∈ line, isSpace c = false) :
    readInt (line ++ '\r' :: more) = (readInt line).map fun q => (q.1, q.2 ++ '\r' :: more) := by
  obtain ⟨c, hmem, hc⟩ := htwo
  refine readInt_append (fun hnil => ?_) rfl
  have hspace := List.dropWhile_eq_nil_iff.mp hnil c hmem
  rw [hc] at hspace
  cases hspace

/-- The status code is read within its line. -/
theorem readUnsigned_line {n : ℤ} {rest : List Char} (htwo : ∃ c ∈ line, isSpace c = false)
    (hread : readInt line = some (n, rest)) (hn : n.natAbs < 2 ^ 32) :
    readUnsigned ⟨line ++ '\r' :: more, false, false⟩ =
      ((n % 2 ^ 32).toNat, ⟨rest ++ '\r' :: more, false, false⟩) := by
  have hline := @readInt_line line more htwo
  rw [hread, Option.map_some] at hline
  simp only [readUnsigned, good, hline, if_pos hn]
  simp

theorem readUnsigned_fails (htwo : ∃ c ∈ line, isSpace c = false)
    (hread : ∀ n rest, readInt line = some (n, rest) → ¬ n.natAbs < 2 ^ 32) :
    (readUnsigned ⟨line ++ '\r' :: more, false, false⟩).2.failbit = true := by
  have hline := @readInt_line line more htwo
  cases hint : readInt line with
  | none =>
    rw [hint, Option.map_none] at hline
    simp only [readUnsigned, good, hline]
    rfl
  | some q =>
    rw [hint, Option.map_some] at hline
    simp only [readUnsigned, good, hline, if_neg (hread q.1 q.2 hint)]
    rfl

theorem getline_line (h : '\n' ∉ line) :
    getline ⟨line ++ '\r' :: '\n' :: more, false, false⟩ =
      (line ++ ['\r'], ⟨more, false, false⟩) := by
  have hline : ∀ c ∈ line ++ ['\r'], (c != '\n') = true := by
    intro c hc
    rcases List.mem_append.mp hc with hc | hc
    · exact bne_iff_ne.mpr fun heq => h (heq ▸ hc)
    · rw [List.mem_singleton.mp hc]
      rfl
  have htext : line ++ '\r' :: '\n' :: more = (line ++ ['\r']) ++ '\n' :: more := by simp
  rw [htext, getline]
  simp only [good, List.takeWhile_append_of_pos hline, List.dropWhile_append_of_pos hline]
  simp

theorem getline_of_fail {s : IStream} (h : s.failbit = true) : s.getline.2.failbit = true := by
  simp [getline, good, h]

end IStream

namespace Connection

variable {c : Connection} {line rest : List Char}

theorem cut_crlf (h : ¬ crlf <:+: line) : cut crlf (line ++ crlf ++ rest) = some (line, rest) :=
  cut_pair (by decide) h rest

/-- The first line end of the response is where the buffer is cut, whatever the pieces are. -/
theorem readUntil_line (h : '\n' ∉ line) (htext : c.chunks.flatten = line ++ crlf ++ rest) :
    ∃ after chunks, readUntil crlf [] c.chunks = some (line ++ crlf ++ after, chunks) ∧
      after ++ chunks.flatten = rest := by
  have hcrlf : crlf ≠ [] := List.cons_ne_nil _ _
  have hline : ¬ crlf <:+: line := fun hin => h (hin.mem (by simp [crlf]))
  have hfound : (readUntil crlf [] c.chunks).isSome := by
    rw [readUntil_isSome_iff hcrlf, List.nil_append, htext]
    exact ⟨line, rest, rfl⟩
  obtain ⟨⟨buffer, chunks⟩, hread⟩ := Option.isSome_iff_exists.mp hfound
  obtain ⟨hmark, hsplit⟩ := readUntil_spec hread
  obtain ⟨⟨before, after⟩, hcut⟩ := Option.isSome_iff_exists.mp hmark
  have hwhole := cut_append hcut hcrlf chunks.flatten
  rw [hsplit, List.nil_append, htext, cut_crlf hline, Option.some.injEq,
    Prod.mk.injEq] at hwhole
  obtain ⟨rfl, hrest⟩ := hwhole
  exact ⟨after, chunks, by rw [hread, ← cut_append_eq hcut], hrest.symm⟩

theorem mem_of_afterVersion {x : Char} (h : x ∈ afterVersion line) : x ∈ line :=
  ((List.dropWhile_suffix _).trans (List.dropWhile_suffix _)).mem h

/-- A status line that names a number leaves the stream right behind it. -/
theorem respond_of_number (hline : StatusLine line) {n : ℤ} {tail after : List Char}
    {chunks : List (List Char)}
    (hread : readUntil crlf [] c.chunks = some (line ++ crlf ++ after, chunks))
    (hint : readInt (afterVersion line) = some (n, tail)) (hn : n.natAbs < 2 ^ 32) :
    c.respond = if (versionWord line).take 5 ≠ "HTTP/".toList then some false
      else if (n % 2 ^ 32).toNat ≠ 200 then some false
      else (readUntil (crlf ++ crlf) after chunks).bind fun _ =>
        if c.closed then some true else none := by
  have hword := @IStream.readWord_line line ('\n' :: after) hline.two_words
  have hcode := @IStream.readUnsigned_line _ ('\n' :: after) _ _ hline.two_words hint hn
  have htail : '\n' ∉ tail := fun hmem =>
    hline.one_line (mem_of_afterVersion (mem_of_readInt hint hmem))
  have hget := @IStream.getline_line tail after htail
  have hbuffer : line ++ crlf ++ after = line ++ '\r' :: '\n' :: after := by simp [crlf]
  simp only [respond, hread, Option.bind_eq_bind, Option.bind_some, hbuffer, hword, hcode, hget,
    Bool.false_or, bne_iff_ne]
  rfl

/-- A status line without a number is refused. -/
theorem respond_of_no_number (hline : StatusLine line) {after : List Char}
    {chunks : List (List Char)}
    (hread : readUntil crlf [] c.chunks = some (line ++ crlf ++ after, chunks))
    (hint : ∀ n tail, readInt (afterVersion line) = some (n, tail) → ¬ n.natAbs < 2 ^ 32) :
    c.respond = some false := by
  have hword := @IStream.readWord_line line ('\n' :: after) hline.two_words
  have hfail := IStream.getline_of_fail
    (@IStream.readUnsigned_fails _ ('\n' :: after) hline.two_words hint)
  have hbuffer : line ++ crlf ++ after = line ++ '\r' :: '\n' :: after := by simp [crlf]
  simp only [respond, hread, Option.bind_eq_bind, Option.bind_some, hbuffer, hword, hfail,
    Bool.true_or, if_true]
  rfl

/-- What `sendHTTP` makes of the response, however it is cut into pieces. -/
theorem respond_iff (hline : StatusLine line) (htext : c.chunks.flatten = line ++ crlf ++ rest) :
    c.respond = some true ↔ c.closed = true ∧ (versionWord line).take 5 = "HTTP/".toList ∧
      SaysOk line ∧ crlf ++ crlf <:+: rest := by
  obtain ⟨after, chunks, hread, rfl⟩ := readUntil_line hline.one_line htext
  rw [← @readUntil_isSome_iff _ _ (crlf ++ crlf) _ _ (List.cons_ne_nil _ _)]
  by_cases hnumber : ∃ n tail, readInt (afterVersion line) = some (n, tail) ∧ n.natAbs < 2 ^ 32
  · obtain ⟨n, tail, hint, hn⟩ := hnumber
    have hsays : SaysOk line ↔ n % 2 ^ 32 = 200 := by
      constructor
      · rintro ⟨m, tail', hint', -, hm⟩
        obtain ⟨rfl, -⟩ := Prod.mk.inj (Option.some.inj (hint.symm.trans hint'))
        exact hm
      · exact fun hm => ⟨n, tail, hint, hn, hm⟩
    rw [respond_of_number hline hread hint hn, hsays]
    by_cases hversion : (versionWord line).take 5 = "HTTP/".toList
    · rw [if_neg (not_not.mpr hversion)]
      by_cases hcode : n % 2 ^ 32 = 200
      · rw [if_neg (by omega)]
        cases readUntil (crlf ++ crlf) after chunks <;> cases c.closed <;>
          simp only [Option.bind_none, Option.bind_some, hversion, hcode, Option.isSome_none,
            Option.isSome_some, reduceCtorEq, Bool.false_eq_true, if_true, if_false, and_true,
            and_false]
      · rw [if_pos (by omega)]
        exact iff_of_false (by simp) fun h => hcode h.2.2.1
    · rw [if_pos hversion]
      exact iff_of_false (by simp) fun h => hversion h.2.1
  · have hnone : ∀ n tail, readInt (afterVersion line) = some (n, tail) → ¬ n.natAbs < 2 ^ 32 :=
      fun n tail hint hn => hnumber ⟨n, tail, hint, hn⟩
    rw [respond_of_no_number hline hread hnone]
    refine iff_of_false (by simp) ?_
    rintro ⟨-, -, ⟨n, tail, hint, hn, -⟩, -⟩
    exact hnone n tail hint hn

/-- `sendHTTP` reports success exactly when the exchange was not cut short, the status line names
HTTP and the code 200, and a header line follows it; the pieces do not matter. -/
theorem sendHTTP_iff (hline : StatusLine line) (htext : c.chunks.flatten = line ++ crlf ++ rest) :
    c.sendHTTP = true ↔ (c.connected = true ∧ c.written = true ∧ c.closed = true) ∧
      (versionWord line).take 5 = "HTTP/".toList ∧ SaysOk line ∧ crlf ++ crlf <:+: rest := by
  have hget : c.respond.getD false = true ↔ c.respond = some true := by
    cases c.respond <;> simp
  rw [sendHTTP, Bool.and_eq_true, Bool.and_eq_true, hget, respond_iff hline htext]
  tauto

/-- A response in three pieces, the first of which ends inside the status code. -/
def accepting : Connection where
  chunks := ["HTTP/1.1 2".toList, "00 OK\r\nServer: x\r\n".toList, "\r\n{}".toList]

theorem sendHTTP_accepting : accepting.sendHTTP = true := by
  have hline : StatusLine "HTTP/1.1 200 OK".toList := ⟨by decide, '2', by decide, by decide⟩
  have htext : accepting.chunks.flatten =
      "HTTP/1.1 200 OK".toList ++ crlf ++ "Server: x\r\n\r\n{}".toList := by decide
  refine (sendHTTP_iff hline htext).mpr ⟨⟨rfl, rfl, rfl⟩, by decide, ?_, by decide⟩
  exact ⟨200, " OK".toList, by decide, by decide, by decide⟩

end Connection
end VisionSensor
