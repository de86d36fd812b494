import VisionSensor.Management.Session

/-! The local buffers `session` and `send` read a message into, and the text `parseJSON(char *)`
takes from them: up to the first zero byte. -/
namespace VisionSensor.ReceiveBuffer
open Session (MaxBufSize)

/-- The size of `data` in `send`. -/
def ackBufSize : ℕ := 128

/-- `std::memset(data, 0, n)`. -/
def memset (data : List UInt8) (n : ℕ) : List UInt8 := List.replicate n 0 ++ data.drop n

/-- The buffer once `read_some` has put a chunk at its front. -/
def readSome (data chunk : List UInt8) : List UInt8 := chunk ++ data.drop chunk.length

/-- The text that starts at the front of a buffer. With `none` no zero byte is in the buffer, and
the text goes on in the memory behind it. -/
def text (data : List UInt8) : Option (List UInt8) :=
  if 0 ∈ data then some (data.takeWhile (· ≠ 0)) else none

/-- What `session` parses of a chunk. -/
def sessionText (data chunk : List UInt8) : Option (List UInt8) :=
  text (readSome (memset data 4096) chunk)

/-- What `send` parses of the acknowledgement; it does not clear its buffer. -/
def ackText (data chunk : List UInt8) : Option (List UInt8) := text (readSome data chunk)

/-- Behind a chunk without zero bytes the text ends only if a zero byte follows. -/
theorem text_readSome_iff {data chunk : List UInt8} (hnul : 0 ∉ chunk) :
    text (readSome data chunk) = some chunk ↔ data[chunk.length]? = some 0 := by
  have hchunk : ∀ x ∈ chunk, decide (x ≠ 0) = true := by
    intro x hx
    rw [decide_eq_true_eq]
    rintro rfl
    exact hnul hx
  rw [text, readSome, List.takeWhile_append_of_pos hchunk, ← List.head?_drop]
  cases data.drop chunk.length with
  | nil => simp [hnul]
  | cons x rest =>
    by_cases hx : x = 0
    · simp [hx]
    · simp [hx]

theorem memset_all {data : List UInt8} (hlen : data.length = MaxBufSize) :
    memset data 4096 = List.replicate MaxBufSize 0 := by
  have hdrop : data.drop 4096 = [] := List.drop_of_length_le (Nat.le_of_eq hlen)
  rw [memset, hdrop, List.append_nil]
  rfl

theorem takeWhile_append_zeros (chunk : List UInt8) (n : ℕ) :
    (chunk ++ List.replicate n 0).takeWhile (fun x => decide (x ≠ 0)) =
      chunk.takeWhile fun x => decide (x ≠ 0) := by
  have hzeros : (List.replicate n (0 : UInt8)).takeWhile (fun x => decide (x ≠ 0)) = [] := by
    rw [List.takeWhile_replicate]
    rfl
  rw [List.takeWhile_append, hzeros, List.append_nil]
  split_ifs with hall
  · exact ((List.takeWhile_prefix _).eq_of_length hall).symm
  · rfl

/-- Cleared, the buffer gives every chunk the text that `Session.cString` takes. -/
theorem sessionText_eq_cString {data chunk : List UInt8} (hlen : data.length = MaxBufSize) :
    sessionText data chunk = Session.cString chunk := by
  have hzero : 0 ∈ chunk ++ List.replicate (MaxBufSize - chunk.length) 0 ↔
      0 ∈ chunk ∨ chunk.length < MaxBufSize := by
    rw [List.mem_append, List.mem_replicate, and_iff_left rfl, Nat.sub_ne_zero_iff_lt]
  rw [sessionText, memset_all hlen, readSome, List.drop_replicate, text, Session.cString,
    takeWhile_append_zeros]
  simp only [hzero]

/-- A chunk without zero bytes is parsed as it is: by `session` exactly when it does not fill the
buffer, by `send` exactly when in addition the byte behind it was zero before. -/
theorem parses_received_iff {chunk : List UInt8} (hnul : 0 ∉ chunk) :
    (∀ data : List UInt8, data.length = MaxBufSize →
      (sessionText data chunk = some chunk ↔ chunk.length < MaxBufSize)) ∧
    (∀ data : List UInt8, data.length = ackBufSize →
      (ackText data chunk = some chunk ↔
        chunk.length < ackBufSize ∧ data[chunk.length]? = some 0)) := by
  constructor
  · intro data hlen
    rw [sessionText, text_readSome_iff hnul, memset_all hlen, List.getElem?_replicate]
    simp
  · intro data hlen
    rw [ackText, text_readSome_iff hnul, ← hlen]
    constructor
    · intro hzero
      exact ⟨(List.getElem?_eq_some_iff.mp hzero).1, hzero⟩
    · exact And.right

/-- The two characters of an empty object, from buffers that held zeros or anything. -/
theorem parses_received_empty_object :
    sessionText (List.replicate MaxBufSize 120) [123, 125] = some [123, 125] ∧
      ackText (List.replicate ackBufSize 0) [123, 125] = some [123, 125] := by
  obtain ⟨hsession, hack⟩ := parses_received_iff (show 0 ∉ [123, 125] by decide)
  exact ⟨(hsession _ List.length_replicate).mpr (by decide),
    (hack _ List.length_replicate).mpr ⟨by decide, by decide⟩⟩

/-- Behind the acknowledgement stands what the stack held, and a full buffer has no end. -/
theorem text_beyond_received :
    ackText ([123, 125, 120] ++ List.replicate 125 0) [123, 125] = some [123, 125, 120] ∧
      sessionText (List.replicate MaxBufSize 0) (List.replicate MaxBufSize 120) = none := by
  refine ⟨by decide, ?_⟩
  rw [sessionText_eq_cString List.length_replicate, Session.cString, if_neg]
  simp [List.mem_replicate]

end VisionSensor.ReceiveBuffer
