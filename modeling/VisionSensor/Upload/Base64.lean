import Mathlib.Data.List.TakeWhile
import Mathlib.Data.UInt
import VisionSensor.Lib.BitString

/-! `base64_encode` and `base64_decode`. A text is a list of characters, one for each byte of the
`std::string`. The encoding is that of RFC 4648, and the decoding is a regrouping of the bits that
the alphabet characters at the beginning of the text stand for. -/
namespace VisionSensor.Base64
open BitString

def base64_chars : List Char :=
  "ABCDEFGHIJKLMNOPQRSTUVWXYZabcdefghijklmnopqrstuvwxyz0123456789+/".toList

/-- `char_array_4` for three bytes. -/
def char_array_4 (a b c : UInt8) : List UInt8 :=
  [(a &&& 0xfc) >>> 2, ((a &&& 0x03) <<< 4) + ((b &&& 0xf0) >>> 4),
    ((b &&& 0x0f) <<< 2) + ((c &&& 0xc0) >>> 6), c &&& 0x3f]

/-- `base64_chars[n]`. -/
def base64Char (n : UInt8) : Char := base64_chars.getD n.toNat '\x00'

/-- The loop of `base64_encode` at one byte: the bytes of an unfinished group, and the text so
far. -/
def encodeByte (st : List UInt8 × List Char) (byte : UInt8) : List UInt8 × List Char :=
  match st.1 with
  | [a, b] => ([], st.2 ++ (char_array_4 a b byte).map base64Char)
  | char_array_3 => (char_array_3 ++ [byte], st.2)

/-- `base64_encode`; the last group is filled with zeros, and its text with `=`. -/
def base64_encode (bytes_to_encode : List UInt8) (in_len : ℕ) : List Char :=
  match (bytes_to_encode.take in_len).foldl encodeByte ([], []) with
  | ([], ret) => ret
  | (a :: char_array_3, ret) =>
      let i := char_array_3.length + 1
      ret ++ ((char_array_4 a (char_array_3.getD 0 0) (char_array_3.getD 1 0)).take (i + 1)).map
        base64Char ++ List.replicate (3 - i) '='

example : base64_encode [77, 97, 110, 46] 4 = "TWFuLg==".toList := by decide

/-- `is_base64` in the classic locale. -/
def is_base64 (c : Char) : Bool := c.isAlphanum || c == '+' || c == '/'

/-- `(unsigned char)base64_chars.find(c)`: `npos` becomes 255. -/
def find (c : Char) : UInt8 := ((base64_chars.idxOf? c).map UInt8.ofNat).getD 255

/-- `char_array_3` for four characters, after `find`. -/
def char_array_3 (a b c d : UInt8) : List UInt8 :=
  [(a <<< 2) + ((b &&& 0x30) >>> 4), ((b &&& 0xf) <<< 4) + ((c &&& 0x3c) >>> 2),
    ((c &&& 0x3) <<< 6) + d]

/-- The loop of `base64_decode` at one character: the characters of an unfinished group, and the
bytes so far. -/
def decodeChar (st : List Char × List UInt8) (c : Char) : List Char × List UInt8 :=
  match st.1 with
  | [x, y, z] => ([], st.2 ++ char_array_3 (find x) (find y) (find z) (find c))
  | char_array_4 => (char_array_4 ++ [c], st.2)

/-- The loop of `base64_decode` from a position on. Behind the last character there is a zero, which
ends the loop. -/
def decodeLoop : ℤ → List Char → List Char × List UInt8 → List Char × List UInt8
  | _, [], st => st
  | in_len, c :: cs, st =>
      if in_len ≠ 0 ∧ c ≠ '=' ∧ is_base64 c then decodeLoop (in_len - 1) cs (decodeChar st c) else st

/-- The bytes of an unfinished group, whose missing characters are zeros. -/
def decodeRest (char_array_4 : List Char) : List UInt8 :=
  let value := fun j => find (char_array_4.getD j '\x00')
  (char_array_3 (value 0) (value 1) (value 2) (value 3)).take (char_array_4.length - 1)

/-- `base64_decode`; the length of the text is cast to an `int`. -/
def base64_decode (encoded_string : List Char) : List UInt8 :=
  match decodeLoop ((encoded_string.length : ℤ).bmod (2 ^ 32)) encoded_string ([], []) with
  | ([], ret) => ret
  | (char_array_4, ret) => ret ++ decodeRest char_array_4

example : base64_decode "TWFuLg==".toList = [77, 97, 110, 46] := by decide

/-- The number a character of the alphabet stands for. -/
def sextet (c : Char) : ℕ := base64_chars.idxOf c

/-- The bits of a byte string. -/
def octets (bytes : List UInt8) : List Bool := (bytes.map UInt8.toNat).flatMap (bits 8)

/-- The encoding of RFC 4648: the bits in groups of six, the last one filled with zeros, and `=` up
to the next full group of four characters. -/
def rfc4648 (bytes : List UInt8) : List Char :=
  let text := (groups 6 (fill 6 (octets bytes))).map fun n => base64_chars.getD n '\x00'
  text ++ List.replicate ((4 - text.length % 4) % 4) '='

/-- The full bytes among the bits that a text of alphabet characters stands for. -/
def decoded (p : List Char) : List UInt8 :=
  (groups 8 ((p.map sextet).flatMap (bits 6))).map UInt8.ofNat

/-- The characters at the beginning of a text that are in the alphabet. -/
def alphabetPart (s : List Char) : List Char := s.takeWhile fun c => base64_chars.contains c

theorem byte_forall {P : UInt8 → Prop} (h : ∀ n < 256, P (UInt8.ofNat n)) (a : UInt8) : P a := by
  have ha := h a.toNat a.toNat_lt
  rwa [UInt8.ofNat_toNat] at ha

/-- The masks and shifts of `base64_encode` as arithmetic on one byte. -/
theorem encode_masks : ∀ a : UInt8,
    ((a &&& 0xfc) >>> 2).toNat = a.toNat / 4 ∧ ((a &&& 0x03) <<< 4).toNat = a.toNat % 4 * 16 ∧
      ((a &&& 0xf0) >>> 4).toNat = a.toNat / 16 ∧ ((a &&& 0x0f) <<< 2).toNat = a.toNat % 16 * 4 ∧
      ((a &&& 0xc0) >>> 6).toNat = a.toNat / 64 ∧ (a &&& 0x3f).toNat = a.toNat % 64 :=
  byte_forall (by decide +kernel)

theorem char_array_4_toNat (a b c : UInt8) : (char_array_4 a b c).map UInt8.toNat =
    [a.toNat / 4, a.toNat % 4 * 16 + b.toNat / 16, b.toNat % 16 * 4 + c.toNat / 64,
      c.toNat % 64] := by
  have hb := b.toNat_lt
  have hc := c.toNat_lt
  obtain ⟨ha2, ha4, -, -, -, -⟩ := encode_masks a
  obtain ⟨-, -, hb4, hb2, -, -⟩ := encode_masks b
  obtain ⟨-, -, -, -, hc6, hc0⟩ := encode_masks c
  have h1 : (a.toNat % 4 * 16 + b.toNat / 16) % 2 ^ 8 = a.toNat % 4 * 16 + b.toNat / 16 := by omega
  have h2 : (b.toNat % 16 * 4 + c.toNat / 64) % 2 ^ 8 = b.toNat % 16 * 4 + c.toNat / 64 := by omega
  simp only [char_array_4, List.map_cons, List.map_nil, UInt8.toNat_add, ha2, ha4, hb4, hb2, hc6,
    hc0, h1, h2]

/-- The masks and shifts of `base64_decode` on the number of one character. -/
theorem decode_masks : ∀ n < 64, ∀ a : UInt8, a = UInt8.ofNat n →
    (a <<< 2).toNat = n * 4 ∧ ((a &&& 0x30) >>> 4).toNat = n / 16 ∧
      ((a &&& 0xf) <<< 4).toNat = n % 16 * 16 ∧ ((a &&& 0x3c) >>> 2).toNat = n / 4 ∧
      ((a &&& 0x3) <<< 6).toNat = n % 4 * 64 ∧ a.toNat = n := by
  have h : ∀ n < 64, ((UInt8.ofNat n) <<< 2).toNat = n * 4 ∧
      ((UInt8.ofNat n &&& 0x30) >>> 4).toNat = n / 16 ∧
      ((UInt8.ofNat n &&& 0xf) <<< 4).toNat = n % 16 * 16 ∧
      ((UInt8.ofNat n &&& 0x3c) >>> 2).toNat = n / 4 ∧
      ((UInt8.ofNat n &&& 0x3) <<< 6).toNat = n % 4 * 64 ∧ (UInt8.ofNat n).toNat = n := by
    decide +kernel
  rintro n hn a rfl
  exact h n hn

/-- Three bytes and their four groups of six are the same bits. -/
theorem char_array_4_bits (a b c : UInt8) :
    ((char_array_4 a b c).map UInt8.toNat).flatMap (bits 6) =
      bits 8 a.toNat ++ (bits 8 b.toNat ++ bits 8 c.toNat) := by
  have hb := b.toNat_lt
  have hc := c.toNat_lt
  have ha' : bits 8 a.toNat = bits 6 (a.toNat / 4) ++ bits 2 (a.toNat % 4) :=
    bits_split (by rfl) (by rfl) _
  have hb' : bits 8 b.toNat = bits 4 (b.toNat / 16) ++ bits 4 (b.toNat % 16) :=
    bits_split (by rfl) (by rfl) _
  have hc' : bits 8 c.toNat = bits 2 (c.toNat / 64) ++ bits 6 (c.toNat % 64) :=
    bits_split (by rfl) (by rfl) _
  have hab : bits 6 (a.toNat % 4 * 16 + b.toNat / 16) =
      bits 2 (a.toNat % 4) ++ bits 4 (b.toNat / 16) := bits_join (by rfl) (by rfl) (by omega)
  have hbc : bits 6 (b.toNat % 16 * 4 + c.toNat / 64) =
      bits 4 (b.toNat % 16) ++ bits 2 (c.toNat / 64) := bits_join (by rfl) (by rfl) (by omega)
  rw [char_array_4_toNat, ha', hb', hc']
  simp only [List.flatMap_cons, List.flatMap_nil, hab, hbc, List.append_assoc, List.append_nil]

theorem char_array_3_toNat {x y z w : ℕ} (hx : x < 64) (hy : y < 64) (hz : z < 64) (hw : w < 64) :
    (char_array_3 (UInt8.ofNat x) (UInt8.ofNat y) (UInt8.ofNat z) (UInt8.ofNat w)).map UInt8.toNat =
      [x * 4 + y / 16, y % 16 * 16 + z / 4, z % 4 * 64 + w] := by
  obtain ⟨hx2, -, -, -, -, -⟩ := decode_masks x hx _ rfl
  obtain ⟨-, hy4, hy0, -, -, -⟩ := decode_masks y hy _ rfl
  obtain ⟨-, -, -, hz2, hz6, -⟩ := decode_masks z hz _ rfl
  obtain ⟨-, -, -, -, -, hw0⟩ := decode_masks w hw _ rfl
  have h0 : (x * 4 + y / 16) % 2 ^ 8 = x * 4 + y / 16 := by omega
  have h1 : (y % 16 * 16 + z / 4) % 2 ^ 8 = y % 16 * 16 + z / 4 := by omega
  have h2 : (z % 4 * 64 + w) % 2 ^ 8 = z % 4 * 64 + w := by omega
  simp only [char_array_3, List.map_cons, List.map_nil, UInt8.toNat_add, hx2, hy4, hy0, hz2, hz6,
    hw0, h0, h1, h2]

/-- Four characters and their three bytes are the same bits. -/
theorem char_array_3_bits {x y z w : ℕ} (hx : x < 64) (hy : y < 64) (hz : z < 64) (hw : w < 64) :
    ((char_array_3 (UInt8.ofNat x) (UInt8.ofNat y) (UInt8.ofNat z) (UInt8.ofNat w)).map
        UInt8.toNat).flatMap (bits 8) = bits 6 x ++ (bits 6 y ++ (bits 6 z ++ bits 6 w)) := by
  have hy' : bits 6 y = bits 2 (y / 16) ++ bits 4 (y % 16) :=
    bits_split (by rfl) (by rfl) _
  have hz' : bits 6 z = bits 4 (z / 4) ++ bits 2 (z % 4) :=
    bits_split (by rfl) (by rfl) _
  have hxy : bits 8 (x * 4 + y / 16) = bits 6 x ++ bits 2 (y / 16) :=
    bits_join (by rfl) (by rfl) (by omega)
  have hyz : bits 8 (y % 16 * 16 + z / 4) = bits 4 (y % 16) ++ bits 4 (z / 4) :=
    bits_join (by rfl) (by rfl) (by omega)
  have hzw : bits 8 (z % 4 * 64 + w) = bits 2 (z % 4) ++ bits 6 w :=
    bits_join (by rfl) (by rfl) (by omega)
  rw [char_array_3_toNat hx hy hz hw, hy', hz']
  simp only [List.flatMap_cons, List.flatMap_nil, hxy, hyz, hzw, List.append_assoc, List.append_nil]

/-- The loop of `base64_encode` only adds to the text. -/
theorem encodeByte_foldl (bytes group : List UInt8) (ret : List Char) :
    bytes.foldl encodeByte (group, ret) =
      ((bytes.foldl encodeByte (group, [])).1, ret ++ (bytes.foldl encodeByte (group, [])).2) := by
  induction bytes generalizing group ret with
  | nil => simp
  | cons byte bytes ih =>
    rw [List.foldl_cons, List.foldl_cons]
    match group with
    | [] | [_] | _ :: _ :: _ :: _ => exact ih _ _
    | [a, b] =>
      show bytes.foldl encodeByte ([], ret ++ _) = _
      rw [ih [] (ret ++ _)]
      show _ = ((bytes.foldl encodeByte ([], [] ++ _)).1,
        _ ++ (bytes.foldl encodeByte ([], [] ++ _)).2)
      rw [ih [] ([] ++ _), List.nil_append, List.append_assoc]

/-- The text of three bytes stands in front of the text of the others. -/
theorem base64_encode_cons (a b c : UInt8) (rest : List UInt8) :
    base64_encode (a :: b :: c :: rest) (a :: b :: c :: rest).length =
      (char_array_4 a b c).map base64Char ++ base64_encode rest rest.length := by
  have hfold : (a :: b :: c :: rest).foldl encodeByte ([], []) =
      rest.foldl encodeByte ([], [] ++ (char_array_4 a b c).map base64Char) := rfl
  unfold base64_encode
  rw [List.take_length, List.take_length, hfold, encodeByte_foldl]
  generalize rest.foldl encodeByte ([], []) = st
  obtain ⟨group, ret⟩ := st
  cases group with
  | nil => rfl
  | cons x xs => simp only [List.nil_append, List.append_assoc]

/-- The numbers of the characters of the encoding. -/
theorem sextets_cons (a b c : UInt8) (rest : List UInt8) :
    groups 6 (fill 6 (octets (a :: b :: c :: rest))) =
      (char_array_4 a b c).map UInt8.toNat ++ groups 6 (fill 6 (octets rest)) := by
  have hbits : octets (a :: b :: c :: rest) =
      ((char_array_4 a b c).map UInt8.toNat).flatMap (bits 6) ++ octets rest := by
    rw [char_array_4_bits]
    simp [octets, List.append_assoc]
  rw [hbits, fill_append (by simp [char_array_4]), groups_flatMap_bits (by decide)]
  intro n hn
  rw [char_array_4_toNat] at hn
  have ha := a.toNat_lt
  have hb := b.toNat_lt
  have hc := c.toNat_lt
  simp only [List.mem_cons, List.not_mem_nil, or_false] at hn
  omega

theorem map_base64Char (l : List UInt8) :
    l.map base64Char = (l.map UInt8.toNat).map fun n => base64_chars.getD n '\x00' := by
  rw [List.map_map]
  rfl

theorem rfc4648_cons (a b c : UInt8) (rest : List UInt8) :
    rfc4648 (a :: b :: c :: rest) = (char_array_4 a b c).map base64Char ++ rfc4648 rest := by
  have hlen : ((char_array_4 a b c).map base64Char).length = 4 := rfl
  unfold rfc4648
  rw [sextets_cons, List.map_append, ← map_base64Char]
  simp only [List.length_append, List.append_assoc, hlen, Nat.add_mod_left]

/-- One byte, and the zeros that fill its second group. -/
theorem sextets_one (a : UInt8) :
    groups 6 (fill 6 (octets [a])) = [a.toNat / 4, a.toNat % 4 * 16] := by
  have ha := a.toNat_lt
  have hfill : fill 6 (octets [a]) = bits 8 a.toNat ++ List.replicate 4 false := by
    simp [fill, octets]
  have hsplit : bits 8 a.toNat ++ List.replicate 4 false =
      [a.toNat / 4, a.toNat % 4 * 16].flatMap (bits 6) := by
    rw [bits_split (v := 6) (w := 2) (m := 4) rfl rfl, List.append_assoc,
      bits_append_false (u := 6) (m := 16) rfl rfl]
    simp
  rw [hfill, hsplit, groups_bits (by decide)]
  intro n hn
  simp only [List.mem_cons, List.not_mem_nil, or_false] at hn
  omega

/-- Two bytes, and the zeros that fill their third group. -/
theorem sextets_two (a b : UInt8) :
    groups 6 (fill 6 (octets [a, b])) = [a.toNat / 4, a.toNat % 4 * 16 + b.toNat / 16,
      b.toNat % 16 * 4] := by
  have ha := a.toNat_lt
  have hb := b.toNat_lt
  have hfill : fill 6 (octets [a, b]) =
      bits 8 a.toNat ++ (bits 8 b.toNat ++ List.replicate 2 false) := by
    simp [fill, octets]
  have hmiddle : bits 6 (a.toNat % 4 * 16 + b.toNat / 16) =
      bits 2 (a.toNat % 4) ++ bits 4 (b.toNat / 16) := bits_join (by rfl) (by rfl) (by omega)
  have hsplit : bits 8 a.toNat ++ (bits 8 b.toNat ++ List.replicate 2 false) =
      [a.toNat / 4, a.toNat % 4 * 16 + b.toNat / 16, b.toNat % 16 * 4].flatMap (bits 6) := by
    rw [bits_split (v := 6) (w := 2) (m := 4) rfl rfl a.toNat,
      bits_split (v := 4) (w := 4) (m := 16) rfl rfl b.toNat,
      List.append_assoc _ _ (List.replicate 2 false), bits_append_false (u := 6) (m := 4) rfl rfl]
    simp [hmiddle]
  rw [hfill, hsplit, groups_bits (by decide)]
  intro n hn
  simp only [List.mem_cons, List.not_mem_nil, or_false] at hn
  omega

/-- `base64_encode` of a whole vector is the encoding of RFC 4648. -/
theorem base64_encode_eq_rfc4648 (bytes : List UInt8) :
    base64_encode bytes bytes.length = rfc4648 bytes := by
  match bytes with
  | [] => rfl
  | [a] =>
    have hchars : ((char_array_4 a 0 0).take 2).map UInt8.toNat =
        [a.toNat / 4, a.toNat % 4 * 16] := by
      rw [List.map_take, char_array_4_toNat]
      rfl
    have htext : base64_encode [a] 1 =
        ((char_array_4 a 0 0).take 2).map base64Char ++ List.replicate 2 '=' := rfl
    rw [rfc4648, sextets_one, List.length_singleton, htext, map_base64Char, hchars]
    rfl
  | [a, b] =>
    have hchars : ((char_array_4 a b 0).take 3).map UInt8.toNat =
        [a.toNat / 4, a.toNat % 4 * 16 + b.toNat / 16, b.toNat % 16 * 4] := by
      rw [List.map_take, char_array_4_toNat]
      rfl
    have htext : base64_encode [a, b] 2 =
        ((char_array_4 a b 0).take 3).map base64Char ++ List.replicate 1 '=' := rfl
    rw [rfc4648, sextets_two, List.length_cons, List.length_singleton, htext, map_base64Char,
      hchars]
    rfl
  | a :: b :: c :: rest =>
    rw [base64_encode_cons, rfc4648_cons, base64_encode_eq_rfc4648 rest]

/-- `is_base64` accepts the characters of the alphabet and no others. -/
theorem is_base64_eq (c : Char) : is_base64 c = base64_chars.contains c := by
  have hascii : ∀ n < 128, is_base64 (Char.ofNat n) = base64_chars.contains (Char.ofNat n) := by
    decide +kernel
  by_cases hc : c.toNat < 128
  · have h := hascii c.toNat hc
    rwa [Char.ofNat_toNat] at h
  · have hsmall : base64_chars.all (fun a => a.toNat < 128) = true := by decide
    have hsmall' : is_base64 c = true → c.toNat < 128 := by
      have hranges : is_base64 c = ((((decide (c.val ≥ 65 ∧ c.val ≤ 90)) ||
          (decide (c.val ≥ 97) && decide (c.val ≤ 122)) ||
          (decide (c.val ≥ 48) && decide (c.val ≤ 57))) || c == '+') || c == '/') := rfl
      rw [hranges]
      simp only [UInt32.le_iff_toNat_le, Bool.or_eq_true, Bool.and_eq_true, decide_eq_true_eq,
        beq_iff_eq]
      rintro ((((⟨-, h⟩ | ⟨-, h⟩) | ⟨-, h⟩) | rfl) | rfl)
      · exact Nat.lt_of_le_of_lt h (by decide)
      · exact Nat.lt_of_le_of_lt h (by decide)
      · exact Nat.lt_of_le_of_lt h (by decide)
      · decide
      · decide
    rw [Bool.eq_false_iff.mpr fun h => hc (hsmall' h), eq_comm, ← Bool.not_eq_true,
      List.contains_iff_mem]
    exact fun hmem => hc (of_decide_eq_true (List.all_eq_true.mp hsmall c hmem))

theorem sextet_lt {c : Char} (h : c ∈ base64_chars) : sextet c < 64 := List.idxOf_lt_length_of_mem h

theorem find_eq {c : Char} (h : c ∈ base64_chars) : find c = UInt8.ofNat (sextet c) := by
  have hall : base64_chars.all (fun c => find c = UInt8.ofNat (sextet c)) = true := by decide
  exact of_decide_eq_true (List.all_eq_true.mp hall c h)

/-- The loop goes on as long as there are characters of the alphabet. -/
theorem decodeLoop_eq (cs : List Char) (st : List Char × List UInt8) :
    decodeLoop cs.length cs st = (alphabetPart cs).foldl decodeChar st := by
  induction cs generalizing st with
  | nil => rfl
  | cons c cs ih =>
    have hlen : ((c :: cs).length : ℤ) ≠ 0 := by simp; omega
    have hnext : ((c :: cs).length : ℤ) - 1 = cs.length := by simp
    have hpad : base64_chars.contains c = true → c ≠ '=' := by
      rintro hc rfl
      revert hc
      decide
    rw [decodeLoop, hnext, is_base64_eq]
    unfold alphabetPart at ih ⊢
    rw [List.takeWhile_cons]
    cases hc : base64_chars.contains c with
    | true =>
      rw [if_pos ⟨hlen, hpad hc, rfl⟩, ih]
      rfl
    | false => simp

/-- The loop of `base64_decode` only adds to the bytes. -/
theorem decodeChar_foldl (cs group : List Char) (ret : List UInt8) :
    cs.foldl decodeChar (group, ret) =
      ((cs.foldl decodeChar (group, [])).1, ret ++ (cs.foldl decodeChar (group, [])).2) := by
  induction cs generalizing group ret with
  | nil => simp
  | cons c cs ih =>
    rw [List.foldl_cons, List.foldl_cons]
    match group with
    | [] | [_] | [_, _] | _ :: _ :: _ :: _ :: _ => exact ih _ _
    | [x, y, z] =>
      show cs.foldl decodeChar ([], ret ++ _) = _
      rw [ih [] (ret ++ _)]
      show _ = ((cs.foldl decodeChar ([], [] ++ _)).1, _ ++ (cs.foldl decodeChar ([], [] ++ _)).2)
      rw [ih [] ([] ++ _), List.nil_append, List.append_assoc]

/-- What `base64_decode` makes of alphabet characters. -/
def decodeAlphabet (p : List Char) : List UInt8 :=
  (p.foldl decodeChar ([], [])).2 ++ decodeRest (p.foldl decodeChar ([], [])).1

/-- The rest of the text is not looked at. -/
theorem base64_decode_eq (s : List Char) (h : s.length < 2 ^ 31) :
    base64_decode s = decodeAlphabet (alphabetPart s) := by
  have hcast : ((s.length : ℤ).bmod (2 ^ 32)) = s.length := by
    apply Int.bmod_eq_of_le <;> omega
  unfold base64_decode decodeAlphabet
  rw [hcast, decodeLoop_eq]
  generalize (alphabetPart s).foldl decodeChar ([], []) = st
  obtain ⟨group, ret⟩ := st
  cases group with
  | nil => exact (List.append_nil ret).symm
  | cons c cs => rfl

theorem decodeAlphabet_cons (a b c d : Char) (rest : List Char) :
    decodeAlphabet (a :: b :: c :: d :: rest) =
      char_array_3 (find a) (find b) (find c) (find d) ++ decodeAlphabet rest := by
  have hfold : (a :: b :: c :: d :: rest).foldl decodeChar ([], []) =
      rest.foldl decodeChar ([], [] ++ char_array_3 (find a) (find b) (find c) (find d)) := rfl
  unfold decodeAlphabet
  rw [hfold, decodeChar_foldl, List.nil_append, List.append_assoc]

theorem map_ofNat_of_map_toNat {l : List UInt8} {ns : List ℕ} (h : l.map UInt8.toNat = ns) :
    ns.map UInt8.ofNat = l := by
  rw [← h, List.map_map]
  exact List.map_id'' (fun a => UInt8.ofNat_toNat) l

/-- The bytes of full groups are read back, whatever bits follow them. -/
theorem map_ofNat_groups (l : List UInt8) (bs : List Bool) :
    (groups 8 ((l.map UInt8.toNat).flatMap (bits 8) ++ bs)).map UInt8.ofNat =
      l ++ (groups 8 bs).map UInt8.ofNat := by
  have hlt : ∀ n ∈ l.map UInt8.toNat, n < 2 ^ 8 := by
    intro n hn
    obtain ⟨a, -, rfl⟩ := List.mem_map.mp hn
    exact a.toNat_lt
  rw [groups_flatMap_bits (by decide) hlt, List.map_append, map_ofNat_of_map_toNat rfl]

/-- The masks and shifts of a full group put the bits of its characters together as they stand. -/
theorem decoded_cons {a b c d : Char} (ha : a ∈ base64_chars) (hb : b ∈ base64_chars)
    (hc : c ∈ base64_chars) (hd : d ∈ base64_chars) (rest : List Char) :
    decoded (a :: b :: c :: d :: rest) =
      char_array_3 (find a) (find b) (find c) (find d) ++ decoded rest := by
  have hbits := char_array_3_bits (sextet_lt ha) (sextet_lt hb) (sextet_lt hc) (sextet_lt hd)
  have hsplit : ((a :: b :: c :: d :: rest).map sextet).flatMap (bits 6) =
      ((char_array_3 (find a) (find b) (find c) (find d)).map UInt8.toNat).flatMap (bits 8) ++
        (rest.map sextet).flatMap (bits 6) := by
    rw [find_eq ha, find_eq hb, find_eq hc, find_eq hd, hbits]
    simp only [List.map_cons, List.flatMap_cons, List.append_assoc]
  unfold decoded
  rw [hsplit, map_ofNat_groups]

/-- Characters behind a text only add bytes behind its own. -/
theorem take_decoded_append (p q : List Char) {k : ℕ} (hk : 6 * p.length / 8 = k) :
    (decoded (p ++ q)).take k = decoded p := by
  have hlen : ((p.map sextet).flatMap (bits 6)).length / 8 = k := by
    rw [length_flatMap_bits, List.length_map, hk]
  unfold decoded
  rw [List.map_append, List.flatMap_append, ← List.map_take, ← hlen, take_groups_append]

theorem take_one_char_array_3 (a b c d c' d' : UInt8) :
    (char_array_3 a b c d).take 1 = (char_array_3 a b c' d').take 1 := rfl

theorem take_two_char_array_3 (a b c d d' : UInt8) :
    (char_array_3 a b c d).take 2 = (char_array_3 a b c d').take 2 := rfl

/-- An unfinished group is decoded as if zeros followed: the filler is in no byte that is kept. -/
theorem decodeAlphabet_eq_decoded (p : List Char) (hp : ∀ c ∈ p, c ∈ base64_chars) :
    decodeAlphabet p = decoded p := by
  have hzero : 'A' ∈ base64_chars := by decide
  have hnil : decoded [] = [] := rfl
  match p with
  | [] => rfl
  | [a] =>
    have htail : decodeAlphabet [a] = [] := rfl
    rw [htail, ← take_decoded_append [a] ['A'] (k := 0) (by simp), List.take_zero]
  | [a, b] =>
    have ha := hp a (by simp)
    have hb := hp b (by simp)
    have htail : decodeAlphabet [a, b] =
        (char_array_3 (find a) (find b) (find '\x00') (find '\x00')).take 1 := rfl
    rw [htail, ← take_decoded_append [a, b] ['A', 'A'] (k := 1) (by simp), List.cons_append,
      List.cons_append, List.nil_append, decoded_cons ha hb hzero hzero, hnil, List.append_nil]
    exact take_one_char_array_3 _ _ _ _ _ _
  | [a, b, c] =>
    have ha := hp a (by simp)
    have hb := hp b (by simp)
    have hc := hp c (by simp)
    have htail : decodeAlphabet [a, b, c] =
        (char_array_3 (find a) (find b) (find c) (find '\x00')).take 2 := rfl
    rw [htail, ← take_decoded_append [a, b, c] ['A'] (k := 2) (by simp), List.cons_append,
      List.cons_append, List.cons_append, List.nil_append, decoded_cons ha hb hc hzero, hnil,
      List.append_nil]
    exact take_two_char_array_3 _ _ _ _ _
  | a :: b :: c :: d :: rest =>
    have ha := hp a (by simp)
    have hb := hp b (by simp)
    have hc := hp c (by simp)
    have hd := hp d (by simp)
    have hrest : ∀ x ∈ rest, x ∈ base64_chars := fun x hx => hp x (by simp [hx])
    rw [decodeAlphabet_cons, decodeAlphabet_eq_decoded rest hrest, decoded_cons ha hb hc hd]

theorem mem_alphabetPart {s : List Char} : ∀ c ∈ alphabetPart s, c ∈ base64_chars := by
  intro c hc
  exact List.contains_iff_mem.mp (List.mem_takeWhile_imp hc)

theorem alphabetPart_self {p : List Char} (hp : ∀ c ∈ p, c ∈ base64_chars) : alphabetPart p = p :=
  List.takeWhile_eq_self_iff.mpr fun c hc => List.contains_iff_mem.mpr (hp c hc)

/-- `base64_decode` of any text. -/
theorem base64_decode_eq_decoded (s : List Char) (h : s.length < 2 ^ 31) :
    base64_decode s = decoded (alphabetPart s) := by
  rw [base64_decode_eq s h, decodeAlphabet_eq_decoded _ mem_alphabetPart]

theorem length_decoded (p : List Char) : (decoded p).length = 6 * p.length / 8 := by
  rw [decoded, List.length_map, length_groups, length_flatMap_bits, List.length_map]

/-- The text of an encoding in front of its padding, as numbers. -/
theorem sextet_getD {n : ℕ} (h : n < 64) :
    sextet (base64_chars.getD n '\x00') = n ∧ base64_chars.getD n '\x00' ∈ base64_chars := by
  have hall : ∀ n < 64, sextet (base64_chars.getD n '\x00') = n ∧
      base64_chars.getD n '\x00' ∈ base64_chars := by decide +kernel
  exact hall n h

theorem length_fill (bytes : List UInt8) :
    (fill 6 (octets bytes)).length = 6 * ((4 * bytes.length + 2) / 3) := by
  have hlen : (octets bytes).length = 8 * bytes.length := by
    rw [octets, length_flatMap_bits, List.length_map]
  unfold fill
  rw [List.length_append, List.length_replicate, hlen]
  omega

/-- An encoding has four characters for every three bytes begun. -/
theorem length_rfc4648 (bytes : List UInt8) :
    (rfc4648 bytes).length = 4 * ((bytes.length + 2) / 3) := by
  unfold rfc4648
  rw [List.length_append, List.length_replicate, List.length_map, length_groups, length_fill,
    Nat.mul_div_cancel_left _ (by decide)]
  omega

/-- An encoding is decoded to the bytes it was made from. -/
theorem decoded_rfc4648 (bytes : List UInt8) : decoded (alphabetPart (rfc4648 bytes)) = bytes := by
  let ns := groups 6 (fill 6 (octets bytes))
  let text := ns.map fun n => base64_chars.getD n '\x00'
  have hns : ∀ n ∈ ns, n < 64 := fun n hn => groups_lt hn
  have htext : ∀ c ∈ text, c ∈ base64_chars := by
    intro c hc
    obtain ⟨n, hn, rfl⟩ := List.mem_map.mp hc
    exact (sextet_getD (hns n hn)).2
  have hpad : alphabetPart (List.replicate ((4 - text.length % 4) % 4) '=') = [] := by
    cases (4 - text.length % 4) % 4 with
    | zero => rfl
    | succ k => rfl
  have htake : ∀ pad, alphabetPart (text ++ pad) = text ++ alphabetPart pad := fun pad =>
    List.takeWhile_append_of_pos fun c hc => List.contains_iff_mem.mpr (htext c hc)
  have halphabet : alphabetPart (rfc4648 bytes) = text := by
    rw [rfc4648, htake, hpad, List.append_nil]
  have hsextets : text.map sextet = ns := by
    rw [List.map_map]
    conv_rhs => rw [← List.map_id ns]
    exact List.map_congr_left fun n hn => (sextet_getD (hns n hn)).1
  have hrest : ∀ k < 8, groups 8 (List.replicate k false) = [] :=
    fun k hk => groups_of_short (by simpa using hk)
  rw [halphabet, decoded, hsextets, flatMap_groups (by decide) (length_fill bytes)]
  have hoctets := map_ofNat_groups bytes (List.replicate ((6 - (octets bytes).length % 6) % 6) false)
  rwa [hrest _ (by omega), List.map_nil, List.append_nil] at hoctets

/-- An encoding is as long as RFC 4648 says, and is decoded to its bytes. -/
theorem base64_encode_decode (bytes : List UInt8) (h : bytes.length < 2 ^ 30) :
    base64_encode bytes bytes.length = rfc4648 bytes ∧
      (base64_encode bytes bytes.length).length = 4 * ((bytes.length + 2) / 3) ∧
      base64_decode (base64_encode bytes bytes.length) = bytes := by
  have hlen := length_rfc4648 bytes
  have hshort : (rfc4648 bytes).length < 2 ^ 31 := by omega
  rw [base64_encode_eq_rfc4648, base64_decode_eq_decoded _ hshort]
  exact ⟨rfl, hlen, decoded_rfc4648 bytes⟩

theorem base64_encode_decode_four :
    base64_encode [77, 97, 110, 46] 4 = rfc4648 [77, 97, 110, 46] ∧
      (base64_encode [77, 97, 110, 46] 4).length = 4 * ((4 + 2) / 3) ∧
      base64_decode (base64_encode [77, 97, 110, 46] 4) = [77, 97, 110, 46] :=
  base64_encode_decode [77, 97, 110, 46] (by decide)

/-- A lone last character gives six bits, which make no byte. -/
theorem decoded_dropLast {p : List Char} (h : p.length % 4 = 1) : decoded p.dropLast = decoded p := by
  have hne : p ≠ [] := by
    rintro rfl
    exact absurd h (by decide)
  have hsplit := List.dropLast_append_getLast hne
  have hlen : p.dropLast.length = p.length - 1 := List.length_dropLast
  have hfull : ((p.dropLast.map sextet).flatMap (bits 6)).length = 8 * (6 * (p.length - 1) / 8) := by
    rw [length_flatMap_bits, List.length_map, hlen]
    omega
  conv_rhs => rw [← hsplit]
  unfold decoded
  rw [List.map_append, List.flatMap_append, groups_append_of_short hfull (by simp)]

/-- The text is encoded back to itself only if it is an encoding. -/
theorem base64_encode_decode_iff (s : List Char) (h : s.length < 2 ^ 31) :
    base64_encode (base64_decode s) (base64_decode s).length = s ↔ ∃ bytes, s = rfc4648 bytes := by
  rw [base64_encode_eq_rfc4648]
  constructor
  · intro hs
    exact ⟨base64_decode s, hs.symm⟩
  · rintro ⟨bytes, rfl⟩
    rw [base64_decode_eq_decoded _ h, decoded_rfc4648]

/-- The bytes of any text are those of the alphabet characters at its beginning. -/
theorem base64_decode_spec (s : List Char) (h : s.length < 2 ^ 31) :
    base64_decode s = decoded (alphabetPart s) ∧
      (base64_decode s).length = 6 * (alphabetPart s).length / 8 ∧
      base64_decode s = base64_decode (alphabetPart s) ∧
      ((alphabetPart s).length % 4 = 1 →
        base64_decode s = base64_decode (alphabetPart s).dropLast) ∧
      (base64_encode (base64_decode s) (base64_decode s).length = s ↔
        ∃ bytes, s = rfc4648 bytes) := by
  have hdecode := base64_decode_eq_decoded s h
  have hprefix : (alphabetPart s).length ≤ s.length := (List.takeWhile_prefix _).length_le
  have hself : alphabetPart (alphabetPart s) = alphabetPart s := alphabetPart_self mem_alphabetPart
  have hlast : alphabetPart (alphabetPart s).dropLast = (alphabetPart s).dropLast :=
    alphabetPart_self fun c hc => mem_alphabetPart c (List.mem_of_mem_dropLast hc)
  refine ⟨hdecode, ?_, ?_, ?_, base64_encode_decode_iff s h⟩
  · rw [hdecode, length_decoded]
  · rw [hdecode, base64_decode_eq_decoded _ (Nat.lt_of_le_of_lt hprefix h), hself]
  · intro hlone
    have hshort : (alphabetPart s).dropLast.length < 2 ^ 31 := by
      rw [List.length_dropLast]
      omega
    rw [hdecode, base64_decode_eq_decoded _ hshort, hlast, decoded_dropLast hlone]

theorem base64_decode_spec_padded :
    base64_decode "TWFuL*==".toList = decoded (alphabetPart "TWFuL*==".toList) ∧
      (base64_decode "TWFuL*==".toList).length =
        6 * (alphabetPart "TWFuL*==".toList).length / 8 ∧
      base64_decode "TWFuL*==".toList = base64_decode (alphabetPart "TWFuL*==".toList) ∧
      ((alphabetPart "TWFuL*==".toList).length % 4 = 1 → base64_decode "TWFuL*==".toList =
        base64_decode (alphabetPart "TWFuL*==".toList).dropLast) ∧
      (base64_encode (base64_decode "TWFuL*==".toList) (base64_decode "TWFuL*==".toList).length =
        "TWFuL*==".toList ↔ ∃ bytes, "TWFuL*==".toList = rfc4648 bytes) :=
  base64_decode_spec "TWFuL*==".toList (by decide)

end VisionSensor.Base64
