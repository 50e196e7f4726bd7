import Bourse.Text.Utf8
import Mathlib.Tactic

/-! # Bytes and back

Reading the UTF-8 bytes of a text gives the text (`decodeLossy_bytes`). The reader keeps a code
point under way and the range of the next byte; a character of several bytes goes through it step by
step, and the ranges of the first step exclude just the code points that no character has. The
characters below 128 have one byte each (`byteLength_eq_length`). -/

namespace Bourse.Text

/-- A byte in the range of what is pending goes on with it. -/
theorem decodeFrom_some {p : Pending} {n : ℕ} (bs : List UInt8) (hlow : p.low ≤ n)
    (hhigh : n ≤ p.high) (h256 : n < 256) :
    decodeFrom (some p) (UInt8.ofNat n :: bs) =
      if p.missing ≤ 1 then Char.ofNat (p.code * 64 + n % 64) :: decodeFrom none bs
      else decodeFrom (some ⟨p.missing - 1, p.code * 64 + n % 64, 0x80, 0xBF⟩) bs := by
  have hn : (UInt8.ofNat n).toNat = n := UInt8.toNat_ofNat_of_lt' h256
  have hrange : (decide (p.low ≤ n) && decide (n ≤ p.high)) = true := by simp [hlow, hhigh]
  rw [decodeFrom, readByte, hn, if_pos hrange]
  by_cases h : p.missing ≤ 1
  · rw [if_pos h, if_pos h]
    rfl
  · rw [if_neg h, if_neg h]
    rfl

/-- The last byte of a character. -/
theorem decodeFrom_last {code low high : ℕ} {n : ℕ} (bs : List UInt8) (hlow : low ≤ n)
    (hhigh : n ≤ high) (h256 : n < 256) :
    decodeFrom (some ⟨1, code, low, high⟩) (UInt8.ofNat n :: bs) =
      Char.ofNat (code * 64 + n % 64) :: decodeFrom none bs := by
  rw [decodeFrom_some bs hlow hhigh h256]
  rfl

/-- A byte before the last one. -/
theorem decodeFrom_more {missing code low high : ℕ} {n : ℕ} (bs : List UInt8) (hlow : low ≤ n)
    (hhigh : n ≤ high) (h256 : n < 256) :
    decodeFrom (some ⟨missing + 2, code, low, high⟩) (UInt8.ofNat n :: bs) =
      decodeFrom (some ⟨missing + 1, code * 64 + n % 64, 0x80, 0xBF⟩) bs := by
  rw [decodeFrom_some bs hlow hhigh h256, if_neg (by show ¬ missing + 2 ≤ 1; omega)]
  rfl

/-! ### First bytes -/

theorem decodeFrom_none {n : ℕ} {p : Pending} (bs : List UInt8)
    (h : Lead.ofByte (UInt8.ofNat n) = .opens p) :
    decodeFrom none (UInt8.ofNat n :: bs) = decodeFrom (some p) bs := by
  rw [decodeFrom, readByte, startChar, h]
  rfl

theorem ofByte_one {n : ℕ} (h : n < 0x80) :
    Lead.ofByte (UInt8.ofNat n) = .whole (Char.ofNat n) := by
  have hn : (UInt8.ofNat n).toNat = n := UInt8.toNat_ofNat_of_lt' (by omega : n < 256)
  rw [Lead.ofByte, hn, if_pos h]

theorem ofByte_two {n : ℕ} (h : 0xC2 ≤ n) (h' : n < 0xE0) :
    Lead.ofByte (UInt8.ofNat n) = .opens ⟨1, n - 0xC0, 0x80, 0xBF⟩ := by
  have hn : (UInt8.ofNat n).toNat = n := UInt8.toNat_ofNat_of_lt' (by omega : n < 256)
  rw [Lead.ofByte, hn, if_neg (by omega), if_neg (by omega), if_pos h']

theorem ofByte_three {n : ℕ} (h : 0xE0 ≤ n) (h' : n < 0xF0) :
    Lead.ofByte (UInt8.ofNat n) = .opens ⟨2, n - 0xE0, if n = 0xE0 then 0xA0 else 0x80,
      if n = 0xED then 0x9F else 0xBF⟩ := by
  have hn : (UInt8.ofNat n).toNat = n := UInt8.toNat_ofNat_of_lt' (by omega : n < 256)
  rw [Lead.ofByte, hn, if_neg (by omega), if_neg (by omega), if_neg (by omega), if_pos h']

theorem ofByte_four {n : ℕ} (h : 0xF0 ≤ n) (h' : n < 0xF5) :
    Lead.ofByte (UInt8.ofNat n) = .opens ⟨3, n - 0xF0, if n = 0xF0 then 0x90 else 0x80,
      if n = 0xF4 then 0x8F else 0xBF⟩ := by
  have hn : (UInt8.ofNat n).toNat = n := UInt8.toNat_ofNat_of_lt' (by omega : n < 256)
  rw [Lead.ofByte, hn, if_neg (by omega), if_neg (by omega), if_neg (by omega),
    if_neg (by omega), if_pos h']

/-! ### Characters -/

/-- **The bytes of one character** are read as that character. -/
theorem decodeFrom_utf8EncodeChar (c : Char) (bs : List UInt8) :
    decodeFrom none (String.utf8EncodeChar c ++ bs) = c :: decodeFrom none bs := by
  have hvalid : c.toNat < 0xD800 ∨ 0xDFFF < c.toNat ∧ c.toNat < 0x110000 := c.valid
  have hback : Char.ofNat c.toNat = c := Char.ofNat_toNat c
  unfold String.utf8EncodeChar
  generalize hv : c.val.toNat = v
  have hcv : c.toNat = v := hv
  rw [hcv] at hvalid hback
  dsimp only
  split_ifs with h1 h2 h3
  · show decodeFrom none (UInt8.ofNat v :: bs) = _
    rw [decodeFrom, readByte, startChar, ofByte_one (by omega), hback]
    rfl
  · show decodeFrom none (UInt8.ofNat (v / 64 % 32 + 0xC0) :: UInt8.ofNat (v % 64 + 0x80) :: bs) = _
    rw [decodeFrom_none _ (ofByte_two (by omega) (by omega)),
      decodeFrom_last _ (by omega) (by omega) (by omega)]
    have hcode : (v / 64 % 32 + 0xC0 - 0xC0) * 64 + (v % 64 + 0x80) % 64 = v := by omega
    rw [hcode, hback]
  · show decodeFrom none (UInt8.ofNat (v / 4096 % 16 + 0xE0) :: UInt8.ofNat (v / 64 % 64 + 0x80) ::
      UInt8.ofNat (v % 64 + 0x80) :: bs) = _
    -- after `0xE0` the second byte is not small, since two bytes did not do; after `0xED` it is not
    -- large, since there are no characters from `0xD800` to `0xDFFF`
    rw [decodeFrom_none _ (ofByte_three (by omega) (by omega)),
      decodeFrom_more _ (by split_ifs <;> omega) (by split_ifs <;> omega) (by omega),
      decodeFrom_last _ (by omega) (by omega) (by omega)]
    have hcode : ((v / 4096 % 16 + 0xE0 - 0xE0) * 64 + (v / 64 % 64 + 0x80) % 64) * 64
        + (v % 64 + 0x80) % 64 = v := by omega
    rw [hcode, hback]
  · show decodeFrom none (UInt8.ofNat (v / 262144 % 8 + 0xF0) ::
      UInt8.ofNat (v / 4096 % 64 + 0x80) :: UInt8.ofNat (v / 64 % 64 + 0x80) ::
      UInt8.ofNat (v % 64 + 0x80) :: bs) = _
    -- the same holds after `0xF0` and, as `0x10FFFF` is the last code point, after `0xF4`
    rw [decodeFrom_none _ (ofByte_four (by omega) (by omega)),
      decodeFrom_more _ (by split_ifs <;> omega) (by split_ifs <;> omega) (by omega),
      decodeFrom_more _ (by omega) (by omega) (by omega),
      decodeFrom_last _ (by omega) (by omega) (by omega)]
    have hcode : (((v / 262144 % 8 + 0xF0 - 0xF0) * 64 + (v / 4096 % 64 + 0x80) % 64) * 64
        + (v / 64 % 64 + 0x80) % 64) * 64 + (v % 64 + 0x80) % 64 = v := by omega
    rw [hcode, hback]

/-- **The bytes of a text** are read as that text. -/
theorem decodeLossy_bytes (s : String) : decodeLossy (bytes s) = s := by
  have hlist : ∀ cs : List Char, decodeFrom none (encodeUtf8 cs) = cs := by
    intro cs
    induction cs with
    | nil => rfl
    | cons c cs ih =>
      show decodeFrom none (String.utf8EncodeChar c ++ encodeUtf8 cs) = _
      rw [decodeFrom_utf8EncodeChar, ih]
  rw [decodeLossy, bytes, hlist, String.ofList_toList]

/-- The bytes of a text are those of its characters. -/
theorem byteLength_toList (s : String) : byteLength s.toList = s.utf8ByteSize := by
  have hlist : ∀ cs : List Char, byteLength cs = (String.ofList cs).utf8ByteSize := by
    intro cs
    induction cs with
    | nil => rfl
    | cons c cs ih =>
      rw [byteLength, ih, String.ofList_cons, String.utf8ByteSize_append,
        String.utf8ByteSize_singleton]
  rw [hlist, String.ofList_toList]

/-- Characters of seven bits take one byte each. -/
theorem byteLength_eq_length {cs : List Char} (h : ∀ c ∈ cs, c.toNat < 128) :
    byteLength cs = cs.length := by
  induction cs with
  | nil => rfl
  | cons c cs ih =>
    have hc : c.utf8Size = 1 := by
      have hle : c.val ≤ 0x7F := by
        have := h c List.mem_cons_self
        rw [UInt32.le_iff_toNat_le]
        exact Nat.le_of_lt_succ this
      rw [Char.utf8Size]
      simp [hle]
    rw [byteLength, hc, ih fun d hd => h d (List.mem_cons_of_mem _ hd), List.length_cons,
      Nat.add_comm]

end Bourse.Text
