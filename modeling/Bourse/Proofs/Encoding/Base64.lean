import Bourse.Encoding.Base64
import Bourse.Http.Config
import Mathlib.Tactic

/-! # Base 64 and back

The characters of a group and its bytes determine each other, for groups of one, two and three
bytes alike (`oneByte?_eq_some_iff`, `twoBytes?_eq_some_iff`, `threeBytes_eq_iff`). So a text is
read, with padding or without, exactly if it is what the bytes are written as: each list of bytes
has one text (`decode?_eq_some_iff`, `decodeForLinks?_eq_some_iff`).

A text in base 64 has no character that the value of a header may not have, so that a digest can
always be sent in one (`isHeaderValue_encode`), and in the alphabet for links no point, so that it
can stand between points (`not_mem_encodeForLinks`). -/

namespace Bourse.Base64

/-! ### Alphabets -/

/-- The characters of an alphabet tell their values, and none of them is the padding. -/
structure Alphabet.Faithful (a : Alphabet) : Prop where
  value?_char : ∀ n < 64, a.value? (a.char n) = some n
  value?_pad : a.value? '=' = none

theorem faithful_standard : standard.Faithful := ⟨by decide, by decide⟩

theorem faithful_forLinks : forLinks.Faithful := ⟨by decide, by decide⟩

theorem char_le_iff {c d : Char} : c ≤ d ↔ c.toNat ≤ d.toNat := UInt32.le_iff_toNat_le

theorem ofNat_add_sub {c d : Char} (h : c ≤ d) :
    Char.ofNat (c.toNat + (d.toNat - c.toNat)) = d := by
  rw [Nat.add_sub_cancel' (char_le_iff.1 h), Char.ofNat_toNat]

/-- Only the character of a value has that value. -/
theorem Alphabet.value?_eq_some {a : Alphabet} {c : Char} {n : ℕ} (h : a.value? c = some n) :
    n < 64 ∧ a.char n = c := by
  have hA : 'A'.toNat = 65 := rfl
  have hZ : 'Z'.toNat = 90 := rfl
  have ha : 'a'.toNat = 97 := rfl
  have hz : 'z'.toNat = 122 := rfl
  have h0 : '0'.toNat = 48 := rfl
  have h9 : '9'.toNat = 57 := rfl
  unfold value? at h
  unfold char
  split_ifs at h with hupper hlower hdigit h62 h63 <;> rw [Option.some.injEq] at h <;> subst h
  · have hlast := char_le_iff.1 hupper.2
    rw [if_pos (by omega)]
    exact ⟨by omega, ofNat_add_sub hupper.1⟩
  · have hlast := char_le_iff.1 hlower.2
    rw [if_neg (by omega), if_pos (by omega), Nat.add_sub_cancel]
    exact ⟨by omega, ofNat_add_sub hlower.1⟩
  · have hlast := char_le_iff.1 hdigit.2
    rw [if_neg (by omega), if_neg (by omega), if_pos (by omega), Nat.add_sub_cancel]
    exact ⟨by omega, ofNat_add_sub hdigit.1⟩
  · exact ⟨by decide, h62.symm⟩
  · exact ⟨by decide, h63.symm⟩

theorem Alphabet.Faithful.char_ne_pad {a : Alphabet} (ha : a.Faithful) {n : ℕ} (h : n < 64) :
    a.char n ≠ '=' := by
  intro heq
  have hvalue := ha.value?_char n h
  rw [heq, ha.value?_pad] at hvalue
  cases hvalue

/-! ### Groups -/

section
variable {p q r s : ℕ} {bs : List UInt8}

theorem toNat_ofNat_of_lt {n : ℕ} (h : n < 256) : (UInt8.ofNat n).toNat = n :=
  UInt8.toNat_ofNat_of_lt' h

/-- The six bits of two characters that begin a byte and leave nothing over. -/
theorem oneByte?_eq_some_iff (hp : p < 64) (hq : q < 64) :
    oneByte? p q = some bs ↔ ∃ x : UInt8, bs = [x] ∧ p = x.toNat / 4 ∧ q = x.toNat % 4 * 16 := by
  unfold oneByte?
  constructor
  · intro h
    split_ifs at h with hrest
    rw [Option.some.injEq] at h
    refine ⟨_, h.symm, ?_⟩
    rw [toNat_ofNat_of_lt (by omega)]
    omega
  · rintro ⟨x, rfl, rfl, rfl⟩
    have hx : x.toNat < 256 := x.toNat_lt
    rw [if_pos (by omega)]
    congr 2
    rw [← UInt8.toNat_inj, toNat_ofNat_of_lt (by omega)]
    omega

theorem twoBytes?_eq_some_iff (hp : p < 64) (hq : q < 64) (hr : r < 64) :
    twoBytes? p q r = some bs ↔ ∃ x y : UInt8, bs = [x, y] ∧ p = x.toNat / 4 ∧
      q = x.toNat % 4 * 16 + y.toNat / 16 ∧ r = y.toNat % 16 * 4 := by
  unfold twoBytes?
  constructor
  · intro h
    split_ifs at h with hrest
    rw [Option.some.injEq] at h
    refine ⟨_, _, h.symm, ?_⟩
    rw [toNat_ofNat_of_lt (by omega), toNat_ofNat_of_lt (by omega)]
    omega
  · rintro ⟨x, y, rfl, rfl, rfl, rfl⟩
    have hx : x.toNat < 256 := x.toNat_lt
    have hy : y.toNat < 256 := y.toNat_lt
    rw [if_pos (by omega)]
    congr 3
    · rw [← UInt8.toNat_inj, toNat_ofNat_of_lt (by omega)]
      omega
    · rw [← UInt8.toNat_inj, toNat_ofNat_of_lt (by omega)]
      omega

theorem threeBytes_eq_iff (hp : p < 64) (hq : q < 64) (hr : r < 64) (hs : s < 64) :
    threeBytes p q r s = bs ↔ ∃ x y z : UInt8, bs = [x, y, z] ∧ p = x.toNat / 4 ∧
      q = x.toNat % 4 * 16 + y.toNat / 16 ∧ r = y.toNat % 16 * 4 + z.toNat / 64 ∧
      s = z.toNat % 64 := by
  unfold threeBytes
  constructor
  · rintro rfl
    refine ⟨_, _, _, rfl, ?_⟩
    rw [toNat_ofNat_of_lt (by omega), toNat_ofNat_of_lt (by omega), toNat_ofNat_of_lt (by omega)]
    omega
  · rintro ⟨x, y, z, rfl, rfl, rfl, rfl, rfl⟩
    have hx : x.toNat < 256 := x.toNat_lt
    have hy : y.toNat < 256 := y.toNat_lt
    have hz : z.toNat < 256 := z.toNat_lt
    congr 3
    · rw [← UInt8.toNat_inj, toNat_ofNat_of_lt (by omega)]
      omega
    · rw [← UInt8.toNat_inj, toNat_ofNat_of_lt (by omega)]
      omega
    · rw [← UInt8.toNat_inj, toNat_ofNat_of_lt (by omega)]
      omega

end

/-! ### Reading -/

section
variable {a : Alphabet} {cs : List Char} {bs : List UInt8}

/-- **What is read of four characters** of padded text, and of what follows them. -/
theorem decodePadded?_cons_eq_some_iff {c1 c2 c3 c4 : Char} :
    decodePadded? a (c1 :: c2 :: c3 :: c4 :: cs) = some bs ↔
      ∃ p q, a.value? c1 = some p ∧ a.value? c2 = some q ∧
        (c3 = '=' ∧ c4 = '=' ∧ cs = [] ∧ oneByte? p q = some bs ∨
          c3 ≠ '=' ∧ ∃ r, a.value? c3 = some r ∧
            (c4 = '=' ∧ cs = [] ∧ twoBytes? p q r = some bs ∨
              c4 ≠ '=' ∧ ∃ s more, a.value? c4 = some s ∧ decodePadded? a cs = some more ∧
                threeBytes p q r s ++ more = bs)) := by
  rw [decodePadded?]
  constructor
  · intro h
    obtain ⟨p, hp, h⟩ := Option.bind_eq_some_iff.1 h
    obtain ⟨q, hq, h⟩ := Option.bind_eq_some_iff.1 h
    refine ⟨p, q, hp, hq, ?_⟩
    by_cases h3 : c3 = '='
    · rw [if_pos h3] at h
      split_ifs at h with h4
      exact .inl ⟨h3, h4.1, h4.2, h⟩
    · rw [if_neg h3] at h
      obtain ⟨r, hr, h⟩ := Option.bind_eq_some_iff.1 h
      refine .inr ⟨h3, r, hr, ?_⟩
      split_ifs at h with h4 hnil
      · exact .inl ⟨h4, hnil, h⟩
      · obtain ⟨s, hs, h⟩ := Option.bind_eq_some_iff.1 h
        obtain ⟨more, hmore, h⟩ := Option.bind_eq_some_iff.1 h
        exact .inr ⟨h4, s, more, hs, hmore, Option.some.inj h⟩
  · rintro ⟨p, q, hp, hq, h⟩
    refine Option.bind_eq_some_iff.2 ⟨p, hp, Option.bind_eq_some_iff.2 ⟨q, hq, ?_⟩⟩
    rcases h with ⟨h3, h4, hnil, h⟩ | ⟨h3, r, hr, ⟨h4, hnil, h⟩ | ⟨h4, s, more, hs, hmore, h⟩⟩
    · rw [if_pos h3, if_pos ⟨h4, hnil⟩, h]
    · rw [if_neg h3]
      refine Option.bind_eq_some_iff.2 ⟨r, hr, ?_⟩
      rw [if_pos h4, if_pos hnil, h]
    · rw [if_neg h3]
      refine Option.bind_eq_some_iff.2 ⟨r, hr, ?_⟩
      rw [if_neg h4, hs, hmore, ← h]
      rfl

theorem decodePadded?_encodeWith (ha : a.Faithful) (bs : List UInt8) :
    decodePadded? a (encodeWith a ['='] bs) = some bs := by
  fun_induction encodeWith a ['='] bs with
  | case1 => rfl
  | case2 x =>
    have hx : x.toNat < 256 := x.toNat_lt
    exact decodePadded?_cons_eq_some_iff.2 ⟨_, _, ha.value?_char _ (by omega),
      ha.value?_char _ (by omega), .inl ⟨rfl, rfl, rfl,
        (oneByte?_eq_some_iff (by omega) (by omega)).2 ⟨x, rfl, rfl, rfl⟩⟩⟩
  | case3 x y =>
    have hx : x.toNat < 256 := x.toNat_lt
    have hy : y.toNat < 256 := y.toNat_lt
    have hlast : y.toNat % 16 * 4 < 64 := by omega
    exact decodePadded?_cons_eq_some_iff.2 ⟨_, _, ha.value?_char _ (by omega),
      ha.value?_char _ (by omega), .inr ⟨ha.char_ne_pad hlast, _, ha.value?_char _ hlast,
        .inl ⟨rfl, rfl, (twoBytes?_eq_some_iff (by omega) (by omega) hlast).2
          ⟨x, y, rfl, rfl, rfl, rfl⟩⟩⟩⟩
  | case4 x y z rest ih =>
    have hx : x.toNat < 256 := x.toNat_lt
    have hy : y.toNat < 256 := y.toNat_lt
    have hz : z.toNat < 256 := z.toNat_lt
    have hthird : y.toNat % 16 * 4 + z.toNat / 64 < 64 := by omega
    have hlast : z.toNat % 64 < 64 := by omega
    have hgroup := (threeBytes_eq_iff (by omega) (by omega) hthird hlast).2
      ⟨x, y, z, rfl, rfl, rfl, rfl, rfl⟩
    exact decodePadded?_cons_eq_some_iff.2 ⟨_, _, ha.value?_char _ (by omega),
      ha.value?_char _ (by omega), .inr ⟨ha.char_ne_pad hthird, _, ha.value?_char _ hthird,
        .inr ⟨ha.char_ne_pad hlast, _, rest, ha.value?_char _ hlast, ih, by rw [hgroup]; rfl⟩⟩⟩

/-- Padded text that is read is what the bytes are written as. -/
theorem eq_encodeWith_of_decodePadded? (h : decodePadded? a cs = some bs) :
    cs = encodeWith a ['='] bs := by
  induction cs using decodePadded?.induct generalizing bs with
  | case1 =>
    cases h
    rfl
  | case2 c1 c2 c3 c4 rest ih =>
    obtain ⟨p, q, h1, h2, hlater⟩ := decodePadded?_cons_eq_some_iff.1 h
    obtain ⟨hp, rfl⟩ := Alphabet.value?_eq_some h1
    obtain ⟨hq, rfl⟩ := Alphabet.value?_eq_some h2
    rcases hlater with ⟨rfl, rfl, rfl, hgroup⟩ | ⟨-, r, h3, hlater⟩
    · obtain ⟨x, rfl, rfl, rfl⟩ := (oneByte?_eq_some_iff hp hq).1 hgroup
      rfl
    · obtain ⟨hr, rfl⟩ := Alphabet.value?_eq_some h3
      rcases hlater with ⟨rfl, rfl, hgroup⟩ | ⟨-, s, more, h4, hmore, rfl⟩
      · obtain ⟨x, y, rfl, rfl, rfl, rfl⟩ := (twoBytes?_eq_some_iff hp hq hr).1 hgroup
        rfl
      · obtain ⟨hs, rfl⟩ := Alphabet.value?_eq_some h4
        obtain ⟨x, y, z, hgroup, rfl, rfl, rfl, rfl⟩ := (threeBytes_eq_iff hp hq hr hs).1 rfl
        rw [hgroup, ih hmore]
        rfl
  | case3 cs hnil hfour =>
    rw [decodePadded?] at h
    · cases h
    · exact hnil
    · exact hfour

/-- **What is read of four characters** of text without padding, and of what follows them. -/
theorem decodeBare?_cons_eq_some_iff {c1 c2 c3 c4 : Char} :
    decodeBare? a (c1 :: c2 :: c3 :: c4 :: cs) = some bs ↔
      ∃ p q r s more, a.value? c1 = some p ∧ a.value? c2 = some q ∧ a.value? c3 = some r ∧
        a.value? c4 = some s ∧ decodeBare? a cs = some more ∧ threeBytes p q r s ++ more = bs := by
  rw [decodeBare?]
  constructor
  · intro h
    obtain ⟨p, hp, h⟩ := Option.bind_eq_some_iff.1 h
    obtain ⟨q, hq, h⟩ := Option.bind_eq_some_iff.1 h
    obtain ⟨r, hr, h⟩ := Option.bind_eq_some_iff.1 h
    obtain ⟨s, hs, h⟩ := Option.bind_eq_some_iff.1 h
    obtain ⟨more, hmore, h⟩ := Option.bind_eq_some_iff.1 h
    exact ⟨p, q, r, s, more, hp, hq, hr, hs, hmore, Option.some.inj h⟩
  · rintro ⟨p, q, r, s, more, hp, hq, hr, hs, hmore, rfl⟩
    rw [hp, hq, hr, hs, hmore]
    rfl

theorem decodeBare?_encodeWith (ha : a.Faithful) (bs : List UInt8) :
    decodeBare? a (encodeWith a [] bs) = some bs := by
  fun_induction encodeWith a [] bs with
  | case1 => rfl
  | case2 x =>
    have hx : x.toNat < 256 := x.toNat_lt
    show decodeBare? a [_, _] = _
    rw [decodeBare?, ha.value?_char _ (by omega), ha.value?_char _ (by omega)]
    exact (oneByte?_eq_some_iff (by omega) (by omega)).2 ⟨x, rfl, rfl, rfl⟩
  | case3 x y =>
    have hx : x.toNat < 256 := x.toNat_lt
    have hy : y.toNat < 256 := y.toNat_lt
    rw [decodeBare?, ha.value?_char _ (by omega), ha.value?_char _ (by omega),
      ha.value?_char _ (by omega)]
    exact (twoBytes?_eq_some_iff (by omega) (by omega) (by omega)).2 ⟨x, y, rfl, rfl, rfl, rfl⟩
  | case4 x y z rest ih =>
    have hx : x.toNat < 256 := x.toNat_lt
    have hy : y.toNat < 256 := y.toNat_lt
    have hz : z.toNat < 256 := z.toNat_lt
    have hgroup := (threeBytes_eq_iff (by omega) (by omega) (by omega) (by omega)).2
      ⟨x, y, z, rfl, rfl, rfl, rfl, rfl⟩
    exact decodeBare?_cons_eq_some_iff.2 ⟨_, _, _, _, rest, ha.value?_char _ (by omega),
      ha.value?_char _ (by omega), ha.value?_char _ (by omega), ha.value?_char _ (by omega), ih,
      by rw [hgroup]; rfl⟩

/-- Text without padding that is read is what the bytes are written as. -/
theorem eq_encodeWith_of_decodeBare? (h : decodeBare? a cs = some bs) :
    cs = encodeWith a [] bs := by
  induction cs using decodeBare?.induct generalizing bs with
  | case1 =>
    cases h
    rfl
  | case2 c1 c2 =>
    obtain ⟨p, h1, hlater⟩ := Option.bind_eq_some_iff.1 h
    obtain ⟨q, h2, hgroup⟩ := Option.bind_eq_some_iff.1 hlater
    obtain ⟨hp, rfl⟩ := Alphabet.value?_eq_some h1
    obtain ⟨hq, rfl⟩ := Alphabet.value?_eq_some h2
    obtain ⟨x, rfl, rfl, rfl⟩ := (oneByte?_eq_some_iff hp hq).1 hgroup
    rfl
  | case3 c1 c2 c3 =>
    obtain ⟨p, h1, hlater⟩ := Option.bind_eq_some_iff.1 h
    obtain ⟨q, h2, hlater⟩ := Option.bind_eq_some_iff.1 hlater
    obtain ⟨r, h3, hgroup⟩ := Option.bind_eq_some_iff.1 hlater
    obtain ⟨hp, rfl⟩ := Alphabet.value?_eq_some h1
    obtain ⟨hq, rfl⟩ := Alphabet.value?_eq_some h2
    obtain ⟨hr, rfl⟩ := Alphabet.value?_eq_some h3
    obtain ⟨x, y, rfl, rfl, rfl, rfl⟩ := (twoBytes?_eq_some_iff hp hq hr).1 hgroup
    rfl
  | case4 c1 c2 c3 c4 rest ih =>
    obtain ⟨p, q, r, s, more, h1, h2, h3, h4, hmore, rfl⟩ := decodeBare?_cons_eq_some_iff.1 h
    obtain ⟨hp, rfl⟩ := Alphabet.value?_eq_some h1
    obtain ⟨hq, rfl⟩ := Alphabet.value?_eq_some h2
    obtain ⟨hr, rfl⟩ := Alphabet.value?_eq_some h3
    obtain ⟨hs, rfl⟩ := Alphabet.value?_eq_some h4
    obtain ⟨x, y, z, hgroup, rfl, rfl, rfl, rfl⟩ := (threeBytes_eq_iff hp hq hr hs).1 rfl
    rw [hgroup, ih hmore]
    rfl
  | case5 cs hnil htwo hthree hfour =>
    rw [decodeBare?] at h
    · cases h
    · exact hnil
    · exact htwo
    · exact hthree
    · exact hfour

end

/-- **Padded text** is read exactly if it is what the bytes are written as. -/
theorem decode?_eq_some_iff {s : String} {bs : List UInt8} :
    decode? s = some bs ↔ s = encode bs := by
  constructor
  · intro h
    rw [encode, ← eq_encodeWith_of_decodePadded? h, String.ofList_toList]
  · rintro rfl
    rw [decode?, encode, String.toList_ofList, decodePadded?_encodeWith faithful_standard]

/-- **Text for links** is read exactly if it is what the bytes are written as. -/
theorem decodeForLinks?_eq_some_iff {s : String} {bs : List UInt8} :
    decodeForLinks? s = some bs ↔ s = encodeForLinks bs := by
  constructor
  · intro h
    rw [encodeForLinks, ← eq_encodeWith_of_decodeBare? h, String.ofList_toList]
  · rintro rfl
    rw [decodeForLinks?, encodeForLinks, String.toList_ofList,
      decodeBare?_encodeWith faithful_forLinks]

/-- Each group of three bytes, the last one perhaps incomplete, has four characters. -/
theorem length_encode (bs : List UInt8) : (encode bs).length = 4 * ((bs.length + 2) / 3) := by
  rw [encode, String.length_ofList]
  fun_induction encodeWith standard ['='] bs with
  | case1 => rfl
  | case2 x => simp
  | case3 x y => simp
  | case4 x y z rest ih =>
    simp only [List.length_cons, ih]
    omega

/-! ### Characters -/

/-- Six bits have one of 64 characters, and what is more has the last one. -/
theorem Alphabet.char_cases (a : Alphabet) {P : Char → Prop} (h : ∀ n < 64, P (a.char n)) (n : ℕ) :
    P (a.char n) := by
  by_cases hn : n < 64
  · exact h n hn
  · have hlast : a.char n = a.char 63 := by
      simp only [char]
      rw [if_neg (by omega), if_neg (by omega), if_neg (by omega), if_neg (by omega)]
      rfl
    rw [hlast]
    exact h 63 (by decide)

/-- What a text in base 64 is made of. -/
theorem mem_encodeWith {a : Alphabet} {pad : List Char} {bs : List UInt8} {c : Char}
    (h : c ∈ encodeWith a pad bs) : (∃ n, c = a.char n) ∨ c ∈ pad := by
  fun_induction encodeWith a pad bs with
  | case1 => cases h
  | case2 x =>
    simp only [List.mem_cons, List.mem_append] at h
    grind
  | case3 x y =>
    simp only [List.mem_cons] at h
    grind
  | case4 x y z rest ih =>
    simp only [List.mem_cons] at h
    grind

theorem isHeaderChar_char (n : ℕ) : isHeaderChar (standard.char n) = true :=
  standard.char_cases (P := (isHeaderChar · = true)) (by decide) n

/-- **A digest in base 64** can be sent in a header. -/
theorem isHeaderValue_encode (bs : List UInt8) : isHeaderValue (encode bs) = true := by
  rw [isHeaderValue, encode, String.toList_ofList, List.all_eq_true]
  intro c hc
  rcases mem_encodeWith hc with ⟨n, rfl⟩ | hpad
  · exact isHeaderChar_char n
  · rw [List.mem_singleton.1 hpad]
    rfl

/-- **A point** does not occur in text for links. -/
theorem not_mem_encodeForLinks (bs : List UInt8) : '.' ∉ (encodeForLinks bs).toList := by
  rw [encodeForLinks, String.toList_ofList]
  intro hmem
  rcases mem_encodeWith hmem with ⟨n, hn⟩ | hpad
  · exact forLinks.char_cases (P := ('.' ≠ ·)) (by decide) n hn
  · cases hpad

end Bourse.Base64
