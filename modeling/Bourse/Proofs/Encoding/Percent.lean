import Bourse.Encoding.Percent
import Bourse.Proofs.Encoding.Hex
import Bourse.Proofs.Text.Utf8

/-! # Percent encoding and back

An encoded text reads as what it was (`decode?_encode`), and it has no characters but plain ones and
percent signs (`mem_encode`), so that it can stand between separators. -/

namespace Bourse

namespace Percent

/-! ### Reading -/

theorem decodeBytes?_encodeByte (b : UInt8) (cs : List Char) :
    decodeBytes? (encodeByte b ++ cs) = (decodeBytes? cs).map fun bs => b :: bs := by
  have hb : b.toNat < 256 := b.toNat_lt
  show decodeBytes? ('%' :: Hex.capital (b.toNat / 16) :: Hex.capital (b.toNat % 16) :: cs) = _
  rw [decodeBytes?, Hex.value?_capital _ (by omega), Hex.value?_capital _ (by omega)]
  show ((decodeBytes? cs).bind fun rest => some (UInt8.ofNat _ :: rest)) = _
  rw [Hex.ofNat_halves]
  cases decodeBytes? cs <;> rfl

theorem decodeBytes?_encodeBytes (bs : List UInt8) (cs : List Char) :
    decodeBytes? (bs.flatMap encodeByte ++ cs) = (decodeBytes? cs).map fun rest => bs ++ rest := by
  induction bs with
  | nil => simp
  | cons b bs ih =>
    rw [List.flatMap_cons, List.append_assoc, decodeBytes?_encodeByte, ih, Option.map_map]
    rfl

theorem decodeBytes?_cons {c : Char} (h : c ≠ '%') (cs : List Char) :
    decodeBytes? (c :: cs) = (decodeBytes? cs).map fun bs => String.utf8EncodeChar c ++ bs := by
  rw [decodeBytes?]
  · rw [if_neg h]
    cases decodeBytes? cs <;> rfl
  · rintro a b rest rfl
    exact absurd rfl h

theorem ne_percent_of_isPlain {c : Char} (h : isPlain c = true) : c ≠ '%' := by
  rintro rfl
  revert h
  decide

theorem decodeBytes?_encodeChar (c : Char) (cs : List Char) :
    decodeBytes? (encodeChar c ++ cs)
      = (decodeBytes? cs).map fun bs => String.utf8EncodeChar c ++ bs := by
  unfold encodeChar
  split
  · rename_i hplain
    exact decodeBytes?_cons (ne_percent_of_isPlain hplain) cs
  · exact decodeBytes?_encodeBytes _ cs

/-- **An encoded text reads as what it was.** -/
theorem decode?_encode (s : String) : decode? (encode s) = some s := by
  have hlist : ∀ cs : List Char,
      decodeBytes? (cs.flatMap encodeChar) = some (Text.encodeUtf8 cs) := by
    intro cs
    induction cs with
    | nil => rfl
    | cons c cs ih =>
      rw [List.flatMap_cons, decodeBytes?_encodeChar, ih]
      rfl
  unfold decode? encode
  rw [String.toList_ofList, hlist, Option.map_some]
  exact congrArg some (Text.decodeLossy_bytes s)

/-! ### Characters -/

theorem isPlain_capital : ∀ n < 16, isPlain (Hex.capital n) = true := by decide

/-- What an encoded text is made of. -/
theorem mem_encode {s : String} {c : Char} (h : c ∈ (encode s).toList) :
    c = '%' ∨ isPlain c = true := by
  unfold encode at h
  rw [String.toList_ofList, List.mem_flatMap] at h
  obtain ⟨d, -, hd⟩ := h
  unfold encodeChar at hd
  split at hd
  · rename_i hplain
    rw [List.mem_singleton] at hd
    exact .inr (hd ▸ hplain)
  · obtain ⟨b, -, hb⟩ := List.mem_flatMap.1 hd
    have hlt : b.toNat < 256 := b.toNat_lt
    simp only [encodeByte, List.mem_cons, List.not_mem_nil, or_false] at hb
    rcases hb with rfl | rfl | rfl
    · exact .inl rfl
    · exact .inr (isPlain_capital _ (by omega))
    · exact .inr (isPlain_capital _ (by omega))

/-- A separator does not occur in an encoded text. -/
theorem not_mem_encode (s : String) {sep : Char} (h : sep ≠ '%') (h' : isPlain sep = false) :
    sep ∉ (encode s).toList := by
  intro hmem
  rcases mem_encode hmem with heq | hplain
  · exact h heq
  · rw [h'] at hplain
    cases hplain

end Percent

end Bourse
