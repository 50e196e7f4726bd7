import Bourse.Power

/-! # Whole numbers as text

Printing is the shortest decimal numeral. Reading takes digits with an optional sign and nothing
else, and refuses what the range of the wanted number cannot hold. -/

namespace Bourse.Text

/-- The decimal digits of `n`, most significant first and without leading zeros. -/
def digits (n : Nat) : List Char := Nat.toDigits 10 n

/-- The decimal digits of `n` with zeros in front up to `width` characters. -/
def paddedDigits (width n : Nat) : List Char :=
  List.replicate (width - (digits n).length) '0' ++ digits n

/-- The decimal numeral of an integer. -/
def numeral (i : Int) : List Char :=
  if i < 0 then '-' :: digits i.natAbs else digits i.natAbs

/-- The value of a digit. -/
def digit? (c : Char) : Option Nat := if c.isDigit then some (c.toNat - '0'.toNat) else none

/-- The number that the digits spell; the empty text and any other character are refused. -/
def natural? (cs : List Char) : Option Nat :=
  if cs ≠ [] ∧ cs.all Char.isDigit then some (Nat.ofDigitChars 10 cs 0) else none

/-- An integer: an optional sign and digits. -/
def integer? : List Char → Option Int
  | '-' :: cs => (natural? cs).map fun n => -(n : Int)
  | '+' :: cs => (natural? cs).map Int.ofNat
  | cs => (natural? cs).map Int.ofNat

/-- An integer with `bits` bits in two's complement. -/
def signed? (bits : Nat) (cs : List Char) : Option Int :=
  (integer? cs).filter fun i => -(twoTo (bits - 1) : Int) ≤ i && i < twoTo (bits - 1)

/-- A number with `bits` bits and an optional plus sign. -/
def unsigned? (bits : Nat) (cs : List Char) : Option Nat :=
  let body := match cs with
    | '+' :: rest => rest
    | _ => cs
  (natural? body).filter fun n => n < twoTo bits

theorem isDigit_of_mem_digits {n : Nat} {c : Char} (h : c ∈ digits n) : c.isDigit = true :=
  Nat.isDigit_of_mem_toDigits (by decide) (by decide) h

theorem digits_ne_nil (n : Nat) : digits n ≠ [] := by
  intro h
  have := @Nat.length_toDigits_pos 10 n
  rw [digits] at h
  simp [h] at this

/-- **Printed numbers read back.** -/
theorem natural?_digits (n : Nat) : natural? (digits n) = some n := by
  have hall : (digits n).all Char.isDigit = true :=
    List.all_eq_true.2 fun c hc => isDigit_of_mem_digits hc
  rw [natural?, if_pos ⟨digits_ne_nil n, hall⟩]
  exact congrArg some (Nat.ofDigitChars_toDigits (by decide) (by decide))

end Bourse.Text
