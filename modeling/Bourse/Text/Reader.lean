import Bourse.Text.Blank
import Bourse.Text.Numeral

/-! # Reading a text from left to right

A reader takes characters from the start of a text and leaves the rest, or fails. -/

namespace Bourse.Text

/-- A step that reads from the start of a text. -/
abbrev Reader := StateT (List Char) Option

namespace Reader

/-- What a reader makes of a whole text: nothing may be left. -/
def readAll {α : Type} (r : Reader α) (cs : List Char) : Option α :=
  match r cs with
  | some (a, []) => some a
  | _ => none

/-- Takes the next character if it satisfies `p`. -/
def satisfy (p : Char → Bool) : Reader Char := fun cs =>
  match cs with
  | c :: rest => if p c then some (c, rest) else none
  | [] => none

/-- Takes one given character. -/
def char (c : Char) : Reader Unit := fun cs => (satisfy (· == c) cs).map fun (_, rest) => ((), rest)

/-- Takes the next character if it satisfies `p`, and tells whether it did. -/
def accept (p : Char → Bool) : Reader Bool := fun cs =>
  match cs with
  | c :: rest => if p c then some (true, rest) else some (false, cs)
  | [] => some (false, [])

/-- Takes the characters that satisfy `p`. -/
def takeWhile (p : Char → Bool) : Reader (List Char) := fun cs =>
  some (cs.takeWhile p, cs.dropWhile p)

/-- Passes over white space. -/
def blanks : Reader Unit := fun cs => some ((), dropStart isBlank cs)

/-- Passes over white space, of which there has to be some. -/
def someBlanks : Reader Unit := do
  let _ ← satisfy isBlank
  blanks

/-- A number of at least `least` and at most `most` digits, with the count of its digits. -/
def counted (least most : Nat) : Reader (Nat × Nat) := fun cs =>
  let ds := (cs.take most).takeWhile Char.isDigit
  if ds.length < least then none
  else some ((Nat.ofDigitChars 10 ds 0, ds.length), cs.drop ds.length)

/-- A number of at least `least` and at most `most` digits. -/
def number (least most : Nat) : Reader Nat := do
  let (n, _) ← counted least most
  return n

/-- A number of at least one digit and without an upper bound on them. -/
def anyNumber : Reader Nat := fun cs => number 1 cs.length cs

end Reader

end Bourse.Text
