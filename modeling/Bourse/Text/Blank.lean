/-! # White space

`isBlank` is the Unicode property of white space; `trimStart`, `trimEnd` and `trim` remove such
characters from the ends of a text. The inner functions work on lists of characters, where they are
`dropWhile` from one side or the other. -/

namespace Bourse.Text

/-- White space in the sense of Unicode: the control characters from tab to carriage return, next
line, the space characters of every width and the line and paragraph separators. -/
def isBlank (c : Char) : Bool :=
  let n := c.toNat
  (0x09 ≤ n && n ≤ 0x0D) || n == 0x20 || n == 0x85 || n == 0xA0 || n == 0x1680
    || (0x2000 ≤ n && n ≤ 0x200A) || n == 0x2028 || n == 0x2029 || n == 0x202F || n == 0x205F
    || n == 0x3000

/-- Removes the leading characters that satisfy `p`. -/
def dropStart (p : Char → Bool) (cs : List Char) : List Char := cs.dropWhile p

/-- Removes the trailing characters that satisfy `p`. -/
def dropEnd (p : Char → Bool) (cs : List Char) : List Char := (cs.reverse.dropWhile p).reverse

/-- The text without leading white space. -/
def trimStart (s : String) : String := String.ofList (dropStart isBlank s.toList)

/-- The text without trailing white space. -/
def trimEnd (s : String) : String := String.ofList (dropEnd isBlank s.toList)

/-- The text without white space at either end. -/
def trim (s : String) : String := String.ofList (dropEnd isBlank (dropStart isBlank s.toList))

/-- White space of the core library is white space here. -/
theorem isBlank_of_isWhitespace {c : Char} (h : c.isWhitespace = true) : isBlank c = true := by
  simp only [Char.isWhitespace, Bool.or_eq_true, decide_eq_true_eq] at h
  rcases h with ((rfl | rfl) | rfl) | rfl <;> rfl

end Bourse.Text
