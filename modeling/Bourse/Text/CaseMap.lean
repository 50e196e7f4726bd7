import Bourse.Text.CaseTable

/-! # Upper and lower case

The full Unicode case maps: a character may become several (`ß` is `SS` in upper case), and a
capital sigma becomes `ς` at the end of a word and `σ` elsewhere. -/

namespace Bourse.Text

open CaseTable

/-- The offset by which the runs move the code point `n`, if one of them holds it. -/
def shift? (runs : List Run) (n : Nat) : Option Int :=
  (runs.find? fun r => r.first ≤ n && n ≤ r.last && (n - r.first) % r.step == 0).map (·.offset)

/-- The image of one character under a case map given by its runs and its special images. -/
def mapCase (runs : List Run) (special : List (Nat × List Nat)) (c : Char) : List Char :=
  match special.lookup c.toNat with
  | some image => image.map Char.ofNat
  | none =>
    match shift? runs c.toNat with
    | some offset => [Char.ofNat (c.toNat + offset).toNat]
    | none => [c]

/-- The upper-case form of one character. -/
def upperChar (c : Char) : List Char := mapCase upperRuns upperSpecial c

/-- The lower-case form of one character that is not a final sigma. -/
def lowerChar (c : Char) : List Char := mapCase lowerRuns lowerSpecial c

/-- Whether the code point of `c` lies in one of the blocks. -/
def inBlocks (blocks : List (Nat × Nat)) (c : Char) : Bool :=
  blocks.any fun (lo, hi) => lo ≤ c.toNat && c.toNat ≤ hi

/-- Whether the next character that counts is a cased letter. -/
def meetsLetter (cs : List Char) : Bool :=
  match cs.dropWhile (inBlocks ignorableBlocks) with
  | [] => false
  | c :: _ => inBlocks casedBlocks c

/-- Lower case, letter by letter; `before` holds what was passed, nearest first. -/
def lowerFrom (before : List Char) : List Char → List Char
  | [] => []
  | c :: cs =>
    (if c = 'Σ' then [if meetsLetter before && !meetsLetter cs then 'ς' else 'σ']
      else lowerChar c) ++ lowerFrom (c :: before) cs

/-- The text in upper case. -/
def upper (s : String) : String := String.ofList (s.toList.flatMap upperChar)

/-- The text in lower case. -/
def lower (s : String) : String := String.ofList (lowerFrom [] s.toList)

end Bourse.Text
