/-! # Cutting texts

Splitting at a separator, searching for and replacing a part, all on lists of characters. -/

namespace Bourse.Text

/-- The parts before and after the first `sep`, if there is one. -/
def splitOnce (sep : Char) : List Char → Option (List Char × List Char)
  | [] => none
  | c :: cs =>
    if c = sep then some ([], cs)
    else (splitOnce sep cs).map fun (before, after) => (c :: before, after)

/-- The parts between the separators; a text without separator is its one part. -/
def splitAll (sep : Char) : List Char → List (List Char)
  | [] => [[]]
  | c :: cs =>
    if c = sep then [] :: splitAll sep cs
    else match splitAll sep cs with
      | [] => [[c]]
      | part :: parts => (c :: part) :: parts

/-- The parts of `s` between the characters `sep`. -/
def splitText (sep : Char) (s : String) : List String :=
  (splitAll sep s.toList).map String.ofList

/-- What follows `start` in a text that begins with it. -/
def after? : (start : List Char) → List Char → Option (List Char)
  | [], cs => some cs
  | _ :: _, [] => none
  | p :: ps, c :: cs => if p = c then after? ps cs else none

/-- The text behind the first occurrence of `part`. -/
def behind? (part : List Char) : List Char → Option (List Char)
  | [] => if part.isEmpty then some [] else none
  | c :: cs =>
    match after? part (c :: cs) with
    | some rest => some rest
    | none => behind? part cs

/-- Whether `part` occurs somewhere in the text. -/
def occursIn (part : List Char) : List Char → Bool
  | [] => part.isEmpty
  | c :: cs => part.isPrefixOf (c :: cs) || occursIn part cs

/-- Whether `part` occurs somewhere in `s`. -/
def contains (s part : String) : Bool := occursIn part.toList s.toList

/-- The scan behind `replaceAll`: `skip` counts the characters of an occurrence that was replaced
and is still being passed over. -/
def replaceFrom (part new : List Char) : (skip : Nat) → List Char → List Char
  | _, [] => []
  | skip + 1, _ :: cs => replaceFrom part new skip cs
  | 0, c :: cs =>
    if part.isPrefixOf (c :: cs) then new ++ replaceFrom part new (part.length - 1) cs
    else c :: replaceFrom part new 0 cs

/-- Replaces every occurrence of the non-empty `part`, from left to right and without looking into
what was put in. -/
def replaceAll (part new : List Char) (cs : List Char) : List Char := replaceFrom part new 0 cs

/-- The texts one after the other with `sep` between neighbours. -/
def joinWith (sep : List Char) : List (List Char) → List Char
  | [] => []
  | [part] => part
  | part :: parts => part ++ sep ++ joinWith sep parts

/-- The characters `A` to `Z` made small, all others kept. -/
def asciiLower (s : String) : String := String.ofList (s.toList.map Char.toLower)

/-- Equality up to the case of ASCII letters. -/
def eqIgnoringCase (a b : String) : Bool := asciiLower a == asciiLower b

end Bourse.Text
