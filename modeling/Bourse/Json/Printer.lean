import Bourse.Json.Basic

/-! # JSON text

`Json.compact` writes a value without spaces, objects in the order of their entries. Quotes,
backslashes and control characters are escaped and all else is written as it is. A binary number
has the fewest digits that read back; it is positional, with at least one fraction digit, as long as
its first digit stands between the fifth place behind the point and the sixteenth before it. -/

namespace Bourse

/-- A number in scientific notation: one digit before the point. -/
def Binary64.Digits.scientific (d : Binary64.Digits) : List Char :=
  let power := d.point - 1
  let sign := if power < 0 then '-' else '+'
  let tail := 'e' :: sign :: Text.digits power.natAbs
  match d.digits with
  | [] => '0' :: tail
  | [first] => first :: tail
  | first :: rest => first :: '.' :: (rest ++ tail)

/-- The text of a binary number in JSON. -/
def Binary64.jsonText (x : Binary64) : List Char :=
  let d := shortest .toEven x
  let body :=
    if x.isZero then ['0', '.', '0']
    else if -4 ≤ d.point ∧ d.point ≤ 16 then
      let plain := d.positional
      if plain.contains '.' then plain else plain ++ ['.', '0']
    else d.scientific
  signText x ++ body

/-- The text of a number in JSON. -/
def JsonNumber.jsonText : JsonNumber → List Char
  | .int i => Text.numeral i.val
  | .float x => x.jsonText

namespace Json

/-- The hexadecimal digit of a value below sixteen, in lower case. -/
def hexDigit (n : Nat) : Char := (Nat.toDigits 16 (n % 16)).headD '0'

/-- A character inside a quoted text. -/
def escape (c : Char) : List Char :=
  if c = '"' then ['\\', '"']
  else if c = '\\' then ['\\', '\\']
  else if 0x20 ≤ c.toNat then [c]
  else if c.toNat = 0x08 then ['\\', 'b']
  else if c.toNat = 0x09 then ['\\', 't']
  else if c.toNat = 0x0A then ['\\', 'n']
  else if c.toNat = 0x0C then ['\\', 'f']
  else if c.toNat = 0x0D then ['\\', 'r']
  else ['\\', 'u', '0', '0', hexDigit (c.toNat / 16), hexDigit c.toNat]

/-- A text in quotes. -/
def quote (s : String) : List Char := '"' :: (s.toList.flatMap escape ++ ['"'])

/-- The opening brace of an object. -/
def openBrace : Char := Char.ofNat 0x7B

/-- The closing brace of an object. -/
def closeBrace : Char := Char.ofNat 0x7D

mutual

/-- A value as characters. -/
def render : Json → List Char
  | .null => "null".toList
  | .bool b => if b then "true".toList else "false".toList
  | .num n => n.jsonText
  | .str s => quote s
  | .arr items => '[' :: (renderItems items ++ [']'])
  | .obj entries => openBrace :: (renderEntries entries ++ [closeBrace])

/-- The elements of an array with commas between them. -/
def renderItems : List Json → List Char
  | [] => []
  | [v] => render v
  | v :: vs => render v ++ ',' :: renderItems vs

/-- The entries of an object with commas between them. -/
def renderEntries : List (String × Json) → List Char
  | [] => []
  | [(k, v)] => quote k ++ ':' :: render v
  | (k, v) :: es => quote k ++ ':' :: (render v ++ ',' :: renderEntries es)

end

/-- The compact text of a value. -/
def compact (v : Json) : String := String.ofList v.render

end Json

end Bourse
