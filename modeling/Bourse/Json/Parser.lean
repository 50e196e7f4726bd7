import Bourse.Binary64.Scaled
import Bourse.Json.Basic

/-! # Reading JSON

A reader for the standard grammar. Whole numbers that fit 64 bits stay whole, all other numbers
become binary ones in the short way of `Binary64.ofDigits?` and must not overflow. A repeated key
keeps its first place and its last value. Arrays and objects may be nested to a given depth only,
and nothing but white space may follow the value. -/

namespace Bourse.Json

/-- White space between tokens. -/
def isSpace (c : Char) : Bool := c == ' ' || c == '\t' || c == '\n' || c == '\r'

/-- Passes over white space. -/
def skip (cs : List Char) : List Char := cs.dropWhile isSpace

/-! ### Texts -/

/-- The value of a hexadecimal digit. -/
def hexValue? (c : Char) : Option Nat :=
  if '0' ≤ c ∧ c ≤ '9' then some (c.toNat - '0'.toNat)
  else if 'a' ≤ c ∧ c ≤ 'f' then some (c.toNat - 'a'.toNat + 10)
  else if 'A' ≤ c ∧ c ≤ 'F' then some (c.toNat - 'A'.toNat + 10)
  else none

/-- The code unit that four hexadecimal digits spell. -/
def codeUnit? (a b c d : Char) : Option Nat := do
  return (((← hexValue? a) * 16 + (← hexValue? b)) * 16 + (← hexValue? c)) * 16 + (← hexValue? d)

/-- The character behind a backslash. -/
def unescape? (c : Char) : Option Char :=
  match c with
  | '"' => some '"'
  | '\\' => some '\\'
  | '/' => some '/'
  | 'b' => some (Char.ofNat 0x08)
  | 'f' => some (Char.ofNat 0x0C)
  | 'n' => some '\n'
  | 'r' => some '\r'
  | 't' => some '\t'
  | _ => none

/-- Reads a text up to its closing quote; `read` holds its characters so far, last one first. Two
code units of a surrogate pair are one character, and a lone one is refused. -/
def readText? (read : List Char) : List Char → Option (String × List Char)
  | [] => none
  | c :: cs =>
    if c = '"' then some (String.ofList read.reverse, cs)
    else if c = '\\' then
      match cs with
      | [] => none
      | 'u' :: h1 :: h2 :: h3 :: h4 :: rest =>
        match codeUnit? h1 h2 h3 h4 with
        | none => none
        | some n =>
          if n < 0xD800 ∨ 0xE000 ≤ n then readText? (Char.ofNat n :: read) rest
          else if 0xDC00 ≤ n then none
          else
            match rest with
            | '\\' :: 'u' :: l1 :: l2 :: l3 :: l4 :: rest =>
              match codeUnit? l1 l2 l3 l4 with
              | none => none
              | some m =>
                if m < 0xDC00 ∨ 0xE000 ≤ m then none
                else
                  readText?
                    (Char.ofNat ((n - 0xD800) * 0x400 + (m - 0xDC00) + 0x10000) :: read) rest
            | _ => none
      | e :: rest =>
        match unescape? e with
        | none => none
        | some c => readText? (c :: read) rest
    else if c.toNat < 0x20 then none
    else readText? (c :: read) cs

/-! ### Numbers -/

/-- The digits at the start and the rest. -/
def takeDigits (cs : List Char) : List Char × List Char :=
  (cs.takeWhile Char.isDigit, cs.dropWhile Char.isDigit)

/-- The fraction behind a whole part: none, or a point and digits. -/
def fraction? : List Char → Option (List Char × List Char)
  | '.' :: cs =>
    let (ds, rest) := takeDigits cs
    if ds = [] then none else some (ds, rest)
  | cs => some ([], cs)

/-- The exponent behind a number: none, or a mark, an optional sign and digits. -/
def power? (cs : List Char) : Option (Option Int × List Char) :=
  match cs with
  | [] => some (none, [])
  | c :: rest =>
    if c = 'e' ∨ c = 'E' then
      let (negative, rest) := Binary64.takeSign rest
      let (ds, rest) := takeDigits rest
      match Text.natural? ds with
      | none => none
      | some n => some (some (if negative then -(n : Int) else n), rest)
    else some (none, cs)

/-- A whole number of 64 bits. Negative zero is a binary number. -/
def wholeNumber? (negative : Bool) (n : Nat) : Option JsonNumber :=
  if negative ∧ n = 0 then none
  else (WordInt.ofInt? (if negative then -(n : Int) else n)).map .int

/-- Reads a number. -/
def readNumber? (cs : List Char) : Option (JsonNumber × List Char) := do
  let (negative, cs) := match cs with
    | '-' :: rest => (true, rest)
    | _ => (false, cs)
  let (whole, rest) := takeDigits cs
  let n ← Text.natural? whole
  if 1 < whole.length ∧ whole.head? = some '0' then none
  let (fraction, rest) ← fraction? rest
  let (power, rest) ← power? rest
  if fraction = [] ∧ power = none then
    if let some w := wholeNumber? negative n then return (w, rest)
  let x ← Binary64.ofDigits? negative whole fraction (power.getD 0)
  return (.float x, rest)

/-! ### Values -/

mutual

/-- Reads a value at the start of the text; `depth` more arrays or objects may be entered, and
`fuel` bounds the steps. -/
def readValue? : (fuel depth : Nat) → List Char → Option (Json × List Char)
  | 0, _, _ => none
  | fuel + 1, depth, cs =>
    match cs with
    | [] => none
    | '"' :: rest => (readText? [] rest).map fun (s, rest) => (.str s, rest)
    | 'n' :: 'u' :: 'l' :: 'l' :: rest => some (.null, rest)
    | 't' :: 'r' :: 'u' :: 'e' :: rest => some (.bool true, rest)
    | 'f' :: 'a' :: 'l' :: 's' :: 'e' :: rest => some (.bool false, rest)
    | c :: rest =>
      if c = '[' then
        match depth with
        | 0 => none
        | depth + 1 =>
          match skip rest with
          | ']' :: rest => some (.arr [], rest)
          | rest => readItems? fuel depth [] rest
      else if c.toNat = 0x7B then
        match depth with
        | 0 => none
        | depth + 1 =>
          match skip rest with
          | [] => none
          | c :: more =>
            if c.toNat = 0x7D then some (.obj [], more)
            else readMembers? fuel depth [] (c :: more)
      else (readNumber? (c :: rest)).map fun (n, rest) => (.num n, rest)

/-- Reads the elements of an array from here to its end; `read` holds the ones before, last one
first. -/
def readItems? : (fuel depth : Nat) → List Json → List Char → Option (Json × List Char)
  | 0, _, _, _ => none
  | fuel + 1, depth, read, cs =>
    match readValue? fuel depth (skip cs) with
    | none => none
    | some (v, rest) =>
      match skip rest with
      | ',' :: rest => readItems? fuel depth (v :: read) rest
      | ']' :: rest => some (.arr (v :: read).reverse, rest)
      | _ => none

/-- Reads the entries of an object from here to its end, after the entries `read`. -/
def readMembers? :
    (fuel depth : Nat) → List (String × Json) → List Char → Option (Json × List Char)
  | 0, _, _, _ => none
  | fuel + 1, depth, read, cs =>
    match skip cs with
    | '"' :: rest =>
      match readText? [] rest with
      | none => none
      | some (key, rest) =>
        match skip rest with
        | ':' :: rest =>
          match readValue? fuel depth (skip rest) with
          | none => none
          | some (v, rest) =>
            match skip rest with
            | [] => none
            | c :: rest =>
              if c = ',' then readMembers? fuel depth (Table.putEntry key v read) rest
              else if c.toNat = 0x7D then some (.obj (Table.putEntry key v read), rest)
              else none
        | _ => none
    | _ => none

end

/-- Reads a whole text with arrays and objects nested to at most `depth`. -/
def parseTo? (depth : Nat) (s : String) : Option Json :=
  let cs := s.toList
  match readValue? (2 * cs.length + 2) depth (skip cs) with
  | some (v, rest) => if skip rest = [] then some v else none
  | none => none

/-- The deepest nesting of arrays and objects that is read. -/
def maxDepth : Nat := 127

/-- Reads a whole text. -/
def parse? (s : String) : Option Json := parseTo? maxDepth s

end Bourse.Json
