import Bourse.Json.Parser

/-! # Reading what matters

A reader of records knows some entries of an object and no others. An outline says which parts of a
text those are. They are read as values; the other ones are passed over, so they have to be well
formed, but they may hold numbers beyond the range of binary ones, escapes that name no character,
and nesting of any depth. Repeated keys that are known stay repeated. -/

namespace Bourse.Json

/-! ### Passing over values -/

/-- Passes over a text up to its closing quote. -/
def passText? : List Char → Option (List Char)
  | [] => none
  | '"' :: cs => some cs
  | '\\' :: 'u' :: h1 :: h2 :: h3 :: h4 :: cs =>
    if (codeUnit? h1 h2 h3 h4).isSome then passText? cs else none
  | '\\' :: e :: cs => if (unescape? e).isSome then passText? cs else none
  | c :: cs => if c.toNat < 0x20 then none else passText? cs

/-- Passes over a number. -/
def passNumber? (cs : List Char) : Option (List Char) := do
  let (whole, rest) := takeDigits (match cs with
    | '-' :: rest => rest
    | _ => cs)
  if whole = [] ∨ (1 < whole.length ∧ whole.head? = some '0') then none
  let (_, rest) ← fraction? rest
  let (_, rest) ← power? rest
  return rest

mutual

/-- Passes over a value; `fuel` bounds the steps. -/
def passValue? : (fuel : Nat) → List Char → Option (List Char)
  | 0, _ => none
  | fuel + 1, cs =>
    match cs with
    | [] => none
    | '"' :: rest => passText? rest
    | 'n' :: 'u' :: 'l' :: 'l' :: rest => some rest
    | 't' :: 'r' :: 'u' :: 'e' :: rest => some rest
    | 'f' :: 'a' :: 'l' :: 's' :: 'e' :: rest => some rest
    | c :: rest =>
      if c = '[' then
        match skip rest with
        | ']' :: rest => some rest
        | rest => passItems? fuel rest
      else if c.toNat = 0x7B then
        match skip rest with
        | [] => none
        | c :: more => if c.toNat = 0x7D then some more else passMembers? fuel (c :: more)
      else passNumber? (c :: rest)

/-- Passes over the elements of an array from here to its end. -/
def passItems? : (fuel : Nat) → List Char → Option (List Char)
  | 0, _ => none
  | fuel + 1, cs =>
    match passValue? fuel (skip cs) with
    | none => none
    | some rest =>
      match skip rest with
      | ',' :: rest => passItems? fuel rest
      | ']' :: rest => some rest
      | _ => none

/-- Passes over the entries of an object from here to its end. -/
def passMembers? : (fuel : Nat) → List Char → Option (List Char)
  | 0, _ => none
  | fuel + 1, cs =>
    match skip cs with
    | '"' :: rest =>
      match (passText? rest).map skip with
      | some (':' :: rest) =>
        match (passValue? fuel (skip rest)).map skip with
        | some (c :: rest) =>
          if c = ',' then passMembers? fuel rest
          else if c.toNat = 0x7D then some rest
          else none
        | _ => none
      | _ => none
    | _ => none

end

/-! ### Outlines -/

/-- Which parts of a value are read, and how. -/
inductive Outline where
  /-- All of it. -/
  | whole
  /-- The entries with these keys; in an array, the elements in their places. -/
  | record (fields : List (String × Outline))
  /-- All elements of an array. -/
  | items (each : Outline)
  /-- All entries of an object. -/
  | entries (each : Outline)

namespace Outline

/-- The outline of a record with fields of these names, all read whole but for those in `nested`. -/
def ofNames (names : List String) (nested : List (String × Outline) := []) : Outline :=
  .record (names.map fun name => (name, (nested.lookup name).getD .whole))

/-- The outline of the first element of an array, and that of the elements behind it. -/
def next : Outline → Outline × Outline
  | .record ((_, first) :: rest) => (first, .record rest)
  | .items each => (each, .items each)
  | o => (.whole, o)

/-- The outline of the entry under a key, unless that is passed over. -/
def under? (key : String) : Outline → Option Outline
  | .record fields => fields.lookup key
  | .entries each => some each
  | _ => some .whole

end Outline

mutual

/-- Reads the parts of a value that its outline has; `depth` more arrays or objects may be entered,
and `fuel` bounds the steps. -/
def readPart? : (fuel depth : Nat) → Outline → List Char → Option (Json × List Char)
  | 0, _, _, _ => none
  | fuel + 1, depth, outline, cs =>
    match outline, cs with
    | .whole, cs => readValue? (fuel + 1) depth cs
    | _, [] => none
    | outline, c :: rest =>
      if c = '[' then
        match depth with
        | 0 => none
        | depth + 1 =>
          match skip rest with
          | ']' :: rest => some (.arr [], rest)
          | rest => readItemParts? fuel depth outline [] rest
      else if c.toNat = 0x7B then
        match depth with
        | 0 => none
        | depth + 1 =>
          match skip rest with
          | [] => none
          | c :: more =>
            if c.toNat = 0x7D then some (.obj [], more)
            else readMemberParts? fuel depth outline [] (c :: more)
      else readValue? (fuel + 1) depth (c :: rest)

/-- Reads the elements of an array from here to its end; `read` holds the ones before, last one
first. -/
def readItemParts? :
    (fuel depth : Nat) → Outline → List Json → List Char → Option (Json × List Char)
  | 0, _, _, _, _ => none
  | fuel + 1, depth, outline, read, cs =>
    match readPart? fuel depth outline.next.1 (skip cs) with
    | none => none
    | some (v, rest) =>
      match skip rest with
      | ',' :: rest => readItemParts? fuel depth outline.next.2 (v :: read) rest
      | ']' :: rest => some (.arr (v :: read).reverse, rest)
      | _ => none

/-- Reads the entries of an object from here to its end; `read` holds the ones before, last one
first. -/
def readMemberParts? :
    (fuel depth : Nat) → Outline → List (String × Json) → List Char → Option (Json × List Char)
  | 0, _, _, _, _ => none
  | fuel + 1, depth, outline, read, cs =>
    match skip cs with
    | '"' :: rest =>
      match readText? [] rest with
      | none => none
      | some (key, rest) =>
        match skip rest with
        | ':' :: rest =>
          let entry : Option (List (String × Json) × List Char) :=
            match outline.under? key with
            | some part => (readPart? fuel depth part (skip rest)).map fun (v, rest) =>
                ((key, v) :: read, rest)
            | none => (passValue? fuel (skip rest)).map fun rest => (read, rest)
          match entry with
          | none => none
          | some (read, rest) =>
            match skip rest with
            | [] => none
            | c :: rest =>
              if c = ',' then readMemberParts? fuel depth outline read rest
              else if c.toNat = 0x7D then some (.obj read.reverse, rest)
              else none
        | _ => none
    | _ => none

end

/-- Reads the parts of a whole text that the outline has. -/
def parseOutline? (outline : Outline) (s : String) : Option Json :=
  let cs := s.toList
  match readPart? (2 * cs.length + 2) maxDepth outline (skip cs) with
  | some (v, rest) => if skip rest = [] then some v else none
  | none => none

end Bourse.Json
