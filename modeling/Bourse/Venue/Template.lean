import Bourse.Json.Access
import Bourse.Text.Cut

/-! # Path templates

A path may hold placeholders, names between braces. `pieces` is the view of a path as literal
characters and placeholders; `fill` puts parameters into it, one placeholder after the other;
`substitute` replaces all placeholders of the view at once. -/

namespace Bourse.Template

/-- A piece of a path. -/
inductive Piece where
  | literal (c : Char)
  | hole (name : List Char)
  deriving DecidableEq

/-- The pieces of the rest of a path; inside a placeholder, `name` holds its characters so far, last
one first. A brace that is never closed is literal, with all that follows. -/
def piecesFrom : (name : Option (List Char)) → List Char → List Piece
  | none, [] => []
  | some name, [] => (.literal '\x7b') :: name.reverse.map .literal
  | none, c :: cs =>
    if c = '\x7b' then piecesFrom (some []) cs else .literal c :: piecesFrom none cs
  | some name, c :: cs =>
    if c = '\x7d' then .hole name.reverse :: piecesFrom none cs
    else piecesFrom (some (c :: name)) cs

/-- The pieces of a path. -/
def pieces (path : String) : List Piece := piecesFrom none path.toList

/-- The name of a placeholder. -/
def Piece.name? : Piece → Option String
  | .hole name => some (String.ofList name)
  | .literal _ => none

/-- The names of the placeholders in order, repeated ones included. -/
def placeholders (path : String) : List String := (pieces path).filterMap Piece.name?

/-- A placeholder with its braces. -/
def braced (name : List Char) : List Char := '\x7b' :: (name ++ ['\x7d'])

/-- The text that a parameter puts in the place of a placeholder. -/
def argument? (params : Table Json) (name : String) : Option String :=
  (params.get? name).bind Json.scalar?

/-- Puts the text of one parameter in the place of its placeholder, wherever it stands. -/
def fillOne (params : Table Json) (path : List Char) (name : String) : List Char :=
  match argument? params name with
  | some value => Text.replaceAll (braced name.toList) value.toList path
  | none => path

/-- The path with the text of each parameter in the place of its placeholder. The placeholders are
those of the path as it was; each is looked for in what the ones before have left. -/
def fill (path : String) (params : Table Json) : String :=
  String.ofList ((placeholders path).foldl (fillOne params) path.toList)

/-- A piece with its placeholder replaced. -/
def Piece.substitute (params : Table Json) : Piece → List Char
  | .literal c => [c]
  | .hole name =>
    match argument? params (String.ofList name) with
    | some value => value.toList
    | none => braced name

/-- The path with all placeholders replaced at once. -/
def substitute (path : String) (params : Table Json) : String :=
  String.ofList ((pieces path).flatMap (Piece.substitute params))

end Bourse.Template
