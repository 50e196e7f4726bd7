import Bourse.Proofs.Text.Cut
import Bourse.Proofs.Text.Replace
import Bourse.Venue.Template

/-! # Path templates and their pieces

A path is its pieces (`flatMap_text_pieces`), and they are `Formed`. Placeholders and arguments are
*separate* if no placeholder begins inside another one or inside an argument, whatever follows
there. Then the placeholders that are left when all arguments are put in at once are those without
an argument (`occursIn_braced_substitute`).

* `separate_of_notMem`: names and arguments without an opening brace are separate. -/

namespace Bourse.Template

open Text

/-! ### A path is its pieces -/

/-- The characters of a piece. -/
def Piece.text : Piece → List Char
  | .literal c => [c]
  | .hole name => braced name

theorem flatMap_map_literal {f : Piece → List Char} (hf : ∀ c, f (.literal c) = [c])
    (cs : List Char) : (cs.map Piece.literal).flatMap f = cs := by
  have hchars : (fun c => f (.literal c)) = fun c => [c] := funext hf
  rw [List.flatMap_map, hchars]
  exact List.flatMap_singleton' cs

/-- The characters that stand open in front of the rest of a path. -/
def pending : Option (List Char) → List Char
  | none => []
  | some name => '\x7b' :: name.reverse

theorem flatMap_text_piecesFrom (name : Option (List Char)) (cs : List Char) :
    (piecesFrom name cs).flatMap Piece.text = pending name ++ cs := by
  induction cs generalizing name with
  | nil =>
    cases name with
    | none => rfl
    | some name =>
      rw [piecesFrom, List.flatMap_cons, flatMap_map_literal fun c => rfl, List.append_nil]
      rfl
  | cons c cs ih =>
    cases name with
    | none =>
      by_cases hc : c = '\x7b'
      · rw [piecesFrom, if_pos hc, ih, hc]
        rfl
      · rw [piecesFrom, if_neg hc, List.flatMap_cons, ih]
        rfl
    | some name =>
      by_cases hc : c = '\x7d'
      · rw [piecesFrom, if_pos hc, List.flatMap_cons, ih, hc]
        simp [Piece.text, braced, pending]
      · rw [piecesFrom, if_neg hc, ih]
        simp [pending]

/-- **A path is its pieces.** -/
theorem flatMap_text_pieces (path : String) :
    (pieces path).flatMap Piece.text = path.toList :=
  flatMap_text_piecesFrom none path.toList

/-- What the pieces of a path are like: the names of placeholders hold no closing brace, and an
opening brace is literal only where none is closed any more. -/
inductive Formed : List Piece → Prop
  | tail {cs : List Char} (h : '\x7d' ∉ cs) : Formed (cs.map .literal)
  | literal {c : Char} {ps : List Piece} (h : c ≠ '\x7b') : Formed ps → Formed (.literal c :: ps)
  | hole {name : List Char} {ps : List Piece} (h : '\x7d' ∉ name) :
      Formed ps → Formed (.hole name :: ps)

theorem formed_piecesFrom {name : Option (List Char)} (hname : ∀ n ∈ name, '\x7d' ∉ n)
    (cs : List Char) : Formed (piecesFrom name cs) := by
  induction cs generalizing name with
  | nil =>
    cases name with
    | none =>
      have hempty : '\x7d' ∉ ([] : List Char) := by simp
      exact Formed.tail hempty
    | some name =>
      have hopen : '\x7d' ∉ '\x7b' :: name.reverse := by simpa using hname name rfl
      exact Formed.tail hopen
  | cons c cs ih =>
    cases name with
    | none =>
      by_cases hc : c = '\x7b'
      · rw [piecesFrom, if_pos hc]
        exact ih (by simp)
      · rw [piecesFrom, if_neg hc]
        exact .literal hc (ih (by simp))
    | some name =>
      by_cases hc : c = '\x7d'
      · rw [piecesFrom, if_pos hc]
        exact .hole (by simpa using hname name rfl) (ih (by simp))
      · rw [piecesFrom, if_neg hc]
        refine ih fun n hn => ?_
        obtain rfl : c :: name = n := Option.some.inj hn
        have hlast : '\x7d' ∉ name := hname name rfl
        simp [hlast, Ne.symm hc]

theorem formed_pieces (path : String) : Formed (pieces path) :=
  formed_piecesFrom (by simp) path.toList

/-- The names of the placeholders among some pieces. -/
def names (ps : List Piece) : List String := ps.filterMap Piece.name?

theorem names_map_literal (cs : List Char) : names (cs.map Piece.literal) = [] := by
  rw [names, List.filterMap_map]
  exact List.filterMap_eq_nil_iff.2 fun c _ => rfl

@[simp] theorem names_literal (c : Char) (ps : List Piece) :
    names (.literal c :: ps) = names ps := rfl

@[simp] theorem names_hole (name : List Char) (ps : List Piece) :
    names (.hole name :: ps) = String.ofList name :: names ps := rfl

/-! ### Separate placeholders and arguments -/

/-- No placeholder of a list begins inside another one or inside an argument, whatever follows. -/
structure Separate (params : Table Json) (ns : List String) : Prop where
  names : ∀ n ∈ ns, ∀ m ∈ ns, n ≠ m → Inert (braced n.toList) (braced m.toList)
  arguments : ∀ n ∈ ns, ∀ m ∈ ns, ∀ value, argument? params m = some value →
    Inert (braced n.toList) value.toList

/-- A placeholder does not begin inside another one whose name holds no brace. -/
theorem inert_braced {n m : List Char} (hne : n ≠ m) (hn : '\x7d' ∉ n) (hm : '\x7d' ∉ m)
    (hopen : '\x7b' ∉ m) : Inert (braced n) (braced m) := by
  refine ⟨fun rest hpre => hne ?_, inert_of_notMem (by simpa using hopen)⟩
  obtain ⟨tail, htail⟩ := (List.cons_prefix_cons.1 hpre).2
  -- both names end at the first closing brace
  have hcut : splitOnce '\x7d' (n ++ '\x7d' :: tail) = splitOnce '\x7d' (m ++ '\x7d' :: rest) := by
    simpa using congrArg (splitOnce '\x7d') htail
  rw [splitOnce_append tail hn, splitOnce_append rest hm] at hcut
  exact (Prod.mk.inj (Option.some.inj hcut)).1

theorem Formed.closing_not_mem {ps : List Piece} (h : Formed ps) {n : String}
    (hn : n ∈ names ps) : '\x7d' ∉ n.toList := by
  induction h with
  | tail h => simp [names_map_literal] at hn
  | literal h hps ih => exact ih hn
  | hole h hps ih =>
    rcases List.mem_cons.1 hn with rfl | hn
    · simpa using h
    · exact ih hn

/-- **Names and arguments without an opening brace** are separate. -/
theorem separate_of_notMem {path : String} {params : Table Json}
    (hnames : ∀ n ∈ placeholders path, '\x7b' ∉ n.toList)
    (harguments : ∀ n ∈ placeholders path, ∀ value, argument? params n = some value →
      '\x7b' ∉ value.toList) : Separate params (placeholders path) := by
  have hclosing : ∀ n ∈ placeholders path, '\x7d' ∉ n.toList :=
    fun n hn => (formed_pieces path).closing_not_mem hn
  constructor
  · intro n hn m hm hne
    have hlist : n.toList ≠ m.toList := fun h => hne (String.toList_inj.1 h)
    exact inert_braced hlist (hclosing n hn) (hclosing m hm) (hnames m hm)
  · intro n hn m hm value hvalue
    exact inert_of_notMem (harguments m hm value hvalue)

/-! ### Placeholders that are left -/

section Left
variable {params : Table Json} {path n : String}

theorem occursIn_braced_eq_false {cs : List Char} (h : '\x7d' ∉ cs) :
    occursIn (braced n.toList) cs = false :=
  occursIn_eq_false_of_notMem (by simp [braced]) h

theorem inert_braced_literal {c : Char} (h : c ≠ '\x7b') : Inert (braced n.toList) [c] :=
  inert_of_notMem (by simpa using h.symm)

theorem substitute_hole {name : List Char} {value : String}
    (h : argument? params (String.ofList name) = some value) :
    Piece.substitute params (.hole name) = value.toList := by
  rw [Piece.substitute, h]

theorem substitute_hole_of_none {name : List Char}
    (h : argument? params (String.ofList name) = none) :
    Piece.substitute params (.hole name) = braced name := by
  rw [Piece.substitute, h]

/-- No other placeholder begins inside what a placeholder becomes. -/
theorem inert_substitute {ns : List String} (hsep : Separate params ns) {name : List Char}
    (hn : n ∈ ns) (hname : String.ofList name ∈ ns) (hne : n ≠ String.ofList name) :
    Inert (braced n.toList) (Piece.substitute params (.hole name)) := by
  cases harg : argument? params (String.ofList name) with
  | none =>
    rw [substitute_hole_of_none harg]
    simpa using hsep.names n hn _ hname hne
  | some value =>
    rw [substitute_hole harg]
    exact hsep.arguments n hn _ hname value harg

theorem occursIn_braced_flatMap {ns : List String} (hsep : Separate params ns) {value : String}
    (hn : n ∈ ns) (hvalue : argument? params n = some value) {ps : List Piece} (hps : Formed ps)
    (hns : ∀ m ∈ names ps, m ∈ ns) :
    occursIn (braced n.toList) (ps.flatMap (Piece.substitute params)) = false := by
  induction hps with
  | @tail cs h =>
    rw [flatMap_map_literal fun c => rfl]
    exact occursIn_braced_eq_false h
  | @literal c ps h _ ih =>
    rw [List.flatMap_cons, Piece.substitute, occursIn_append_of_inert (inert_braced_literal h)]
    exact ih hns
  | @hole name ps h _ ih =>
    have hinert : Inert (braced n.toList) (Piece.substitute params (.hole name)) := by
      by_cases hne : n = String.ofList name
      · rw [substitute_hole (hne ▸ hvalue)]
        exact hsep.arguments n hn n hn value hvalue
      · exact inert_substitute hsep hn (hns _ (by simp)) hne
    rw [List.flatMap_cons, occursIn_append_of_inert hinert]
    exact ih fun m hm => hns m (List.mem_cons_of_mem _ hm)

/-- **A placeholder is left** exactly if it has no argument. -/
theorem occursIn_braced_substitute (hsep : Separate params (placeholders path))
    (hn : n ∈ placeholders path) :
    occursIn (braced n.toList) (substitute path params).toList = (argument? params n).isNone := by
  rw [substitute, String.toList_ofList]
  cases harg : argument? params n with
  | some value => exact occursIn_braced_flatMap hsep hn harg (formed_pieces path) fun m hm => hm
  | none =>
    obtain ⟨p, hp, hname⟩ := List.mem_filterMap.1 hn
    cases p with
    | literal c => cases hname
    | hole name =>
      obtain rfl : String.ofList name = n := Option.some.inj hname
      have hmem : braced name ∈ (pieces path).map (Piece.substitute params) :=
        List.mem_map.2 ⟨_, hp, substitute_hole_of_none harg⟩
      have hsub : braced name <:+: (pieces path).flatMap (Piece.substitute params) :=
        List.infix_of_mem_flatten hmem
      rw [String.toList_ofList]
      exact occursIn_iff_isInfix.2 hsub

end Left

end Bourse.Template
