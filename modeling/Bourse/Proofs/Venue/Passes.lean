import Bourse.Proofs.Venue.Template

/-! # Filling a path pass by pass

`fill` makes one pass for every placeholder of a path, and each pass searches all of the text that
the passes before it have left. `OnlyOpen` says that a pass finds what it should in that text: the
placeholder that it is there for, where the path has it. If this holds for all passes (`Orderly`),
the path comes out with every placeholder replaced by the text of its own argument (`Substitutes`).

* `replaceAll_textAfter` is one pass, `foldl_fillOne` all of them, by induction on those to come;
* `orderly_of_separate`, `orderly_of_single`: separate placeholders and arguments, and a single
  placeholder with any argument;
* `fill_simultaneous` puts this together. An argument that spells a later placeholder is taken for
  one (`argument_taken_for_placeholder`). -/

namespace Bourse.Template

open Text

/-! ### The text between two passes -/

/-- A piece with its placeholder replaced if it is among those that are done. -/
def Piece.filled (params : Table Json) (done : List String) : Piece → List Char
  | .literal c => [c]
  | .hole name =>
    if String.ofList name ∈ done then Piece.substitute params (.hole name) else braced name

/-- The text of some pieces when the placeholders that are done have been replaced. -/
def textAfter (params : Table Json) (done : List String) (ps : List Piece) : List Char :=
  ps.flatMap (Piece.filled params done)

/-- In this text a placeholder stands only where the path has it, and only if it has not been
replaced yet. -/
def OnlyOpen (params : Table Json) (done : List String) (n : String) (ps : List Piece) : Prop :=
  ∀ i, braced n.toList <+: (textAfter params done ps).drop i → ∃ before after,
    ps = before ++ .hole n.toList :: after ∧ n ∉ done ∧ i = (textAfter params done before).length

/-- Every pass finds the placeholders of the path that it is there for, and nothing else. -/
def Orderly (params : Table Json) (path : String) : Prop :=
  ∀ before n after value, placeholders path = before ++ n :: after →
    argument? params n = some value → OnlyOpen params before n (pieces path)

section Filling
variable {params : Table Json} {n : String} {done : List String} {p : Piece} {ps : List Piece}

theorem textAfter_cons :
    textAfter params done (p :: ps) = p.filled params done ++ textAfter params done ps := rfl

theorem textAfter_nil (params : Table Json) (ps : List Piece) :
    textAfter params [] ps = ps.flatMap Piece.text := by
  refine List.flatMap_congr fun p _ => ?_
  cases p <;> rfl

theorem filled_open (h : n ∉ done) :
    Piece.filled params done (.hole n.toList) = braced n.toList := by
  rw [Piece.filled, String.ofList_toList, if_neg h]

/-- One placeholder more does not touch the other pieces. -/
theorem filled_concat (h : ¬ (p = .hole n.toList ∧ n ∉ done)) :
    p.filled params (done ++ [n]) = p.filled params done := by
  cases p with
  | literal c => rfl
  | hole name =>
    by_cases hname : String.ofList name = n
    · have hdone : n ∈ done := by
        by_contra hopen
        exact h ⟨by rw [← hname, String.toList_ofList], hopen⟩
      simp [Piece.filled, hname, hdone]
    · simp [Piece.filled, hname]

/-! ### One pass -/

theorem OnlyOpen.head (h : OnlyOpen params done n (p :: ps))
    (hp : ¬ (p = .hole n.toList ∧ n ∉ done)) :
    ∀ i < (p.filled params done).length,
      ¬ braced n.toList <+: (p.filled params done ++ textAfter params done ps).drop i := by
  intro i hi hpre
  obtain ⟨before, after, heq, hopen, hplace⟩ := h i hpre
  cases before with
  | nil => exact hp ⟨(List.cons.inj heq).1, hopen⟩
  | cons q before =>
    obtain ⟨rfl, -⟩ := List.cons.inj heq
    rw [textAfter_cons, List.length_append] at hplace
    omega

theorem OnlyOpen.tail (h : OnlyOpen params done n (p :: ps)) : OnlyOpen params done n ps := by
  intro i hpre
  have hshift : braced n.toList <+:
      (textAfter params done (p :: ps)).drop ((p.filled params done).length + i) := by
    rwa [textAfter_cons, List.drop_length_add_append]
  obtain ⟨before, after, heq, hopen, hplace⟩ := h _ hshift
  cases before with
  | nil =>
    -- the piece would be the placeholder, whose text is not empty
    rw [(List.cons.inj heq).1, filled_open hopen] at hplace
    simp [textAfter, braced] at hplace
  | cons q before =>
    obtain ⟨rfl, hrest⟩ := List.cons.inj heq
    refine ⟨before, after, hrest, hopen, ?_⟩
    rw [textAfter_cons, List.length_append] at hplace
    omega

theorem OnlyOpen.cons (h : OnlyOpen params done n ps)
    (hp : ∀ i < (p.filled params done).length,
      braced n.toList <+: (p.filled params done ++ textAfter params done ps).drop i →
        p = .hole n.toList ∧ n ∉ done ∧ i = 0) : OnlyOpen params done n (p :: ps) := by
  intro i hpre
  rcases Nat.lt_or_ge i (p.filled params done).length with hi | hi
  · obtain ⟨rfl, hopen, rfl⟩ := hp i hi hpre
    exact ⟨[], ps, rfl, hopen, rfl⟩
  · obtain ⟨j, rfl⟩ := Nat.exists_eq_add_of_le hi
    rw [textAfter_cons, List.drop_length_add_append] at hpre
    obtain ⟨before, after, rfl, hopen, rfl⟩ := h j hpre
    exact ⟨p :: before, after, rfl, hopen, by rw [textAfter_cons, List.length_append]⟩

/-- **One pass** fills its placeholder, wherever it stands, and changes nothing else. -/
theorem replaceAll_textAfter (h : OnlyOpen params done n ps) {value : String}
    (hvalue : argument? params n = some value) :
    replaceAll (braced n.toList) value.toList (textAfter params done ps) =
      textAfter params (done ++ [n]) ps := by
  induction ps with
  | nil => rfl
  | cons p ps ih =>
    rw [textAfter_cons, textAfter_cons]
    by_cases hp : p = .hole n.toList ∧ n ∉ done
    · obtain ⟨rfl, hopen⟩ := hp
      have hfilled : Piece.filled params (done ++ [n]) (.hole n.toList) = value.toList := by
        rw [Piece.filled, if_pos (by simp), substitute_hole (by rwa [String.ofList_toList])]
      rw [filled_open hopen, hfilled, ← ih h.tail]
      exact replaceAll_part_append _ _
    · rw [replaceAll_append_of_none_begins (h.head hp), ih h.tail, filled_concat hp]

theorem fillOne_textAfter
    (h : ∀ value, argument? params n = some value → OnlyOpen params done n ps) :
    fillOne params (textAfter params done ps) n = textAfter params (done ++ [n]) ps := by
  rw [fillOne]
  cases harg : argument? params n with
  | some value => exact replaceAll_textAfter (h value harg) harg
  | none =>
    refine List.flatMap_congr fun p _ => ?_
    by_cases hp : p = .hole n.toList ∧ n ∉ done
    · obtain ⟨rfl, hopen⟩ := hp
      rw [filled_open hopen, Piece.filled, if_pos (by simp),
        substitute_hole_of_none (by rwa [String.ofList_toList])]
    · exact (filled_concat hp).symm

/-- All passes, by induction on the placeholders that are still to come. -/
theorem foldl_fillOne {next : List String}
    (h : ∀ before n after value, next = before ++ n :: after → argument? params n = some value →
      OnlyOpen params (done ++ before) n ps) :
    next.foldl (fillOne params) (textAfter params done ps) =
      textAfter params (done ++ next) ps := by
  induction next generalizing done with
  | nil => rw [List.append_nil, List.foldl_nil]
  | cons n next ih =>
    have hpass : fillOne params (textAfter params done ps) n = textAfter params (done ++ [n]) ps :=
      fillOne_textAfter fun value harg => by simpa using h [] n next value rfl harg
    rw [List.foldl_cons, hpass, ih, List.append_assoc, List.singleton_append]
    intro before m after value heq harg
    simpa using h (n :: before) m after value (by rw [heq, List.cons_append]) harg

end Filling

/-! ### All passes -/

section AtOnce
variable {params : Table Json} {path : String}

theorem textAfter_of_mem {done : List String} {ps : List Piece} (h : ∀ n ∈ names ps, n ∈ done) :
    textAfter params done ps = ps.flatMap (Piece.substitute params) := by
  refine List.flatMap_congr fun p hp => ?_
  cases p with
  | literal c => rfl
  | hole name =>
    have hmem : String.ofList name ∈ names ps := List.mem_filterMap.2 ⟨_, hp, rfl⟩
    rw [Piece.filled, if_pos (h _ hmem)]

/-- **Filling is substitution** if every pass finds its own placeholders only. -/
theorem fill_of_orderly (h : Orderly params path) : fill path params = substitute path params := by
  have hrun : (placeholders path).foldl (fillOne params) (textAfter params [] (pieces path)) =
      textAfter params ([] ++ placeholders path) (pieces path) :=
    foldl_fillOne fun before n after value heq harg => h before n after value heq harg
  rw [textAfter_nil, flatMap_text_pieces, List.nil_append] at hrun
  have hdone : textAfter params (placeholders path) (pieces path) =
      (pieces path).flatMap (Piece.substitute params) := textAfter_of_mem fun n hn => hn
  rw [fill, hrun, hdone, substitute]

/-- A placeholder does not begin once more inside itself. -/
theorem eq_zero_of_prefix_drop_braced {name rest : List Char} (hname : '\x7d' ∉ name) {i : ℕ}
    (hi : i < (braced name).length) (hpre : braced name <+: (braced name ++ rest).drop i) :
    i = 0 := by
  cases i with
  | zero => rfl
  | succ j =>
    exfalso
    have hj : j ≤ name.length := by
      simp only [braced, List.length_cons, List.length_append, List.length_nil] at hi
      omega
    have hdrop : (braced name ++ rest).drop (j + 1) = name.drop j ++ '\x7d' :: rest := by
      simp [braced, List.drop_append_of_le_length hj]
    obtain ⟨tail, htail⟩ := hpre
    have hcut : ('\x7b' :: name) ++ '\x7d' :: tail = name.drop j ++ '\x7d' :: rest := by
      rw [← hdrop, ← htail]
      simp [braced]
    -- the first closing brace would stand at two places
    have hlong : '\x7d' ∉ '\x7b' :: name := by simp [hname]
    have hshort : '\x7d' ∉ name.drop j := fun hmem => hname (List.mem_of_mem_drop hmem)
    have hplaces := congrArg (List.idxOf '\x7d') hcut
    rw [List.idxOf_append_of_notMem hlong, List.idxOf_append_of_notMem hshort,
      List.idxOf_cons_self, List.idxOf_cons_self, List.length_cons, List.length_drop] at hplaces
    omega

/-- If a placeholder begins neither inside another one nor inside what was put in, it stands only
where it is open. -/
theorem onlyOpen_of_inert {n : String} {done : List String} {ps : List Piece} (hps : Formed ps)
    (h : ∀ name, .hole name ∈ ps → String.ofList name ≠ n ∨ n ∈ done →
      Inert (braced n.toList) (Piece.filled params done (.hole name))) :
    OnlyOpen params done n ps := by
  induction hps with
  | @tail cs hcs =>
    intro i hpre
    have htext : textAfter params done (cs.map Piece.literal) = cs :=
      flatMap_map_literal (fun c => rfl) cs
    rw [htext] at hpre
    have hmem : '\x7d' ∈ cs.drop i := hpre.subset (by simp [braced])
    exact absurd (List.mem_of_mem_drop hmem) hcs
  | @literal c ps hc _ ih =>
    refine (ih fun name hmem => h name (List.mem_cons_of_mem _ hmem)).cons fun i hi hpre => ?_
    exact absurd hpre ((inert_braced_literal hc).not_prefix_drop hi _)
  | @hole name ps hname _ ih =>
    refine (ih fun name hmem => h name (List.mem_cons_of_mem _ hmem)).cons fun i hi hpre => ?_
    by_cases hopen : String.ofList name = n ∧ n ∉ done
    · obtain ⟨rfl, hopen⟩ := hopen
      have htext : Piece.filled params done (.hole name) = braced name := by
        rw [Piece.filled, if_neg hopen]
      rw [htext] at hi hpre
      rw [String.toList_ofList] at hpre ⊢
      exact ⟨rfl, hopen, eq_zero_of_prefix_drop_braced hname hi hpre⟩
    · rw [not_and_or, not_not] at hopen
      exact absurd hpre ((h name List.mem_cons_self hopen).not_prefix_drop hi _)

/-- Separate placeholders and arguments. -/
theorem orderly_of_separate (hsep : Separate params (placeholders path)) :
    Orderly params path := by
  intro before n after value heq hvalue
  have hn : n ∈ placeholders path := by simp [heq]
  refine onlyOpen_of_inert (formed_pieces path) fun name hmem hcase => ?_
  have hname : String.ofList name ∈ placeholders path := List.mem_filterMap.2 ⟨_, hmem, rfl⟩
  by_cases hne : n = String.ofList name
  · -- the placeholder itself, after an earlier pass for it
    have hdone : String.ofList name ∈ before := hne ▸ hcase.resolve_left fun h => h hne.symm
    rw [Piece.filled, if_pos hdone, substitute_hole (hne ▸ hvalue)]
    exact hsep.arguments n hn n hn value hvalue
  · rw [Piece.filled]
    split
    · exact inert_substitute hsep hn hname hne
    · simpa using hsep.names n hn _ hname hne

/-- A single placeholder, whatever its argument is. -/
theorem orderly_of_single (h : (placeholders path).length ≤ 1) : Orderly params path := by
  intro before n after value heq _
  rw [heq, List.length_append, List.length_cons] at h
  obtain rfl : before = [] := List.eq_nil_of_length_eq_zero (by omega)
  obtain rfl : after = [] := List.eq_nil_of_length_eq_zero (by omega)
  refine onlyOpen_of_inert (formed_pieces path) fun name hmem hcase => ?_
  have hname : String.ofList name ∈ placeholders path := List.mem_filterMap.2 ⟨_, hmem, rfl⟩
  rw [heq, List.nil_append, List.mem_singleton] at hname
  rcases hcase with hne | hdone
  · exact absurd hname hne
  · cases hdone

/-- **Filling is substitution** for separate placeholders and arguments. -/
theorem fill_eq_substitute (hsep : Separate params (placeholders path)) :
    fill path params = substitute path params :=
  fill_of_orderly (orderly_of_separate hsep)

end AtOnce

/-! ### Simultaneous substitution -/

/-- A text is some pieces with every placeholder replaced by the text of its own argument, once, and
with the literal characters as they are. -/
inductive Substitutes (params : Table Json) : List Piece → List Char → Prop
  | nil : Substitutes params [] []
  | literal {c : Char} {ps : List Piece} {text : List Char} :
      Substitutes params ps text → Substitutes params (.literal c :: ps) (c :: text)
  | hole {name : List Char} {value : String} {ps : List Piece} {text : List Char} :
      argument? params (String.ofList name) = some value → Substitutes params ps text →
      Substitutes params (.hole name :: ps) (value.toList ++ text)

/-- There is one such text. -/
theorem substitutes_iff {params : Table Json} {ps : List Piece} {text : List Char}
    (hscalar : ∀ n ∈ names ps, ∃ value, argument? params n = some value) :
    Substitutes params ps text ↔ text = ps.flatMap (Piece.substitute params) := by
  induction ps generalizing text with
  | nil =>
    constructor
    · rintro ⟨⟩
      rfl
    · rintro rfl
      exact .nil
  | cons p ps ih =>
    cases p with
    | literal c =>
      constructor
      · rintro ⟨⟩
        rename_i text h
        rw [(ih hscalar).1 h]
        rfl
      · rintro rfl
        exact .literal ((ih hscalar).2 rfl)
    | hole name =>
      obtain ⟨value, hvalue⟩ := hscalar (String.ofList name) List.mem_cons_self
      have hrest : ∀ n ∈ names ps, ∃ value, argument? params n = some value :=
        fun n hn => hscalar n (List.mem_cons_of_mem _ hn)
      rw [List.flatMap_cons, substitute_hole hvalue]
      constructor
      · rintro ⟨⟩
        rename_i value' text hvalue' h
        obtain rfl := Option.some.inj (hvalue'.symm.trans hvalue)
        rw [(ih hrest).1 h]
      · rintro rfl
        exact .hole hvalue ((ih hrest).2 rfl)

/-- **Filling is simultaneous substitution** if every pass finds its own placeholders only. So it is
with a single placeholder, and also if there is no opening brace in the names of the placeholders
and in the texts of their arguments. -/
theorem fill_simultaneous (path : String) (params : Table Json)
    (hscalar : ∀ n ∈ placeholders path, ∃ value, argument? params n = some value) :
    (Orderly params path → Substitutes params (pieces path) (fill path params).toList) ∧
    ((placeholders path).length ≤ 1 →
      Substitutes params (pieces path) (fill path params).toList) ∧
    ((∀ n ∈ placeholders path, '\x7b' ∉ n.toList) →
      (∀ n ∈ placeholders path, ∀ value, argument? params n = some value →
        '\x7b' ∉ value.toList) →
      Substitutes params (pieces path) (fill path params).toList) := by
  have hfill : Orderly params path →
      Substitutes params (pieces path) (fill path params).toList := by
    intro h
    rw [fill_of_orderly h, substitute, String.toList_ofList]
    exact (substitutes_iff hscalar).2 rfl
  refine ⟨hfill, fun hsingle => hfill (orderly_of_single hsingle), fun hnames harguments => ?_⟩
  exact hfill (orderly_of_separate (separate_of_notMem hnames harguments))

/-- A placeholder that stands twice, with a brace behind it, and an argument that looks like a
placeholder but is none of the path. -/
theorem fill_simultaneous_repeated :
    let path := "\x7ba\x7d\x7d/\x7bb\x7d/\x7ba\x7d"
    let params : Table Json := .ofList [("a", .ofInt 7), ("b", .str "\x7bc\x7d")]
    (∀ n ∈ placeholders path, ∃ value, argument? params n = some value) ∧ Orderly params path ∧
      fill path params = "7\x7d/\x7bc\x7d/7" ∧
      Substitutes params (pieces path) (fill path params).toList := by
  intro path params
  have hnames : placeholders path = ["a", "b", "a"] := by decide
  have ha : argument? params "a" = some "7" := rfl
  have hb : argument? params "b" = some "\x7bc\x7d" := rfl
  have hscalar : ∀ n ∈ placeholders path, ∃ value, argument? params n = some value := by
    simp [hnames, ha, hb]
  have hsep : Separate params (placeholders path) := by
    constructor <;> simp [hnames, ha, hb, Inert, braced]
  have horderly : Orderly params path := orderly_of_separate hsep
  exact ⟨hscalar, horderly, by decide, (fill_simultaneous path params hscalar).1 horderly⟩

/-- **An argument that spells a later placeholder** is taken for one. -/
theorem argument_taken_for_placeholder :
    ¬ ∀ (path : String) (params : Table Json),
      (∀ n ∈ placeholders path, ∃ value, argument? params n = some value) →
      Substitutes params (pieces path) (fill path params).toList := by
  intro h
  let path := "\x7ba\x7d/\x7bb\x7d"
  let params : Table Json := .ofList [("a", .str "\x7bb\x7d"), ("b", .str "x")]
  have hnames : placeholders path = ["a", "b"] := by decide
  have hscalar : ∀ n ∈ placeholders path, ∃ value, argument? params n = some value := by
    rw [hnames]
    simp only [List.forall_mem_cons]
    exact ⟨⟨_, rfl⟩, ⟨_, rfl⟩, nofun⟩
  have htext := (substitutes_iff hscalar).1 (h path params hscalar)
  have hwrong : (fill path params).toList ≠ (pieces path).flatMap (Piece.substitute params) := by
    decide
  exact hwrong htext

/-- So is a placeholder that stands inside the name of another one. -/
example : fill "\x7ba\x7d/\x7bx\x7ba\x7d"
    (.ofList [("a", .str "1"), ("x\x7ba", .str "2")]) = "1/\x7bx1" := by
  decide

end Bourse.Template
