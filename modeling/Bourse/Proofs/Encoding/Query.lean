import Bourse.Encoding.Query
import Bourse.Proofs.Encoding.Percent
import Bourse.Proofs.Table
import Bourse.Proofs.Text.Cut

/-! # Query strings and back

A query string holds the parameters that are sent, and nothing else: taking it apart gives the keys
and texts that were put into it (`decode?_encode`), whatever characters they have. These are the
parameters that are not `null` (`mem_pairs`, `valueText?_eq_none_iff`), by strictly ascending key
(`ascending_pairs`).

`SentAs` says what text a value is sent as. A key has one such text or none, and these texts and the
query string determine each other (`encode_eq_iff`), so that the order in which parameters were put
into a table does not show. `encode_loses_nothing` puts this together. -/

namespace Bourse.Query

variable (params : Table Json)

/-! ### What is sent -/

/-- Only `null` is not sent. -/
theorem valueText?_eq_none_iff (v : Json) : valueText? v = none ↔ v = .null := by
  cases v with
  | num n => cases n <;> simp [valueText?, Json.scalar?]
  | _ => simp [valueText?, Json.scalar?]

theorem exists_valueText? {v : Json} (h : v ≠ .null) : ∃ text, valueText? v = some text :=
  Option.ne_none_iff_exists'.1 fun h0 => h ((valueText?_eq_none_iff v).1 h0)

theorem mem_pairs {key text : String} :
    (key, text) ∈ pairs params ↔ (params.get? key).bind valueText? = some text := by
  unfold pairs
  rw [List.mem_filterMap, Option.bind_eq_some_iff]
  constructor
  · rintro ⟨⟨k, v⟩, hmem, htext⟩
    obtain ⟨t, ht, heq⟩ := Option.map_eq_some_iff.1 htext
    rw [Prod.mk.injEq] at heq
    obtain ⟨rfl, rfl⟩ := heq
    exact ⟨v, params.mem_sorted.1 hmem, ht⟩
  · rintro ⟨v, hget, hv⟩
    refine ⟨(key, v), params.mem_sorted.2 hget, ?_⟩
    show (valueText? v).map _ = _
    rw [hv]
    rfl

theorem pairs_of_isEmpty (h : params.isEmpty = true) : pairs params = [] := by
  have hempty : params.entries = [] := List.isEmpty_iff.1 h
  simp [pairs, Table.sorted, hempty]

theorem ascending_pairs : (pairs params).Pairwise fun a b => a.1 < b.1 := by
  unfold pairs
  refine List.Pairwise.filterMap _ ?_ params.ascending_sorted
  rintro ⟨k, v⟩ ⟨k', v'⟩ hlt a ha b hb
  obtain ⟨t, -, rfl⟩ := Option.map_eq_some_iff.1 ha
  obtain ⟨t', -, rfl⟩ := Option.map_eq_some_iff.1 hb
  exact hlt

/-! ### Taking apart -/

/-- A key and a text as they stand between two separators. -/
def part (e : String × String) : List Char :=
  (Percent.encode e.1).toList ++ '=' :: (Percent.encode e.2).toList

theorem not_mem_part (e : String × String) : '&' ∉ part e := by
  have h : ∀ s, '&' ∉ (Percent.encode s).toList := fun s =>
    Percent.not_mem_encode s (by decide) (by decide)
  rw [part, List.mem_append, List.mem_cons, not_or, not_or]
  exact ⟨h e.1, by decide, h e.2⟩

/-- Takes one part apart. -/
theorem splitOnce_part (e : String × String) : Text.splitOnce '=' (part e)
    = some ((Percent.encode e.1).toList, (Percent.encode e.2).toList) :=
  Text.splitOnce_append _ (Percent.not_mem_encode e.1 (by decide) (by decide))

theorem toList_encode (ps : List (String × String)) :
    ("&".intercalate (ps.map fun (key, t) => Percent.encode key ++ "=" ++ Percent.encode t)).toList
      = Text.joinWith ['&'] (ps.map part) := by
  have hsep : "&".toList = ['&'] := rfl
  rw [String.toList_intercalate, Text.joinWith_eq_intercalate, List.map_map, hsep]
  refine congrArg _ (List.map_congr_left fun e _ => ?_)
  simp [part]

/-- A query string has the characters of encoded texts and its two separators. -/
theorem not_mem_encode {c : Char} (hpercent : c ≠ '%') (hplain : Percent.isPlain c = false)
    (hand : c ≠ '&') (hequals : c ≠ '=') : c ∉ (encode params).toList := by
  have htext : ∀ s, c ∉ (Percent.encode s).toList := fun s =>
    Percent.not_mem_encode s hpercent hplain
  unfold encode write
  rw [toList_encode]
  intro hmem
  rcases Text.mem_joinWith hmem with hsep | ⟨p, hp, hc⟩
  · exact hand (List.mem_singleton.1 hsep)
  · obtain ⟨e, -, rfl⟩ := List.mem_map.1 hp
    rw [part, List.mem_append, List.mem_cons] at hc
    rcases hc with hc | hc | hc
    · exact htext e.1 hc
    · exact hequals hc
    · exact htext e.2 hc

/-- **A query string reads as what is in it.** -/
theorem decode?_encode : decode? (encode params) = some (pairs params) := by
  unfold encode write decode?
  generalize pairs params = ps
  cases ps with
  | nil => rfl
  | cons e es =>
    have hsplit : Text.splitAll '&' (Text.joinWith ['&'] ((e :: es).map part))
        = (e :: es).map part :=
      Text.splitAll_joinWith fun p hp => by
        obtain ⟨d, -, rfl⟩ := List.mem_map.1 (by simpa using hp : p ∈ (e :: es).map part)
        exact not_mem_part d
    rw [← toList_encode] at hsplit
    have hne : "&".intercalate ((e :: es).map fun (key, t) =>
        Percent.encode key ++ "=" ++ Percent.encode t) ≠ "" := by
      intro h0
      rw [h0, List.map_cons] at hsplit
      have := (List.cons.inj hsplit).1
      simp [part] at this
    rw [if_neg hne, hsplit]
    generalize e :: es = ds
    induction ds with
    | nil => rfl
    | cons d ds ih =>
      rw [List.map_cons, List.mapM_cons, ih, splitOnce_part]
      simp [Percent.decode?_encode]

/-! ### One string for one set of parameters -/

/-- The text that a value is sent as: of a text itself, of a number its numeral, of a flag its word,
and of a list or an object its compact JSON. Nothing is sent for `null`. -/
inductive SentAs : Json → String → Prop
  | text (s : String) : SentAs (.str s) s
  | whole (i : WordInt) : SentAs (.num (.int i)) (String.ofList (Text.numeral i.val))
  | binary (x : Binary64) : SentAs (.num (.float x)) x.displayText
  | yes : SentAs (.bool true) "true"
  | no : SentAs (.bool false) "false"
  | list (items : List Json) : SentAs (.arr items) (Json.arr items).compact
  | object (entries : List (String × Json)) : SentAs (.obj entries) (Json.obj entries).compact

theorem valueText?_eq_some_iff {v : Json} {text : String} :
    valueText? v = some text ↔ SentAs v text := by
  constructor
  · intro h
    cases v with
    | null => cases h
    | bool b => cases b <;> cases h <;> constructor
    | num n => cases n <;> cases h <;> constructor
    | str s => cases h; constructor
    | arr items => cases h; constructor
    | obj entries => cases h; constructor
  · rintro ⟨⟩ <;> rfl

/-- The text that is sent under a key. -/
def IsSent (key text : String) : Prop := ∃ v, params.get? key = some v ∧ SentAs v text

theorem mem_pairs_iff_isSent {key text : String} :
    (key, text) ∈ pairs params ↔ IsSent params key text := by
  rw [mem_pairs, Option.bind_eq_some_iff]
  simp only [valueText?_eq_some_iff]
  rfl

variable {params}

/-- Pairs by ascending key are determined by what is among them. -/
theorem pairs_eq_iff {others : Table Json} :
    pairs params = pairs others ↔
      ∀ key text, IsSent params key text ↔ IsSent others key text := by
  simp only [← mem_pairs_iff_isSent]
  refine ⟨fun h key text => by rw [h], fun h => ?_⟩
  have : Std.Irrefl fun a b : String × String => a.1 < b.1 := ⟨fun a => String.lt_irrefl a.1⟩
  have : Std.Antisymm fun a b : String × String => a.1 < b.1 :=
    ⟨fun a b hab hba => absurd (String.lt_trans hab hba) (String.lt_irrefl a.1)⟩
  exact (ascending_pairs params).eq_of_mem_iff (ascending_pairs others) fun e => h e.1 e.2

/-- **Equal query strings** have equal texts under equal keys, and conversely. -/
theorem encode_eq_iff {others : Table Json} :
    encode params = encode others ↔
      ∀ key text, IsSent params key text ↔ IsSent others key text := by
  rw [← pairs_eq_iff]
  constructor
  · intro h
    have hread := decode?_encode params
    rw [h, decode?_encode] at hread
    exact (Option.some.inj hread).symm
  · intro h
    unfold encode write
    rw [h]

variable (params)

/-- What a reader of a query string is to find. -/
structure Recovers (parts : List (String × String)) : Prop where
  ascending : parts.Pairwise fun a b => a.1 < b.1
  /-- The keys are those of the parameters that are not `null`. -/
  keys : ∀ key, key ∈ parts.map Prod.fst ↔ ∃ v, params.get? key = some v ∧ v ≠ .null
  /-- Each key has the text of its parameter, and no other. -/
  texts : ∀ key text, (key, text) ∈ parts ↔ IsSent params key text

theorem recovers_pairs : Recovers params (pairs params) where
  ascending := ascending_pairs params
  keys key := by
    rw [List.mem_map]
    constructor
    · rintro ⟨⟨_, text⟩, hmem, rfl⟩
      obtain ⟨v, hget, hv⟩ := Option.bind_eq_some_iff.1 ((mem_pairs params).1 hmem)
      refine ⟨v, hget, fun hnull => ?_⟩
      rw [(valueText?_eq_none_iff v).2 hnull] at hv
      cases hv
    · rintro ⟨v, hget, hv⟩
      obtain ⟨text, htext⟩ := exists_valueText? hv
      exact ⟨(key, text), (mem_pairs params).2 (by rw [hget]; exact htext), rfl⟩
  texts _ _ := mem_pairs_iff_isSent params

/-- **Query strings are canonical and lose nothing.** A string reads as the parameters that are
sent; tables with the same entries, put in any order, have one string; and two tables have one
string exactly if they send the same texts under the same keys. -/
theorem encode_loses_nothing :
    (∃ parts, decode? (encode params) = some parts ∧ Recovers params parts) ∧
      ∀ others : Table Json,
        ((∀ e, e ∈ params.entries ↔ e ∈ others.entries) → encode params = encode others) ∧
        (encode params = encode others ↔
          ∀ key text, IsSent params key text ↔ IsSent others key text) := by
  refine ⟨⟨pairs params, decode?_encode params, recovers_pairs params⟩, fun others =>
    ⟨fun hentries => encode_eq_iff.2 fun key text => ?_, encode_eq_iff⟩⟩
  unfold IsSent
  simp only [← Table.mem_entries, hentries]

/-- An empty key, separators inside a key and a text, and a `null`, in two orders. -/
theorem encode_loses_nothing_reordered :
    let params : Table Json := .ofList [("b=", .str "1&2 é"), ("", .ofInt 5), ("a", .null)]
    let others : Table Json := .ofList [("", .ofInt 5), ("a", .null), ("b=", .str "1&2 é")]
    params.keys ≠ others.keys ∧ (∀ e, e ∈ params.entries ↔ e ∈ others.entries) ∧
      encode params = encode others ∧
      ∃ parts, decode? (encode params) = some parts ∧ Recovers params parts ∧
        ("b=", "1&2 é") ∈ parts ∧ "a" ∉ parts.map Prod.fst := by
  intro params others
  have hsame : ∀ e, e ∈ params.entries ↔ e ∈ others.entries := by
    have hparams : params.entries = [("b=", .str "1&2 é"), ("", .ofInt 5), ("a", .null)] := rfl
    have hothers : others.entries = [("", .ofInt 5), ("a", .null), ("b=", .str "1&2 é")] := rfl
    intro e
    simp only [hparams, hothers, List.mem_cons, List.not_mem_nil, or_false]
    tauto
  obtain ⟨⟨parts, hread, hparts⟩, hothers⟩ := encode_loses_nothing params
  refine ⟨by decide, hsame, (hothers others).1 hsame, parts, hread, hparts, ?_, ?_⟩
  · exact (hparts.texts _ _).2 ⟨.str "1&2 é", rfl, .text _⟩
  · rw [hparts.keys]
    rintro ⟨v, hget, hv⟩
    have hnull : params.get? "a" = some .null := rfl
    rw [hnull, Option.some.injEq] at hget
    exact hv hget.symm

end Bourse.Query
