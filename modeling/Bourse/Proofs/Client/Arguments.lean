import Bourse.Binance.Venue
import Bourse.Proofs.Client.Frame
import Bourse.Proofs.Table
import Bourse.Proofs.Venue.Passes

/-! # Where the parameters of a call go

The parameters of a call of a path are divided: those that the path names go into it, and the
others stay parameters (`Composed`). The second group loses nothing; in the first one a value that
is no text, number or flag is dropped, and its placeholder stays (`null_argument_is_dropped`).

* `missing?_eq_none_iff`: when the call is refused;
* `composed_of_compose`, `request_cases`: the division, and the call from the outside. -/

namespace Bourse.Client

open Session Template

/-! ### Refused calls -/

section Missing
variable {path : String} {params : Table Json}

theorem missing?_eq_none_iff :
    missing? path params = none ↔ ∀ n ∈ placeholders path, params.contains n = true := by
  simp [missing?]

theorem mem_of_missing? {n : String} (h : missing? path params = some n) :
    n ∈ placeholders path ∧ params.contains n = false :=
  ⟨List.mem_of_find?_eq_some h, by simpa using List.find?_some h⟩

end Missing

/-! ### The request of a call -/

/-- What a call of a path hands to the adapter for signing. -/
structure Composed (path tier : String) (method : HttpMethod) (params : Table Json) (r : Request) :
    Prop where
  tier_eq : r.tier = tier
  method_eq : r.method = method
  headers_eq : r.headers = .empty
  body_eq : r.body = none
  /-- Every placeholder is the key of a parameter. -/
  present : ∀ n ∈ placeholders path, params.contains n = true
  /-- The parameters that the path does not name are all there, once and unchanged. -/
  rest : r.params.entries.Perm (params.entries.filter fun e => e.1 ∉ placeholders path)
  rest_get? : ∀ key, r.params.get? key = if key ∈ placeholders path then none else params.get? key
  /-- Each placeholder has given way to the text of its parameter. -/
  path_eq : Separate params (placeholders path) → r.path = substitute path params
  /-- A placeholder is left exactly if its parameter has no text. -/
  left_iff : Separate params (placeholders path) → ∀ n ∈ placeholders path,
    (Text.contains r.path (String.ofList (braced n.toList)) = true ↔ argument? params n = none)

/-- The request that a call of a path sends. -/
def filledRequest (path tier : String) (method : HttpMethod) (params : Table Json) : Request :=
  { path := fill path params, tier, method
    params := (placeholders path).foldl Table.erase params }

section Calls
variable {c : Client} {path tier : String} {method : HttpMethod} {params : Table Json}

theorem compose_of_missing {n : String} (h : missing? path params = some n) :
    c.compose path tier method params = .error (.make .argumentsRequired
      (c.id ++ " " ++ path ++ " requires a \"" ++ n ++ "\" argument")) := by
  rw [compose, h]

theorem compose_of_present (h : missing? path params = none) :
    c.compose path tier method params = .ok (filledRequest path tier method params) := by
  rw [compose, h]
  rfl

theorem request_of_missing {n : String} (h : missing? path params = some n) (w : World) :
    c.request path tier method params w = (.error (.failed (.make .argumentsRequired
      (c.id ++ " " ++ path ++ " requires a \"" ++ n ++ "\" argument"))), w) := by
  show (ofResult (c.compose path tier method params) >>= c.send) w = _
  rw [compose_of_missing h, ofResult_bind_error]

theorem request_of_present (h : missing? path params = none) (w : World) :
    c.request path tier method params w = c.send (filledRequest path tier method params) w := by
  show (ofResult (c.compose path tier method params) >>= c.send) w = _
  rw [compose_of_present h, ofResult_bind_ok]

theorem composed_of_present (h : missing? path params = none) :
    Composed path tier method params (filledRequest path tier method params) := by
  refine ⟨rfl, rfl, rfl, rfl, missing?_eq_none_iff.1 h, ?_, ?_, ?_, ?_⟩
  · exact params.entries_foldl_erase (placeholders path)
  · exact params.get?_foldl_erase (placeholders path)
  · exact fill_eq_substitute
  · intro hsep n hn
    show Text.contains (fill path params) _ = true ↔ _
    rw [fill_eq_substitute hsep, Text.contains, String.toList_ofList,
      occursIn_braced_substitute hsep hn, Option.isNone_iff_eq_none]

theorem composed_of_compose {r : Request} (h : c.compose path tier method params = .ok r) :
    Composed path tier method params r := by
  cases hmissing : missing? path params with
  | some n =>
    rw [compose_of_missing hmissing] at h
    cases h
  | none =>
    rw [compose_of_present hmissing] at h
    cases h
    exact composed_of_present hmissing

end Calls

/-- **A call of a path** is refused before anything is signed because an argument is missing, or it
sends the request in which every parameter has its place. -/
theorem request_cases (c : Client) (path tier : String) (method : HttpMethod)
    (params : Table Json) (w : World) :
    (∃ n ∈ placeholders path, params.contains n = false ∧
      c.request path tier method params w = (.error (.failed (.make .argumentsRequired
        (c.id ++ " " ++ path ++ " requires a \"" ++ n ++ "\" argument"))), w)) ∨
    ∃ r, Composed path tier method params r ∧
      c.request path tier method params w = c.send r w := by
  cases hmissing : missing? path params with
  | some n =>
    obtain ⟨hmem, habsent⟩ := mem_of_missing? hmissing
    exact .inl ⟨n, hmem, habsent, request_of_missing hmissing w⟩
  | none => exact .inr ⟨_, composed_of_present hmissing, request_of_present hmissing w⟩

/-- A call with an argument for its one placeholder and a parameter beside it. -/
theorem request_cases_order :
    let c : Client := ⟨Binance.adapter, {}⟩
    let path := "orders/\x7bid\x7d"
    let params : Table Json := .ofList [("id", .str "7"), ("note", .null)]
    ∃ r, Composed path "public" .get params r ∧ r.path = "orders/7" ∧
      r.params.get? "id" = none ∧ r.params.get? "note" = some .null ∧
      c.request path "public" .get params (c.world {}) = c.send r (c.world {}) := by
  intro c path params
  have hnames : placeholders path = ["id"] := by decide
  have hargument : argument? params "id" = some "7" := rfl
  have hsep : Separate params (placeholders path) := by
    apply separate_of_notMem
    · simp [hnames]
    · simp [hnames, hargument]
  obtain ⟨n, hmem, habsent, -⟩ | ⟨r, hr, hsend⟩ :=
    request_cases c path "public" .get params (c.world {})
  · rw [hnames, List.mem_singleton] at hmem
    rw [hmem] at habsent
    cases habsent
  · refine ⟨r, hr, ?_, ?_, ?_, hsend⟩
    · rw [hr.path_eq hsep]
      decide
    · rw [hr.rest_get?, hnames]
      rfl
    · rw [hr.rest_get?, hnames]
      rfl

/-- **A null argument is dropped**: its placeholder is sent as it stands, and its parameter is not
sent at all. -/
theorem null_argument_is_dropped :
    let c : Client := ⟨Binance.adapter, {}⟩
    let path := "orders/\x7bid\x7d"
    let params : Table Json := .ofList [("id", .null)]
    ∃ r : Request, r.path = path ∧ r.params.get? "id" = none ∧
      c.request path "public" .get params (c.world {}) = c.send r (c.world {}) := by
  intro c path params
  have hnames : placeholders path = ["id"] := by decide
  have hpresent : missing? path params = none := by
    rw [missing?_eq_none_iff, hnames]
    simp only [List.mem_singleton, forall_eq]
    rfl
  refine ⟨_, ?_, ?_, request_of_present hpresent _⟩
  · show fill path params = path
    decide
  · show ((placeholders path).foldl Table.erase params).get? "id" = none
    rw [hnames]
    rfl

end Bourse.Client
