import Bourse.Okx.Venue
import Bourse.Proofs.Credentials
import Bourse.Proofs.Encoding.Query
import Bourse.Proofs.Http.Url
import Bourse.Proofs.Result

/-! # What OKX signs is what it is sent

A signature covers the time, the method, the target and the body. The target is looked for in the
finished address, behind the first mark of a scheme and from the next slash on; `targetOf_append`
shows that this finds what stands behind the authority, and `signed_as_sent` that the signature is
that of the request as it arrives. `SignedAs` is the view of the venue, which computes the digest of
what it finds in the headers, the address and the body. -/

namespace Bourse.Okx

/-! ### The target -/

/-- **The target** is all that stands behind the authority. -/
theorem targetOf_append {scheme authority : List Char} (rest : List Char)
    (hscheme : ':' ∉ scheme) (hauthority : '/' ∉ authority) :
    targetOf (scheme ++ ("://".toList ++ (authority ++ '/' :: rest))) = '/' :: rest := by
  have hmark : "://".toList = ':' :: ['/', '/'] := rfl
  have hbehind : Text.behind? "://".toList (scheme ++ ("://".toList ++ (authority ++ '/' :: rest)))
      = some (authority ++ '/' :: rest) := by
    rw [hmark]
    exact Text.behind?_append _ hscheme
  have hdrop : (authority ++ '/' :: rest).dropWhile (· != '/') = '/' :: rest := by
    rw [List.dropWhile_append_of_pos]
    · rfl
    · intro c hc
      rw [bne_iff_ne]
      rintro rfl
      exact hauthority hc
  unfold targetOf
  rw [hbehind, Option.getD_some, hdrop]

theorem targetOf_url {url scheme authority rest : String} (hscheme : ':' ∉ scheme.toList)
    (hauthority : '/' ∉ authority.toList)
    (h : url = scheme ++ "://" ++ authority ++ "/" ++ rest) :
    String.ofList (targetOf url.toList) = "/" ++ rest := by
  have hchars : url.toList = scheme.toList ++ ("://".toList ++
      (authority.toList ++ '/' :: rest.toList)) := by
    rw [h]
    simp
  rw [hchars, targetOf_append _ hscheme hauthority, ← String.toList_inj]
  simp

/-! ### What the venue finds -/

/-- The parameters travel in the query, without a body: behind the last question mark, if there are
any. -/
structure QuerySent (r : Request) (ctx : SignContext) (p : PreparedRequest)
    (sent : List (String × String)) : Prop where
  no_body : p.body = none
  query : r.params.isEmpty = true ∧ p.url = joinUrl ctx.baseUrl r.path ∧ sent = [] ∨
    ∃ query, Text.LastCut ['?'] p.url.toList (joinUrl ctx.baseUrl r.path).toList query.toList ∧
      Query.decode? query = some sent
  ascending : sent.Pairwise fun a b => a.1 < b.1
  mem_sent : ∀ key text, (key, text) ∈ sent ↔
    (r.params.get? key).bind Query.valueText? = some text
  /-- None that is not `null` is left out. -/
  complete : ∀ key v, r.params.get? key = some v → v ≠ .null → ∃ text, (key, text) ∈ sent

/-- The parameters travel as JSON in the body. -/
structure BodySent (r : Request) (ctx : SignContext) (p : PreparedRequest) : Prop where
  url : p.url = joinUrl ctx.baseUrl r.path
  body : p.body = some (Json.ofTable r.params).compact

/-- What the venue finds in a prepared request with this target. -/
structure SignedAs (r : Request) (ctx : SignContext) (p : PreparedRequest)
    (secret timestamp target : String) : Prop where
  method : p.method = r.method
  secret_eq : ctx.credentials.secret = some secret
  timestamp_eq : Iso8601.render? ctx.timestamp = some timestamp
  timestamp_header : p.headers.get? "OK-ACCESS-TIMESTAMP" = some timestamp
  /-- The keyed digest of time, method, target and body as they arrive. -/
  signature_header : p.headers.get? "OK-ACCESS-SIGN" = some (Base64.encode
    (HashAlgorithm.sha256.mac (Text.bytes secret)
      (Text.bytes (timestamp ++ p.method.name ++ target ++ p.body.getD ""))))
  in_query : r.method.usesQuery = true → ∃ sent, QuerySent r ctx p sent
  in_body : r.method.usesQuery = false → BodySent r ctx p

/-! ### What is sent -/

section Place
variable (r : Request) (ctx : SignContext) {p : PreparedRequest}

theorem querySent_of_place (hquery : r.method.usesQuery = true)
    (hplace : (p.url, p.body) = place r ctx.baseUrl) : ∃ sent, QuerySent r ctx p sent := by
  unfold place at hplace
  rw [if_pos hquery, Prod.mk.injEq] at hplace
  obtain ⟨hurl, hbody⟩ := hplace
  refine ⟨Query.pairs r.params, hbody, ?_, Query.ascending_pairs _, fun key text =>
    Query.mem_pairs _, ?_⟩
  · cases hempty : r.params.isEmpty with
    | true =>
      rw [hempty, if_pos rfl] at hurl
      exact .inl ⟨rfl, hurl, Query.pairs_of_isEmpty _ hempty⟩
    | false =>
      rw [hempty, if_neg (by decide)] at hurl
      refine .inr ⟨Query.encode r.params, ?_, Query.decode?_encode _⟩
      have hmark : '?' ∉ (Query.encode r.params).toList :=
        Query.not_mem_encode _ (by decide) (by decide) (by decide) (by decide)
      rw [hurl, String.toList_append, String.toList_append]
      exact Text.lastCut_append _ (by simp) hmark
  · intro key v hget hv
    obtain ⟨text, htext⟩ := Query.exists_valueText? hv
    refine ⟨text, (Query.mem_pairs _).2 ?_⟩
    rw [hget, Option.bind_some, htext]

theorem bodySent_of_place (hquery : r.method.usesQuery = false)
    (hplace : (p.url, p.body) = place r ctx.baseUrl) : BodySent r ctx p := by
  unfold place at hplace
  rw [hquery, if_neg (by decide), Prod.mk.injEq] at hplace
  exact ⟨hplace.1, hplace.2⟩

/-- A slash follows the authority in a placed address as well. -/
theorem url_of_place {scheme authority tail : String}
    (haddr : Address ctx.baseUrl scheme authority tail) (hpath : r.path ≠ "")
    (hplace : (p.url, p.body) = place r ctx.baseUrl) :
    ∃ rest, p.url = scheme ++ "://" ++ authority ++ "/" ++ rest := by
  have hjoined : ∃ more, p.url = joinUrl ctx.baseUrl r.path ++ more := by
    cases hquery : r.method.usesQuery with
    | true =>
      obtain ⟨sent, hsent⟩ := querySent_of_place r ctx hquery hplace
      rcases hsent.query with ⟨-, hurl, -⟩ | ⟨query, hcut, -⟩
      · exact ⟨"", by rw [hurl, String.append_empty]⟩
      · refine ⟨"?" ++ query, ?_⟩
        rw [← String.toList_inj, hcut.eq]
        simp
    | false => exact ⟨"", by rw [(bodySent_of_place r ctx hquery hplace).url, String.append_empty]⟩
  obtain ⟨rest, hrest⟩ := joinUrl_of_address haddr hpath
  obtain ⟨more, hmore⟩ := hjoined
  exact ⟨rest ++ more, by rw [hmore, hrest]; simp [String.append_assoc]⟩

end Place

/-! ### Signed requests -/

/-- What a private request is prepared as. -/
theorem signPrivate_cases {r : Request} {ctx : SignContext} {p : PreparedRequest}
    (h : signPrivate r ctx = .ok p) :
    ∃ secret key password timestamp headers, ctx.credentials.secret = some secret ∧
      Iso8601.render? ctx.timestamp = some timestamp ∧
      (p.url, p.body) = place r ctx.baseUrl ∧ p.method = r.method ∧
      p.headers = Table.putAll headers [("OK-ACCESS-KEY", key),
        ("OK-ACCESS-SIGN", Base64.encode (HashAlgorithm.sha256.mac (Text.bytes secret)
          (Text.bytes (signedText timestamp r.method p.url p.body)))),
        ("OK-ACCESS-TIMESTAMP", timestamp), ("OK-ACCESS-PASSPHRASE", password)] := by
  unfold signPrivate at h
  obtain ⟨_, -, h⟩ := bind_eq_ok_iff.1 h
  obtain ⟨timestamp, htimestamp, h⟩ := bind_eq_ok_iff.1 h
  obtain ⟨secret, hsecret, h⟩ := bind_eq_ok_iff.1 h
  obtain ⟨signature, hsignature, h⟩ := bind_eq_ok_iff.1 h
  obtain ⟨key, -, h⟩ := bind_eq_ok_iff.1 h
  obtain ⟨password, -, h⟩ := bind_eq_ok_iff.1 h
  cases hsignature
  cases h
  exact ⟨secret, key, password, timestamp, _, (Credentials.expose_eq_ok_iff.1 hsecret).1,
    require_eq_ok_iff.1 htimestamp, rfl, rfl, rfl⟩

/-- The mark of the sandbox is a header, and touches no other one. -/
theorem markDemo_eq (options : Table Json) (p : PreparedRequest) :
    ∃ headers, markDemo options p = { p with headers } ∧
      ∀ name, name ≠ "x-simulated-trading" → headers.get? name = p.headers.get? name := by
  unfold markDemo
  split
  · exact ⟨_, rfl, fun name h => p.headers.get?_put_of_ne h "1"⟩
  · exact ⟨p.headers, rfl, fun name _ => rfl⟩

/-- **What is signed is what is sent**, whatever the caller asks for. -/
theorem signed_as_sent {r : Request} {ctx : SignContext} {p : PreparedRequest}
    {scheme authority tail : String} (haddr : Address ctx.baseUrl scheme authority tail)
    (htier : r.tier = "private") (hpath : r.path ≠ "") (h : sign r ctx = .ok p) :
    ∃ secret timestamp rest, p.url = scheme ++ "://" ++ authority ++ "/" ++ rest ∧
      SignedAs r ctx p secret timestamp ("/" ++ rest) := by
  obtain ⟨q, hq, rfl⟩ := map_eq_ok_iff.1 h
  rw [if_pos htier] at hq
  obtain ⟨secret, key, password, timestamp, signed, hsecret, htime, hplace, hmethod, hheaders⟩ :=
    signPrivate_cases hq
  obtain ⟨rest, hurl⟩ := url_of_place r ctx haddr hpath hplace
  have htext : signedText timestamp r.method q.url q.body =
      timestamp ++ q.method.name ++ ("/" ++ rest) ++ q.body.getD "" := by
    rw [signedText, targetOf_url haddr.scheme_plain haddr.authority_plain hurl, hmethod]
  obtain ⟨headers, hmark, hkept⟩ := markDemo_eq ctx.options q
  rw [hmark]
  refine ⟨secret, timestamp, rest, hurl, hmethod, hsecret, htime, ?_, ?_,
    fun hquery => querySent_of_place r ctx hquery hplace,
    fun hquery => bodySent_of_place r ctx hquery hplace⟩
  · show headers.get? "OK-ACCESS-TIMESTAMP" = _
    rw [hkept _ (by decide), hheaders, Table.get?_putAll _ (by simp)]
    rfl
  · show headers.get? "OK-ACCESS-SIGN" = _
    rw [hkept _ (by decide), hheaders, Table.get?_putAll _ (by simp), htext]
    rfl

/-- Orders that are asked for in the sandbox, with a note of no value. -/
theorem signed_as_sent_pending :
    let r : Request :=
      { path := "trade/orders-pending", tier := "private"
        params := .ofList [("note", .null), ("instType", .str "SPOT")] }
    let ctx : SignContext :=
      { venue := "okx", baseUrl := "https://www.okx.com/api/v5"
        credentials := { apiKey := some "key", secret := some "secret", password := some "pass" }
        timestamp := 1700000000000, options := .ofList [("demoTrading", .bool true)] }
    ∃ p, sign r ctx = .ok p ∧ p.method = .get ∧ ∃ secret rest,
      SignedAs r ctx p secret "2023-11-14T22:13:20.000Z" ("/" ++ rest) ∧
      ∃ sent, QuerySent r ctx p sent ∧ ("instType", "SPOT") ∈ sent := by
  intro r ctx
  obtain ⟨p, hp⟩ : ∃ p, sign r ctx = .ok p := ⟨_, rfl⟩
  have haddr : Address ctx.baseUrl "https" "www.okx.com" "/api/v5" :=
    ⟨by decide, by decide, by decide, .inr ⟨"api/v5", by decide⟩, .inl (by decide)⟩
  obtain ⟨secret, timestamp, rest, -, hsigned⟩ := signed_as_sent haddr rfl (by decide) hp
  have htime : Iso8601.render? 1700000000000 = some "2023-11-14T22:13:20.000Z" := by
    rfl
  obtain rfl : "2023-11-14T22:13:20.000Z" = timestamp :=
    Option.some.inj (htime.symm.trans hsigned.timestamp_eq)
  obtain ⟨sent, hsent⟩ := hsigned.in_query rfl
  refine ⟨p, hp, hsigned.method, secret, rest, hsigned, sent, hsent, ?_⟩
  exact (hsent.mem_sent _ _).2 rfl

end Bourse.Okx
