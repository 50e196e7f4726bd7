import Bourse.Binance.Venue
import Bourse.Proofs.Credentials
import Bourse.Proofs.Encoding.Query
import Bourse.Proofs.Json.Int64
import Bourse.Proofs.Result

/-! # What Binance signs is what it is sent

A signed request carries its parameters, the digest of them, and nothing else that the venue would
read as a parameter. `SignedAs` says so of a prepared request from the side of the venue, which
finds the last mark in the text that arrives, computes the digest of what stands before it, and
takes that apart. `sign_private` shows it for whatever a caller puts into a request. -/

namespace Bourse

namespace Binance

/-! ### What the venue is to read -/

theorem isInt64_window (options : Table Json) : IsInt64 (window options) := by
  unfold window
  cases h : (options.get? "recvWindow").bind Json.int? with
  | none => exact ⟨by decide, by decide⟩
  | some i =>
    obtain ⟨v, -, hv⟩ := Option.bind_eq_some_iff.1 h
    exact Json.isInt64_of_int? hv

/-- The text that is to be sent under a key: the window is the integer that the option reads as, or
five seconds, and next to it stand the time and what the caller gave. -/
def SentUnder (r : Request) (ctx : SignContext) (key text : String) : Prop :=
  if key = "recvWindow" then
    text = String.ofList (Text.numeral
      (((ctx.options.get? "recvWindow").bind Json.int?).getD 5000))
  else if key = "timestamp" then text = String.ofList (Text.numeral ctx.timestamp)
  else Query.IsSent r.params key text

/-- A text travels as the query, without a body, or as the body. -/
def Travels (r : Request) (ctx : SignContext) (p : PreparedRequest) (text : String) : Prop :=
  if r.method.usesQuery then p.url = joinUrl ctx.baseUrl r.path ++ "?" ++ text ∧ p.body = none
  else p.url = joinUrl ctx.baseUrl r.path ∧ p.body = some text

/-- What the venue finds in a prepared request. -/
structure SignedAs (r : Request) (ctx : SignContext) (p : PreparedRequest)
    (secret query signature : String) (sent : List (String × String)) : Prop where
  method : p.method = r.method
  secret_eq : ctx.credentials.secret = some secret
  /-- The text that travels is cut at its last mark. -/
  travels : ∃ text, Travels r ctx p text ∧
    Text.LastCut "&signature=".toList text.toList query.toList signature.toList
  /-- Behind the mark stands the keyed digest of what is before it. -/
  digest : signature =
    Hex.encode (HashAlgorithm.sha256.mac (Text.bytes secret) (Text.bytes query))
  /-- Before the mark stand the parameters, each once and in order. -/
  decoded : Query.decode? query = some sent
  ascending : sent.Pairwise fun a b => a.1 < b.1
  mem_sent : ∀ key text, (key, text) ∈ sent ↔ SentUnder r ctx key text
  /-- None that is not `null` is left out. -/
  complete : ∀ key v, r.params.get? key = some v → v ≠ .null → ∃ text, (key, text) ∈ sent
  /-- The headers of the caller are kept. -/
  headers : ∀ name, name ≠ "X-MBX-APIKEY" → name ≠ "Content-Type" →
    p.headers.get? name = r.headers.get? name

/-! ### What is sent -/

theorem mem_pairs_timedParams (r : Request) {ctx : SignContext} (h : IsInt64 ctx.timestamp)
    (key text : String) :
    (key, text) ∈ Query.pairs (timedParams r ctx) ↔ SentUnder r ctx key text := by
  rw [Query.mem_pairs, timedParams, Table.get?_put, Table.get?_put, SentUnder]
  split_ifs
  · rw [Option.bind_some, Query.valueText?_ofInt (isInt64_window _), Option.some.injEq, eq_comm]
    rfl
  · rw [Option.bind_some, Query.valueText?_ofInt h, Option.some.injEq, eq_comm]
  · rw [← Query.mem_pairs, Query.mem_pairs_iff_isSent]

/-- Every parameter but `null` has a text. -/
theorem exists_sentUnder {r : Request} (ctx : SignContext) {key : String} {v : Json}
    (hget : r.params.get? key = some v) (hv : v ≠ .null) : ∃ text, SentUnder r ctx key text := by
  unfold SentUnder
  split_ifs
  · exact ⟨_, rfl⟩
  · exact ⟨_, rfl⟩
  · obtain ⟨text, htext⟩ := Query.exists_valueText? hv
    exact ⟨text, v, hget, Query.valueText?_eq_some_iff.1 htext⟩

/-- A digest has digits only. -/
theorem not_mem_hexEncode (bs : List UInt8) : '&' ∉ (Hex.encode bs).toList := by
  have hdigit : ∀ n < 16, Hex.digit n ≠ '&' := by decide
  rw [Hex.encode, String.toList_ofList, List.mem_flatMap]
  rintro ⟨b, -, hb⟩
  have hlt : b.toNat < 256 := b.toNat_lt
  simp only [Hex.encodeByte, List.mem_cons, List.not_mem_nil, or_false] at hb
  rcases hb with hb | hb
  · exact hdigit _ (by omega) hb.symm
  · exact hdigit _ (by omega) hb.symm

/-- What a private request is prepared as. -/
theorem signPrivate_cases {r : Request} {ctx : SignContext} {p : PreparedRequest}
    (h : signPrivate r ctx = .ok p) :
    ∃ secret key text, ctx.credentials.secret = some secret ∧
      text = Query.encode (timedParams r ctx) ++ "&signature=" ++
        Hex.encode (HashAlgorithm.sha256.mac (Text.bytes secret)
          (Text.bytes (Query.encode (timedParams r ctx)))) ∧
      Travels r ctx p text ∧ p.method = r.method ∧
      (p.headers = r.headers.put "X-MBX-APIKEY" key ∨
        p.headers = (r.headers.put "X-MBX-APIKEY" key).put "Content-Type"
          "application/x-www-form-urlencoded") := by
  unfold signPrivate at h
  obtain ⟨_, -, h⟩ := bind_eq_ok_iff.1 h
  obtain ⟨secret, hsecret, h⟩ := bind_eq_ok_iff.1 h
  obtain ⟨signature, hsignature, h⟩ := bind_eq_ok_iff.1 h
  obtain ⟨key, -, h⟩ := bind_eq_ok_iff.1 h
  cases hsignature
  refine ⟨secret, key, _, (Credentials.expose_eq_ok_iff.1 hsecret).1, rfl, ?_⟩
  unfold Travels
  cases hquery : r.method.usesQuery <;> rw [hquery] at h <;> cases h
  · exact ⟨⟨rfl, rfl⟩, rfl, .inr rfl⟩
  · exact ⟨⟨rfl, rfl⟩, rfl, .inl rfl⟩

/-- **What is signed is what is sent**, whatever the caller asks for. -/
theorem sign_private {r : Request} {ctx : SignContext} {p : PreparedRequest} {now : Int64}
    (hnow : ctx.timestamp = now.toInt) (htier : r.tier = "private") (h : sign r ctx = .ok p) :
    ∃ secret query signature sent, SignedAs r ctx p secret query signature sent := by
  have htime : IsInt64 ctx.timestamp := hnow ▸ isInt64_toInt now
  unfold sign at h
  rw [if_pos htier] at h
  obtain ⟨secret, key, text, hsecret, htext, htravels, hmethod, hheaders⟩ := signPrivate_cases h
  refine ⟨secret, Query.encode (timedParams r ctx), _, Query.pairs (timedParams r ctx),
    { method := hmethod
      secret_eq := hsecret
      travels := ⟨text, htravels, ?_⟩
      digest := rfl
      decoded := Query.decode?_encode _
      ascending := Query.ascending_pairs _
      mem_sent := mem_pairs_timedParams r htime
      complete := ?_
      headers := ?_ }⟩
  · rw [htext, String.toList_append, String.toList_append]
    exact Text.lastCut_append _ (by decide) (not_mem_hexEncode _)
  · intro key v hget hv
    obtain ⟨text, hsent⟩ := exists_sentUnder ctx hget hv
    exact ⟨text, (mem_pairs_timedParams r htime key text).2 hsent⟩
  · intro name hkey htype
    rcases hheaders with heq | heq
    · rw [heq, Table.get?_put_of_ne _ hkey]
    · rw [heq, Table.get?_put_of_ne _ htype, Table.get?_put_of_ne _ hkey]

/-- A memo with separators in it, a note of no value, a time and a window that are replaced, and an
option that gives the window as a text. -/
theorem sign_private_memo :
    let r : Request :=
      { path := "order", tier := "private", method := .post
        params := .ofList [("timestamp", .ofInt 1), ("note", .null), ("memo", .str "a&b=%é"),
          ("recvWindow", .ofInt 2), ("ids", .arr [.ofInt 7, .str "x"])]
        headers := .ofList [("X-Trace", "1")] }
    let ctx : SignContext :=
      { venue := "binance", baseUrl := "https://api.binance.com/api/v3"
        credentials := { apiKey := some "key", secret := some "secret" }
        timestamp := 1700000000000, options := .ofList [("recvWindow", .str " 7000 ")] }
    ∃ p, sign r ctx = .ok p ∧ ∃ secret query signature sent,
      SignedAs r ctx p secret query signature sent ∧ ("memo", "a&b=%é") ∈ sent ∧
        ("timestamp", "1700000000000") ∈ sent ∧ ("recvWindow", "7000") ∈ sent ∧
        "note" ∉ sent.map Prod.fst := by
  intro r ctx
  obtain ⟨p, hp⟩ : ∃ p, sign r ctx = .ok p := ⟨_, rfl⟩
  obtain ⟨secret, query, signature, sent, hsigned⟩ :=
    sign_private (show ctx.timestamp = Int64.toInt 1700000000000 by decide) rfl hp
  have hwindow : (ctx.options.get? "recvWindow").bind Json.int? = some 7000 := by
    decide +kernel
  refine ⟨p, hp, secret, query, signature, sent, hsigned, ?_, ?_, ?_, ?_⟩
  · exact (hsigned.mem_sent _ _).2 ⟨.str "a&b=%é", rfl, .text _⟩
  · rw [hsigned.mem_sent, SentUnder, if_neg (by decide), if_pos rfl]
    show _ = String.ofList (Text.numeral 1700000000000)
    rfl
  · rw [hsigned.mem_sent, SentUnder, if_pos rfl, hwindow]
    rfl
  · intro hnote
    obtain ⟨⟨_, text⟩, hmem, rfl⟩ := List.mem_map.1 hnote
    obtain ⟨v, hget, hv⟩ := (hsigned.mem_sent _ _).1 hmem
    obtain rfl : Json.null = v := Option.some.inj hget
    cases hv

end Binance

end Bourse
