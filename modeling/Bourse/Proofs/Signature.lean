import Bourse.Json.Parser
import Bourse.Proofs.Encoding.Base64
import Bourse.Proofs.Encoding.Hex
import Bourse.Proofs.Text.Cut
import Bourse.Proofs.Text.Utf8
import Bourse.Signature
import Mathlib

/-! # Signatures and tokens read back

A digest that is handed on as text is the same digest for whoever reads it, and a secret in base 64
has one text: every other one is refused (`written_digests`).

A token is stated from the side of its receiver, who cuts the text at its points, reads the parts
and computes the digest of what stands before the last point: `Verifies` says what is found there.
No part has a point in it, so that the cuts are those of the sender (`splitText_joined`) and what
was signed is what arrives (`token_verifies`). -/

namespace Bourse.Signature

/-! ### Digests -/

/-- A secret is read exactly if it is what its bytes are written as. -/
theorem secretBytes_eq_ok_iff {s : String} {bs : List UInt8} :
    secretBytes s = .ok bs ↔ s = Base64.encode bs := by
  rw [← Base64.decode?_eq_some_iff]
  unfold secretBytes
  cases Base64.decode? s <;> simp

/-- A text that is no secret is a wrong credential. -/
theorem secretBytes_cases (s : String) :
    (∃ bs, secretBytes s = .ok bs) ∨
      ∃ e, secretBytes s = .error e ∧ e.kind = .authenticationError := by
  unfold secretBytes
  cases Base64.decode? s with
  | none => exact .inr ⟨_, rfl, rfl⟩
  | some bs => exact .inl ⟨bs, rfl⟩

/-- **Digests in text are read as the digests**: from padded base 64, and from two hexadecimal
digits for each byte. A text is read as some bytes exactly if it is their base 64, and any other is
refused. -/
theorem written_digests (a : HashAlgorithm) (secret message s : String) (bs : List UInt8) :
    (∃ t, sign a .base64 secret message = .ok t ∧
      secretBytes t = .ok (a.mac (Text.bytes secret) (Text.bytes message))) ∧
    (∃ t, sign a .hex secret message = .ok t ∧
      t.length = 2 * (a.mac (Text.bytes secret) (Text.bytes message)).length ∧
      Hex.decode? t.toList = some (a.mac (Text.bytes secret) (Text.bytes message))) ∧
    (Base64.encode bs).length = 4 * ((bs.length + 2) / 3) ∧
    secretBytes (Base64.encode bs) = .ok bs ∧
    (secretBytes s = .ok bs ↔ s = Base64.encode bs) ∧
    ((∃ b, s = Base64.encode b) ∨
      ∃ e, secretBytes s = .error e ∧ e.kind = .authenticationError) := by
  refine ⟨⟨_, rfl, secretBytes_eq_ok_iff.2 rfl⟩,
    ⟨_, rfl, Hex.length_encode _, Hex.decode?_encode _⟩, Base64.length_encode bs,
    secretBytes_eq_ok_iff.2 rfl, secretBytes_eq_ok_iff, ?_⟩
  exact (secretBytes_cases s).imp_left fun ⟨b, hb⟩ => ⟨b, secretBytes_eq_ok_iff.1 hb⟩

/-! ### Tokens -/

/-- The algorithms that tokens are signed with, and their names in tokens. -/
inductive Names : HashAlgorithm → String → Prop
  | sha256 : Names .sha256 "HS256"
  | sha384 : Names .sha384 "HS384"
  | sha512 : Names .sha512 "HS512"

theorem tokenName?_eq_some_iff {a : HashAlgorithm} {name : String} :
    tokenName? a = some name ↔ Names a name := by
  constructor
  · intro h
    cases a <;> cases h
    · exact .sha256
    · exact .sha384
    · exact .sha512
  · intro h
    cases h <;> rfl

/-- What a receiver finds in a token. -/
structure Verifies (a : HashAlgorithm) (name : String) (secret : List UInt8) (payload : Json)
    (t header body signature : String) : Prop where
  /-- There are two points, and these are the texts between them. -/
  points : t.toList.count '.' = 2
  parts : Text.splitText '.' t = [header, body, signature]
  /-- The first part names the algorithm. -/
  header_text : ∃ text, Base64.decodeForLinks? header = some (Text.bytes text) ∧
    Json.parse? text = some (.obj [("alg", .str name), ("typ", .str "JWT")])
  payload_text : Base64.decodeForLinks? body = some (Text.bytes payload.compact)
  /-- The last part is the keyed digest of all that stands before its point. -/
  digest : Base64.decodeForLinks? signature
    = some (a.mac secret (Text.bytes (header ++ "." ++ body)))

/-- The header of a token reads as what it is. -/
theorem parse?_tokenHeader {a : HashAlgorithm} {name : String} (h : Names a name) :
    Json.parse? (tokenHeader name).compact
      = some (.obj [("alg", .str name), ("typ", .str "JWT")]) := by
  cases h <;> cbv

section
variable {x y z : String} (hx : '.' ∉ x.toList) (hy : '.' ∉ y.toList) (hz : '.' ∉ z.toList)
include hx hy hz

/-- Parts without points are cut where they were joined. -/
theorem splitText_joined : Text.splitText '.' (x ++ "." ++ y ++ "." ++ z) = [x, y, z] := by
  have hchars : (x ++ "." ++ y ++ "." ++ z).toList
      = Text.joinWith ['.'] [x.toList, y.toList, z.toList] := by
    simp [Text.joinWith]
  have hcut : Text.splitAll '.' (Text.joinWith ['.'] [x.toList, y.toList, z.toList])
      = [x.toList, y.toList, z.toList] :=
    Text.splitAll_joinWith (by simp [hx, hy, hz])
  rw [Text.splitText, hchars, hcut]
  simp

theorem count_joined : (x ++ "." ++ y ++ "." ++ z).toList.count '.' = 2 := by
  simp [List.count_eq_zero_of_not_mem hx, List.count_eq_zero_of_not_mem hy,
    List.count_eq_zero_of_not_mem hz]

end

/-- **A token that is signed verifies.** -/
theorem exists_verifies {a : HashAlgorithm} {name : String} (h : Names a name)
    (secret : List UInt8) (payload : Json) :
    ∃ t header body signature, token a secret payload = .ok t ∧
      Verifies a name secret payload t header body signature := by
  have hpoint := Base64.not_mem_encodeForLinks
  have htoken : token a secret payload = .ok (tokenPart (tokenHeader name) ++ "." ++
      tokenPart payload ++ "." ++ Base64.encodeForLinks (a.mac secret
        (Text.bytes (tokenPart (tokenHeader name) ++ "." ++ tokenPart payload)))) := by
    rw [token, tokenName?_eq_some_iff.2 h]
  exact ⟨_, _, _, _, htoken,
    { points := count_joined (hpoint _) (hpoint _) (hpoint _)
      parts := splitText_joined (hpoint _) (hpoint _) (hpoint _)
      header_text := ⟨_, Base64.decodeForLinks?_eq_some_iff.2 rfl, parse?_tokenHeader h⟩
      payload_text := Base64.decodeForLinks?_eq_some_iff.2 rfl
      digest := Base64.decodeForLinks?_eq_some_iff.2 rfl }⟩

/-- The bytes of a text are those of no other. -/
theorem bytes_injective : Function.Injective Text.bytes := fun s t h => by
  rw [← Text.decodeLossy_bytes s, h, Text.decodeLossy_bytes]

/-- **The payload** can be told from the token. -/
theorem Verifies.compact_eq {a a' : HashAlgorithm} {name name' : String}
    {secret secret' : List UInt8} {payload payload' : Json}
    {t header body signature header' body' signature' : String}
    (h : Verifies a name secret payload t header body signature)
    (h' : Verifies a' name' secret' payload' t header' body' signature') :
    payload.compact = payload'.compact := by
  have hparts := h.parts.symm.trans h'.parts
  have hbody : body = body' := by simp_all
  have hbytes := h.payload_text.symm.trans (hbody ▸ h'.payload_text)
  exact bytes_injective (Option.some.inj hbytes)

/-- Without a name in tokens there is no token. -/
theorem token_cases (a : HashAlgorithm) (secret : List UInt8) (payload : Json) :
    (∃ name, Names a name) ∨
      ∃ e, token a secret payload = .error e ∧ e.kind = .internalError := by
  unfold token
  cases hname : tokenName? a with
  | none => exact .inr ⟨_, rfl, rfl⟩
  | some name => exact .inl ⟨name, tokenName?_eq_some_iff.1 hname⟩

/-- **Tokens verify**: with each algorithm that has a name in tokens there is a token for every
secret and payload, its receiver finds the header, the payload and the digest of what was signed,
and no token of another payload is the same, whatever the secret and the algorithm of that one. With
every other algorithm there is an internal error and no token. -/
theorem token_verifies (a : HashAlgorithm) (secret : List UInt8) (payload : Json) :
    (∀ name, Names a name → ∃ t header body signature, token a secret payload = .ok t ∧
      Verifies a name secret payload t header body signature ∧
      ∀ a' secret' payload', token a' secret' payload' = .ok t →
        payload'.compact = payload.compact) ∧
    ((∀ name, ¬ Names a name) →
      ∃ e, token a secret payload = .error e ∧ e.kind = .internalError) := by
  constructor
  · intro name hname
    obtain ⟨t, header, body, signature, htoken, hverifies⟩ := exists_verifies hname secret payload
    refine ⟨t, header, body, signature, htoken, hverifies, fun a' secret' payload' htoken' => ?_⟩
    rcases token_cases a' secret' payload' with ⟨name', hname'⟩ | ⟨e, herror, -⟩
    · obtain ⟨t', header', body', signature', heq, hverifies'⟩ :=
        exists_verifies hname' secret' payload'
      cases heq.symm.trans htoken'
      exact hverifies'.compact_eq hverifies
    · cases herror.symm.trans htoken'
  · intro hnone
    exact (token_cases a secret payload).resolve_left fun ⟨name, hname⟩ => hnone name hname

/-- A payload with a point in it, and an algorithm without a name. -/
theorem token_verifies_subject :
    (∃ t header body signature,
      token .sha384 [0x00, 0xFF] (.obj [("sub", .str "a.b")]) = .ok t ∧
        Verifies .sha384 "HS384" [0x00, 0xFF] (.obj [("sub", .str "a.b")])
          t header body signature) ∧
    ∃ e, token .md5 [0x73] (.obj []) = .error e ∧ e.kind = .internalError := by
  constructor
  · obtain ⟨t, header, body, signature, htoken, hverifies, -⟩ :=
      (token_verifies .sha384 [0x00, 0xFF] (.obj [("sub", .str "a.b")])).1 "HS384" .sha384
    exact ⟨t, header, body, signature, htoken, hverifies⟩
  · exact (token_verifies .md5 [0x73] (.obj [])).2 fun name h => by cases h

end Bourse.Signature
