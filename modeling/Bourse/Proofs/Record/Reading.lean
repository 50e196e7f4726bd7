import Bourse.Binance.Records
import Bourse.Okx.Records
import Bourse.Proofs.Result

/-! # Markets that are read

What a record of either venue has to say to be read as a market, and which market that is. All that
is known about the markets of a venue follows from the two lemmas `readMarket_eq_some_iff`. -/

namespace Bourse

theorem Json.needText_eq_ok_iff {v : Json} {key text : String} :
    v.needText key = .ok text ↔ v.getText? key = some text := by
  unfold needText
  cases v.getText? key <;> simp

variable {raw : Json} {m : Market}

/-- A market that is made of three texts which have to be there. -/
theorem read_names_iff {idKey baseKey quoteKey : String}
    {make : String → String → String → Market} :
    (do
      let id ← raw.needText idKey
      let baseId ← raw.needText baseKey
      let quoteId ← raw.needText quoteKey
      return some (make id baseId quoteId) : Result (Option Market)) = .ok (some m) ↔
    ∃ id baseId quoteId, raw.getText? idKey = some id ∧ raw.getText? baseKey = some baseId ∧
      raw.getText? quoteKey = some quoteId ∧ m = make id baseId quoteId := by
  simp only [bind_eq_ok_iff, Json.needText_eq_ok_iff]
  constructor
  · rintro ⟨id, hid, baseId, hbase, quoteId, hquote, ⟨⟩⟩
    exact ⟨id, baseId, quoteId, hid, hbase, hquote, rfl⟩
  · rintro ⟨id, baseId, quoteId, hid, hbase, hquote, rfl⟩
    exact ⟨id, hid, baseId, hbase, quoteId, hquote, rfl⟩

/-- **A record of Binance** is read as a market if spot trading is not denied and the names are
there. -/
theorem Binance.readMarket_eq_some_iff :
    Binance.readMarket raw = .ok (some m) ↔ raw.getFlag? "isSpotTradingAllowed" ≠ some false ∧
      ∃ id baseId quoteId, raw.getText? "symbol" = some id ∧
        raw.getText? "baseAsset" = some baseId ∧ raw.getText? "quoteAsset" = some quoteId ∧
        m = { Market.ofPair id (Currency.commonCode baseId) (Currency.commonCode quoteId) with
          baseId, quoteId
          active := raw.hasText "status" "TRADING"
          precision := (readFilters raw).precision
          limits := (readFilters raw).limits
          info := raw } := by
  unfold Binance.readMarket
  split
  · rename_i hdenied
    exact iff_of_false nofun fun h => h.1 (beq_iff_eq.1 hdenied)
  · rename_i hdenied
    rw [and_iff_right fun h => hdenied (beq_iff_eq.2 h)]
    exact read_names_iff

/-- **A record of OKX** is read as a market if it is one for spot and the names are there. -/
theorem Okx.readMarket_eq_some_iff :
    Okx.readMarket raw = .ok (some m) ↔ raw.getText? "instType" = some "SPOT" ∧
      ∃ id baseId quoteId, raw.getText? "instId" = some id ∧
        raw.getText? "baseCcy" = some baseId ∧ raw.getText? "quoteCcy" = some quoteId ∧
        m = { Market.ofPair id (Currency.commonCode baseId) (Currency.commonCode quoteId) with
          baseId, quoteId
          active := raw.hasText "state" "live"
          precision := { price := raw.step? "tickSz", amount := raw.step? "lotSz" }
          limits := { amount := ⟨raw.getDecimal? "minSz", raw.getDecimal? "maxLmtSz"⟩ }
          info := raw } := by
  unfold Okx.readMarket
  split
  · rename_i hother
    rw [Bool.not_eq_true', Json.hasText, beq_eq_false_iff_ne] at hother
    exact iff_of_false nofun fun h => hother h.1
  · rename_i hspot
    rw [Bool.not_eq_true', Bool.not_eq_false, Json.hasText, beq_iff_eq] at hspot
    rw [and_iff_right hspot]
    exact read_names_iff

end Bourse
