import Bourse.Proofs.Okx.Orders
import Bourse.Proofs.Okx.Signing
import Bourse.Proofs.Precision.Exact
import Bourse.Proofs.Table

/-! # The order that is placed and the order that is returned

An order goes out with its amount cut to the steps of its market and, if it has a limit, with its
price rounded to them (`Written`). OKX acknowledges an order with its identifier alone, and what the
acknowledgement leaves open is filled in from the request, so that the order that is returned has
the amount and the price that were asked for (`returned_as_requested`). They are those that were
placed if both are whole numbers of steps (`Written.placedAs`), but not in between, and not for a
market order with a price, which goes out without it (`Written.not_placedAs`). -/

namespace Bourse

open Session

namespace Client

variable {c : Client} {symbol text : String} {w : World}

theorem exists_of_amountText {amount : Decimal}
    (h : (c.amountText symbol amount w).1 = .ok text) : ∃ m, (c.market symbol w).1 = .ok m ∧
      c.formatted amount .truncate m.precision.amount = .ok text := by
  obtain ⟨m, hm, hformat⟩ := fst_bind_eq_ok_iff.1 h
  exact ⟨m, hm, fst_ofResult_eq_ok_iff.1 hformat⟩

theorem exists_of_priceText {price : Decimal}
    (h : (c.priceText symbol price w).1 = .ok text) : ∃ m, (c.market symbol w).1 = .ok m ∧
      c.formatted price .round m.precision.price = .ok text := by
  obtain ⟨m, hm, hformat⟩ := fst_bind_eq_ok_iff.1 h
  exact ⟨m, hm, fst_ofResult_eq_ok_iff.1 hformat⟩

end Client

namespace Okx

variable {c : Client} {market : Market} {r : OrderRequest} {w : World} {params : Table Json}

/-! ### Parameters -/

/-- The texts of amount and price in the parameters of an order, on a market with some precision. -/
structure Written (r : OrderRequest) (precision : MarketPrecision) (params : Table Json)
    (size : String) (price : Option String) : Prop where
  size_eq : params.get? "sz" = some (.str size)
  price_eq : params.get? "px" = price.map Json.str
  /-- The amount is cut. -/
  size_text : r.amount.toPrecision .truncate precision.amount .tickSize .none = .ok size
  /-- A market order goes out without a price. -/
  of_market : r.type = .market → price = none
  /-- The price of a limit order is rounded. -/
  of_limit : r.type = .limit → ∃ p text, r.price = some p ∧ price = some text ∧
    p.toPrecision .round precision.price .tickSize .none = .ok text

theorem keepsWorld_orderParams : (orderParams c market r).KeepsWorld := by
  unfold orderParams
  refine (c.keepsWorld_formatted _ _ _ _).bind fun size => ?_
  split
  · exact .pure _
  · exact (c.keepsWorld_formatted _ _ _ _).bind fun text => .pure _
  · exact keepsWorld_ofResult _

/-- **The parameters of an order** have the texts of its amount and its price. -/
theorem written_of_orderParams {config : ClientConfig}
    (h : (orderParams ⟨adapter, config⟩ market r w).1 = .ok params) :
    ∃ m size price, ((⟨adapter, config⟩ : Client).market market.symbol w).1 = .ok m ∧
      Written r m.precision params size price := by
  obtain ⟨size, hsize, hrest⟩ := fst_bind_eq_ok_iff.1 h
  have hworld : ((⟨adapter, config⟩ : Client).amountText market.symbol r.amount w).2 = w :=
    (⟨adapter, config⟩ : Client).keepsWorld_formatted _ _ _ (fun m => m.precision.amount) w
  obtain ⟨m, hm, hamount⟩ := Client.exists_of_amountText hsize
  rw [hworld] at hrest
  cases htype : r.type with
  | market =>
    rw [htype] at hrest
    cases hrest
    exact ⟨m, size, none, hm, rfl, rfl, hamount, fun _ => rfl,
      fun h => absurd (htype.symm.trans h) nofun⟩
  | limit =>
    cases hprice : r.price with
    | none =>
      rw [htype, hprice] at hrest
      cases hrest
    | some price =>
      rw [htype, hprice] at hrest
      obtain ⟨text, htext, hparams⟩ := fst_bind_eq_ok_iff.1 hrest
      obtain ⟨m', hm', hformat⟩ := Client.exists_of_priceText htext
      obtain rfl := Except.ok.inj (hm.symm.trans hm')
      cases hparams
      exact ⟨m, size, some text, hm, rfl, rfl, hamount,
        fun h => absurd (htype.symm.trans h) nofun, fun _ => ⟨price, text, hprice, rfl, hformat⟩⟩

/-- An entry under another key does not touch the texts. -/
theorem Written.put {precision : MarketPrecision} {size : String} {price : Option String}
    (h : Written r precision params size price) {key : String} (hsz : "sz" ≠ key)
    (hpx : "px" ≠ key) (v : Json) : Written r precision (params.put key v) size price :=
  { h with
    size_eq := (params.get?_put_of_ne hsz v).trans h.size_eq
    price_eq := (params.get?_put_of_ne hpx v).trans h.price_eq }

namespace OrderCall

theorem written_of_params {config : ClientConfig}
    (h : ((create r).params ⟨adapter, config⟩ market w).1 = .ok params) :
    ∃ m size price, ((⟨adapter, config⟩ : Client).market market.symbol w).1 = .ok m ∧
      Written r m.precision params size price := by
  obtain ⟨before, hbefore, hparams⟩ := fst_bind_eq_ok_iff.1 h
  obtain ⟨m, size, price, hm, hwritten⟩ := written_of_orderParams hbefore
  cases hparams
  refine ⟨m, size, price, hm, ?_⟩
  cases r.clientOrderId with
  | none => exact hwritten
  | some id => exact hwritten.put (by decide) (by decide) _

theorem keepsWorld_params (call : OrderCall) (c : Client) (market : Market) :
    (call.params c market).KeepsWorld := by
  cases call with
  | create r => exact keepsWorld_orderParams.bind fun params => .pure _
  | cancel _ _ | fetch _ _ => exact .pure _

/-- The parameters are put together in the world in which the request goes out. -/
theorem Dialogue.params_eq {call : OrderCall} (d : Dialogue c call w) :
    (call.params c d.market d.before).1 = .ok d.params := by
  obtain ⟨market, params, before, request, response, hasked, -, -⟩ := d
  rw [ask, bind_apply] at hasked
  cases hload : c.loadedMarket call.symbol w with
  | mk outcome loaded =>
    cases outcome with
    | error f =>
      rw [hload] at hasked
      cases hasked
    | ok m =>
      -- loading may have changed the world, putting the parameters together has not
      have hkept := call.keepsWorld_params c m loaded
      simp only [hload, bind_apply] at hasked
      cases hcomposed : call.params c m loaded with
      | mk composed after =>
        rw [hcomposed] at hasked hkept
        cases composed with
        | error f => cases hasked
        | ok t =>
          cases hasked
          obtain rfl : before = loaded := hkept
          exact congrArg Prod.fst hcomposed

variable {config : ClientConfig}

/-- **The request for a new order** carries its parameters as JSON. -/
theorem Dialogue.body_request (d : Dialogue ⟨adapter, config⟩ (create r) w) :
    d.request.body = some (Json.ofTable d.params).compact := by
  have hendpoint : (⟨adapter, config⟩ : Client).endpoints.get? (create r).endpoint =
      some ⟨"privatePostTradeOrder", "private", .post, "trade/order"⟩ := rfl
  have hout := d.composed
  rw [Client.outgoing_of_present hendpoint rfl] at hout
  obtain ⟨url, -, hsign⟩ := bind_eq_ok_iff.1 hout
  obtain ⟨q, hq, hmark⟩ := map_eq_ok_iff.1 hsign
  obtain ⟨_, _, _, _, _, -, -, hplace, -⟩ := signPrivate_cases hq
  let context := (⟨adapter, config⟩ : Client).signContext url d.before.wire.clock
  obtain ⟨headers, hmarked, -⟩ := markDemo_eq context.options q
  rw [← hmark, hmarked]
  exact (bodySent_of_place _ _ rfl hplace).body

/-- **An acknowledgement without amount and price** is completed with those of the request. -/
theorem exists_read {answer raw : Json} {id : String} (hraw : firstRecord answer = .ok raw)
    (hid : raw.getText? "ordId" = some id) (hsz : raw.getDecimal? "sz" = none)
    (hpx : raw.getDecimal? "px" = none) :
    ∃ o, (create r).read ⟨adapter, config⟩ market answer = .ok o ∧ o.amount = some r.amount ∧
      o.price = r.price := by
  have hread : ∃ o, readOrder raw (some market) = .ok o ∧ o.amount = none ∧ o.price = none := by
    simp only [readOrder, Json.needText, hid]
    exact ⟨_, rfl, hsz, hpx⟩
  obtain ⟨o, ho, hamount, hprice⟩ := hread
  have hsingle : readSingle ⟨adapter, config⟩ answer market = .ok o :=
    bind_eq_ok_iff.2 ⟨raw, hraw, ho⟩
  refine ⟨confirm o r, bind_eq_ok_iff.2 ⟨o, hsingle, rfl⟩, ?_, ?_⟩
  · show o.amount.or (some r.amount) = _
    rw [hamount, Option.none_or]
  · show o.price.or r.price = _
    rw [hprice, Option.none_or]

end OrderCall

/-! ### What is returned -/

/-- Amount and price of a request are whole numbers of steps, where there are steps, and only a
limit order has a price. -/
structure OnSteps (r : OrderRequest) (precision : MarketPrecision) : Prop where
  amount : ∀ step, precision.amount = some step → ∃ k : ℤ, r.amount.toRat = k * step.toRat
  price : ∀ p, r.price = some p → r.type = .limit ∧
    ∀ step, precision.price = some step → ∃ k : ℤ, p.toRat = k * step.toRat

/-- An order has the amount and the price that were placed: the numbers that the texts spell. -/
structure PlacedAs (o : Order) (size : String) (price : Option String) : Prop where
  amount : o.amount.map Decimal.toRat = numeralValue? size
  price : o.price.map Decimal.toRat = price.bind numeralValue?

section
variable {precision : MarketPrecision} {size : String} {price : Option String} {o : Order}
  (h : Written r precision params size price) (hprice : o.price = r.price)
include h hprice

/-- **On whole steps** the numbers of the request are those that are placed. -/
theorem Written.placedAs (hamount : o.amount = some r.amount) (hsteps : OnSteps r precision) :
    PlacedAs o size price := by
  constructor
  · rw [hamount, Decimal.numeralValue?_of_multiple h.size_text hsteps.amount]
    rfl
  · rw [hprice]
    cases htype : r.type with
    | market =>
      have hnone : r.price = none := by
        rw [Option.eq_none_iff_forall_ne_some]
        intro p hp
        cases htype.symm.trans (hsteps.price p hp).1
      rw [hnone, h.of_market htype]
      rfl
    | limit =>
      -- rounding to a step does not change a multiple of it
      obtain ⟨p, text, hp, htext, hformat⟩ := h.of_limit htype
      rw [hp, htext, Option.bind_some,
        Decimal.numeralValue?_of_multiple hformat (hsteps.price p hp).2]
      rfl

/-- **A market order with a price** is returned with a price that was not placed. -/
theorem Written.not_placedAs (htype : r.type = .market) (hp : r.price ≠ none) :
    ¬ PlacedAs o size price := by
  intro hplaced
  have hnone := hplaced.price
  rw [hprice, h.of_market htype, Option.bind_none, Option.map_eq_none_iff] at hnone
  exact hp hnone

end

/-- **An order is returned as it was requested**, and not as it was placed. The last request that
goes out carries the amount of the request cut to the steps of the market, and the price of a limit
order rounded to them; the order that is returned has the numbers of the request. Both are the same
on whole steps. -/
theorem returned_as_requested (config : ClientConfig) (r : OrderRequest) (w : World)
    (d : OrderCall.Dialogue ⟨adapter, config⟩ (.create r) w) {answer raw : Json} {id : String}
    (hgood : (⟨adapter, config⟩ : Client).verdict d.response = .ok answer)
    (hraw : firstRecord answer = .ok raw) (hid : raw.getText? "ordId" = some id)
    (hsz : raw.getDecimal? "sz" = none) (hpx : raw.getDecimal? "px" = none) :
    ∃ o m size price, ((exchange ⟨adapter, config⟩).createOrder r w).1 = .ok o ∧
      ((exchange ⟨adapter, config⟩).createOrder r w).2.wire.handed.head? = some d.request ∧
      d.request.body = some (Json.ofTable d.params).compact ∧
      ((⟨adapter, config⟩ : Client).market d.market.symbol d.before).1 = .ok m ∧
      Written r m.precision d.params size price ∧
      o.amount = some r.amount ∧ o.price = r.price ∧
      (OnSteps r m.precision → PlacedAs o size price) ∧
      (r.type = .market → r.price ≠ none → ¬ PlacedAs o size price) := by
  obtain ⟨o, hread, hamount, hprice⟩ := OrderCall.exists_read hraw hid hsz hpx
  obtain ⟨m, size, price, hm, hwritten⟩ := OrderCall.written_of_params d.params_eq
  have hrun : ((OrderCall.create r).run (exchange ⟨adapter, config⟩) w).1 = .ok o :=
    OrderCall.run_eq_ok_iff.2 ⟨d, answer, hgood, hread⟩
  have hhanded : ((OrderCall.create r).run (exchange ⟨adapter, config⟩) w).2.wire.handed.head? =
      some d.request := by
    rw [d.handed_run]
    rfl
  exact ⟨o, m, size, price, hrun, hhanded, d.body_request, hm, hwritten, hamount, hprice,
    hwritten.placedAs hprice hamount, hwritten.not_placedAs hprice⟩

theorem get?_limitParams (size price : String) :
    (limitParams size price).get? "sz" = some (.str size) ∧
      (limitParams size price).get? "px" = some (.str price) := ⟨rfl, rfl⟩

theorem firstRecord_acknowledged : firstRecord acknowledgedBody = .ok acknowledgedRecord := rfl

theorem onSteps_tenths : OnSteps tenthsOrder tenths.precision := by
  have htick : (Decimal.tick 1).toRat = 1 / 10 := by
    norm_num [Decimal.tick, Decimal.toRat, Decimal.mantissa, Decimal.signed, tenTo]
  constructor
  · rintro _ ⟨⟩
    refine ⟨5, ?_⟩
    rw [htick]
    norm_num [tenthsOrder, Decimal.toRat, Decimal.mantissa, Decimal.signed, tenTo]
  · rintro _ ⟨⟩
    refine ⟨rfl, ?_⟩
    rintro _ ⟨⟩
    refine ⟨250001, ?_⟩
    rw [htick]
    norm_num [Decimal.toRat, Decimal.mantissa, Decimal.signed, tenTo]

/-- The order on whole tenths is returned as it is placed. -/
theorem returned_as_requested_tenths :
    ∃ o, ((exchange trader).createOrder tenthsOrder (answering acknowledged)).1 = .ok o ∧
      PlacedAs o "0.5" (some "25000.1") := by
  have hask : (OrderCall.create tenthsOrder).ask trader (answering acknowledged) =
      (.ok (tenths, limitParams "0.5" "25000.1"), answering acknowledged) := rfl
  obtain ⟨d, hmarket, hparams, hbefore, hresponse⟩ := exists_dialogue_trader hask
  obtain ⟨o, m, size, price, hrun, -, -, hm, hwritten, -, -, hplaced, -⟩ :=
    returned_as_requested trader.config tenthsOrder _ d (verdict_acknowledged hresponse)
      firstRecord_acknowledged rfl rfl rfl
  rw [hmarket, hbefore] at hm
  cases hm
  have hsize := hwritten.size_eq
  have hprice := hwritten.price_eq
  rw [hparams, (get?_limitParams _ _).1] at hsize
  rw [hparams, (get?_limitParams _ _).2] at hprice
  obtain rfl := Json.str.inj (Option.some.inj hsize)
  obtain ⟨text, rfl, htext⟩ := Option.map_eq_some_iff.1 hprice.symm
  obtain rfl := Json.str.inj htext
  exact ⟨o, hrun, hplaced onSteps_tenths⟩

/-- An order between the tenths. -/
def betweenTenths : OrderRequest :=
  { tenthsOrder with
    amount := ⟨false, 55, 2, by decide, by decide⟩
    price := some ⟨false, 2500006, 2, by decide, by decide⟩ }

/-- **An order between the steps** is not returned as it is placed. -/
theorem between_tenths_not_as_placed :
    ¬ ∀ (config : ClientConfig) (r : OrderRequest) (w : World)
      (d : OrderCall.Dialogue ⟨adapter, config⟩ (.create r) w) (answer raw : Json) (size : String)
      (price : Option String) (o : Order),
      (⟨adapter, config⟩ : Client).verdict d.response = .ok answer →
      firstRecord answer = .ok raw → raw.getDecimal? "sz" = none → raw.getDecimal? "px" = none →
      ((exchange ⟨adapter, config⟩).createOrder r w).1 = .ok o →
      d.params.get? "sz" = some (.str size) → d.params.get? "px" = price.map Json.str →
      PlacedAs o size price := by
  intro h
  have hask : (OrderCall.create betweenTenths).ask trader (answering acknowledged) =
      (.ok (tenths, limitParams "0.5" "25000.1"), answering acknowledged) := rfl
  obtain ⟨d, -, hparams, -, hresponse⟩ := exists_dialogue_trader hask
  have hgood := verdict_acknowledged hresponse
  obtain ⟨o, hread, hamount, -⟩ : ∃ o,
      (OrderCall.create betweenTenths).read trader d.market acknowledgedBody = .ok o ∧
      o.amount = some betweenTenths.amount ∧ o.price = betweenTenths.price :=
    OrderCall.exists_read firstRecord_acknowledged rfl rfl rfl
  have hrun : ((OrderCall.create betweenTenths).run (exchange trader)
      (answering acknowledged)).1 = .ok o :=
    OrderCall.run_eq_ok_iff.2 ⟨d, _, hgood, hread⟩
  rw [OrderCall.run_create] at hrun
  have hsize : d.params.get? "sz" = some (.str "0.5") := by
    rw [hparams, (get?_limitParams _ _).1]
  have hprice : d.params.get? "px" = (some "25000.1").map Json.str := by
    rw [hparams, (get?_limitParams _ _).2, Option.map_some]
  have hsent := (h trader.config betweenTenths _ d _ _ "0.5" _ o hgood firstRecord_acknowledged
    rfl rfl hrun hsize hprice).amount
  have hhalf : numeralValue? "0.5" = some (1 / 2) := by
    show some (((Nat.ofDigitChars 10 "05".toList 0 : ℕ) : ℚ) / tenTo 1) = _
    have hdigits : Nat.ofDigitChars 10 "05".toList 0 = 5 := rfl
    norm_num [tenTo, hdigits]
  rw [hamount, hhalf, Option.map_some, Option.some.injEq] at hsent
  norm_num [betweenTenths, Decimal.toRat, Decimal.mantissa, Decimal.signed, tenTo] at hsent

end Okx

end Bourse
