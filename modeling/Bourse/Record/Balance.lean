import Bourse.Decimal.Arith
import Bourse.Json.Codec

/-! # Balances

How much of each currency an account has: free, in use and in total. Of three amounts any two give
the third, and every entry of a balance is complete in this sense. -/

namespace Bourse

/-- The amounts of one currency, as far as they are known. -/
structure BalanceEntry where
  free : Option Decimal := none
  used : Option Decimal := none
  total : Option Decimal := none
  deriving DecidableEq

namespace BalanceEntry

/-- The entry of known free and used amounts. -/
def ofParts (free used : Decimal) : BalanceEntry :=
  { free := some free, used := some used, total := free.add? used }

/-- Derives the one amount that is missing; with fewer known nothing is derived. -/
def complete (e : BalanceEntry) : BalanceEntry :=
  match e.free, e.used, e.total with
  | some free, some used, none => { e with total := free.add? used }
  | some free, none, some total => { e with used := total.sub? free }
  | none, some used, some total => { e with free := total.sub? used }
  | _, _, _ => e

instance : JsonCodec BalanceEntry where
  encode e := .obj [("free", JsonCodec.encode e.free), ("used", JsonCodec.encode e.used),
    ("total", JsonCodec.encode e.total)]
  decode? v := do
    let t ← JsonCodec.fields? ["free", "used", "total"] v
    return ⟨← JsonCodec.optional t "free", ← JsonCodec.optional t "used",
      ← JsonCodec.optional t "total"⟩
  outline := .ofNames ["free", "used", "total"]

end BalanceEntry

/-- The balances of an account by currency. -/
structure Balance where
  balances : SortedTable BalanceEntry := .empty
  timestamp : Option Int64 := none
  /-- What the venue sent. -/
  info : Json := .null

namespace Balance

/-- Keys of a payload that name no currency. -/
def reservedKeys : List String := ["info", "free", "used", "total", "timestamp", "datetime"]

/-- Puts an entry, completed, under a currency. -/
def set (b : Balance) (code : String) (entry : BalanceEntry) : Balance :=
  { b with balances := b.balances.put code entry.complete }

/-- The currency and the amounts in an entry of a payload. -/
def readAmounts? (e : String × Json) : Option (String × BalanceEntry) :=
  match e with
  | (code, .obj entries) =>
    if reservedKeys.contains code then none
    else
      let v := Json.obj entries
      some (code, { free := v.getDecimal? "free", used := v.getDecimal? "used"
                    total := v.getDecimal? "total" })
  | _ => none

/-- Reads a balance from a payload: its objects under keys that are not reserved. -/
def parse (raw : Json) : Balance :=
  (raw.table.entries.filterMap readAmounts?).foldl (fun b e => b.set e.1 e.2)
    { info := (raw.at? "info").getD .null }

/-- The entry of a currency. -/
def get? (b : Balance) (code : String) : Option BalanceEntry := b.balances.get? code

/-- The free amounts that are known. -/
def free (b : Balance) : List (String × Decimal) :=
  b.balances.entries.filterMap fun e => e.2.free.map fun d => (e.1, d)

/-- The totals that are known. -/
def total (b : Balance) : List (String × Decimal) :=
  b.balances.entries.filterMap fun e => e.2.total.map fun d => (e.1, d)

instance : JsonCodec Balance where
  encode b := .obj [("balances", JsonCodec.encode b.balances),
    ("timestamp", JsonCodec.encode b.timestamp), ("info", b.info)]
  decode? v := do
    let t ← JsonCodec.fields? ["balances", "timestamp", "info"] v
    let balances ← JsonCodec.need t "balances"
    let timestamp ← JsonCodec.optional t "timestamp"
    let info ← JsonCodec.need t "info"
    return { balances, timestamp, info }
  outline := .ofNames ["balances", "timestamp", "info"]
    [("balances", JsonCodec.outline (SortedTable BalanceEntry))]

end Balance

end Bourse
