import FriendLedger.Balance
import FriendLedger.Expense
import FriendLedger.Friends.Status
import FriendLedger.Json.Printer
import FriendLedger.Json.Reader

/-! The documents of the domain's values: ids, currencies, shares, expenses,
balances and statuses. Objects are written with their keys in ascending order.
A value with fields is read from an object, in which unknown fields are passed
over and known ones occur once, or from an array of exactly its fields. -/

namespace FriendLedger

set_option autoImplicit false

def Json.sole? (fields : List (String × Json)) (name : String) : Option Json :=
  match fields.filter (·.1 == name) with
  | [f] => some f.2
  | _ => none

/-- The one field of a name, or null when there is none. -/
def Json.soleOrNull? (fields : List (String × Json)) (name : String) : Option Json :=
  match fields.filter (·.1 == name) with
  | [] => some .null
  | [f] => some f.2
  | _ => none

def Id.toJson (i : Id) : Json := .ofText i.toText

def Id.ofJson? (j : Json) : Option Id := j.text?.bind Id.ofText?

def Currency.toJson (c : Currency) : Json := .ofText c.code

def Currency.ofJson? (j : Json) : Option Currency := j.text?.bind Currency.ofText?

namespace Share

def toJson (s : Share) : Json :=
  .ofFields [("counterparty", .ofText s.counterparty), ("signed_cost", .ofAmount s.signedCost)]

def ofParts? (counterparty signedCost : Json) : Option Share := do
  return ⟨← counterparty.text?, ← signedCost.amount?⟩

def ofJson? : Json → Option Share
  | .array [counterparty, signedCost] => ofParts? counterparty signedCost
  | j => do
    let fields ← j.fields?
    ofParts? (← Json.sole? fields "counterparty") (← Json.sole? fields "signed_cost")

end Share

namespace Expense

def idToJson : Option Id → Json
  | some i => i.toJson
  | none => .null

def idOfJson? : Json → Option (Option Id)
  | .null => some none
  | j => (Id.ofJson? j).map some

def toJson (e : Expense) : Json :=
  .ofFields [("currency", e.currency.toJson), ("details", .ofText e.details), ("id", idToJson e.id),
    ("shares", .array (e.shares.map Share.toJson)), ("timestamp", .ofAmount e.timestamp),
    ("total_cost", .ofAmount e.totalCost)]

def ofParts? (id timestamp details totalCost currency shares : Json) : Option Expense := do
  return {
    id := ← idOfJson? id
    timestamp := ← timestamp.amount?
    details := ← details.text?
    totalCost := ← totalCost.amount?
    currency := ← Currency.ofJson? currency
    shares := ← (← shares.items?).mapM Share.ofJson? }

def ofJson? : Json → Option Expense
  | .array [id, timestamp, details, totalCost, currency, shares] =>
    ofParts? id timestamp details totalCost currency shares
  | j => do
    let fields ← j.fields?
    ofParts? (← Json.soleOrNull? fields "id") (← Json.sole? fields "timestamp")
      (← Json.sole? fields "details") (← Json.sole? fields "total_cost")
      (← Json.sole? fields "currency") (← Json.sole? fields "shares")

end Expense

namespace Purse

def toJson (p : Purse) : Json := .ofFields (p.entries.map fun e => (e.1.code, .ofAmount e.2))

/-- Of several fields with one currency the last one counts. -/
def ofJson? (j : Json) : Option Purse := do
  let entries ← (← j.fields?).mapM fun f => do return (← Currency.ofText? f.1, ← f.2.amount?)
  return ofEntries entries

end Purse

namespace Balance

def toJson (b : Balance) : Json :=
  .ofFields [("counterparty", .ofText b.counterparty), ("currencies", b.currencies.toJson)]

def ofParts? (counterparty currencies : Json) : Option Balance := do
  return ⟨← counterparty.text?, ← Purse.ofJson? currencies⟩

def ofJson? : Json → Option Balance
  | .array [counterparty, currencies] => ofParts? counterparty currencies
  | j => do
    let fields ← j.fields?
    ofParts? (← Json.sole? fields "counterparty") (← Json.sole? fields "currencies")

end Balance

namespace Status

def toJson (s : Status) : Json := .ofText s.text

/-- The name of the status, or an object with that one key and null. -/
def ofJson? : Json → Option Status
  | .object [(key, .null)] => (Json.decodeChars? key).bind fun cs => ofText? (String.ofList cs)
  | j => j.text?.bind ofText?

end Status

end FriendLedger
