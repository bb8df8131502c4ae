import FriendLedger.Json.Printer
import FriendLedger.Json.Reader
import FriendLedger.Store

/-! A store as a document, for keeping it in a file: the rows of each table in the
order of their insertion, null for a missing table, and the record of the schema. -/

namespace FriendLedger

set_option autoImplicit false

namespace Edge

def toJson (e : Edge) : Json := .array [.ofText e.sender, .ofText e.target]

def ofJson? : Json → Option Edge
  | .array [sender, target] => do return ⟨← sender.text?, ← target.text?⟩
  | _ => none

end Edge

namespace DealRow

def toJson (d : DealRow) : Json :=
  .array [.ofText d.id, .ofAmount d.timestamp, .ofText d.details, .ofAmount d.cost,
    .ofText d.currency]

def ofJson? : Json → Option DealRow
  | .array [id, timestamp, details, cost, currency] => do
    return ⟨← id.text?, ← timestamp.amount?, ← details.text?, ← cost.amount?, ← currency.text?⟩
  | _ => none

end DealRow

namespace SpendingRow

def toJson (p : SpendingRow) : Json :=
  .array [.ofText p.id, .ofText p.dealId, .ofAmount p.cost, .ofText p.counterparty]

def ofJson? : Json → Option SpendingRow
  | .array [id, dealId, cost, counterparty] => do
    return ⟨← id.text?, ← dealId.text?, ← cost.amount?, ← counterparty.text?⟩
  | _ => none

end SpendingRow

namespace Store

def tableToJson {α : Type} (row : α → Json) : Option (List α) → Json
  | some rows => .array (rows.map row)
  | none => .null

def tableOfJson? {α : Type} (row? : Json → Option α) : Json → Option (Option (List α))
  | .null => some none
  | j => do return some (← (← j.items?).mapM row?)

def toJson (s : Store) : Json :=
  .array [tableToJson Edge.toJson s.edges, tableToJson DealRow.toJson s.deals,
    tableToJson SpendingRow.toJson s.spendings, .bool s.recorded]

def ofJson? : Json → Option Store
  | .array [edges, deals, spendings, recorded] => do
    return ⟨← tableOfJson? Edge.ofJson? edges, ← tableOfJson? DealRow.ofJson? deals,
      ← tableOfJson? SpendingRow.ofJson? spendings, ← recorded.bool?⟩
  | _ => none

def toText (s : Store) : String := s.toJson.line

def ofText? (text : String) : Option Store := (Json.read? text).bind ofJson?

end Store
end FriendLedger
