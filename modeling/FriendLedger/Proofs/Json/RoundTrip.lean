import FriendLedger.Documents
import FriendLedger.Proofs.Json.Spelling
import FriendLedger.Proofs.Outcome

/-! Documents of values read back. What is written for an expense, a share, a balance, a
currency or a status is read as the same value, on one line and indented; the fields of an
expense may stand in any order. -/

namespace FriendLedger

set_option autoImplicit false

namespace Json

theorem fields?_ofFields (fs : List (String × Json)) : (ofFields fs).fields? = some fs := by
  rw [ofFields, fields?]
  apply mapM_map_eq_some
  intro f _
  rw [decodeChars?_escape, Option.map_some, String.ofList_toList]

theorem sole?_of_perm {fs gs : List (String × Json)} (h : fs.Perm gs) {name : String} {j : Json}
    (hj : sole? gs name = some j) : sole? fs name = some j := by
  unfold sole? at hj ⊢
  have hperm := h.filter (·.1 == name)
  split at hj
  · rename_i f hf
    rw [hf, List.perm_singleton] at hperm
    rw [hperm]
    exact hj
  · cases hj

theorem soleOrNull?_of_perm {fs gs : List (String × Json)} (h : fs.Perm gs) {name : String}
    {j : Json} (hj : soleOrNull? gs name = some j) : soleOrNull? fs name = some j := by
  unfold soleOrNull? at hj ⊢
  have hperm := h.filter (·.1 == name)
  split at hj
  · rename_i hnil
    rw [hnil, List.perm_nil] at hperm
    rw [hperm]
    exact hj
  · rename_i f hf
    rw [hf, List.perm_singleton] at hperm
    rw [hperm]
    exact hj
  · cases hj

/-- The value that a text stands for. -/
def parse? {α : Type} (ofJson? : Json → Option α) (text : String) : Option α :=
  (read? text).bind ofJson?

/-- What is written is read as the value it was written for, and a value that was read is
written in a form that is read as this value and written in the same form again. -/
structure RoundTrip {α : Type} (toJson : α → Json) (ofJson? : Json → Option α) : Prop where
  line (a : α) : parse? ofJson? (toJson a).line = some a
  page (a : α) : parse? ofJson? (toJson a).page = some a
  settled {text : String} {a : α} (h : parse? ofJson? text = some a) :
    ∃ b, parse? ofJson? (toJson a).line = some b ∧ b = a ∧ (toJson b).line = (toJson a).line

section Parse
variable {α : Type} {ofJson? : Json → Option α}

theorem Composed.parse?_line {j : Json} (h : j.Composed) : parse? ofJson? j.line = ofJson? j := by
  rw [parse?, h.read?_line, Option.bind_some]

theorem Composed.parse?_page {j : Json} (h : j.Composed) : parse? ofJson? j.page = ofJson? j := by
  rw [parse?, h.read?_page, Option.bind_some]

theorem RoundTrip.of {toJson : α → Json} (hcomposed : ∀ a, (toJson a).Composed)
    (hread : ∀ a, ofJson? (toJson a) = some a) : RoundTrip toJson ofJson? where
  line a := (hcomposed a).parse?_line.trans (hread a)
  page a := (hcomposed a).parse?_page.trans (hread a)
  settled {_ a} _ := ⟨a, (hcomposed a).parse?_line.trans (hread a), rfl, rfl⟩

end Parse

theorem composed_ofAmount (a : Amount) : (ofAmount a).Composed := .int a.toInt

end Json

open Json (Composed composed_ofAmount RoundTrip)

/-! ### Values -/

theorem Id.ofJson?_toJson (i : Id) : Id.ofJson? i.toJson = some i := by
  rw [ofJson?, toJson, Json.text?_ofText, Option.bind_some, ofText?_toText]

theorem Currency.ofJson?_toJson (c : Currency) : Currency.ofJson? c.toJson = some c := by
  rw [ofJson?, toJson, Json.text?_ofText, Option.bind_some, ofText?_code]

theorem Status.ofJson?_toJson (s : Status) : Status.ofJson? s.toJson = some s := by
  have hread : Status.ofJson? s.toJson = s.toJson.text?.bind ofText? := rfl
  rw [hread, toJson, Json.text?_ofText, Option.bind_some, ofText?_text]

namespace Share

theorem composed_toJson (s : Share) : s.toJson.Composed := by
  refine .fields fun f hf => ?_
  simp only [List.mem_cons, List.not_mem_nil, or_false] at hf
  rcases hf with rfl | rfl
  · exact .text s.counterparty
  · exact composed_ofAmount s.signedCost

theorem ofJson?_toJson (s : Share) : ofJson? s.toJson = some s := by
  have hread : ofJson? s.toJson = s.toJson.fields?.bind fun fields =>
      (Json.sole? fields "counterparty").bind fun c =>
        (Json.sole? fields "signed_cost").bind fun n => ofParts? c n := rfl
  rw [hread, toJson, Json.fields?_ofFields]
  simp [Json.sole?, ofParts?, Json.text?_ofText, Json.amount?_ofAmount]

end Share

namespace Purse

theorem ext_entries {p q : Purse} (h : p.entries = q.entries) : p = q := by
  cases p
  cases q
  cases h
  rfl

/-- An entry beyond all others goes to the end. -/
theorem insertEntry_of_forall_lt {c : Currency} {a : Amount} {es : List (Currency × Amount)}
    (h : ∀ e ∈ es, e.1.code < c.code) : insertEntry c a es = es ++ [(c, a)] := by
  induction es with
  | nil => rfl
  | cons e es ih =>
    obtain ⟨he, hes⟩ := List.forall_mem_cons.mp h
    rw [insertEntry, if_neg (String.lt_asymm he), if_pos he, ih hes, List.cons_append]

theorem entries_foldl_insert {es : List (Currency × Amount)} {p : Purse}
    (h : (p.entries ++ es).Pairwise fun a b => a.1.code < b.1.code) :
    (es.foldl (fun p e => p.insert e.1 e.2) p).entries = p.entries ++ es := by
  induction es generalizing p with
  | nil => rw [List.foldl_nil, List.append_nil]
  | cons e es ih =>
    have hlast : ∀ d ∈ p.entries, d.1.code < e.1.code := fun d hd =>
      (List.pairwise_append.mp h).2.2 d hd e List.mem_cons_self
    have hinsert : (p.insert e.1 e.2).entries = p.entries ++ [e] := insertEntry_of_forall_lt hlast
    rw [List.foldl_cons, ih (by rwa [hinsert, List.append_assoc]), hinsert, List.append_assoc]
    rfl

theorem ofEntries_entries (p : Purse) : ofEntries p.entries = p :=
  ext_entries (entries_foldl_insert p.ascending)

theorem composed_toJson (p : Purse) : p.toJson.Composed := by
  refine .fields fun f hf => ?_
  obtain ⟨e, -, rfl⟩ := List.mem_map.mp hf
  exact composed_ofAmount e.2

theorem ofJson?_toJson (p : Purse) : ofJson? p.toJson = some p := by
  have hentries : (p.entries.map fun e => (e.1.code, Json.ofAmount e.2)).mapM (fun f => do
      return (← Currency.ofText? f.1, ← f.2.amount?)) = some p.entries := by
    apply mapM_map_eq_some
    intro e _
    simp only [Currency.ofText?_code, Json.amount?_ofAmount, Option.bind_eq_bind, Option.bind_some]
    rfl
  rw [ofJson?, toJson, Json.fields?_ofFields]
  simp only [Option.bind_eq_bind, Option.bind_some] at hentries ⊢
  rw [hentries, Option.bind_some, ofEntries_entries]
  rfl

end Purse

namespace Balance

theorem composed_toJson (b : Balance) : b.toJson.Composed := by
  refine .fields fun f hf => ?_
  simp only [List.mem_cons, List.not_mem_nil, or_false] at hf
  rcases hf with rfl | rfl
  · exact .text b.counterparty
  · exact b.currencies.composed_toJson

theorem ofJson?_toJson (b : Balance) : ofJson? b.toJson = some b := by
  have hread : ofJson? b.toJson = b.toJson.fields?.bind fun fields =>
      (Json.sole? fields "counterparty").bind fun c =>
        (Json.sole? fields "currencies").bind fun p => ofParts? c p := rfl
  rw [hread, toJson, Json.fields?_ofFields]
  simp [Json.sole?, ofParts?, Json.text?_ofText, Purse.ofJson?_toJson]

end Balance

namespace Expense

/-- The fields of the document of an expense. -/
def fields (e : Expense) : List (String × Json) :=
  [("currency", e.currency.toJson), ("details", .ofText e.details), ("id", idToJson e.id),
    ("shares", .array (e.shares.map Share.toJson)), ("timestamp", .ofAmount e.timestamp),
    ("total_cost", .ofAmount e.totalCost)]

theorem toJson_eq (e : Expense) : e.toJson = .ofFields e.fields := rfl

theorem composed_idToJson (id : Option Id) : (idToJson id).Composed := by
  cases id with
  | none => exact .null
  | some i => exact .text i.toText

theorem idOfJson?_idToJson (id : Option Id) : idOfJson? (idToJson id) = some id := by
  cases id with
  | none => rfl
  | some i =>
    have hread : idOfJson? (idToJson (some i)) = (Id.ofJson? i.toJson).map some := rfl
    rw [hread, Id.ofJson?_toJson, Option.map_some]

theorem composed_fields (e : Expense) : ∀ f ∈ e.fields, f.2.Composed := by
  intro f hf
  simp only [fields, List.mem_cons, List.not_mem_nil, or_false] at hf
  rcases hf with rfl | rfl | rfl | rfl | rfl | rfl
  · exact .text e.currency.code
  · exact .text e.details
  · exact composed_idToJson e.id
  · refine .array fun x hx => ?_
    obtain ⟨s, -, rfl⟩ := List.mem_map.mp hx
    exact s.composed_toJson
  · exact composed_ofAmount e.timestamp
  · exact composed_ofAmount e.totalCost

/-- The order of the fields does not matter. -/
theorem ofJson?_of_perm {e : Expense} {fs : List (String × Json)} (h : fs.Perm e.fields) :
    ofJson? (.ofFields fs) = some e := by
  have hread : ofJson? (.ofFields fs) = (Json.ofFields fs).fields?.bind fun fields =>
      (Json.soleOrNull? fields "id").bind fun id =>
        (Json.sole? fields "timestamp").bind fun timestamp =>
          (Json.sole? fields "details").bind fun details =>
            (Json.sole? fields "total_cost").bind fun totalCost =>
              (Json.sole? fields "currency").bind fun currency =>
                (Json.sole? fields "shares").bind fun shares =>
                  ofParts? id timestamp details totalCost currency shares := rfl
  have hshares : (e.shares.map Share.toJson).mapM Share.ofJson? = some e.shares :=
    mapM_map_eq_some fun s _ => s.ofJson?_toJson
  have hid : Json.soleOrNull? e.fields "id" = some (idToJson e.id) := rfl
  have htimestamp : Json.sole? e.fields "timestamp" = some (.ofAmount e.timestamp) := rfl
  have hdetails : Json.sole? e.fields "details" = some (.ofText e.details) := rfl
  have htotal : Json.sole? e.fields "total_cost" = some (.ofAmount e.totalCost) := rfl
  have hcurrency : Json.sole? e.fields "currency" = some e.currency.toJson := rfl
  have hlist : Json.sole? e.fields "shares" = some (.array (e.shares.map Share.toJson)) := rfl
  rw [hread, Json.fields?_ofFields, Option.bind_some, Json.soleOrNull?_of_perm h hid,
    Json.sole?_of_perm h htimestamp, Json.sole?_of_perm h hdetails, Json.sole?_of_perm h htotal,
    Json.sole?_of_perm h hcurrency, Json.sole?_of_perm h hlist]
  simp only [Option.bind_some, ofParts?, idOfJson?_idToJson, Json.amount?_ofAmount,
    Json.text?_ofText, Currency.ofJson?_toJson, Json.items?, hshares, Option.bind_eq_bind]
  rfl

theorem composed_toJson (e : Expense) : e.toJson.Composed := by
  rw [toJson_eq]
  exact .fields e.composed_fields

theorem ofJson?_toJson (e : Expense) : ofJson? e.toJson = some e := by
  rw [toJson_eq]
  exact ofJson?_of_perm (.refl _)

end Expense

/-- Expenses, shares, balances, currencies and statuses read back from what is written for
them. An expense does so in whatever order its fields are written. -/
theorem documents_round_trip :
    RoundTrip Expense.toJson Expense.ofJson? ∧ RoundTrip Share.toJson Share.ofJson? ∧
    RoundTrip Balance.toJson Balance.ofJson? ∧ RoundTrip Currency.toJson Currency.ofJson? ∧
    RoundTrip Status.toJson Status.ofJson? ∧
    ∀ (e : Expense) (fs : List (String × Json)), fs.Perm e.fields →
      Json.parse? Expense.ofJson? (Json.ofFields fs).line = some e ∧
      Json.parse? Expense.ofJson? (Json.ofFields fs).page = some e := by
  refine ⟨.of Expense.composed_toJson Expense.ofJson?_toJson,
    .of Share.composed_toJson Share.ofJson?_toJson,
    .of Balance.composed_toJson Balance.ofJson?_toJson,
    .of (fun c => .text c.code) Currency.ofJson?_toJson,
    .of (fun s => .text s.text) Status.ofJson?_toJson, fun e fs hperm => ?_⟩
  have hcomposed : (Json.ofFields fs).Composed :=
    .fields fun f hf => e.composed_fields f (hperm.mem_iff.mp hf)
  rw [hcomposed.parse?_line, hcomposed.parse?_page]
  exact ⟨Expense.ofJson?_of_perm hperm, Expense.ofJson?_of_perm hperm⟩

example : (Share.toJson ⟨"żaba\t", -1⟩).line =
    "\x7b\"counterparty\":\"żaba\\t\",\"signed_cost\":-1\x7d" := by decide +kernel

/-- A quote, a backslash, control characters and both ends of the range. -/
def receipt : Expense :=
  ⟨none, -9223372036854775808, "\"tea\" \\ \x00\n", 9223372036854775807,
    ⟨"ZŁ", by decide, by decide +kernel⟩, [⟨"", -1⟩, ⟨"żaba\t", 0⟩]⟩

theorem receipt_read_back :
    let fs := [("id", Json.null), ("timestamp", Json.ofAmount receipt.timestamp),
      ("details", Json.ofText receipt.details), ("total_cost", Json.ofAmount receipt.totalCost),
      ("currency", receipt.currency.toJson), ("shares", .array (receipt.shares.map Share.toJson))]
    fs.Perm receipt.fields ∧ Json.parse? Expense.ofJson? (Json.ofFields fs).line = some receipt ∧
      ∃ c, Json.parse? Currency.ofJson? " \"\\u0020stra\\u00DFe\" " = some c ∧
        c.toJson.line = "\"STRASSE\"" ∧ Json.parse? Currency.ofJson? c.toJson.line = some c := by
  intro fs
  obtain ⟨-, -, -, hcurrency, -, hexpense⟩ := documents_round_trip
  have hperm : fs.Perm receipt.fields := by
    classical
    rw [List.perm_iff_count]
    intro f
    simp only [fs, Expense.fields, List.count_cons, List.count_nil]
    ac_rfl
  have hread : Json.parse? Currency.ofJson? " \"\\u0020stra\\u00DFe\" " =
      some ⟨"STRASSE", by decide, by decide +kernel⟩ := by decide +kernel
  obtain ⟨c, hc, rfl, -⟩ := hcurrency.settled hread
  exact ⟨hperm, (hexpense receipt fs hperm).1, _, hread, by decide +kernel, hc⟩

end FriendLedger
