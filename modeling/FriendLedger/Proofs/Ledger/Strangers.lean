import FriendLedger.Ledger.Account
import FriendLedger.Proofs.Ledger.Balances
import FriendLedger.Proofs.Ledger.Isolation

/-! What a user sees of expenses in which he holds no share. They are not in his balances
and not in the answers about other expenses, whether their own rows can be read or not.
Asked for directly, such an expense is refused; only a currency that cannot be read is
found before the shares are looked at, and then the answer quotes it. -/

namespace FriendLedger

set_option autoImplicit false

namespace Ledger
variable {rows : List SpendingRow} {deals : List DealRow} {user id id' : String}

/-! ### Without one deal -/

theorem mem_dealsOf_of_mem_totals {mine : List (String × Amount)}
    (h : totalsByDeal rows user = .ok mine) {m : String × Amount} (hm : m ∈ mine) :
    m.1 ∈ dealsOf rows user := by
  rw [← (totalsByDeal_eq_ok h).1]
  exact List.mem_map_of_mem hm

theorem find?_deal_filter (hne : id' ≠ id) :
    (deals.filter (·.id ≠ id)).find? (·.id = id') = deals.find? (·.id = id') := by
  rw [List.find?_filter]
  congr 1
  funext d
  by_cases hid : d.id = id'
  · simp [hid, hne]
  · simp [hid]

theorem othersIn_filter (hne : id' ≠ id) :
    othersIn (rows.filter (·.dealId ≠ id)) user id' = othersIn rows user id' := by
  unfold othersIn
  rw [List.filter_filter]
  congr 2
  apply List.filter_congr
  intro p _
  by_cases hid : p.dealId = id'
  · simp [hid, hne]
  · simp [hid]

section Stranger
variable (hstranger : ∀ p ∈ rows, p.dealId = id → p.counterparty ≠ user)
include hstranger

theorem not_mem_dealsOf : id ∉ dealsOf rows user := by
  intro hmem
  obtain ⟨p, hp, hparty, hid⟩ := mem_dealsOf_iff.mp hmem
  exact hstranger p hp hid hparty

theorem dealsOf_filter : dealsOf (rows.filter (·.dealId ≠ id)) user = dealsOf rows user := by
  unfold dealsOf
  rw [List.filter_filter]
  congr 2
  apply List.filter_congr
  intro p hp
  by_cases hparty : p.counterparty = user
  · have hid : p.dealId ≠ id := fun hid => hstranger p hp hid hparty
    simp [hparty, hid]
  · simp [hparty]

/-- The sums of a user are over deals of his own, however little the others sum up. -/
theorem totalsByDeal_filter :
    totalsByDeal (rows.filter (·.dealId ≠ id)) user = totalsByDeal rows user := by
  unfold totalsByDeal
  rw [dealsOf_filter hstranger]
  apply mapM_congr
  intro id' hid'
  have hne : id' ≠ id := fun heq => not_mem_dealsOf hstranger (heq ▸ hid')
  rw [costsIn_filter hne]

theorem entriesOf_filter {mine : List (String × Amount)} (h : totalsByDeal rows user = .ok mine) :
    entriesOf (deals.filter (·.id ≠ id)) (rows.filter (·.dealId ≠ id)) user mine =
      entriesOf deals rows user mine := by
  unfold entriesOf
  apply List.flatMap_congr
  intro m hm
  have hne : m.1 ≠ id := fun heq => not_mem_dealsOf hstranger (heq ▸ mem_dealsOf_of_mem_totals h hm)
  rw [find?_deal_filter hne, othersIn_filter hne]

end Stranger

/-! ### Beside the expense -/

variable {s t : Store} {actor : String}

section Beside
variable (h : s.Extends t id)
include h

/-- Either both stores have the tables of the ledger, or neither has spendings. -/
theorem ledger_of_extends : s.dealRows = .ok s.heldDeals ∧ t.dealRows = .ok t.heldDeals ∧
    (s.spendingRows = .ok s.heldSpendings ∧ t.spendingRows = .ok t.heldSpendings ∨
      s.spendings = none ∧ t.spendings = none) := by
  obtain ⟨hpresent, htables, -, -⟩ := h.rows
  have hpresent' : t.deals.isSome := htables.deals ▸ hpresent
  refine ⟨Store.dealRows_of_isSome hpresent, Store.dealRows_of_isSome hpresent', ?_⟩
  cases hrows : t.spendings.isSome with
  | true =>
    exact .inl ⟨Store.spendingRows_of_isSome (htables.spendings.trans hrows),
      Store.spendingRows_of_isSome hrows⟩
  | false =>
    exact .inr ⟨Option.not_isSome_iff_eq_none.mp (by rw [htables.spendings, hrows]; simp),
      Option.not_isSome_iff_eq_none.mp (by rw [hrows]; simp)⟩

theorem balances_of_stranger
    (hstranger : ∀ p ∈ t.heldSpendings, p.dealId = id → p.counterparty ≠ actor) :
    balances t actor = balances s actor := by
  obtain ⟨-, -, hdeals, hspendings⟩ := h.rows
  have hrows : balanceRows t actor = balanceRows s actor := by
    unfold balanceRows
    obtain ⟨hs, ht, ⟨hss, hts⟩ | ⟨hss, hts⟩⟩ := ledger_of_extends h
    · rw [hs, ht, hss, hts]
      simp only [ok_bind, hdeals, hspendings, totalsByDeal_filter hstranger]
      cases hmine : totalsByDeal t.heldSpendings actor with
      | error f => rfl
      | ok mine => simp only [ok_bind, entriesOf_filter hstranger hmine]
    · rw [hs, ht, Store.spendingRows, Store.spendingRows, hss, hts]
      rfl
  simp only [balances, hrows]

theorem findExpense_of_ne (hne : id' ≠ id) : t.findExpense id' = s.findExpense id' := by
  obtain ⟨-, -, hdeals, hspendings⟩ := h.rows
  have hdeal : s.heldDeals.find? (·.id == id') = t.heldDeals.find? (·.id == id') := by
    rw [hdeals]
    exact find?_deal_filter hne
  have hrest : s.heldSpendings.filter (·.dealId == id') =
      t.heldSpendings.filter (·.dealId == id') := by
    rw [hspendings, List.filter_filter]
    apply List.filter_congr
    intro p _
    by_cases hid : p.dealId = id'
    · simp [hid, hne]
    · simp [hid]
  unfold Store.findExpense
  obtain ⟨hs, ht, ⟨hss, hts⟩ | ⟨hss, hts⟩⟩ := ledger_of_extends h
  · simp only [hs, ht, hss, hts, ok_bind, hdeal, hrest]
  · simp only [hs, ht, ok_bind, hdeal, Store.spendingRows, hss, hts]

theorem get_of_ne {i : Id} (hne : i.toText ≠ id) (actor : String) :
    get t actor i = get s actor i := by
  simp only [get, find?, findExpense_of_ne h hne]

end Beside

/-! ### The expense itself -/

section Found
variable {rows : ExpenseRows} (h : t.findExpense id = .ok (some rows))
include h

theorem rows_of_findExpense : rows.deal ∈ t.heldDeals ∧ rows.deal.id = id ∧
    ∀ p ∈ rows.spendings, p ∈ t.heldSpendings ∧ p.dealId = id := by
  have hfound := Store.findExpense_filled h
  rw [t.complete_filled.findExpense_eq, Except.ok.injEq] at hfound
  obtain ⟨d, hd, rfl⟩ := Option.map_eq_some_iff.mp hfound
  obtain ⟨hd, hid⟩ := List.mem_filter.mp (List.mem_of_mem_head? hd)
  refine ⟨hd, beq_iff_eq.mp hid, ?_⟩
  intro p hp
  obtain ⟨hp, hid⟩ := List.mem_filter.mp hp
  exact ⟨hp, beq_iff_eq.mp hid⟩

end Found

theorem errorsIn_rowsOf {α : Type} (table : Table) (rows : Option (List α)) :
    ErrorsIn (fun f => ∃ table : Table, f = .missingTable table.name) (Store.rowsOf table rows) := by
  cases rows with
  | some rows => exact errorsIn_ok rows
  | none => exact errorsIn_error.mpr ⟨table, rfl⟩

theorem errorsIn_findExpense (t : Store) (id : String) :
    ErrorsIn (fun f => ∃ table : Table, f = .missingTable table.name) (t.findExpense id) := by
  refine (errorsIn_rowsOf .deals t.deals).bind fun deals => ?_
  split
  · exact (errorsIn_rowsOf .spendings t.spendings).bind fun spendings => errorsIn_ok _
  · exact errorsIn_ok _

/-- Why a user is not told about an expense in which he holds no share. -/
inductive Denial (t : Store) (actor : String) (i : Id) : Failure → Prop
  | unknown : Denial t actor i (.expenseNotFound i.toText)
  | stranger : Denial t actor i (.notYourExpense (actor ++ " holds no share of " ++ i.toText))
  | fault (table : Table) : Denial t actor i (.database (.missingTable table.name))
  | unreadable {d : DealRow} (hd : d ∈ t.heldDeals) (hid : d.id = i.toText)
      (hblank : ∀ c ∈ d.currency.toList, Text.isBlank c = true) :
      Denial t actor i (.corruptRow ("invalid stored currency " ++ Text.quoted d.currency))

section Denied
variable {i : Id}

theorem denial_of_decode_error {rows : ExpenseRows} {f : Failure}
    (hfound : t.findExpense i.toText = .ok (some rows)) (h : rows.decode = .error f) :
    Denial t actor i f := by
  obtain ⟨hd, hid, -⟩ := rows_of_findExpense hfound
  have hfault := DealRow.decode_eq_error_iff.mp h
  rw [DealRow.fault?, hid, Id.ofText?_toText] at hfault
  cases hcur : Currency.ofText? rows.deal.currency with
  | some c =>
    rw [hcur] at hfault
    cases hfault
  | none =>
    rw [hcur] at hfault
    cases hfault
    exact .unreadable hd hid (Currency.ofText?_eq_none_iff.mp hcur)

variable (hstranger : ∀ p ∈ t.heldSpendings, p.dealId = i.toText → p.counterparty ≠ actor)
include hstranger

theorem not_involves_of_decode {rows : ExpenseRows} {e : Expense}
    (hfound : t.findExpense i.toText = .ok (some rows)) (h : rows.decode = .ok e) :
    e.involves actor = false := by
  obtain ⟨-, -, hps⟩ := rows_of_findExpense hfound
  obtain ⟨i', c, -, -, rfl⟩ := DealRow.decode_eq_ok h
  rw [Bool.eq_false_iff, ne_eq, Expense.involves_iff]
  rintro ⟨x, hx, hparty⟩
  rw [Share.mem_sorted_iff] at hx
  obtain ⟨p, hp, rfl⟩ := List.mem_map.mp hx
  obtain ⟨hp, hid⟩ := hps p hp
  exact hstranger p hp hid hparty

theorem get_denied : ∃ f, get t actor i = .error f ∧ Denial t actor i f := by
  cases hfound : t.findExpense i.toText with
  | error fault =>
    obtain ⟨table, rfl⟩ := errorsIn_findExpense t i.toText fault hfound
    exact ⟨_, by simp only [get, find?, hfound, orDatabase, error_bind], .fault table⟩
  | ok found =>
    cases found with
    | none =>
      exact ⟨_, by simp only [get, find?, hfound, orDatabase, ok_bind, pure_eq_ok, throw_eq_error],
        .unknown⟩
    | some rows =>
      cases hread : rows.decode with
      | error f =>
        refine ⟨f, ?_, denial_of_decode_error hfound hread⟩
        simp only [get, find?, hfound, orDatabase, ok_bind, hread, error_bind]
      | ok e =>
        have hnot := not_involves_of_decode hstranger hfound hread
        refine ⟨_, ?_, .stranger⟩
        simp only [get, find?, hfound, orDatabase, ok_bind, hread, pure_eq_ok, hnot,
          Bool.false_eq_true, if_false, throw_eq_error]

end Denied

/-- Adding or removing an expense in which a user holds no share, whatever its rows are,
leaves his balances and the answers about all other expenses as they are. About the
expense itself he is told no more than that it is not his, unless its currency cannot be
read, which the answer then quotes; and he does not remove it. -/
theorem strangers_expense_hidden (h : s.Extends t id)
    (hstranger : ∀ p ∈ t.heldSpendings, p.dealId = id → p.counterparty ≠ actor) :
    balances t actor = balances s actor ∧
    (∀ i : Id, i.toText ≠ id → get t actor i = get s actor i) ∧
    ∀ i : Id, i.toText = id → ∃ f, get t actor i = .error f ∧ Denial t actor i f ∧
      ∀ (j : Journal) (b : Book), b.store = t → remove actor i j b = (.error f, j, b) := by
  refine ⟨balances_of_stranger h hstranger, fun i hne => get_of_ne h hne actor, ?_⟩
  rintro i rfl
  obtain ⟨f, hget, hdenied⟩ := get_denied hstranger
  refine ⟨f, hget, hdenied, ?_⟩
  rintro j b rfl
  simp only [remove, hget]

/-- The sums of bob leave the range with the loan, but those of alice do not. -/
theorem loan_hidden_from_alice :
    lunchStore.Extends (lunchStore.withExpense (loan 1)) (Id.minted 2).toText ∧
      (∀ p ∈ (lunchStore.withExpense (loan 1)).heldSpendings,
        p.dealId = (Id.minted 2).toText → p.counterparty ≠ "alice") ∧
      balances (lunchStore.withExpense (loan 1)) "alice" = balances lunchStore "alice" ∧
      ∃ f, get (lunchStore.withExpense (loan 1)) "alice" (Id.minted 2) = .error f ∧
        Denial (lunchStore.withExpense (loan 1)) "alice" (Id.minted 2) f := by
  have hstranger : ∀ p ∈ (lunchStore.withExpense (loan 1)).heldSpendings,
      p.dealId = (Id.minted 2).toText → p.counterparty ≠ "alice" := by decide +kernel
  obtain ⟨hbalances, -, hown⟩ := strangers_expense_hidden (extends_lunch 1) hstranger
  obtain ⟨f, hget, hdenied, -⟩ := hown (Id.minted 2) rfl
  exact ⟨extends_lunch 1, hstranger, hbalances, f, hget, hdenied⟩

/-- An expense of bob alone. -/
def gift (currency : String) : ExpenseRows :=
  ⟨⟨(Id.minted 2).toText, 6, "gift", 1, currency⟩, [⟨"3", (Id.minted 2).toText, 1, "bob"⟩]⟩

theorem extends_gift (currency : String) :
    lunchStore.Extends (lunchStore.withExpense (gift currency)) (Id.minted 2).toText :=
  extends_lunch_with rfl (by simp [ExpenseRows.Coherent, gift]) (by simp [gift]) (by simp [gift])

/-- Alice is told how the currency of the gift is blank, although she has no part in it. -/
theorem blank_currency_told :
    lunchStore.Extends (lunchStore.withExpense (gift "\t")) (Id.minted 2).toText ∧
      (∀ p ∈ (lunchStore.withExpense (gift "\t")).heldSpendings,
        p.dealId = (Id.minted 2).toText → p.counterparty ≠ "alice") ∧
      get (lunchStore.withExpense (gift "\t")) "alice" (Id.minted 2) =
        .error (.corruptRow "invalid stored currency \"\\t\"") ∧
      get (lunchStore.withExpense (gift "")) "alice" (Id.minted 2) =
        .error (.corruptRow "invalid stored currency \"\"") := by
  refine ⟨extends_gift "\t", ?_, ?_, ?_⟩
  · decide +kernel
  · decide +kernel
  · decide +kernel

end Ledger
end FriendLedger
