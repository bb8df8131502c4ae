import FriendLedger.Proofs.Ledger.Balances
import FriendLedger.Proofs.Ledger.Between
import FriendLedger.Proofs.Operation.Filled

/-! The balances of a user beside the expenses that he has in common with another one. The
two are read by statements of their own, one with a group for every stored currency and
one with a row for every deal, and they account for the same money. -/

namespace FriendLedger

set_option autoImplicit false

/-- What the share of a user comes to, zero if there is none. -/
def Expense.costOf (e : Expense) (user : String) : Int :=
  ((e.shareOf? user).map (·.signedCost.toInt)).getD 0

namespace Expense.ViewOf
variable {s : Store} {a b user : String} {d : DealRow} {e : Expense} (h : e.ViewOf s a b d)
include h

theorem ofText?_eq_iff (c : Currency) : Currency.ofText? d.currency = some c ↔ e.currency = c := by
  rw [h.currency, Option.some.injEq]

theorem filter_shares (huser : user = a ∨ user = b) :
    ∃ x, e.shares.filter (·.counterparty == user) = [x] ∧
      x.signedCost.toInt = s.ownCost user d := by
  obtain ⟨x, hx, rfl⟩ := (h.parties user).mpr huser
  have hnodup : (e.shares.map (·.counterparty)).Nodup := by
    apply List.pairwise_map.mpr
    apply h.ascending.imp
    intro x y hlt heq
    rw [heq] at hlt
    exact List.lt_irrefl _ hlt
  exact ⟨x, filter_key_eq_singleton Share.counterparty hnodup hx, h.costs x hx⟩

theorem costOf_eq (huser : user = a ∨ user = b) : e.costOf user = s.ownCost user d := by
  obtain ⟨x, hone, hcost⟩ := h.filter_shares huser
  have hfind : e.shareOf? user = some x := by
    rw [shareOf?, ← List.head?_filter, hone, List.head?_singleton]
  rw [costOf, hfind, Option.map_some, Option.getD_some, hcost]

end Expense.ViewOf

namespace Ledger
variable {s t : Store} {a b user : String} {bs : List Balance} {es : List Expense}

/-! ### Tables that are read -/

theorem balances_congr (hdeals : s.dealRows = t.dealRows)
    (hspendings : s.spendingRows = t.spendingRows) (user : String) :
    balances s user = balances t user := by
  simp only [balances, balanceRows, hdeals, hspendings]

theorem between_congr (hdeals : s.dealRows = t.dealRows)
    (hspendings : s.spendingRows = t.spendingRows) (a b : String) :
    between s a b = between t a b := by
  simp only [between, pairRows, hdeals, hspendings]

/-- Balances are answered only where the tables of the ledger are present, and then the
other statement reads the same rows. -/
theorem ledger_filled (h : balances s user = .ok bs) :
    s.dealRows = s.filled.dealRows ∧ s.spendingRows = s.filled.spendingRows := by
  obtain ⟨rows, hrows, -⟩ := bind_eq_ok_iff.mp h
  have hrows := orDatabase_eq_ok_iff.mp (orStop_eq_ok_iff.mp hrows)
  obtain ⟨deals, hdeals, hrows⟩ := bind_eq_ok_iff.mp hrows
  obtain ⟨spendings, hspendings, -⟩ := bind_eq_ok_iff.mp hrows
  exact ⟨hdeals.trans (Store.dealRows_filled hdeals).2.symm,
    hspendings.trans (Store.spendingRows_filled hspendings).2.symm⟩

/-! ### Listed expenses as rows -/

/-- The expenses stand for the deals of the two users, each for one. -/
theorem exists_deals (hc : s.Complete) (h : between s a b = .ok es) :
    ∃ ds : List DealRow, ds.Perm (s.commonDeals a b) ∧
      List.Forall₂ (fun d e => e.ViewOf s a b d) ds es := by
  obtain ⟨rows, hrows, -⟩ := bind_eq_ok_iff.mp h
  have hrows := orDatabase_eq_ok_iff.mp hrows
  exact ⟨rows.map (·.deal), (perm_pairRows hc hrows).1, forall₂_viewOf hc hrows h⟩

section Deals
variable {ds : List DealRow} (hviews : List.Forall₂ (fun d e => e.ViewOf s a b d) ds es)
include hviews

theorem exists_view {e : Expense} (he : e ∈ es) : ∃ d, e.ViewOf s a b d := by
  induction hviews with
  | nil => cases he
  | @cons d _ _ _ hview _ ih =>
    rcases List.mem_cons.mp he with rfl | he
    · exact ⟨d, hview⟩
    · exact ih he

theorem exists_ofText?_iff (c : Currency) :
    (∃ d ∈ ds, Currency.ofText? d.currency = some c) ↔ ∃ e ∈ es, e.currency = c := by
  induction hviews with
  | nil => simp
  | cons hview _ ih => simp only [List.exists_mem_cons_iff, ih, hview.ofText?_eq_iff c]

/-- In one currency the shares of a user come to his costs of these deals. -/
theorem sum_costOf (huser : user = a ∨ user = b) (c : Currency) :
    ((es.filter (·.currency = c)).map (·.costOf user)).sum =
      ((ds.filter (Currency.ofText? ·.currency = some c)).map (s.ownCost user)).sum := by
  induction hviews with
  | nil => rfl
  | @cons d e _ _ hview _ ih =>
    by_cases hcur : e.currency = c
    · simp [hcur, (hview.ofText?_eq_iff c).mpr hcur, hview.costOf_eq huser, ih]
    · have hcur' : Currency.ofText? d.currency ≠ some c := mt (hview.ofText?_eq_iff c).mp hcur
      simp [hcur, hcur', ih]

end Deals

/-- The balances of a user and the expenses that he has in common with another one agree,
whatever rows the tables hold: the other one has a balance exactly when an expense is
listed, it names the currencies of the listed expenses, and in each of them it is the
exact sum of the shares that they give to the user. -/
theorem balances_agree_with_between (hn : (s.heldDeals.map (·.id)).Nodup) (hab : a ≠ b)
    (hbs : balances s a = .ok bs) (hes : between s a b = .ok es) :
    ((∃ x ∈ bs, x.counterparty = b) ↔ es ≠ []) ∧
    (∀ e ∈ es, ∃ share, e.shares.filter (·.counterparty == a) = [share]) ∧
    ∀ x ∈ bs, x.counterparty = b → ∀ c,
      ((x.currencies.get? c).isSome ↔ ∃ e ∈ es, e.currency = c) ∧
      (x.inCurrency c).toInt = ((es.filter (·.currency = c)).map (·.costOf a)).sum := by
  obtain ⟨hdeals, hspendings⟩ := ledger_filled hbs
  rw [balances_congr hdeals hspendings] at hbs
  rw [between_congr hdeals hspendings] at hes
  have hc := s.complete_filled
  obtain ⟨ds, hperm, hviews⟩ := exists_deals hc hes
  refine ⟨?_, ?_, ?_⟩
  · rw [mem_balances_iff hc hn hbs, and_iff_right (Ne.symm hab), ← List.length_pos_iff_exists_mem,
      ← hperm.length_eq, hviews.length_eq, List.length_pos_iff]
  · intro e he
    obtain ⟨d, hview⟩ := exists_view hviews he
    obtain ⟨share, hone, -⟩ := hview.filter_shares (.inl rfl)
    exact ⟨share, hone⟩
  · rintro x hx rfl c
    obtain ⟨hkey, hsum⟩ := (currencies_of_mem_balances hc hn hbs hx).2 c
    constructor
    · rw [hkey, ← exists_ofText?_iff hviews]
      simp only [hperm.mem_iff]
    · rw [sum_costOf hviews (.inl rfl)]
      exact hsum.trans ((hperm.filter _).map _).sum_eq.symm

/-- The common expenses of alice and bob can be read. -/
theorem exists_between_picnic : ∃ es, between picnicStore "alice" "bob" = .ok es := by
  obtain ⟨rows, hrows⟩ : ∃ rows, pairRows picnicStore "alice" "bob" = .ok rows :=
    exists_of_isOk (by decide +kernel)
  have hread : ∀ d ∈ picnicStore.commonDeals "alice" "bob", d.fault? = none := by decide +kernel
  cases hes : between picnicStore "alice" "bob" with
  | ok es => exact ⟨es, rfl⟩
  | error f =>
    obtain ⟨d, hd, hf⟩ := List.exists_of_findSome?_eq_some ((between_eq_error_iff hrows).mp hes)
    rw [hread d ((perm_pairRows ⟨rfl, rfl, rfl⟩ hrows).1.mem_iff.mp hd)] at hf
    cases hf

/-- The currency of their two expenses is spelled in two ways, and alice holds two shares of
one of them. -/
theorem accord_at_picnic : (picnicStore.heldDeals.map (·.id)).Nodup ∧ "alice" ≠ "bob" ∧
    ∃ bs es, balances picnicStore "alice" = .ok bs ∧ between picnicStore "alice" "bob" = .ok es ∧
      es ≠ [] ∧ ∃ x ∈ bs, x.counterparty = "bob" ∧ ∀ c,
        (x.inCurrency c).toInt = ((es.filter (·.currency = c)).map (·.costOf "alice")).sum := by
  have hn : (picnicStore.heldDeals.map (·.id)).Nodup := by decide +kernel
  have hab : "alice" ≠ "bob" := by decide
  obtain ⟨bs, hbs⟩ : ∃ bs, balances picnicStore "alice" = .ok bs :=
    exists_of_isOk (by decide +kernel)
  obtain ⟨es, hes⟩ := exists_between_picnic
  have hlisted : (balances picnicStore "alice").map (·.map (·.counterparty)) = .ok ["bob"] := by
    decide +kernel
  rw [hbs, Except.map, Except.ok.injEq] at hlisted
  obtain ⟨x, hx, hbob⟩ : ∃ x ∈ bs, x.counterparty = "bob" :=
    List.mem_map.mp (hlisted ▸ List.mem_singleton_self "bob")
  obtain ⟨hcommon, -, hsums⟩ := balances_agree_with_between hn hab hbs hes
  exact ⟨hn, hab, bs, es, hbs, hes, hcommon.mp ⟨x, hx, hbob⟩, x, hx, hbob,
    fun c => (hsums x hx hbob c).2⟩

end Ledger
end FriendLedger
