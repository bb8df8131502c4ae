import FriendLedger.Proofs.Currency
import FriendLedger.Proofs.Ledger.BalanceRows
import FriendLedger.Proofs.Text.Bytes

/-! What the balances of a user are, on every store whose deals have keys of their own.
A balance stands for each other user with a common deal, and it holds the exact sum
of the user's own costs of these deals, by the currency that their text names. -/

namespace FriendLedger

set_option autoImplicit false

namespace Ledger

variable {s : Store} {user : String}

/-- The rows of a statement that succeeds: one for each counterparty, with its groups. -/
theorem balanceRows_eq_ok (hc : s.Complete) {rows : List (String × List (String × Amount))}
    (h : balanceRows s user = .ok rows) :
    ∃ mine, totalsByDeal s.heldSpendings user = .ok mine ∧
      rows.map (·.1) = Roster.ofList
        ((entriesOf s.heldDeals s.heldSpendings user mine).map (·.counterparty)) ∧
      ∀ row ∈ rows, groupsOf (entriesOf s.heldDeals s.heldSpendings user mine) row.1 = .ok row.2 := by
  rw [balanceRows, hc.dealRows_eq, ok_bind, hc.spendingRows_eq, ok_bind] at h
  obtain ⟨mine, hmine, h⟩ := bind_eq_ok_iff.mp h
  exact ⟨mine, hmine, mapM_pair_eq_ok h⟩

theorem balances_of_rows {rows : List (String × List (String × Amount))} {bs : List Balance}
    (h : List.Forall₂ (fun row b => (do
      return (⟨row.1, ← row.2.foldlM addStored Purse.empty⟩ : Balance)) = .ok b) rows bs) :
    bs.map (·.counterparty) = rows.map (·.1) ∧ ∀ b ∈ bs, ∃ groups, (b.counterparty, groups) ∈ rows ∧
      groups.foldlM addStored Purse.empty = .ok b.currencies := by
  induction h with
  | nil => exact ⟨rfl, fun b hb => by cases hb⟩
  | @cons row b rows bs hb _ ih =>
    obtain ⟨hkeys, hmem⟩ := ih
    obtain ⟨p, hp, hb⟩ := bind_eq_ok_iff.mp hb
    cases hb
    refine ⟨by rw [List.map_cons, List.map_cons, hkeys], fun b hb => ?_⟩
    rcases List.mem_cons.mp hb with rfl | hb
    · exact ⟨row.2, List.mem_cons_self, hp⟩
    · obtain ⟨groups, hg, hp⟩ := hmem b hb
      exact ⟨groups, List.mem_cons_of_mem row hg, hp⟩

/-- Balances that are answered come from the entries, one for each counterparty. -/
theorem balances_eq_ok (hc : s.Complete) {bs : List Balance} (h : balances s user = .ok bs) :
    ∃ mine, totalsByDeal s.heldSpendings user = .ok mine ∧
      bs.map (·.counterparty) = Roster.ofList
        ((entriesOf s.heldDeals s.heldSpendings user mine).map (·.counterparty)) ∧
      ∀ b ∈ bs, ∃ groups,
        groupsOf (entriesOf s.heldDeals s.heldSpendings user mine) b.counterparty = .ok groups ∧
        groups.foldlM addStored Purse.empty = .ok b.currencies := by
  obtain ⟨rows, hrows, h⟩ := bind_eq_ok_iff.mp h
  obtain ⟨mine, hmine, hkeys, hgroups⟩ :=
    balanceRows_eq_ok hc (orDatabase_eq_ok_iff.mp (orStop_eq_ok_iff.mp hrows))
  obtain ⟨hbs, hmem⟩ := balances_of_rows (mapM_eq_ok_iff.mp h)
  refine ⟨mine, hmine, hbs.trans hkeys, fun b hb => ?_⟩
  obtain ⟨groups, hg, hp⟩ := hmem b hb
  exact ⟨groups, hgroups _ hg, hp⟩

theorem balance_of_groups (hn : (s.heldDeals.map (·.id)).Nodup)
    {mine : List (String × Amount)} (hmine : totalsByDeal s.heldSpendings user = .ok mine)
    {groups : List (String × Amount)} {other : String} {p : Purse} (hne : other ≠ user)
    (hgroups : groupsOf (entriesOf s.heldDeals s.heldSpendings user mine) other = .ok groups)
    (hp : groups.foldlM addStored Purse.empty = .ok p) :
    (∀ d ∈ s.commonDeals user other, Currency.ofText? d.currency ≠ none) ∧ ∀ c,
      ((p.get? c).isSome ↔
        ∃ d ∈ s.commonDeals user other, Currency.ofText? d.currency = some c) ∧
      p.amountIn c = (((s.commonDeals user other).filter
        (Currency.ofText? ·.currency = some c)).map (s.ownCost user)).sum := by
  obtain ⟨hkeys, hsums⟩ := groupsOf_eq_ok hgroups
  obtain ⟨hdecoded, hpurse⟩ := foldlM_addStored_eq_ok hp
  have hkey (k : String) : (∃ g ∈ groups, g.1 = k) ↔
      ∃ d ∈ s.commonDeals user other, d.currency = k := by
    rw [hkeys, mem_entriesOf_iff hn hmine, and_iff_right hne]
  constructor
  · intro d hd
    obtain ⟨g, hg, heq⟩ := (hkey d.currency).mpr ⟨d, hd, rfl⟩
    exact heq ▸ hdecoded g hg
  · intro c
    obtain ⟨hmem, hsum⟩ := hpurse c
    constructor
    · rw [hmem]
      simp only [Purse.empty, Purse.get?, List.find?_nil, Option.map_none, Option.isSome_none,
        Bool.false_eq_true, false_or]
      constructor
      · rintro ⟨g, hg, hgc⟩
        obtain ⟨d, hd, heq⟩ := (hkey g.1).mp ⟨g, hg, rfl⟩
        exact ⟨d, hd, heq ▸ hgc⟩
      · rintro ⟨d, hd, hdc⟩
        obtain ⟨g, hg, heq⟩ := (hkey d.currency).mpr ⟨d, hd, rfl⟩
        exact ⟨g, hg, heq ▸ hdc⟩
    · have hzero : Purse.empty.amountIn c = 0 := rfl
      rw [hsum, hzero, Int.zero_add,
        hsums fun text => decide (Currency.ofText? text = some c)]
      exact sum_entriesOf hn hmine hne fun text => decide (Currency.ofText? text = some c)

section Answered
variable (hc : s.Complete) (hn : (s.heldDeals.map (·.id)).Nodup) {bs : List Balance}
  (h : balances s user = .ok bs)
include hc h

theorem pairwise_balances :
    bs.Pairwise fun a b => Text.bytes a.counterparty < Text.bytes b.counterparty := by
  obtain ⟨mine, -, hkeys, -⟩ := balances_eq_ok hc h
  have hsorted : (bs.map (·.counterparty)).Pairwise (· < ·) := by
    rw [hkeys]
    exact Roster.pairwise_ofList _
  exact (List.pairwise_map.mp hsorted).imp Text.bytes_lt

include hn

theorem mem_balances_iff (u : String) :
    (∃ b ∈ bs, b.counterparty = u) ↔ u ≠ user ∧ ∃ d, d ∈ s.commonDeals user u := by
  obtain ⟨mine, hmine, hkeys, -⟩ := balances_eq_ok hc h
  have hlisted : u ∈ bs.map (·.counterparty) ↔
      ∃ e ∈ entriesOf s.heldDeals s.heldSpendings user mine, e.counterparty = u := by
    rw [hkeys, Roster.mem_ofList_iff, List.mem_map]
  rw [List.mem_map] at hlisted
  rw [hlisted]
  constructor
  · rintro ⟨e, he, hu⟩
    obtain ⟨hne, d, hd, -⟩ := (mem_entriesOf_iff hn hmine).mp ⟨e, he, hu, rfl⟩
    exact ⟨hne, d, hd⟩
  · rintro ⟨hne, d, hd⟩
    obtain ⟨e, he, hu, -⟩ := (mem_entriesOf_iff hn hmine).mpr ⟨hne, d, hd, rfl⟩
    exact ⟨e, he, hu⟩

theorem currencies_of_mem_balances {b : Balance} (hb : b ∈ bs) :
    (∀ d ∈ s.commonDeals user b.counterparty, Currency.ofText? d.currency ≠ none) ∧ ∀ c,
      ((b.currencies.get? c).isSome ↔
        ∃ d ∈ s.commonDeals user b.counterparty, Currency.ofText? d.currency = some c) ∧
      b.currencies.amountIn c = (((s.commonDeals user b.counterparty).filter
        (Currency.ofText? ·.currency = some c)).map (s.ownCost user)).sum := by
  have hne := ((mem_balances_iff hc hn h b.counterparty).mp ⟨b, hb, rfl⟩).1
  obtain ⟨mine, hmine, -, hgroups⟩ := balances_eq_ok hc h
  obtain ⟨groups, hg, hp⟩ := hgroups b hb
  exact balance_of_groups hn hmine hne hg hp

end Answered

/-- The balances of a user, whatever rows the tables hold: one for each other user with a
common deal, in ascending order, with the exact sums by currency. A common deal whose
currency is blank makes the call fail. -/
theorem balances_eq_definition (hc : s.Complete) (hn : (s.heldDeals.map (·.id)).Nodup) :
    (∀ bs, balances s user = .ok bs →
      bs.Pairwise (fun a b => Text.bytes a.counterparty < Text.bytes b.counterparty) ∧
      (∀ u, (∃ b ∈ bs, b.counterparty = u) ↔ u ≠ user ∧ ∃ d, d ∈ s.commonDeals user u) ∧
      ∀ b ∈ bs, ∀ c,
        ((b.currencies.get? c).isSome ↔
          ∃ d ∈ s.commonDeals user b.counterparty, Currency.ofText? d.currency = some c) ∧
        ∀ a, b.currencies.get? c = some a → a.toInt = (((s.commonDeals user b.counterparty).filter
          (Currency.ofText? ·.currency = some c)).map (s.ownCost user)).sum) ∧
    ∀ u ≠ user, ∀ d ∈ s.commonDeals user u, (∀ ch ∈ d.currency.toList, Text.isBlank ch = true) →
      ∀ bs, balances s user ≠ .ok bs := by
  constructor
  · intro bs h
    refine ⟨pairwise_balances hc h, mem_balances_iff hc hn h, fun b hb c => ?_⟩
    obtain ⟨hmem, hsum⟩ := (currencies_of_mem_balances hc hn h hb).2 c
    refine ⟨hmem, fun a ha => ?_⟩
    rw [← hsum, Purse.amountIn, ha, Option.getD_some]
  · intro u hne d hd hblank bs h
    obtain ⟨b, hb, rfl⟩ := (mem_balances_iff hc hn h u).mpr ⟨hne, d, hd⟩
    exact (currencies_of_mem_balances hc hn h hb).1 d hd (Currency.ofText?_eq_none_iff.mpr hblank)

/-- Two deals of alice and bob, who holds two spendings in the first. Their currencies
are two spellings of one. -/
def tripStore : Store :=
  ⟨some [], some [⟨"a", 1, "bus", 5, "usd"⟩, ⟨"b", 2, "boat", 9, " USD "⟩],
    some [⟨"1", "a", 3, "alice"⟩, ⟨"2", "a", 1, "bob"⟩, ⟨"3", "a", 1, "bob"⟩,
      ⟨"4", "b", 4, "alice"⟩, ⟨"5", "b", 5, "bob"⟩], true⟩

theorem balances_of_trip : tripStore.Complete ∧ (tripStore.heldDeals.map (·.id)).Nodup ∧
    ∃ bs, balances tripStore "alice" = .ok bs ∧ ∃ b ∈ bs, b.counterparty = "bob" ∧
      ∃ c a, Currency.ofText? "usd" = some c ∧ b.currencies.get? c = some a ∧ a.toInt = 7 := by
  have hc : tripStore.Complete := ⟨rfl, rfl, rfl⟩
  have hn : (tripStore.heldDeals.map (·.id)).Nodup := by decide
  have hcommon : (⟨"a", 1, "bus", 5, "usd"⟩ : DealRow) ∈ tripStore.commonDeals "alice" "bob" := by
    decide +kernel
  cases hbs : balances tripStore "alice" with
  | error e =>
    have hok : (balances tripStore "alice").isOk = true := by decide +kernel
    rw [hbs] at hok
    cases hok
  | ok bs =>
    obtain ⟨-, hmem, hsum⟩ := (balances_eq_definition hc hn).1 bs hbs
    obtain ⟨b, hb, hbob⟩ := (hmem "bob").mpr ⟨by decide, _, hcommon⟩
    obtain ⟨c, hcurrency⟩ : ∃ c, Currency.ofText? "usd" = some c :=
      Option.isSome_iff_exists.mp (by decide +kernel)
    obtain ⟨hkey, hexact⟩ := hsum b hb c
    rw [hbob] at hkey hexact
    obtain ⟨a, ha⟩ := Option.isSome_iff_exists.mp (hkey.mpr ⟨_, hcommon, hcurrency⟩)
    refine ⟨hc, hn, bs, rfl, b, hb, hbob, c, a, hcurrency, ha, ?_⟩
    rw [hexact a ha, ← hcurrency]
    decide +kernel

end Ledger
end FriendLedger
